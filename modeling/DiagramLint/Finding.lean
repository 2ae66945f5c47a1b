import DiagramLint.Source

/-!
Findings about a diagram: what is wrong, how badly, where, and what to do about it.
-/
namespace DiagramLint

open Text

/-- How bad a finding is. -/
inductive Severity where
  /-- A definite defect. -/
  | error
  /-- Something suspicious. -/
  | warning
  deriving DecidableEq, Repr

namespace Severity

/-- The word for a severity. -/
def name : Severity → String
  | .error => "error"
  | .warning => "warning"

/-- The severity that a word names, in letters of either case; a warning has a short word too. -/
def ofName? (t : Text) : Option Severity :=
  let word := t.map Char.toLower
  if word = "error".toList then some .error
  else if word = "warning".toList || word = "warn".toList then some .warning
  else none

end Severity

/-- What a label adds to its finding. -/
inductive Label.Role where
  /-- Where the problem is. -/
  | primary
  /-- A place related to it. -/
  | secondary
  deriving DecidableEq, Repr

/-- The word for a role. -/
def Label.Role.name : Label.Role → String
  | .primary => "primary"
  | .secondary => "secondary"

/-- A short text at a position. -/
structure Label where
  role : Label.Role
  position : Position
  text : String
  deriving DecidableEq, Repr

/-- The position and the text. -/
def Label.display (l : Label) : String := s!"{l.position.display} {l.text}"

/-- A finding about a diagram. -/
structure Finding where
  severity : Severity
  code : Option Code
  message : String
  /-- In the order in which they were added. -/
  labels : List Label
  help : Option String
  deriving DecidableEq, Repr

namespace Finding

/-- A finding with nothing but a severity and a wording. -/
def ofMessage (severity : Severity) (message : String) : Finding :=
  ⟨severity, none, message, [], none⟩

/-- The finding with a code. -/
def withCode (f : Finding) (code : Code) : Finding := { f with code := some code }

/-- The finding with another severity. -/
def withSeverity (f : Finding) (severity : Severity) : Finding := { f with severity := severity }

/-- The finding with one more label. -/
def addLabel (f : Finding) (role : Label.Role) (position : Position) (text : String) : Finding :=
  { f with labels := f.labels ++ [⟨role, position, text⟩] }

/-- The finding with one more label for where the problem is. -/
def withLabel (f : Finding) (position : Position) (text : String) : Finding :=
  f.addLabel .primary position text

/-- The finding with one more label for a related place. -/
def withSecondary (f : Finding) (position : Position) (text : String) : Finding :=
  f.addLabel .secondary position text

/-- The finding with advice. -/
def withHelp (f : Finding) (help : String) : Finding := { f with help := some help }

/-- The position of the first primary label, or the origin if there is none. -/
def position (f : Finding) : Position :=
  match f.labels.find? fun l => l.role == .primary with
  | some l => l.position
  | none => .origin

/-- The head line of the display. -/
def headline (f : Finding) : String :=
  match f.code with
  | some code => s!"{f.severity.name}[{code.name}]: {f.message}"
  | none => s!"{f.severity.name}: {f.message}"

/-- The finding in lines: severity, code and wording, then the labels, then the advice. -/
def display (f : Finding) : String :=
  let labels := f.labels.map fun l => s!"\n  --> {l.display}"
  let help := match f.help with
    | some help => s!"\n   = help: {help}"
    | none => ""
  f.headline ++ String.join labels ++ help

end Finding

/-- The error as a finding; the rules that were tried become its advice. -/
def ParseError.toFinding (e : ParseError) : Finding :=
  let finding := ((Finding.ofMessage .error e.message).withCode e.code).withLabel
    e.position e.phase.label
  if e.expected.isEmpty then finding
  else finding.withHelp s!"expected one of: {Fault.commas e.expected}"

end DiagramLint
