import DiagramLint.Settings

/-!
Linting blocks of documents. A block that cannot be read is reported with one finding; in any other
block all rules run that are not disabled. Settings change which rules run and how severe findings
are, and nothing else.
-/
namespace DiagramLint

open Text

/-- A diagram in a document. -/
structure Block where
  source : Text
  /-- The number of lines of the document before the source. -/
  offset : Nat := 0
  /-- What the document calls the block. -/
  hint : Option Text := none
  deriving DecidableEq, Repr

namespace Block

/-- The kind that the hint names. -/
def namedKind? (b : Block) : Option Kind :=
  (b.hint.bind fun t => Kind.ofKeyword? (trim t)).filter fun kind => kind != .unknown

/-- The diagram of the block, read as the kind that the hint names, if it names one. -/
def read (b : Block) : Except ParseError Diagram :=
  match b.namedKind? with
  | some kind => Diagram.readAs kind b.source b.offset
  | none => Diagram.read b.source b.offset

/-- The kind to report for a block that cannot be read. -/
def presumedKind (b : Block) : Kind := b.namedKind?.getD (Kind.detect b.source)

end Block

/-- What linting a block gives. -/
structure Report where
  kind : Kind
  /-- The diagram, if the block could be read. -/
  diagram : Option Diagram
  findings : List Finding
  deriving Repr

namespace Report

/-- The number of findings of a severity. -/
def count (r : Report) (severity : Severity) : Nat :=
  r.findings.countP fun f => f.severity == severity

/-- Some finding is an error. -/
def hasErrors (r : Report) : Bool := r.count .error != 0

/-- The block could be read and nothing was found. -/
def isClean (r : Report) : Bool := r.diagram.isSome && r.findings.isEmpty

end Report

namespace Settings

/-- The finding with the severity set for its code. -/
def adjust (s : Settings) (f : Finding) : Finding :=
  match f.code.bind s.severity? with
  | some severity => f.withSeverity severity
  | none => f

/-- The report on a block. -/
def lint (s : Settings) (b : Block) : Report :=
  match b.read with
  | .ok d =>
    let rules := (RuleSet.ofKind d.kind).without s.disabled
    ⟨d.kind, some d, (rules.findings d).map s.adjust⟩
  | .error e => ⟨b.presumedKind, none, [s.adjust e.toFinding]⟩

end Settings

/-! ### Files -/

/-- A file that may be missing. -/
structure File where
  path : Text
  bytes : Option ByteArray

/-- Why a file cannot be read as text. -/
inductive FileError where
  | notFound (path : Text)
  /-- The bytes are not UTF-8. -/
  | invalidData
  deriving DecidableEq, Repr

/-- The text of a file. -/
def File.text (f : File) : Except FileError Text :=
  match f.bytes with
  | none => .error (.notFound f.path)
  | some bytes =>
    match String.fromUTF8? bytes with
    | some s => .ok s.toList
    | none => .error .invalidData

/-- Why settings cannot be loaded. -/
inductive LoadError where
  | file (e : FileError)
  | settings (e : SettingsError)
  deriving DecidableEq, Repr

namespace LoadError

/-- The wording of an error; unreadable bytes and malformed documents have none. -/
def message : LoadError → String
  | file (.notFound path) => s!"Configuration error: Missing configuration file: {str path}"
  | file .invalidData => ""
  | settings (.ruleUnknown name) =>
    s!"Configuration error: {(SettingsError.ruleUnknown name).message}"
  | settings e => e.message

end LoadError

/-- The settings in a file; without a file nothing is set. -/
def Settings.load (file : Option File) : Except LoadError Settings :=
  match file with
  | none => .ok {}
  | some f => do
    let t ← f.text.mapError .file
    (Settings.read t).mapError .settings

/-- The report on a file that is one diagram. -/
def Settings.lintFile (s : Settings) (f : File) : Except FileError Report :=
  f.text.map fun t => s.lint { source := t }

end DiagramLint
