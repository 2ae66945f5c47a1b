/-!
The codes of errors and findings. The first digit gives the stage: header, malformed line, structure
of the diagram, or check of a diagram that was read.
-/
namespace DiagramLint

/-- What kind of problem an error or finding reports. -/
inductive Code where
  | e001 | e002 | e003
  | e100 | e101 | e102 | e103
  | e200 | e201 | e202 | e203 | e204
  | e300 | e301 | e302 | e303 | e304
  deriving DecidableEq, Repr

namespace Code

/-- Every code, in numeric order. -/
def all : List Code :=
  [.e001, .e002, .e003, .e100, .e101, .e102, .e103, .e200, .e201, .e202, .e203, .e204,
   .e300, .e301, .e302, .e303, .e304]

/-- The code as it is written. -/
def name : Code → String
  | .e001 => "E001" | .e002 => "E002" | .e003 => "E003"
  | .e100 => "E100" | .e101 => "E101" | .e102 => "E102" | .e103 => "E103"
  | .e200 => "E200" | .e201 => "E201" | .e202 => "E202" | .e203 => "E203" | .e204 => "E204"
  | .e300 => "E300" | .e301 => "E301" | .e302 => "E302" | .e303 => "E303" | .e304 => "E304"

/-- What the code means, in a few words. -/
def description : Code → String
  | .e001 => "missing diagram header"
  | .e002 => "header does not match diagram kind"
  | .e003 => "invalid header modifier"
  | .e100 => "unrecognised line"
  | .e101 => "invalid value"
  | .e102 => "malformed parameter list"
  | .e103 => "self-referencing link"
  | .e200 => "unclosed block"
  | .e201 => "unmatched closing marker"
  | .e202 => "statement outside section"
  | .e203 => "setting defined more than once"
  | .e204 => "missing mandatory content"
  | .e300 => "duplicate definition"
  | .e301 => "undefined reference"
  | .e302 => "disallowed value"
  | .e303 => "rule violation"
  | .e304 => "unknown diagram kind"

/-- The code written by a text. -/
def ofName? (t : List Char) : Option Code := all.find? fun code => code.name.toList == t

end Code

/-- The stage of reading at which a diagram fails. -/
inductive Phase where
  /-- The header line does not fit. -/
  | header
  /-- A line is malformed. -/
  | line
  /-- Well-formed lines do not make up a diagram. -/
  | structural
  deriving DecidableEq, Repr

/-- The stage that reports errors of the code. -/
def Code.phase : Code → Phase
  | .e001 | .e002 | .e003 => .header
  | .e100 | .e101 | .e102 | .e103 => .line
  | _ => .structural

/-- What an error of the stage is called. -/
def Phase.label : Phase → String
  | .header => "header error"
  | .line => "syntax error"
  | .structural => "structural error"

end DiagramLint
