import DiagramLint.Fault
import DiagramLint.Position
import DiagramLint.Text.Word

/-!
The lines of a source that say something. Blank lines, comment lines and a front matter between two
lines of three hyphens are left out; the lines that remain keep their numbers, which start behind
the lines of the surrounding document. The first of them is the header line.
-/
namespace DiagramLint

open Text

/-- A line that is neither blank nor a comment. -/
structure Line where
  /-- Counted from one in the surrounding document. -/
  number : Nat
  /-- One more than the number of blanks before the text. -/
  column : Nat
  /-- The width of the indentation. -/
  indent : Nat
  /-- The line as written. -/
  raw : Text
  /-- The line without the blanks at its ends. -/
  text : Text
  deriving DecidableEq, Repr

/-- A diagram cannot be read. -/
structure ParseError where
  fault : Fault
  position : Position
  /-- The line or statement at fault; empty when the fault is not in one line. -/
  text : Text
  /-- The names of the rules that were tried when none took the line. -/
  expected : List String
  deriving DecidableEq, Repr

/-- A fault of the whole diagram, reported at a position. -/
def Fault.at (fault : Fault) (position : Position) : ParseError := ⟨fault, position, [], []⟩

namespace ParseError

/-- The code of the error. -/
def code (e : ParseError) : Code := e.fault.code

/-- The stage of the error. -/
def phase (e : ParseError) : Phase := e.fault.phase

/-- The wording of the error. -/
def message (e : ParseError) : String := e.fault.message

/-- The position and the wording. -/
def display (e : ParseError) : String := s!"{e.position.display}: {e.message}"

end ParseError

namespace Line

/-- The line with a number and a text as written. -/
def ofRaw (number : Nat) (raw : Text) : Line :=
  ⟨number, (raw.takeWhile isBlank).length + 1, indentWidth raw, raw, trim raw⟩

/-- Where the text of the line begins. -/
def position (line : Line) : Position := ⟨line.number, line.column⟩

/-- A fault in the line. -/
def fail (line : Line) (fault : Fault) : ParseError := ⟨fault, line.position, line.text, []⟩

end Line

/-- Where a pass over the lines of a source stands. -/
inductive Zone where
  /-- Only blank lines and comments so far. -/
  | start
  /-- Inside the front matter. -/
  | frontMatter
  /-- Behind the first line that says something. -/
  | content
  deriving DecidableEq, Repr

/-- A comment begins with two percent signs. -/
def isComment (t : Text) : Bool := startsWith ['%', '%'] t

/-- The fence of a front matter. -/
def fence : Text := ['-', '-', '-']

/-- The lines that say something, where `number` is the number of the first line given. -/
def significantLines (zone : Zone) (number : Nat) : List Text → List Line
  | [] => []
  | raw :: rest =>
    let text := trim raw
    match zone with
    | .start =>
      if text = fence then significantLines .frontMatter (number + 1) rest
      else if text.isEmpty || isComment text then significantLines .start (number + 1) rest
      else .ofRaw number raw :: significantLines .content (number + 1) rest
    | .frontMatter =>
      significantLines (if text = fence then .content else .frontMatter) (number + 1) rest
    | .content =>
      if text.isEmpty || isComment text then significantLines .content (number + 1) rest
      else .ofRaw number raw :: significantLines .content (number + 1) rest

/-- A source cut into lines. -/
structure Source where
  text : Text
  /-- The number of lines before the source in the surrounding document. -/
  offset : Nat
  lines : List Line
  deriving DecidableEq, Repr

namespace Source

/-- The source of a text that begins after some lines of a document. -/
def ofText (text : Text) (offset : Nat) : Source :=
  ⟨text, offset, significantLines .start (offset + 1) (Text.lines text)⟩

/-- The header line. -/
def header? (s : Source) : Option Line := s.lines.head?

/-- The lines behind the header line. -/
def body (s : Source) : List Line := s.lines.tail

/-- The header line; a source without one is at fault in its first line. -/
def headerLine (s : Source) : Except ParseError Line :=
  match s.header? with
  | some line => .ok line
  | none => .error (Fault.headerMissing.at ⟨s.offset + 1, 1⟩)

/-- The header line, the first of the keywords that it begins with, and the text behind it. -/
def headerWith (s : Source) (keywords : List String) :
    Except ParseError (Line × String × Text) := do
  let line ← s.headerLine
  match keywords.findSome? fun k => (afterKeyword? k line.text).map fun rest => (k, rest) with
  | some (keyword, rest) => .ok (line, keyword, rest)
  | none => .error ((Fault.headerMismatch keywords line.text).at line.position)

/-- The header line made of the keyword and nothing else. -/
def bareHeader (s : Source) (keyword : String) : Except ParseError Line := do
  let (line, _, rest) ← s.headerWith [keyword]
  if rest.isEmpty then .ok line
  else .error ((Fault.headerModifier keyword rest).at line.position)

end Source
end DiagramLint
