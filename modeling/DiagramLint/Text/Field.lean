import DiagramLint.Text.Parser

/-!
Lists of fields between commas. A field may hold double-quoted parts, in which commas do not count;
a backslash takes the next character as it is, inside quotes and outside.
-/
namespace DiagramLint.Text

/-- The fields cannot be told apart: a quote is not closed, or a backslash has nothing to take. -/
structure FieldError where
  /-- The byte where the scan stopped. -/
  offset : Nat
  deriving DecidableEq, Repr

/-- The wording of the error. -/
def FieldError.message (e : FieldError) : String :=
  s!"unterminated quote in parameter list at byte {e.offset}"

/-- A part of a field. -/
inductive Segment where
  /-- The text between two quotes, which may be empty. -/
  | quoted (t : Text)
  /-- Text outside quotes. -/
  | plain (t : Text)
  deriving DecidableEq, Repr

/-- A part that says something: quoted, or not blank. -/
def Segment.isSignificant : Segment → Bool
  | .quoted _ => true
  | .plain t => !allBlank t

/-- The part as written, without its escapes. -/
def Segment.written : Segment → Text
  | .quoted t => '"' :: t ++ ['"']
  | .plain t => t

/-- The value of a field: the inner text of its only significant part when that is quoted, and else
the trimmed field with its quotes kept. -/
def fieldValue (parts : List Segment) : Text :=
  match parts.filter Segment.isSignificant with
  | [.quoted inner] => inner
  | _ => trim (parts.flatMap Segment.written)

namespace Parser

/-- A character that is none of the marks, or any character behind a backslash. -/
def character (marks : List Char) : Parser Char :=
  orElse (preceded (char (· = '\\')) (char fun _ => true)) (char fun c => c ≠ '\\' && !marks.contains c)

/-- A quoted part of a field: a quote that is opened has to be closed. -/
def quotedPart : Parser Text :=
  preceded (char (· = '"')) (commit (terminated (many (character ['"'])) (char (· = '"'))))

/-- A part of a field up to the next comma or quote. -/
def plainPart : Parser Text := many1 (character [',', '"'])

/-- A part of a field. -/
def fieldPart : Parser Segment := orElse (map .quoted quotedPart) (map .plain plainPart)

/-- A field. -/
def field : Parser Text := map fieldValue (many fieldPart)

/-- Fields with commas between them. -/
def fieldList : Parser (List Text) := separated field (char (· = ','))

end Parser

/-- The fields of a text. A blank text has none. -/
def fields (t : Text) : Except FieldError (List Text) :=
  if allBlank t then .ok []
  else (Parser.fieldList.readAll t).mapError fun rest => ⟨byteSize t - byteSize rest⟩

end DiagramLint.Text
