import DiagramLint.Text.Basic

/-!
Parsers that may go back. A parser reads from the start of a text. Where it fails another way may be
tried from the same place, until a parser is committed: then its failure is the failure of all.
-/
namespace DiagramLint.Text

/-- What a parser makes of a text; a failure tells in front of which rest it happened. -/
inductive Parsed (α : Type) where
  | done (value : α) (rest : Text)
  /-- Another way may be tried. -/
  | failed (rest : Text)
  /-- No other way is tried. -/
  | committed (rest : Text)
  deriving DecidableEq, Repr

/-- The outcome with its value changed. -/
def Parsed.map {α β : Type} (f : α → β) : Parsed α → Parsed β
  | .done value rest => .done (f value) rest
  | .failed rest => .failed rest
  | .committed rest => .committed rest

/-- A parser of values. -/
abbrev Parser (α : Type) := Text → Parsed α

namespace Parser

variable {α β : Type}

/-- The parser with its value changed. -/
def map (f : α → β) (p : Parser α) : Parser β := fun t => (p t).map f

/-- A character that passes the test. -/
def char (test : Char → Bool) : Parser Char
  | [] => .failed []
  | c :: t => if test c then .done c t else .failed (c :: t)

/-- The second parser behind the first; the value is that of the second. -/
def preceded (first : Parser α) (second : Parser β) : Parser β := fun t =>
  match first t with
  | .done _ rest => second rest
  | .failed rest => .failed rest
  | .committed rest => .committed rest

/-- The second parser behind the first; the value is that of the first. -/
def terminated (first : Parser α) (second : Parser β) : Parser α := fun t =>
  match first t with
  | .done value rest => (second rest).map fun _ => value
  | .failed rest => .failed rest
  | .committed rest => .committed rest

/-- The first parser or, where it fails, the second from the same place. -/
def orElse (first second : Parser α) : Parser α := fun t =>
  match first t with
  | .failed _ => second t
  | result => result

/-- The parser, committed: where it fails no other way is tried. -/
def commit (p : Parser α) : Parser α := fun t =>
  match p t with
  | .failed rest => .committed rest
  | result => result

/-- The parser as often as it goes; a parser that reads nothing is a failure of all. -/
def many (p : Parser α) (t : Text) : Parsed (List α) :=
  match p t with
  | .done value rest =>
    if rest.length < t.length then (many p rest).map (value :: ·) else .committed rest
  | .failed _ => .done [] t
  | .committed rest => .committed rest
termination_by t.length

/-- The parser as often as it goes, at least once. -/
def many1 (p : Parser α) : Parser (List α) := fun t =>
  match p t with
  | .done value rest => (many p rest).map (value :: ·)
  | .failed rest => .failed rest
  | .committed rest => .committed rest

/-- The parser at least once, with separators between. -/
def separated (p : Parser α) (separator : Parser β) : Parser (List α) := fun t =>
  match p t with
  | .done value rest => (many (preceded separator p) rest).map (value :: ·)
  | .failed rest => .failed rest
  | .committed rest => .committed rest

/-- The value for a text that is read to its end, or the rest at which reading stops. -/
def readAll (p : Parser α) (t : Text) : Except Text α :=
  match p t with
  | .done value [] => .ok value
  | .done _ rest => .error rest
  | .failed rest => .error rest
  | .committed rest => .error rest

end Parser
end DiagramLint.Text
