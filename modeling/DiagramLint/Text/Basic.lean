import DiagramLint.Text.Alphanumeric

/-!
Texts as lists of characters, and the cuts that readers make in them: blanks at the ends taken
away, a fixed beginning or end taken away, and a text cut at the first occurrence of a pattern.
-/
namespace DiagramLint

/-- A text is the list of its characters. -/
abbrev Text := List Char

namespace Text

/-- The text as a string. -/
def str (t : Text) : String := String.ofList t

/-- The text between backticks, the way messages name it. -/
def quote (t : Text) : String := s!"`{str t}`"

/-- The number of bytes of the text in UTF-8. -/
def byteSize : Text → Nat
  | [] => 0
  | c :: t => c.utf8Size + byteSize t

/-! ### Blanks at the ends -/

/-- The text without the blanks at its start. -/
def trimStart (t : Text) : Text := t.dropWhile isBlank

/-- The text without the blanks at its end. -/
def trimEnd (t : Text) : Text := (t.reverse.dropWhile isBlank).reverse

/-- The text without the blanks at both ends. -/
def trim (t : Text) : Text := trimEnd (trimStart t)

theorem length_trim_le (t : Text) : (trim t).length ≤ t.length := by
  have atStart := (List.dropWhile_sublist isBlank (l := t)).length_le
  have atEnd := (List.dropWhile_sublist isBlank (l := (trimStart t).reverse)).length_le
  simp only [trim, trimEnd, trimStart, List.length_reverse] at atStart atEnd ⊢
  omega

/-- The trimmed text, if anything is left of it. -/
def trimmed? (t : Text) : Option Text :=
  match trim t with
  | [] => none
  | c :: t => some (c :: t)

/-! ### Fixed beginnings and ends -/

/-- What follows a beginning that the text has. -/
def dropStart? : Text → Text → Option Text
  | [], t => some t
  | _ :: _, [] => none
  | a :: start, b :: t => if a = b then dropStart? start t else none

theorem dropStart?_eq_some_iff {start t rest : Text} :
    dropStart? start t = some rest ↔ t = start ++ rest := by
  induction start generalizing t with
  | nil => simp [dropStart?]
  | cons a start ih =>
    cases t with
    | nil => simp [dropStart?]
    | cons b t => by_cases same : a = b <;> simp [dropStart?, same, ih, eq_comm]

/-- What precedes an end that the text has. -/
def dropEnd? (finish t : Text) : Option Text :=
  (dropStart? finish.reverse t.reverse).map List.reverse

/-- The text without the marks at its end. -/
def dropTrailing (mark : Char) (t : Text) : Text := (t.reverse.dropWhile (· == mark)).reverse

/-- The text begins with the given start. -/
def startsWith (start t : Text) : Bool := (dropStart? start t).isSome

/-- The text ends with the given finish. -/
def endsWith (finish t : Text) : Bool := (dropEnd? finish t).isSome

/-- The text between two ends that the text has, which may not overlap. -/
def between? (start finish t : Text) : Option Text :=
  (dropStart? start t).bind (dropEnd? finish)

/-- The text without one pair of double quotes around it, if it has one. -/
def unquote (t : Text) : Text := (between? ['"'] ['"'] t).getD t

/-! ### Cuts -/

/-- The texts before and after the first occurrence of a pattern. -/
def cut? (pattern : Text) : Text → Option (Text × Text)
  | [] => (dropStart? pattern []).map fun rest => ([], rest)
  | c :: t =>
    match dropStart? pattern (c :: t) with
    | some rest => some ([], rest)
    | none => (cut? pattern t).map fun (before, rest) => (c :: before, rest)

theorem append_of_cut? {pattern t before rest : Text}
    (found : cut? pattern t = some (before, rest)) : before ++ (pattern ++ rest) = t := by
  induction t generalizing before with
  | nil =>
    obtain ⟨r, start, same⟩ := Option.map_eq_some_iff.1 found
    simp only [Prod.mk.injEq] at same
    obtain ⟨rfl, rfl⟩ := same
    exact (dropStart?_eq_some_iff.1 start).symm
  | cons c t ih =>
    rw [cut?] at found
    split at found
    · next r start =>
      simp only [Option.some.injEq, Prod.mk.injEq] at found
      obtain ⟨rfl, rfl⟩ := found
      exact (dropStart?_eq_some_iff.1 start).symm
    · obtain ⟨⟨b, r⟩, later, same⟩ := Option.map_eq_some_iff.1 found
      simp only [Prod.mk.injEq] at same
      obtain ⟨rfl, rfl⟩ := same
      simp [ih later]

/-- The pieces of a text between the occurrences of a mark, at least one. -/
def pieces (mark : Char) : Text → List Text
  | [] => [[]]
  | c :: t =>
    if c = mark then [] :: pieces mark t
    else match pieces mark t with
      | [] => [[c]]
      | piece :: rest => (c :: piece) :: rest

/-- The longest beginning of characters that satisfy the test, and the rest. -/
def spanWhile (test : Char → Bool) (t : Text) : Text × Text := (t.takeWhile test, t.dropWhile test)

/-- The texts before and after the first blank. -/
def cutBlank? : Text → Option (Text × Text)
  | [] => none
  | c :: t =>
    if isBlank c then some ([], t)
    else (cutBlank? t).map fun (before, rest) => (c :: before, rest)

/-- The texts before and after the last mark. -/
def cutLast? (mark : Char) (t : Text) : Option (Text × Text) :=
  (cut? [mark] t.reverse).map fun (after, before) => (before.reverse, after.reverse)

/-- The texts before and after the last blank. -/
def cutLastBlank? (t : Text) : Option (Text × Text) :=
  (cutBlank? t.reverse).map fun (after, before) => (before.reverse, after.reverse)

/-- Texts joined with a separator between neighbours. -/
def join (separator : Text) (ts : List Text) : Text := List.intercalate separator ts

/-! ### Lines -/

/-- The text without one carriage return at its end. -/
def dropReturn (t : Text) : Text := (dropEnd? ['\r'] t).getD t

/-- The lines made of the pieces between line feeds: a piece before a line feed loses one carriage
return at its end, and what follows the last line feed is a line only if it is not empty. -/
def linesOfPieces : List Text → List Text
  | [] => []
  | [last] => if last = [] then [] else [last]
  | piece :: rest => dropReturn piece :: linesOfPieces rest

/-- The lines of a text. -/
def lines (t : Text) : List Text := linesOfPieces (pieces '\n' t)

end Text
end DiagramLint
