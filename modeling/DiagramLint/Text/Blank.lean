/-!
Blank characters: the 25 characters with the Unicode property White_Space.
-/
namespace DiagramLint.Text

/-- The ranges of White_Space, in order, both ends included. -/
def blankRanges : List (Nat × Nat) :=
  [(0x9, 0xD), (0x20, 0x20), (0x85, 0x85), (0xA0, 0xA0), (0x1680, 0x1680), (0x2000, 0x200A),
   (0x2028, 0x2029), (0x202F, 0x202F), (0x205F, 0x205F), (0x3000, 0x3000)]

/-- A number lies in one of some ordered ranges; the search ends at the first range beyond it. -/
def inRanges : List (Nat × Nat) → Nat → Bool
  | [], _ => false
  | (low, high) :: rest, n => if n < low then false else n ≤ high || inRanges rest n

/-- A character is blank when it has the property White_Space. -/
def isBlank (c : Char) : Bool := inRanges blankRanges c.toNat

/-- A text is blank when every character of it is. -/
def allBlank (t : List Char) : Bool := t.all isBlank

end DiagramLint.Text
