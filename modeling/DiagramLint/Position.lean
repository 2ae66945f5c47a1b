/-!
Places in a source: a line and a column, both counted from one. Positions are ordered by line and
then by column.
-/
namespace DiagramLint

/-- A line and a column, both counted from one. -/
structure Position where
  line : Nat
  column : Nat
  deriving DecidableEq, Repr

namespace Position

/-- The first column of the first line. -/
def origin : Position := ⟨1, 1⟩

instance : Inhabited Position := ⟨origin⟩

/-- The position some lines further down, in the same column. -/
def down (p : Position) (lines : Nat) : Position := ⟨p.line + lines, p.column⟩

/-- The order of two positions: by line, and in one line by column. -/
def compare (p q : Position) : Ordering :=
  (Ord.compare p.line q.line).then (Ord.compare p.column q.column)

/-- The first position is not behind the second. -/
def le (p q : Position) : Bool := p.line < q.line || (p.line == q.line && p.column ≤ q.column)

/-- The line and the column with a colon between them. -/
def display (p : Position) : String := s!"{p.line}:{p.column}"

end Position
end DiagramLint
