import DiagramLint.LineRule

/-!
Named sections, each with the items written behind its line and before the next section.
-/
namespace DiagramLint

open Text

/-- A section with its items in order. -/
structure Section (α : Type) where
  name : Text
  items : List α
  position : Position
  deriving DecidableEq, Repr

/-- A list with its last member changed; an empty list has none. -/
def changeLast? {α : Type} (f : α → α) : List α → Option (List α)
  | [] => none
  | [x] => some [f x]
  | x :: y :: rest => (changeLast? f (y :: rest)).map (x :: ·)

namespace Section

/-- The section with one more item. -/
def add {α : Type} (item : α) (s : Section α) : Section α := { s with items := s.items ++ [item] }

/-- The sections with one more item in the last one, if there is a section. -/
def addToLast? {α : Type} (item : α) (sections : List (Section α)) :
    Option (List (Section α)) := changeLast? (add item) sections

/-- The items of all sections in order. -/
def allItems {α : Type} (sections : List (Section α)) : List α := sections.flatMap Section.items

/-- The empty section that a line begins, whose name is the text given. -/
def ofLine {α : Type} (line : Line) (rest : Text) : Except ParseError (Section α) :=
  match trimmed? rest with
  | some name => .ok ⟨name, [], line.position⟩
  | none => .error (line.fail .sectionUnnamed)

end Section
end DiagramLint
