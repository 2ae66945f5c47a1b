import DiagramLint.Finding

/-!
Names that are defined more than once. The first definition of a name is kept with its position,
and every later definition is found at its own position with a label back to the first.
-/
namespace DiagramLint

open Text

/-- The names of one category defined so far, in the order of their first definitions. -/
structure Duplicates where
  category : String
  seen : List (Text × Position)
  deriving DecidableEq, Repr

namespace Duplicates

/-- No name is defined. -/
def empty (category : String) : Duplicates := ⟨category, []⟩

/-- Where a name was first defined. -/
def first? (d : Duplicates) (name : Text) : Option Position := d.seen.lookup name

/-- The names defined so far. -/
def names (d : Duplicates) : List Text := d.seen.map Prod.fst

/-- A name that is defined without being written; an earlier definition stays. -/
def reserve (d : Duplicates) (name : Text) (position : Position) : Duplicates :=
  match d.first? name with
  | some _ => d
  | none => { d with seen := d.seen ++ [(name, position)] }

/-- The finding for a second definition of a name. -/
def finding (category : String) (name : Text) (position first : Position) : Finding :=
  ((((Finding.ofMessage .error s!"{category} {quote name} is defined multiple times").withCode
    .e300).withLabel position "duplicate definition").withSecondary first
    "first defined here").withHelp
    s!"remove the duplicate or give this {category} a different name"

/-- A definition of a name at a position: it is found if the name was defined before. -/
def check (d : Duplicates) (name : Text) (position : Position) : Option Finding × Duplicates :=
  match d.first? name with
  | some first => (some (finding d.category name position first), d)
  | none => (none, { d with seen := d.seen ++ [(name, position)] })

/-- The findings of some definitions in turn. -/
def findings (d : Duplicates) : List (Text × Position) → List Finding
  | [] => []
  | (name, position) :: rest =>
    let (found, d) := d.check name position
    found.toList ++ d.findings rest

end Duplicates
end DiagramLint
