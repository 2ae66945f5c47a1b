import DiagramLint.Finding

/-!
Names that are used but never declared.
-/
namespace DiagramLint

open Text

/-- The declared names of one category, with the positions of their first declarations. -/
structure References where
  category : String
  declared : List (Text × Position)
  deriving DecidableEq, Repr

namespace References

/-- No name is declared. -/
def empty (category : String) : References := ⟨category, []⟩

/-- No name is declared at all. -/
def isEmpty (r : References) : Bool := r.declared.isEmpty

/-- The name is declared. -/
def isDeclared (r : References) (name : Text) : Bool := (r.declared.lookup name).isSome

/-- One more declaration; a name declared before keeps its position. -/
def declare (r : References) (name : Text) (position : Position) : References :=
  if r.isDeclared name then r else { r with declared := r.declared ++ [(name, position)] }

/-- Some more declarations. -/
def declareAll (r : References) (names : List (Text × Position)) : References :=
  names.foldl (fun r (name, position) => r.declare name position) r

/-- The finding for the use of a name that is not declared. -/
def finding (category : String) (name : Text) (position : Position) (context : String) : Finding :=
  (((Finding.ofMessage .error s!"{context} references undefined {category} {quote name}").withCode
    .e301).withLabel position s!"{quote name} is not declared").withHelp
    s!"declare {category} {quote name} before using it"

/-- A use of a name: it is found if the name is not declared. -/
def check (r : References) (name : Text) (position : Position) (context : String) :
    Option Finding :=
  if r.isDeclared name then none else some (finding r.category name position context)

end References
end DiagramLint
