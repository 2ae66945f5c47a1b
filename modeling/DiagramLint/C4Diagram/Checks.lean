import DiagramLint.C4Diagram.Basic
import DiagramLint.Check.Duplicates
import DiagramLint.Check.References

/-!
What can be wrong with a C4 diagram that was read. Elements and boundaries share their ids.
-/
namespace DiagramLint.C4Diagram

namespace Boundary

/-- The ids of elements. -/
def elementIds (elements : List Element) : List (Text × Position) :=
  elements.map fun e => (e.id, e.position)

mutual

/-- The ids of a boundary and of all that it holds. -/
def ids : Boundary → List (Text × Position)
  | .around frame elements boundaries =>
    (frame.id, frame.position) :: elementIds elements ++ idsOfAll boundaries

/-- The ids of some boundaries and of all that they hold. -/
def idsOfAll : List Boundary → List (Text × Position)
  | [] => []
  | b :: rest => ids b ++ idsOfAll rest

end

end Boundary

/-- All ids in the order in which they are written. -/
def identifiers (diagram : C4Diagram) : List (Text × Position) :=
  (Boundary.elementIds diagram.elements ++ Boundary.idsOfAll diagram.boundaries).mergeSort
    fun a b => a.2.le b.2

/-- Elements and boundaries with an id that an earlier one has. -/
def duplicateIds (diagram : C4Diagram) : List Finding :=
  (Duplicates.empty "element").findings diagram.identifiers

/-- The elements and boundaries of a diagram. -/
def known (diagram : C4Diagram) : References :=
  (References.empty "element").declareAll diagram.identifiers

/-- Relationships between elements that the diagram does not have. -/
def relationshipReferences (diagram : C4Diagram) : List Finding :=
  diagram.relationships.flatMap fun r =>
    [r.source, r.target].filterMap fun id => diagram.known.check id r.position "relationship"

/-- Styles of elements that the diagram does not have. -/
def styleReferences (diagram : C4Diagram) : List Finding :=
  diagram.styles.flatMap fun s =>
    s.targets.filterMap fun id => diagram.known.check id s.position s!"`{s.kind.keyword}`"

end DiagramLint.C4Diagram
