import DiagramLint.Check.Duplicates
import DiagramLint.Check.References
import DiagramLint.StateDiagram.Basic

/-!
What can be wrong with a state diagram that was read. Transitions and descriptions introduce states.
-/
namespace DiagramLint.StateDiagram

/-- The declarations of states. -/
def declarations (diagram : StateDiagram) : List (Text × Position) :=
  diagram.states.map fun s => (s.id, s.position)

/-- States that are declared more than once. -/
def duplicateStates (diagram : StateDiagram) : List Finding :=
  (Duplicates.empty "state").findings diagram.declarations

/-- The states at the ends of the transitions. -/
def transitionEnds (diagram : StateDiagram) : List (Text × Position) :=
  diagram.transitions.flatMap fun t =>
    [t.source, t.target].filterMap fun e => e.state?.map fun id => (id, t.position)

/-- Notes beside states that the diagram does not have. -/
def noteTargets (diagram : StateDiagram) : List Finding :=
  let known := (References.empty "state").declareAll (diagram.declarations ++
    diagram.transitionEnds ++ diagram.descriptions.map fun d => (d.state, d.position))
  diagram.notes.filterMap fun n => known.check n.target n.position "note"

end DiagramLint.StateDiagram
