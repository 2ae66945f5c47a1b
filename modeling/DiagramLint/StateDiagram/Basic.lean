import DiagramLint.LineRule

/-!
State diagrams: states, some of which hold further states, and transitions between them.
-/
namespace DiagramLint

namespace StateDiagram

/-- What a state is. -/
inductive StateKind where
  | simple
  /-- It holds further states. -/
  | composite
  | fork | join | choice
  deriving DecidableEq, Repr

/-- The mark behind a state that only directs transitions. -/
def StateKind.mark? : StateKind → Option String
  | .fork => some "<<fork>>"
  | .join => some "<<join>>"
  | .choice => some "<<choice>>"
  | .simple | .composite => none

/-- A state that is declared. -/
structure Declaration where
  id : Text
  kind : StateKind
  description : Option Text
  /-- The id of the composite state around it. -/
  parent : Option Text
  position : Position
  deriving DecidableEq, Repr

/-- An end of a transition. -/
inductive Endpoint where
  /-- The start or the end of all. -/
  | terminal
  | state (id : Text)
  deriving DecidableEq, Repr

namespace Endpoint

/-- How the start and the end of all are written. -/
def terminalMark : Text := "[*]".toList

/-- The end of a transition as it is written. -/
def written : Endpoint → Text
  | .terminal => terminalMark
  | .state id => id

/-- The state at the end of a transition. -/
def state? : Endpoint → Option Text
  | .terminal => none
  | .state id => some id

end Endpoint

/-- What a transition does. -/
inductive TransitionKind where
  | start | finish | regular
  deriving DecidableEq, Repr

/-- A transition. -/
structure Transition where
  source : Endpoint
  target : Endpoint
  label : Option Text
  /-- The id of the composite state around it. -/
  parent : Option Text
  position : Position
  deriving DecidableEq, Repr

/-- What a transition does: one that comes from the start is a start, wherever it leads. -/
def Transition.kind (t : Transition) : TransitionKind :=
  match t.source, t.target with
  | .terminal, _ => .start
  | .state _, .terminal => .finish
  | .state _, .state _ => .regular

/-- A description of a state. -/
structure Description where
  state : Text
  text : Text
  position : Position
  deriving DecidableEq, Repr

/-- The side of a state on which a note stands. -/
inductive Side where
  | left | right
  deriving DecidableEq, Repr

/-- A note beside a state. -/
structure Note where
  side : Side
  target : Text
  text : Text
  position : Position
  deriving DecidableEq, Repr

end StateDiagram

/-- A state diagram. -/
structure StateDiagram where
  header : Header
  direction : Option Direction
  states : List StateDiagram.Declaration
  transitions : List StateDiagram.Transition
  descriptions : List StateDiagram.Description
  notes : List StateDiagram.Note
  deriving DecidableEq, Repr

end DiagramLint
