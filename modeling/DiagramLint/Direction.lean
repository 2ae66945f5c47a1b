import DiagramLint.Text.Basic

/-!
Layout directions.
-/
namespace DiagramLint

/-- The direction in which a diagram is laid out. The two words for top to bottom are kept apart. -/
inductive Direction where
  | topBottom | topDown | bottomTop | leftRight | rightLeft
  deriving DecidableEq, Repr

namespace Direction

/-- Every direction. -/
def all : List Direction := [.topBottom, .topDown, .bottomTop, .leftRight, .rightLeft]

/-- The word for a direction. -/
def name : Direction → String
  | .topBottom => "TB"
  | .topDown => "TD"
  | .bottomTop => "BT"
  | .leftRight => "LR"
  | .rightLeft => "RL"

/-- The direction that a word names. -/
def ofName? (t : Text) : Option Direction := all.find? fun d => d.name.toList == t

end Direction
end DiagramLint
