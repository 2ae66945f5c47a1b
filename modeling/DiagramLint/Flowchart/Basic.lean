import DiagramLint.LineRule

/-!
Flowcharts: nodes joined by edges, subgraphs around them, and directives about their looks.
-/
namespace DiagramLint

namespace Flowchart

/-- The outline of a node. -/
inductive Shape where
  | plain | rectangle | rounded | stadium | subroutine | cylinder | circle | asymmetric | rhombus
  | hexagon
  deriving DecidableEq, Repr

/-- The line of an edge and what stands at its end. -/
inductive Arrow where
  | solidArrow | solid | dottedArrow | dotted | thickArrow | thick | circle | cross | bidirectional
  deriving DecidableEq, Repr

/-- A node. -/
structure Node where
  id : Text
  label : Option Text
  shape : Shape
  styleClass : Option Text
  position : Position
  deriving DecidableEq, Repr

/-- An edge between two nodes, given by their ids. -/
structure Edge where
  source : Text
  target : Text
  arrow : Arrow
  label : Option Text
  position : Position
  deriving DecidableEq, Repr

/-- A subgraph. -/
structure Subgraph where
  id : Text
  title : Option Text
  /-- The id of the subgraph around it. -/
  parent : Option Text
  direction : Option Direction
  position : Position
  deriving DecidableEq, Repr

/-- What a directive sets. -/
inductive DirectiveKind where
  | classDef | styleClass | style | linkStyle | click
  deriving DecidableEq, Repr

/-- The keyword of a directive. -/
def DirectiveKind.keyword : DirectiveKind → String
  | .classDef => "classDef"
  | .styleClass => "class"
  | .style => "style"
  | .linkStyle => "linkStyle"
  | .click => "click"

/-- A directive: a value for some targets. -/
structure Directive where
  kind : DirectiveKind
  targets : List Text
  value : Text
  position : Position
  deriving DecidableEq, Repr

end Flowchart

/-- A flowchart. -/
structure Flowchart where
  header : Header
  direction : Option Direction
  /-- In the order in which they first occur. -/
  nodes : List Flowchart.Node
  edges : List Flowchart.Edge
  subgraphs : List Flowchart.Subgraph
  directives : List Flowchart.Directive
  deriving DecidableEq, Repr

end DiagramLint
