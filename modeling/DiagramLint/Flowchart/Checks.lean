import DiagramLint.Check.Duplicates
import DiagramLint.Check.References
import DiagramLint.Flowchart.Basic

/-!
What can be wrong with a flowchart that was read.
-/
namespace DiagramLint.Flowchart

/-- Subgraphs with an id that an earlier subgraph has. -/
def duplicateSubgraphs (chart : Flowchart) : List Finding :=
  (Duplicates.empty "subgraph").findings (chart.subgraphs.map fun s => (s.id, s.position))

/-- The targets of a directive, each at its position. -/
def Directive.places (d : Directive) : List (Text × Position) :=
  d.targets.map fun target => (target, d.position)

/-- Style classes that are defined more than once. -/
def duplicateClassDefs (chart : Flowchart) : List Finding :=
  (Duplicates.empty "classDef").findings
    ((chart.directives.filter fun d => d.kind = .classDef).flatMap Directive.places)

/-- The directives whose targets are nodes or subgraphs. -/
def DirectiveKind.namesNodes : DirectiveKind → Bool
  | .styleClass | .style | .click => true
  | .classDef | .linkStyle => false

/-- Directives whose targets are neither nodes nor subgraphs. -/
def directiveTargets (chart : Flowchart) : List Finding :=
  let known := ((References.empty "node").declareAll
    (chart.nodes.map fun n => (n.id, n.position))).declareAll
    (chart.subgraphs.map fun s => (s.id, s.position))
  (chart.directives.filter fun d => d.kind.namesNodes).flatMap fun d =>
    d.targets.filterMap fun target => known.check target d.position s!"`{d.kind.keyword}`"

end DiagramLint.Flowchart
