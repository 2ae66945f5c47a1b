import DiagramLint.C4Diagram.Checks
import DiagramLint.ClassDiagram.Checks
import DiagramLint.Diagram
import DiagramLint.EntityDiagram.Checks
import DiagramLint.Flowchart.Checks
import DiagramLint.SequenceDiagram.Checks
import DiagramLint.StateDiagram.Checks

/-!
The rules that diagrams are checked by. Every kind has its rules in a fixed order; a rule finds
nothing in a diagram of another kind. All rules run, whatever the others find.
-/
namespace DiagramLint

open Text

/-- A named check of diagrams. -/
structure Rule where
  name : String
  check : Diagram → List Finding

namespace Rule

/-- The rule that checks some diagrams and finds nothing in the others. -/
def on {α : Type} (part : Diagram → Option α) (name : String) (check : α → List Finding) : Rule :=
  ⟨name, fun d => (part d).elim [] check⟩

/-- The rules for flowcharts. -/
def flowchart : List Rule :=
  let rule := on fun | .flowchart d => some d | _ => none
  [rule "flowchart-duplicate-subgraph" Flowchart.duplicateSubgraphs,
   rule "flowchart-duplicate-class-def" Flowchart.duplicateClassDefs,
   rule "flowchart-directive-target" Flowchart.directiveTargets]

/-- The rules for sequence diagrams. -/
def sequence : List Rule :=
  let rule := on fun | .sequence d => some d | _ => none
  [rule "sequence-duplicate-participant" SequenceDiagram.duplicateParticipants,
   rule "sequence-undeclared-participant" SequenceDiagram.undeclaredParticipants,
   rule "sequence-activation-pairing" SequenceDiagram.activationPairing]

/-- The rules for class diagrams. -/
def classes : List Rule :=
  let rule := on fun | .classes d => some d | _ => none
  [rule "class-duplicate-class" ClassDiagram.duplicateClasses,
   rule "class-duplicate-member" ClassDiagram.duplicateMembers,
   rule "class-undefined-class" ClassDiagram.undefinedClasses]

/-- The rules for state diagrams. -/
def states : List Rule :=
  let rule := on fun | .states d => some d | _ => none
  [rule "state-duplicate-state" StateDiagram.duplicateStates,
   rule "state-note-target" StateDiagram.noteTargets]

/-- The rules for entity-relationship diagrams. -/
def entities : List Rule :=
  let rule := on fun | .entities d => some d | _ => none
  [rule "er-duplicate-entity-body" EntityDiagram.duplicateBodies,
   rule "er-duplicate-attribute" EntityDiagram.duplicateAttributes,
   rule "er-attribute-key" EntityDiagram.attributeKeys]

/-- The rules for pie charts. -/
def pie : List Rule :=
  [on (fun | .pie d => some d | _ => none) "pie-duplicate-label" PieChart.duplicateLabels]

/-- The rules for sankey diagrams. -/
def sankey : List Rule :=
  [on (fun | .sankey d => some d | _ => none) "sankey-duplicate-link" SankeyDiagram.duplicateLinks]

/-- The rules for xy charts. -/
def xyChart : List Rule :=
  [on (fun | .xyChart d => some d | _ => none) "xychart-series-length" XyChart.seriesLengths]

/-- The rules for quadrant charts. -/
def quadrant : List Rule :=
  let rule := on fun | .quadrant d => some d | _ => none
  [rule "quadrant-point-range" QuadrantChart.pointRanges,
   rule "quadrant-duplicate-point" QuadrantChart.duplicatePoints]

/-- The rules for gantt charts. -/
def gantt : List Rule :=
  let rule := on fun | .gantt d => some d | _ => none
  [rule "gantt-duplicate-task-id" Gantt.duplicateTaskIds,
   rule "gantt-dependency" Gantt.missingDependencies]

/-- The rules for journeys. -/
def journey : List Rule :=
  [on (fun | .journey d => some d | _ => none) "journey-score-range" Journey.scoreRange]

/-- The rules for timelines. -/
def timeline : List Rule :=
  [on (fun | .timeline d => some d | _ => none) "timeline-duplicate-section"
    Timeline.duplicateSections]

/-- The rules for git graphs. -/
def gitGraph : List Rule :=
  let rule := on fun | .gitGraph d => some d | _ => none
  [rule "gitgraph-duplicate-branch" GitGraph.duplicateBranches,
   rule "gitgraph-duplicate-commit-id" GitGraph.duplicateCommitIds,
   rule "gitgraph-branch-reference" GitGraph.branchReferences,
   rule "gitgraph-commit-reference" GitGraph.commitReferences,
   rule "gitgraph-commit-type" GitGraph.commitTypes]

/-- The rules for mindmaps. -/
def mindmap : List Rule :=
  [on (fun | .mindmap d => some d | _ => none) "mindmap-duplicate-id" Mindmap.duplicateIds]

/-- The rules for C4 diagrams. -/
def c4 : List Rule :=
  let rule := on fun | .c4 d => some d | _ => none
  [rule "c4-duplicate-id" C4Diagram.duplicateIds,
   rule "c4-relationship-reference" C4Diagram.relationshipReferences,
   rule "c4-style-reference" C4Diagram.styleReferences]

/-- The first line that is neither blank nor a comment, trimmed. -/
def firstLine (lines : List Text) : Text :=
  ((lines.map trim).find? fun t => !t.isEmpty && !isComment t).getD []

/-- A diagram of no known kind is worth a warning. -/
def unknownKind (d : UnknownDiagram) : List Finding :=
  [(((Finding.ofMessage .warning
    s!"unrecognised diagram kind {quote (firstLine d.lines)}").withCode .e304).withLabel
    d.header.position "no parser for this header").withHelp
    "the diagram was captured without structural checks"]

/-- The rules for diagrams of no known kind. -/
def unknown : List Rule :=
  [on (fun | .unknown d => some d | _ => none) "unknown-diagram-kind" unknownKind]

/-- Every rule, kind by kind. -/
def all : List Rule :=
  flowchart ++ sequence ++ classes ++ states ++ entities ++ pie ++ sankey ++ xyChart ++ quadrant ++
    gantt ++ journey ++ timeline ++ gitGraph ++ mindmap ++ c4 ++ unknown

end Rule

/-- The rules for the diagrams of a family. -/
def Family.rules : Family → List Rule
  | .flowchart => Rule.flowchart
  | .sequence => Rule.sequence
  | .classes => Rule.classes
  | .states => Rule.states
  | .entities => Rule.entities
  | .pie => Rule.pie
  | .gantt => Rule.gantt
  | .journey => Rule.journey
  | .gitGraph => Rule.gitGraph
  | .mindmap => Rule.mindmap
  | .timeline => Rule.timeline
  | .sankey => Rule.sankey
  | .quadrant => Rule.quadrant
  | .xyChart => Rule.xyChart
  | .c4 => Rule.c4

/-- The rules that are run on a diagram of a kind, in order. -/
structure RuleSet where
  kind : Kind
  rules : List Rule

namespace RuleSet

/-- All rules for a kind. -/
def ofKind (kind : Kind) : RuleSet :=
  ⟨kind, match kind.family? with
    | some family => family.rules
    | none => Rule.unknown⟩

/-- The rules without those of the names given. -/
def without (s : RuleSet) (names : List Text) : RuleSet :=
  { s with rules := s.rules.filter fun rule => !names.contains rule.name.toList }

/-- The names of the rules. -/
def names (s : RuleSet) : List String := s.rules.map Rule.name

/-- What the rules find, rule by rule. -/
def findings (s : RuleSet) (d : Diagram) : List Finding := s.rules.flatMap fun rule => rule.check d

end RuleSet

/-- What the rules for its kind find in a diagram. -/
def Diagram.findings (d : Diagram) : List Finding := (RuleSet.ofKind d.kind).findings d

end DiagramLint
