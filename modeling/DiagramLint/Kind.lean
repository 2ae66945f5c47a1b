import DiagramLint.Text.Basic

/-!
The kinds of diagrams, each named by the keyword of its header line, and the families of kinds that
are read alike.
-/
namespace DiagramLint

/-- A kind of diagram. -/
inductive Kind where
  | flowchart | graph | sequence | classDiagram | state | stateV2 | er | pie | gantt | journey
  | gitGraph | mindmap | timeline | sankey | quadrant | xyChart
  | c4Context | c4Container | c4Component | c4Dynamic | c4Deployment
  /-- A diagram whose header is not recognised. -/
  | unknown
  deriving DecidableEq, Repr

namespace Kind

/-- Every kind, the unrecognised one last. -/
def all : List Kind :=
  [.flowchart, .graph, .sequence, .classDiagram, .state, .stateV2, .er, .pie, .gantt, .journey,
   .gitGraph, .mindmap, .timeline, .sankey, .quadrant, .xyChart,
   .c4Context, .c4Container, .c4Component, .c4Dynamic, .c4Deployment, .unknown]

/-- The keyword of the header line. -/
def keyword : Kind → String
  | .flowchart => "flowchart"
  | .graph => "graph"
  | .sequence => "sequenceDiagram"
  | .classDiagram => "classDiagram"
  | .state => "stateDiagram"
  | .stateV2 => "stateDiagram-v2"
  | .er => "erDiagram"
  | .pie => "pie"
  | .gantt => "gantt"
  | .journey => "journey"
  | .gitGraph => "gitGraph"
  | .mindmap => "mindmap"
  | .timeline => "timeline"
  | .sankey => "sankey-beta"
  | .quadrant => "quadrantChart"
  | .xyChart => "xychart-beta"
  | .c4Context => "C4Context"
  | .c4Container => "C4Container"
  | .c4Component => "C4Component"
  | .c4Dynamic => "C4Dynamic"
  | .c4Deployment => "C4Deployment"
  | .unknown => "unknown"

/-- The kind with a keyword. -/
def ofKeyword? (t : Text) : Option Kind := all.find? fun kind => kind.keyword.toList == t

/-- The five kinds of the C4 model. -/
def isC4 : Kind → Bool
  | .c4Context | .c4Container | .c4Component | .c4Dynamic | .c4Deployment => true
  | _ => false

end Kind

/-- The kinds that are read by one grammar. -/
inductive Family where
  | flowchart | sequence | classes | states | entities | pie | gantt | journey | gitGraph | mindmap
  | timeline | sankey | quadrant | xyChart | c4
  deriving DecidableEq, Repr

namespace Family

/-- Every family. -/
def all : List Family :=
  [.flowchart, .sequence, .classes, .states, .entities, .pie, .gantt, .journey, .gitGraph, .mindmap,
   .timeline, .sankey, .quadrant, .xyChart, .c4]

/-- The kinds of a family. -/
def kinds : Family → List Kind
  | .flowchart => [.flowchart, .graph]
  | .sequence => [.sequence]
  | .classes => [.classDiagram]
  | .states => [.state, .stateV2]
  | .entities => [.er]
  | .pie => [.pie]
  | .gantt => [.gantt]
  | .journey => [.journey]
  | .gitGraph => [.gitGraph]
  | .mindmap => [.mindmap]
  | .timeline => [.timeline]
  | .sankey => [.sankey]
  | .quadrant => [.quadrant]
  | .xyChart => [.xyChart]
  | .c4 => [.c4Context, .c4Container, .c4Component, .c4Dynamic, .c4Deployment]

end Family

/-- The family of a kind; the unrecognised kind has none. -/
def Kind.family? : Kind → Option Family
  | .flowchart | .graph => some .flowchart
  | .sequence => some .sequence
  | .classDiagram => some .classes
  | .state | .stateV2 => some .states
  | .er => some .entities
  | .pie => some .pie
  | .gantt => some .gantt
  | .journey => some .journey
  | .gitGraph => some .gitGraph
  | .mindmap => some .mindmap
  | .timeline => some .timeline
  | .sankey => some .sankey
  | .quadrant => some .quadrant
  | .xyChart => some .xyChart
  | .c4Context | .c4Container | .c4Component | .c4Dynamic | .c4Deployment => some .c4
  | .unknown => none

/-- A kind belongs to its family and to no other. -/
theorem Kind.family?_eq_some_iff (kind : Kind) (family : Family) :
    kind.family? = some family ↔ kind ∈ family.kinds := by
  cases kind <;> cases family <;> decide

end DiagramLint
