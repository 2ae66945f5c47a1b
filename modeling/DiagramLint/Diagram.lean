import DiagramLint.C4Diagram.Reader
import DiagramLint.ClassDiagram.Reader
import DiagramLint.EntityDiagram.Reader
import DiagramLint.Flowchart.Reader
import DiagramLint.Gantt
import DiagramLint.GitGraph
import DiagramLint.Journey
import DiagramLint.Mindmap
import DiagramLint.PieChart
import DiagramLint.QuadrantChart
import DiagramLint.SankeyDiagram
import DiagramLint.SequenceDiagram.Reader
import DiagramLint.StateDiagram.Reader
import DiagramLint.Timeline
import DiagramLint.XyChart

/-!
Diagrams of all kinds. The header line tells the kind, and the kind tells how the source is read; a
source with a header of no known kind is kept as it is, line by line.
-/
namespace DiagramLint

open Text

/-- A diagram of no known kind. -/
structure UnknownDiagram where
  header : Header
  lines : List Text
  deriving DecidableEq, Repr

/-- A diagram. -/
inductive Diagram where
  | flowchart (d : Flowchart)
  | sequence (d : SequenceDiagram)
  | classes (d : ClassDiagram)
  | states (d : StateDiagram)
  | entities (d : EntityDiagram)
  | pie (d : PieChart)
  | gantt (d : Gantt)
  | journey (d : Journey)
  | gitGraph (d : GitGraph)
  | mindmap (d : Mindmap)
  | timeline (d : Timeline)
  | sankey (d : SankeyDiagram)
  | quadrant (d : QuadrantChart)
  | xyChart (d : XyChart)
  | c4 (d : C4Diagram)
  | unknown (d : UnknownDiagram)
  deriving Repr

namespace Diagram

/-- What the diagram records of its source. -/
def header : Diagram → Header
  | .flowchart d => d.header
  | .sequence d => d.header
  | .classes d => d.header
  | .states d => d.header
  | .entities d => d.header
  | .pie d => d.header
  | .gantt d => d.header
  | .journey d => d.header
  | .gitGraph d => d.header
  | .mindmap d => d.header
  | .timeline d => d.header
  | .sankey d => d.header
  | .quadrant d => d.header
  | .xyChart d => d.header
  | .c4 d => d.header
  | .unknown d => d.header

/-- The kind of a diagram. -/
def kind (d : Diagram) : Kind := d.header.kind

end Diagram

/-! ### Detection -/

/-- The words that tell the kind of a header line. Two kinds have a second word, which their headers
do not allow. -/
def headerWords : List (String × Kind) :=
  [("stateDiagram-v2", .stateV2), ("stateDiagram", .state), ("sequenceDiagram", .sequence),
   ("classDiagram", .classDiagram), ("erDiagram", .er), ("flowchart", .flowchart),
   ("graph", .graph), ("pie", .pie), ("gantt", .gantt), ("journey", .journey),
   ("gitGraph", .gitGraph), ("mindmap", .mindmap), ("timeline", .timeline),
   ("sankey-beta", .sankey), ("sankey", .sankey), ("quadrantChart", .quadrant),
   ("xychart-beta", .xyChart), ("xychart", .xyChart), ("C4Context", .c4Context),
   ("C4Container", .c4Container), ("C4Component", .c4Component), ("C4Dynamic", .c4Dynamic),
   ("C4Deployment", .c4Deployment)]

/-- The kind that a header line tells: the line begins with a word of that kind, and the word ends
at a blank, at a colon or at the end of the line. -/
def Kind.ofHeader (t : Text) : Kind :=
  match headerWords.find? fun (word, _) => (afterKeywordColon? word t).isSome with
  | some (_, kind) => kind
  | none => .unknown

/-- The kind of a source; a source without a header line is of no known kind. -/
def Source.kind (s : Source) : Kind :=
  match s.header? with
  | some line => .ofHeader line.text
  | none => .unknown

/-- The kind of a text. -/
def Kind.detect (t : Text) : Kind := (Source.ofText t 0).kind

/-! ### Reading -/

/-- The diagram of a source, read the way of a family. -/
def Family.read (family : Family) (s : Source) : Except ParseError Diagram :=
  match family with
  | .flowchart => (Flowchart.read s).map .flowchart
  | .sequence => (SequenceDiagram.read s).map .sequence
  | .classes => (ClassDiagram.read s).map .classes
  | .states => (StateDiagram.read s).map .states
  | .entities => (EntityDiagram.read s).map .entities
  | .pie => (PieChart.read s).map .pie
  | .gantt => (Gantt.read s).map .gantt
  | .journey => (Journey.read s).map .journey
  | .gitGraph => (GitGraph.read s).map .gitGraph
  | .mindmap => (Mindmap.read s).map .mindmap
  | .timeline => (Timeline.read s).map .timeline
  | .sankey => (SankeyDiagram.read s).map .sankey
  | .quadrant => (QuadrantChart.read s).map .quadrant
  | .xyChart => (XyChart.read s).map .xyChart
  | .c4 => (C4Diagram.read s).map .c4

/-- The diagram of a source of no known kind. -/
def UnknownDiagram.ofSource (s : Source) (header : Line) : UnknownDiagram :=
  ⟨s.header .unknown header, Text.lines s.text⟩

namespace Diagram

/-- The diagram of a source, read as a kind. -/
def ofSource (kind : Kind) (s : Source) : Except ParseError Diagram := do
  let header ← s.headerLine
  match kind.family? with
  | some family => family.read s
  | none => .ok (.unknown (UnknownDiagram.ofSource s header))

/-- The diagram of a text that begins after some lines of a document, read as a kind. -/
def readAs (kind : Kind) (t : Text) (offset : Nat) : Except ParseError Diagram :=
  ofSource kind (Source.ofText t offset)

/-- The diagram of a text that begins after some lines of a document. -/
def read (t : Text) (offset : Nat) : Except ParseError Diagram :=
  ofSource (Source.ofText t offset).kind (Source.ofText t offset)

end Diagram

/-- The keywords of all kinds that can be read, in alphabetic order. -/
def Kind.supported : List String :=
  ((Family.all.flatMap Family.kinds).map Kind.keyword).mergeSort fun a b => a ≤ b

end DiagramLint
