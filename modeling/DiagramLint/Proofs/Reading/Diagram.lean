import DiagramLint.Diagram
import DiagramLint.Proofs.Reading.C4Diagram
import DiagramLint.Proofs.Reading.Charts
import DiagramLint.Proofs.Reading.ClassDiagram
import DiagramLint.Proofs.Reading.EntityDiagram
import DiagramLint.Proofs.Reading.Flowchart
import DiagramLint.Proofs.Reading.Graphs
import DiagramLint.Proofs.Reading.Schedules
import DiagramLint.Proofs.Reading.SequenceDiagram
import DiagramLint.Proofs.Reading.StateDiagram

/-!
How sources of all kinds are read. Every reader goes by the lines of its source, and all of them but that
of C4 diagrams read the lines in turn, so they stop at the first line at fault.
-/
namespace DiagramLint

open Text

variable {text : Text} {offset : Nat} {first : Line} {body : List Line} {e : ParseError}

namespace Diagram

/-- The diagram with another text recorded. A diagram of no known kind records the lines too. -/
def withSource (text : Text) : Diagram → Diagram
  | .flowchart d => .flowchart (Stored.withSource text d)
  | .sequence d => .sequence (Stored.withSource text d)
  | .classes d => .classes (Stored.withSource text d)
  | .states d => .states (Stored.withSource text d)
  | .entities d => .entities (Stored.withSource text d)
  | .pie d => .pie (Stored.withSource text d)
  | .gantt d => .gantt (Stored.withSource text d)
  | .journey d => .journey (Stored.withSource text d)
  | .gitGraph d => .gitGraph (Stored.withSource text d)
  | .mindmap d => .mindmap (Stored.withSource text d)
  | .timeline d => .timeline (Stored.withSource text d)
  | .sankey d => .sankey (Stored.withSource text d)
  | .quadrant d => .quadrant (Stored.withSource text d)
  | .xyChart d => .xyChart (Stored.withSource text d)
  | .c4 d => .c4 (Stored.withSource text d)
  | .unknown d => .unknown ⟨d.header.withSource text, Text.lines text⟩

/-- The positions of all that a diagram holds, list by list. -/
def columns : Diagram → List (List Position)
  | .flowchart d => Stored.columns d
  | .sequence d => Stored.columns d
  | .classes d => Stored.columns d
  | .states d => Stored.columns d
  | .entities d => Stored.columns d
  | .pie d => Stored.columns d
  | .gantt d => Stored.columns d
  | .journey d => Stored.columns d
  | .gitGraph d => Stored.columns d
  | .mindmap d => Stored.columns d
  | .timeline d => Stored.columns d
  | .sankey d => Stored.columns d
  | .quadrant d => Stored.columns d
  | .xyChart d => Stored.columns d
  | .c4 d => Stored.columns d
  | .unknown _ => []

instance : Stored Diagram := ⟨header, withSource, columns⟩

end Diagram

/-! ### Families -/

theorem Family.readsLines (family : Family) : ReadsLines family.read := by
  cases family with
  | flowchart => exact Flowchart.reading_describes.readsLines.made (fun _ => rfl) (fun _ => rfl) fun _ _ => rfl
  | sequence => exact SequenceDiagram.reading_describes.readsLines.made (fun _ => rfl) (fun _ => rfl) fun _ _ => rfl
  | classes => exact ClassDiagram.reading_describes.readsLines.made (fun _ => rfl) (fun _ => rfl) fun _ _ => rfl
  | states => exact StateDiagram.reading_describes.readsLines.made (fun _ => rfl) (fun _ => rfl) fun _ _ => rfl
  | entities => exact EntityDiagram.reading_describes.readsLines.made (fun _ => rfl) (fun _ => rfl) fun _ _ => rfl
  | pie => exact PieChart.reading_describes.readsLines.made (fun _ => rfl) (fun _ => rfl) fun _ _ => rfl
  | gantt => exact Gantt.reading_describes.readsLines.made (fun _ => rfl) (fun _ => rfl) fun _ _ => rfl
  | journey => exact Journey.reading_describes.readsLines.made (fun _ => rfl) (fun _ => rfl) fun _ _ => rfl
  | gitGraph => exact GitGraph.reading_describes.readsLines.made (fun _ => rfl) (fun _ => rfl) fun _ _ => rfl
  | mindmap => exact Mindmap.reading_describes.readsLines.made (fun _ => rfl) (fun _ => rfl) fun _ _ => rfl
  | timeline => exact Timeline.reading_describes.readsLines.made (fun _ => rfl) (fun _ => rfl) fun _ _ => rfl
  | sankey => exact SankeyDiagram.reading_describes.readsLines.made (fun _ => rfl) (fun _ => rfl) fun _ _ => rfl
  | quadrant => exact QuadrantChart.reading_describes.readsLines.made (fun _ => rfl) (fun _ => rfl) fun _ _ => rfl
  | xyChart => exact XyChart.reading_describes.readsLines.made (fun _ => rfl) (fun _ => rfl) fun _ _ => rfl
  | c4 => exact C4Diagram.readsLines.made (fun _ => rfl) (fun _ => rfl) fun _ _ => rfl

theorem Reading.Describes.stops_made {α : Type} [Stored α] {r : Reading α} {read : Source → Except ParseError α}
    (laws : r.Describes read) {make : α → Diagram} (failed : (read ⟨text, offset, first :: body⟩).map make = .error e) :
    e.code = .e200 ∨ e.code = .e204 ∨ StopsAt (fun s => (read s).map make) (first :: body) e := by
  cases found : read ⟨text, offset, first :: body⟩ with
  | error e' =>
    rw [found] at failed
    obtain rfl := Except.error.inj failed
    exact (laws.stops found).imp_right (.imp_right fun stops => stops.made make)
  | ok a =>
    rw [found] at failed
    cases failed

/-- All readers but one stop at the first line at fault, or miss something at the end. -/
theorem Family.stops {family : Family} (other : family ≠ .c4)
    (failed : family.read ⟨text, offset, first :: body⟩ = .error e) :
    e.code = .e200 ∨ e.code = .e204 ∨ StopsAt family.read (first :: body) e := by
  cases family with
  | flowchart => exact Flowchart.reading_describes.stops_made failed
  | sequence => exact SequenceDiagram.reading_describes.stops_made failed
  | classes => exact ClassDiagram.reading_describes.stops_made failed
  | states => exact StateDiagram.reading_describes.stops_made failed
  | entities => exact EntityDiagram.reading_describes.stops_made failed
  | pie => exact PieChart.reading_describes.stops_made failed
  | gantt => exact Gantt.reading_describes.stops_made failed
  | journey => exact Journey.reading_describes.stops_made failed
  | gitGraph => exact GitGraph.reading_describes.stops_made failed
  | mindmap => exact Mindmap.reading_describes.stops_made failed
  | timeline => exact Timeline.reading_describes.stops_made failed
  | sankey => exact SankeyDiagram.reading_describes.stops_made failed
  | quadrant => exact QuadrantChart.reading_describes.stops_made failed
  | xyChart => exact XyChart.reading_describes.stops_made failed
  | c4 => exact absurd rfl other

/-! ### Sources -/

/-- A source with a header line is read by the reader for the kind. -/
theorem ofSource_eq (kind : Kind) (text : Text) (offset : Nat) (first : Line) (body : List Line) :
    Diagram.ofSource kind ⟨text, offset, first :: body⟩ =
      match kind.family? with
      | some family => family.read ⟨text, offset, first :: body⟩
      | none => Except.ok (.unknown ⟨⟨.unknown, text, first.position⟩, Text.lines text⟩) := rfl

/-- How a source with a header line is read as a kind. -/
theorem ofSource_readsLines (kind : Kind) : ReadsLines (Diagram.ofSource kind) := by
  cases named : kind.family? with
  | some family =>
    have reads := family.readsLines
    constructor
    · intro text other offset elsewhere first body
      simp only [ofSource_eq, named]
      exact reads.anywhere text other offset elsewhere first body
    · intro text offset first body d made order
      simp only [ofSource_eq, named] at made
      exact reads.ordered made order
    · intro text offset first body e failed order
      simp only [ofSource_eq, named] at failed
      exact reads.refused failed order
  | none =>
    constructor
    · intro text other offset elsewhere first body
      simp only [ofSource_eq, named]
      rfl
    · intro text offset first body d made order
      simp only [ofSource_eq, named] at made
      obtain rfl := Except.ok.inj made
      exact ⟨rfl, List.forall_mem_nil _⟩
    · intro text offset first body e failed order
      simp only [ofSource_eq, named] at failed
      cases failed

/-- Reading stops at the first line at fault, for all kinds but those of C4 diagrams. -/
theorem ofSource_stops {kind : Kind} (other : kind.isC4 = false)
    (failed : Diagram.ofSource kind ⟨text, offset, first :: body⟩ = .error e) :
    e.code = .e200 ∨ e.code = .e204 ∨ StopsAt (Diagram.ofSource kind) (first :: body) e := by
  cases named : kind.family? with
  | some family =>
    have elsewhere : family ≠ .c4 := by
      rintro rfl
      cases kind <;> simp [Kind.family?, Kind.isC4] at named other
    simp only [ofSource_eq, named] at failed
    refine (Family.stops elsewhere failed).imp_right (.imp_right ?_)
    rintro ⟨before, line, after, split, position, always⟩
    refine ⟨before, line, after, split, position, ?_⟩
    intro text offset others
    have refused := always text offset others
    cases before <;> simpa only [List.nil_append, List.cons_append, ofSource_eq, named] using refused
  | none =>
    simp only [ofSource_eq, named] at failed
    cases failed

/-! ### Texts -/

/-- A text without a header line is refused for want of it, whatever it is read as. -/
theorem ofSource_of_no_lines {kind : Kind} (empty : (Source.ofText text offset).lines = []) :
    Diagram.ofSource kind (Source.ofText text offset) = .error (Fault.headerMissing.at ⟨offset + 1, 1⟩) := by
  have unheaded : (Source.ofText text offset).headerLine = .error (Fault.headerMissing.at ⟨offset + 1, 1⟩) := by
    rw [Source.headerLine, Source.header?, empty]
    rfl
  rw [Diagram.ofSource, unheaded]
  rfl

theorem ofText_of_lines {lines : List Line} (cut : (Source.ofText text offset).lines = lines) :
    Source.ofText text offset = ⟨text, offset, lines⟩ := by
  rw [← cut]
  rfl

end DiagramLint
