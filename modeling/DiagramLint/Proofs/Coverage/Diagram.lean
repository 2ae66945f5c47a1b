import DiagramLint.Diagram
import DiagramLint.Proofs.Coverage.ClassDiagram
import DiagramLint.Proofs.Coverage.EntityDiagram
import DiagramLint.Proofs.Coverage.EveryLine
import DiagramLint.Proofs.Coverage.SequenceDiagram
import DiagramLint.Proofs.Coverage.StateDiagram
import DiagramLint.Proofs.LineNumbers

/-!
No line of a diagram that is read vanishes: every body line is the position of one entry, apart from
lines that are told by their texts (`body_lines_recorded`).
-/
namespace DiagramLint

open Text

/-- The lines of a body are recorded, for the kinds of diagrams that keep account of them. -/
def Diagram.Records (body : List Line) : Diagram → Prop
  | .gitGraph g => g.commands.map GitGraph.Command.position = body.map Line.position
  | .sankey d => d.links.map SankeyDiagram.Link.position = body.map Line.position
  | .entities d => d.account.Covers ((EntityDiagram.plan.recorded false body).map Line.position)
  | .sequence d =>
    d.account.Covers ((SequenceDiagram.plan.recorded () body).map Line.position) ∧
      (SequenceDiagram.markedPlaces d.messages).Sublist (d.activations.map SequenceDiagram.Activation.position)
  | .classes d => d.account.Covers ((ClassDiagram.plan.recorded false body).map Line.position)
  | .states d => d.account.Covers ((StateDiagram.plan.recorded false body).map Line.position)
  | _ => True

/-- No body line vanishes: each is the position of one entry, apart from those that the plan of the
kind passes over, and the entries of each list are in the order of the lines. -/
theorem body_lines_recorded {kind : Kind} {text : Text} {offset : Nat} {d : Diagram}
    (read : Diagram.readAs kind text offset = .ok d) :
    ((Source.ofText text offset).body.map Line.position).Nodup ∧ d.Records (Source.ofText text offset).body := by
  refine ⟨body_positions_nodup text offset, ?_⟩
  obtain ⟨header, -, read⟩ := exists_of_bind_ok read
  split at read
  · next family _ =>
    cases family <;> obtain ⟨diagram, made, rfl⟩ := exists_of_map_ok read
    case sequence => exact ⟨SequenceDiagram.read_covers made, SequenceDiagram.read_marked made⟩
    case classes => exact ClassDiagram.read_covers made
    case states => exact StateDiagram.read_covers made
    case entities => exact EntityDiagram.read_covers made
    case gitGraph => exact GitGraph.read_positions made
    case sankey => exact SankeyDiagram.read_positions made
    all_goals exact trivial
  · obtain rfl := Except.ok.inj read
    exact trivial

/-- A message with a marker inside a block of two sections. -/
def markedMessages : Text :=
  "sequenceDiagram\nactor A\nalt yes\n A->>+B: x\nelse no\n Note over A,B: y\nend\nautonumber".toList

theorem body_lines_recorded_markedMessages : ∃ d, Diagram.readAs .sequence markedMessages 0 = .ok d ∧
    ((Source.ofText markedMessages 0).body.map Line.position).Nodup ∧ d.Records (Source.ofText markedMessages 0).body := by
  obtain ⟨d, read⟩ := exists_of_isOk (x := Diagram.readAs .sequence markedMessages 0) (by decide +kernel)
  exact ⟨d, read, body_lines_recorded read⟩

end DiagramLint
