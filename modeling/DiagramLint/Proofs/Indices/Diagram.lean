import DiagramLint.Proofs.Indices.ClassDiagram
import DiagramLint.Proofs.Indices.EntityDiagram
import DiagramLint.Proofs.Indices.Flowchart
import DiagramLint.Proofs.Indices.SequenceDiagram
import DiagramLint.Proofs.Indices.StateDiagram

/-!
The indices that readers hold while they read.
-/
namespace DiagramLint

open Text Checked

/-- Behind any lines that can be read the indices of what is open are in range. Those of subgraphs, of blocks and of
composite states increase on the way in, and a state that is open as a composite one is composite. So every lookup by
index finds an entry, at whatever line and behind all lines. -/
theorem indices_in_range :
    Flowchart.checkedReader.NeverMisses (fun d => Stacked d.subgraphs d.stack) ∧
    SequenceDiagram.checkedReader.NeverMisses (fun d => Stacked d.blocks d.stack) ∧
    StateDiagram.checkedReader.NeverMisses (fun x =>
      StateDiagram.Composites x.draft.states x.draft.stack ∧ ∀ i ∈ x.openAt, i < x.draft.notes.length) ∧
    ClassDiagram.checkedReader.NeverMisses (fun x => ∀ i ∈ x.openAt, i < x.draft.classes.length) ∧
    EntityDiagram.checkedReader.NeverMisses (fun x => ∀ i ∈ x.openAt, i < x.draft.entities.length) :=
  ⟨Flowchart.neverMisses, SequenceDiagram.neverMisses, StateDiagram.neverMisses, ClassDiagram.neverMisses,
    EntityDiagram.neverMisses⟩

/-- A note in a composite state in another one, and all three are open. -/
def openNote : Text := "stateDiagram-v2\nA --> B\nstate A \x7b\nC\nstate D \x7b\nnote left of D\nE".toList

theorem indices_in_range_openNote : ∃ x,
    readLinesChecked StateDiagram.checkedRules ⟨{}, none⟩ (Source.ofText openNote 0).body = hit (.ok x) ∧
      x.draft.stack = [2, 0] ∧ x.openAt = some 0 ∧ StateDiagram.Composites x.draft.states [2, 0] ∧
        x.draft.notes.length = 1 := by
  have seen : (readLines StateDiagram.rules {} (Source.ofText openNote 0).body).toOption.map (fun d =>
      ((Indexed.ofDraft d).draft.stack, (Indexed.ofDraft d).openAt, (Indexed.ofDraft d).draft.notes.length)) =
        some ([2, 0], some 0, 1) := by
    decide +kernel
  obtain ⟨d, run, seen⟩ := Option.map_eq_some_iff.mp seen
  simp only [Prod.mk.injEq] at seen
  obtain ⟨stack, openAt, notes⟩ := seen
  have states := indices_in_range.2.2.1
  have reached := states.lines (s := {}) rfl (Source.ofText openNote 0).body
  rw [show readLines StateDiagram.checkedReader.rules {} (Source.ofText openNote 0).body = .ok d from
    eq_ok_of_toOption run] at reached
  have inRange := (states.inRange (s := {}) rfl reached).1
  refine ⟨_, reached, stack, openAt, ?_, notes⟩
  rw [← stack]
  exact inRange

end DiagramLint
