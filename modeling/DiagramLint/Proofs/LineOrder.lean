import DiagramLint.Proofs.Labels.Basic
import DiagramLint.Proofs.LineNumbers

/-!
Things of different lines. In the order of their places they are in the order of their lines, so there is one such
order, and sorting by places finds it (`lineByLine_mergeSort`).
-/
namespace DiagramLint

variable {α : Type} {place : α → Position} {as : List α} {ps places : List Position}

/-- Each place is in a later line than the one before. -/
abbrev LineByLine (ps : List Position) : Prop := ps.Pairwise fun p q => p.line < q.line

theorem LineByLine.nodup (order : LineByLine ps) : (ps.map Position.line).Nodup :=
  List.pairwise_map.mpr (order.imp Nat.ne_of_lt)

theorem body_lineByLine (text : Text) (offset : Nat) :
    LineByLine ((Source.ofText text offset).body.map Line.position) :=
  List.pairwise_map.mpr (body_increasing text offset)

/-- Places in order that are in different lines are in the order of the lines. -/
theorem lineByLine_of_inOrder (sorted : InOrder ps) (distinct : (ps.map Position.line).Nodup) : LineByLine ps := by
  refine (sorted.and (List.pairwise_map.mp distinct)).imp ?_
  rintro p q ⟨before, other⟩
  simp only [Position.le, Bool.or_eq_true, Bool.and_eq_true, decide_eq_true_eq, beq_iff_eq] at before
  omega

/-- Things with places among those of different lines are sorted line by line. -/
theorem lineByLine_mergeSort (order : LineByLine places) (inside : (as.map place).Subperm places) :
    LineByLine ((as.mergeSort fun a b => (place a).le (place b)).map place) := by
  obtain ⟨part, perm, sub⟩ := inside
  have along : Along places ((as.mergeSort fun a b => (place a).le (place b)).map place) := by
    refine along_mergeSort fun a member => ?_
    exact sub.subset (perm.mem_iff.mpr (List.mem_map_of_mem member))
  refine lineByLine_of_inOrder along.sorted ?_
  have lines := order.nodup.sublist (sub.map Position.line)
  exact ((((List.mergeSort_perm as _).map place).trans perm.symm).map Position.line).nodup_iff.mpr lines

end DiagramLint
