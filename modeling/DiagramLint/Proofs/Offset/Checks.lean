import DiagramLint.Check.Duplicates
import DiagramLint.Check.References
import DiagramLint.Check.Vocabulary
import DiagramLint.Proofs.Offset.Basic

/-!
Checks of names that are moved down: they find the same, moved down, as only the order of names and
their equality count.
-/
namespace DiagramLint

open Text
open Placed (shift)

variable {α : Type} {k : Move}

instance : Placed Duplicates := ⟨fun k d => { d with seen := shift k d.seen }⟩

instance : Placed References := ⟨fun k r => { r with declared := shift k r.declared }⟩

/-- The first place of a name that is moved down with the others. -/
theorem lookup_shift {β : Type} [Placed β] (name : Text) (places : List (Text × β)) :
    (shift k places).lookup name = shift k (places.lookup name) := by
  induction places with
  | nil => rfl
  | cons place places ih =>
    obtain ⟨other, value⟩ := place
    show List.lookup name ((other, shift k value) :: shift k places) = _
    rw [List.lookup_cons, List.lookup_cons, ih]
    split
    · rfl
    · rfl

/-- The names of values that are moved down, where some values have no name. -/
theorem names_shift [Placed α] {name? : α → Option Text} {place : α → Position}
    (stays : ∀ a, name? (shift k a) = name? a) (moves : ∀ a, place (shift k a) = shift k (place a)) (as : List α) :
    (shift k as).filterMap (fun a => (name? a).map fun name => (name, place a)) =
      shift k (as.filterMap fun a => (name? a).map fun name => (name, place a)) := by
  refine filterMap_shift ?_ as
  intro a
  rw [stays, moves]
  cases name? a with
  | none => rfl
  | some name => rfl

/-- Lines that go down keep their order, also where those in front stay. -/
theorem distance_lt_iff (k : Move) (m n : Nat) : m + k.distance m < n + k.distance n ↔ m < n := by
  unfold Move.distance
  split
  all_goals
    split
    all_goals omega

theorem le_shift (p q : Position) : (shift k p).le (shift k q) = p.le q := by
  have before := distance_lt_iff k p.line q.line
  have behind := distance_lt_iff k q.line p.line
  have same : p.line + k.distance p.line = q.line + k.distance q.line ↔ p.line = q.line := by omega
  show (decide (p.line + k.distance p.line < q.line + k.distance q.line) ||
    (decide (p.line + k.distance p.line = q.line + k.distance q.line) && decide (p.column ≤ q.column))) = _
  rw [decide_eq_decide.mpr before, decide_eq_decide.mpr same]
  rfl

/-- Sorting by positions is not changed by moving all of them. -/
theorem mergeSort_shift [Placed α] {place : α → Position}
    (moves : ∀ a, place (shift k a) = shift k (place a)) (as : List α) :
    (shift k as).mergeSort (fun a b => (place a).le (place b)) =
      shift k (as.mergeSort fun a b => (place a).le (place b)) := by
  refine (List.map_mergeSort ?_).symm
  intro a _ b _
  rw [moves, moves, le_shift]

namespace Duplicates

theorem check_shift (d : Duplicates) (name : Text) (position : Position) :
    (shift k d).check name (shift k position) = shift k (d.check name position) := by
  unfold check first?
  have seen : (shift k d).seen = shift k d.seen := rfl
  rw [seen, lookup_shift]
  cases d.seen.lookup name with
  | none =>
    show (none, (⟨d.category, shift k d.seen ++ [(name, shift k position)]⟩ : Duplicates)) =
      (none, ⟨d.category, shift k (d.seen ++ [(name, position)])⟩)
    rw [shift_append]
    rfl
  | some first => rfl

/-- Names that are moved down are found twice as they were before. -/
theorem findings_shift (d : Duplicates) (names : List (Text × Position)) :
    (shift k d).findings (shift k names) = shift k (d.findings names) := by
  induction names generalizing d with
  | nil => rfl
  | cons place names ih =>
    obtain ⟨name, position⟩ := place
    show ((shift k d).check name (shift k position)).1.toList ++
      ((shift k d).check name (shift k position)).2.findings (shift k names) = _
    rw [check_shift]
    show (shift k (d.check name position).1).toList ++ (shift k (d.check name position).2).findings _ = _
    rw [ih, toList_shift, ← shift_append]
    rfl

/-- Named values that are moved down are found twice as they were before. -/
theorem findings_map_shift [Placed α] {named : α → Text × Position}
    (moves : ∀ a, named (shift k a) = shift k (named a)) (d : Duplicates) (as : List α) :
    (shift k d).findings ((shift k as).map named) = shift k (d.findings (as.map named)) := by
  rw [map_shift moves]
  exact findings_shift d _

/-- The same of values of which some have no name. -/
theorem findings_filterMap_shift [Placed α] {name? : α → Option Text} {place : α → Position}
    (stays : ∀ a, name? (shift k a) = name? a) (moves : ∀ a, place (shift k a) = shift k (place a)) (d : Duplicates)
    (as : List α) : (shift k d).findings ((shift k as).filterMap fun a => (name? a).map fun name => (name, place a)) =
      shift k (d.findings (as.filterMap fun a => (name? a).map fun name => (name, place a))) := by
  rw [names_shift stays moves]
  exact findings_shift d _

theorem reserve_shift (d : Duplicates) (name : Text) (position : Position) :
    (shift k d).reserve name (shift k position) = shift k (d.reserve name position) := by
  unfold reserve first?
  have seen : (shift k d).seen = shift k d.seen := rfl
  rw [seen, lookup_shift]
  cases d.seen.lookup name with
  | none =>
    show (⟨d.category, shift k d.seen ++ [(name, shift k position)]⟩ : Duplicates) =
      ⟨d.category, shift k (d.seen ++ [(name, position)])⟩
    rw [shift_append]
    rfl
  | some first => rfl

end Duplicates

namespace References

theorem isDeclared_shift (r : References) (name : Text) : (shift k r).isDeclared name = r.isDeclared name := by
  show ((shift k r.declared).lookup name).isSome = _
  rw [lookup_shift, isSome_shift]
  rfl

@[simp] theorem isEmpty_shift (r : References) : (shift k r).isEmpty = r.isEmpty :=
  DiagramLint.isEmpty_shift r.declared

theorem declare_shift (r : References) (name : Text) (position : Position) :
    (shift k r).declare name (shift k position) = shift k (r.declare name position) := by
  unfold declare
  rw [isDeclared_shift]
  split
  · rfl
  · show (⟨r.category, shift k r.declared ++ [(name, shift k position)]⟩ : References) =
      ⟨r.category, shift k (r.declared ++ [(name, position)])⟩
    rw [shift_append]
    rfl

theorem declareAll_shift (r : References) (names : List (Text × Position)) :
    (shift k r).declareAll (shift k names) = shift k (r.declareAll names) := by
  induction names generalizing r with
  | nil => rfl
  | cons place names ih =>
    obtain ⟨name, position⟩ := place
    show ((shift k r).declare name (shift k position)).declareAll (shift k names) = _
    rw [declare_shift]
    exact ih _

/-- The use of a name that is moved down with the declarations is found as it was before. -/
theorem check_shift (r : References) (name : Text) (position : Position) (context : String) :
    (shift k r).check name (shift k position) context = shift k (r.check name position context) := by
  unfold check
  rw [isDeclared_shift]
  split
  · rfl
  · rfl

end References

theorem Vocabulary.check_shift (v : Vocabulary) (value : Text) (position : Position) :
    v.check value (shift k position) = shift k (v.check value position) := by
  unfold check
  split
  · rfl
  · rfl

end DiagramLint
