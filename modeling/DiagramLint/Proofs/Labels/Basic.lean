import DiagramLint.Check.Duplicates
import DiagramLint.Check.References
import DiagramLint.Check.Vocabulary
import DiagramLint.Proofs.Reading.Basic
import Mathlib.Data.List.Basic
import Mathlib.Data.List.Flatten

/-!
Where findings point to. A check that goes through names in the order of their places finds a second
definition behind the first one, and labels both of them.
-/
namespace DiagramLint

open Text

variable {α β : Type} {p q : Position} {f : Finding}

section

variable {places : List Position}

/-! ### Labels -/

/-- The places that the labels of a role stand at. -/
def Finding.positions (f : Finding) (role : Label.Role) : List Position :=
  (f.labels.filter fun l => l.role = role).map Label.position

/-- The finding is at one of some places. A duplicate definition names the first one too, which is at
one of the places and not behind it. -/
def Finding.At (places : List Position) (f : Finding) : Prop :=
  ∃ p ∈ places, f.positions .primary = [p] ∧
    (f.code = some .e300 → ∃ q ∈ places, f.positions .secondary = [q] ∧ q.le p)

/-- All findings are at some of the places. -/
abbrev AllAt (places : List Position) (fs : List Finding) : Prop := ∀ f ∈ fs, f.At places

theorem Finding.at_of_label (inside : p ∈ places) (primary : f.positions .primary = [p])
    (other : f.code ≠ some .e300) : f.At places :=
  ⟨p, inside, primary, fun same => absurd same other⟩

theorem allAt_append {fs gs : List Finding} (first : AllAt places fs) (second : AllAt places gs) :
    AllAt places (fs ++ gs) := List.forall_mem_append.mpr ⟨first, second⟩

theorem allAt_flatMap {as : List α} {g : α → List Finding} (each : ∀ a ∈ as, AllAt places (g a)) :
    AllAt places (as.flatMap g) := by
  intro f member
  obtain ⟨a, inside, found⟩ := List.mem_flatMap.mp member
  exact each a inside f found

theorem allAt_filterMap {as : List α} {g : α → Option Finding} (each : ∀ a ∈ as, ∀ f ∈ g a, f.At places) :
    AllAt places (as.filterMap g) := by
  intro f member
  obtain ⟨a, inside, found⟩ := List.mem_filterMap.mp member
  exact each a inside f found

theorem allAt_map {as : List α} {g : α → Finding} (each : ∀ a ∈ as, (g a).At places) :
    AllAt places (as.map g) := List.forall_mem_map.mpr each

/-! ### Order -/

theorem Position.le_trans {r : Position} (first : p.le q) (second : q.le r) : p.le r := by
  simp only [Position.le, Bool.or_eq_true, Bool.and_eq_true, decide_eq_true_eq, beq_iff_eq] at *
  omega

theorem Position.le_total (p q : Position) : p.le q ∨ q.le p := by
  simp only [Position.le, Bool.or_eq_true, Bool.and_eq_true, decide_eq_true_eq, beq_iff_eq]
  omega

/-- What is sorted by its places is in their order, whatever order it was in. -/
theorem along_mergeSort {place : α → Position} {as : List α} (within : ∀ a ∈ as, place a ∈ places) :
    Along places ((as.mergeSort fun a b => (place a).le (place b)).map place) := by
  constructor
  · refine List.pairwise_map.mpr (List.pairwise_mergeSort ?_ ?_ as)
    · intro a b c
      exact Position.le_trans
    · intro a b
      simpa using Position.le_total (place a) (place b)
  · refine List.forall_mem_map.mpr ?_
    intro a member
    exact within a (List.mem_mergeSort.mp member)

theorem Along.mem {place : α → Position} {as : List α} {a : α} (along : Along places (as.map place))
    (member : a ∈ as) : place a ∈ places := along.within _ (List.mem_map_of_mem member)

/-- Names at the places of some things. -/
theorem Along.names {place : α → Position} {as : List α} {name : α → Text} (along : Along places (as.map place)) :
    Along places ((as.map fun a => (name a, place a)).map Prod.snd) := by
  simpa [Function.comp_def] using along

theorem Along.filterMap {place : α → Position} {as : List α} {name? : α → Option Text}
    (along : Along places (as.map place)) :
    Along places ((as.filterMap fun a => (name? a).map fun name => (name, place a)).map Prod.snd) := by
  rw [List.filterMap_eq_flatMap_toList]
  refine along.flatMap ?_
  intro a named member
  obtain ⟨name, -, rfl⟩ := Option.map_eq_some_iff.mp (Option.mem_toList.mp member)
  rfl

/-! ### Checks -/

theorem mem_of_lookup {name : Text} {b : β} {entries : List (Text × β)} (found : entries.lookup name = some b) :
    (name, b) ∈ entries := by
  obtain ⟨before, after, rfl, -⟩ := List.lookup_eq_some_iff.mp found
  simp

namespace Duplicates

variable {names : List (Text × Position)}

theorem finding_at {category : String} {name : Text} (here : p ∈ places) (there : q ∈ places) (order : q.le p) :
    (finding category name p q).At places :=
  ⟨p, here, rfl, fun _ => ⟨q, there, rfl, order⟩⟩

/-- Names in the order of their places: one that is found was defined before. -/
theorem findings_at {d : Duplicates} (along : Along places ((d.seen ++ names).map Prod.snd)) :
    AllAt places (d.findings names) := by
  induction names generalizing d with
  | nil => exact nofun
  | cons named names ih =>
    obtain ⟨name, position⟩ := named
    have within : position ∈ places := along.within position (by simp)
    unfold findings check
    cases found : d.first? name with
    | none =>
      refine ih ?_
      simpa using along
    | some first =>
      have seen : (name, first) ∈ d.seen := mem_of_lookup found
      have order : first.le position := by
        have sorted := List.pairwise_map.mp along.sorted
        exact (List.pairwise_append.mp sorted).2.2 _ seen _ List.mem_cons_self
      refine List.forall_mem_cons.mpr ⟨finding_at within (along.within first ?_) order, ih ?_⟩
      · exact List.mem_map_of_mem (List.mem_append_left _ seen)
      · exact along.sublist (((List.sublist_cons_self _ _).append_left d.seen).map Prod.snd)

theorem empty_findings_at {category : String} (along : Along places (names.map Prod.snd)) :
    AllAt places ((empty category).findings names) := findings_at along

end Duplicates

theorem References.check_at (r : References) (name : Text) (context : String) (inside : p ∈ places) :
    ∀ f ∈ r.check name p context, f.At places := by
  intro f found
  unfold check at found
  split at found
  · exact nomatch found
  · obtain rfl := Option.some.inj found
    exact Finding.at_of_label inside rfl nofun

theorem Vocabulary.check_at (v : Vocabulary) (value : Text) (inside : p ∈ places) :
    ∀ f ∈ v.check value p, f.At places := by
  intro f found
  unfold check at found
  split at found
  · exact nomatch found
  · obtain rfl := Option.some.inj found
    exact Finding.at_of_label inside rfl nofun

end

/-! ### Diagrams -/

/-- Things stand before what is inside them, so their places are among all places in order. -/
theorem map_sublist_flatMap {place : α → Position} {inner : α → List Position} (as : List α) :
    (as.map place).Sublist (as.flatMap fun a => place a :: inner a) := by
  rw [List.map_eq_flatMap]
  refine List.Sublist.flatMap_right as ?_
  intro a _
  exact (List.nil_sublist _).cons_cons (place a)

theorem flatMap_sublist_flatMap {place : α → Position} {inner : α → List Position} (as : List α) :
    (as.flatMap inner).Sublist (as.flatMap fun a => place a :: inner a) :=
  List.Sublist.flatMap_right as fun a _ => List.sublist_cons_self (place a) (inner a)

/-- The places of a diagram: that of the header and those of all that it holds. -/
def Stored.places [Stored α] (a : α) : List Position := (header a).position :: (columns a).flatten

/-- A diagram is in order if its lists are, and stand behind the header. -/
structure Ordered [Stored α] (a : α) : Prop where
  sorted : ∀ column ∈ Stored.columns a, InOrder column
  behind : ∀ p ∈ (Stored.columns a).flatten, (Stored.header a).position.le p

theorem Stored.mem_places [Stored α] {a : α} {column : List Position} (listed : column ∈ Stored.columns a)
    (inside : p ∈ column) : p ∈ Stored.places a :=
  List.mem_cons_of_mem _ (List.mem_flatten.mpr ⟨column, listed, inside⟩)

theorem Ordered.along [Stored α] {a : α} (ordered : Ordered a) {column : List Position}
    (listed : column ∈ Stored.columns a) : Along (Stored.places a) column :=
  ⟨ordered.sorted column listed, fun _ => Stored.mem_places listed⟩

end DiagramLint
