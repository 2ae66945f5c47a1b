import DiagramLint.Proofs.Definitions
import DiagramLint.RuleSet
import Mathlib.Data.List.Basic
import Mathlib.Tactic.Common

/-!
What is found about names that are defined and used. A definition is found if an earlier one has its name, with the
first of that name (`Duplicates.findings_empty`), and a use is found if no definition has its name
(`References.checks_declareAll`).

Names with owners are told apart by one text, with a full stop between the owner and the name. Both may hold full
stops, so the text tells the two only where no owner goes on behind another one and a full stop (`joined_inj`).
-/
namespace DiagramLint

open Text

variable {α κ κ' : Type} [DecidableEq κ] [DecidableEq κ'] {key : α → κ} {key' : α → κ'} {earlier entries : List α} {a : α}
  {f : Finding} {names : List (Text × Position)} {name : Text} {position : Position}

/-! ### Findings by their rules and codes -/

/-- What the rule of a name finds in a diagram. -/
def Diagram.foundBy (d : Diagram) (name : String) : List Finding :=
  ((RuleSet.ofKind d.kind).rules.filter fun rule => rule.name = name).flatMap fun rule => rule.check d

/-- What a finding says, wherever its labels stand. -/
def Finding.unplaced (f : Finding) : Finding := { f with labels := f.labels.map fun l => { l with position := .origin } }

theorem Diagram.foundBy_of_family {d : Diagram} {family : Family} (known : d.kind.family? = some family) (name : String) :
    d.foundBy name = (family.rules.filter fun rule => rule.name = name).flatMap fun rule => rule.check d := by
  rw [foundBy, RuleSet.ofKind, known]

theorem filter_code_eq_self {code : Code} {fs : List Finding} (coded : ∀ f ∈ fs, f.code = some code) :
    fs.filter (fun f => f.code = some code) = fs := List.filter_eq_self.mpr fun f member => by simp [coded f member]

theorem filter_code_eq_nil {code other : Code} {fs : List Finding} (coded : ∀ f ∈ fs, f.code = some other)
    (different : other ≠ code) : fs.filter (fun f => f.code = some code) = [] :=
  List.filter_eq_nil_iff.mpr fun f member => by simp [coded f member, different]

/-! ### Repeats -/

/-- The entries with the key of an entry in front of them, each with the first entry of that key. -/
def repeatsBehind (key : α → κ) (earlier : List α) : List α → List (α × α)
  | [] => []
  | a :: rest =>
    ((earlier.find? fun b => key b = key a).map fun first => (a, first)).toList ++
      repeatsBehind key (earlier ++ [a]) rest

/-- The entries with the key of an earlier one, each with the first entry of that key. -/
abbrev repeats (key : α → κ) (entries : List α) : List (α × α) := repeatsBehind key [] entries

/-- Keys that tell the same entries apart make the same repeats. -/
theorem repeatsBehind_congr
    (same : ∀ a ∈ earlier ++ entries, ∀ b ∈ earlier ++ entries, key a = key b ↔ key' a = key' b) :
    repeatsBehind key earlier entries = repeatsBehind key' earlier entries := by
  induction entries generalizing earlier with
  | nil => rfl
  | cons a rest ih =>
    have here : (earlier.find? fun b => key b = key a) = earlier.find? fun b => key' b = key' a := by
      rw [← List.head?_filter, ← List.head?_filter]
      refine congrArg List.head? (List.filter_congr fun b member => decide_eq_decide.mpr ?_)
      exact same b (List.mem_append_left _ member) a (by simp)
    rw [repeatsBehind, repeatsBehind, here, ih (by simpa using same)]

/-! ### Definitions -/

namespace Duplicates

variable {d : Duplicates}

theorem findings_cons_of_new (unseen : d.first? name = none) : d.findings ((name, position) :: names) =
    Duplicates.findings { d with seen := d.seen ++ [(name, position)] } names := by
  rw [findings, check, unseen]
  rfl

theorem findings_cons_of_seen {first : Position} (seen : d.first? name = some first) :
    d.findings ((name, position) :: names) = finding d.category name position first :: d.findings names := by
  rw [findings, check, seen]
  rfl

/-- What is found behind some entries, if the names that they define are those that were seen. -/
theorem findings_behind {name : α → Text} {place : α → Position}
    (seen : ∀ n, d.first? n = (earlier.find? fun b => name b = n).map place) :
    d.findings (entries.map fun a => (name a, place a)) =
      (repeatsBehind name earlier entries).map fun (a, first) => finding d.category (name a) (place a) (place first) := by
  induction entries generalizing d earlier with
  | nil => rfl
  | cons a rest ih =>
    have here := seen (name a)
    rw [List.map_cons, repeatsBehind, List.map_append]
    -- Only a name that is new is kept, and for other names the entry makes no difference.
    cases found : earlier.find? fun b => name b = name a with
    | none =>
      rw [found] at here
      rw [findings_cons_of_new here]
      refine ih fun n => ?_
      rw [first?_concat, seen n, List.find?_append, Option.map_or]
      by_cases same : name a = n <;> simp [same]
    | some first =>
      rw [found] at here
      rw [findings_cons_of_seen here]
      refine congrArg (_ :: ·) (ih fun n => ?_)
      rw [seen n, List.find?_append]
      by_cases same : name a = n
      · subst same
        simp [found]
      · simp [same]

/-- The definitions that are found are those of which an earlier one has the name. -/
theorem findings_empty (category : String) (name : α → Text) (place : α → Position) (entries : List α) :
    (empty category).findings (entries.map fun a => (name a, place a)) =
      (repeats name entries).map fun (a, first) => finding category (name a) (place a) (place first) :=
  findings_behind fun _ => rfl

end Duplicates

theorem code_of_duplicates {d : Duplicates} (found : f ∈ d.findings names) : f.code = some .e300 := by
  induction names generalizing d with
  | nil => exact nomatch found
  | cons name names ih =>
    rcases List.mem_append.mp found with here | later
    · split at here
      · obtain rfl := Option.some.inj (Option.mem_toList.mp here)
        rfl
      · exact nomatch here
    · exact ih later

/-! ### Uses -/

namespace References

variable {r : References} {context : String}

theorem isDeclared_iff : r.isDeclared name = true ↔ name ∈ r.declared.map Prod.fst := by
  simp [isDeclared, List.lookup_isSome_iff, List.mem_map]

theorem isDeclared_declare {other : Text} :
    (r.declare other position).isDeclared name = true ↔ r.isDeclared name = true ∨ name = other := by
  unfold declare
  split
  · next known =>
    constructor
    · exact .inl
    · rintro (declared | rfl)
      · exact declared
      · exact known
  · simp only [isDeclared_iff, List.map_append, List.mem_append, List.map_singleton, List.mem_singleton]

theorem isDeclared_declareAll :
    (r.declareAll names).isDeclared name = true ↔ r.isDeclared name = true ∨ name ∈ names.map Prod.fst := by
  induction names generalizing r with
  | nil => simp [declareAll]
  | cons named names ih =>
    have later : r.declareAll (named :: names) = (r.declare named.1 named.2).declareAll names := rfl
    rw [later, ih, isDeclared_declare, List.map_cons, List.mem_cons, or_assoc]

theorem category_declareAll (r : References) (names : List (Text × Position)) :
    (r.declareAll names).category = r.category := by
  induction names generalizing r with
  | nil => rfl
  | cons named names ih =>
    have kept : (r.declare named.1 named.2).category = r.category := by
      unfold declare
      split <;> rfl
    exact (ih _).trans kept

theorem declareAll_append (r : References) (names later : List (Text × Position)) :
    r.declareAll (names ++ later) = (r.declareAll names).declareAll later := List.foldl_append

theorem isEmpty_declareAll {category : String} : ((empty category).declareAll names).isEmpty = true ↔ names = [] := by
  constructor
  · intro none_declared
    refine List.eq_nil_iff_forall_not_mem.mpr fun named member => ?_
    have declared := isDeclared_declareAll (r := empty category).mpr (.inr (List.mem_map_of_mem member))
    rw [isDeclared_iff, List.isEmpty_iff.mp none_declared] at declared
    cases declared
  · rintro rfl
    rfl

/-- A use is found if its name is none of those that are declared. -/
theorem check_declareAll (category : String) (names : List (Text × Position)) (name : Text) (position : Position)
    (context : String) : ((empty category).declareAll names).check name position context =
      if name ∈ names.map Prod.fst then none else some (finding category name position context) := by
  have declared : ((empty category).declareAll names).isDeclared name = true ↔ name ∈ names.map Prod.fst := by
    rw [isDeclared_declareAll, isDeclared_iff]
    simp [empty]
  rw [check, category_declareAll]
  exact if_congr declared rfl rfl

/-- The uses that are found are those of names that are not declared. -/
theorem checks_declareAll (category : String) (names : List (Text × Position)) (name : α → Text) (place : α → Position)
    (context : α → String) (uses : List α) :
    (uses.filterMap fun use => ((empty category).declareAll names).check (name use) (place use) (context use)) =
      (uses.filter fun use => name use ∉ names.map Prod.fst).map fun use =>
        finding category (name use) (place use) (context use) := by
  rw [← List.filterMap_eq_map, List.filterMap_filter]
  refine List.filterMap_congr fun use _ => ?_
  rw [check_declareAll]
  by_cases declared : name use ∈ names.map Prod.fst <;> simp [declared]

end References

theorem code_of_reference {r : References} {context : String} (found : r.check name position context = some f) :
    f.code = some .e301 := by
  unfold References.check at found
  split at found
  · exact nomatch found
  · obtain rfl := Option.some.inj found
    rfl

/-! ### Names with owners -/

/-- The text goes on behind another one and a full stop. -/
def Continues (owner other : Text) : Prop := owner ++ ['.'] <+: other

/-- Owners and names that are joined are told by the text, if neither owner goes on behind the other. -/
theorem joined_inj {owner other name name' : Text} (apart : ¬ Continues owner other) (apart' : ¬ Continues other owner) :
    owner ++ '.' :: name = other ++ '.' :: name' ↔ owner = other ∧ name = name' := by
  constructor
  · intro same
    -- If one owner is longer, what it has more begins with the full stop behind the other.
    rcases List.append_eq_append_iff.mp same with ⟨more, longer, behind⟩ | ⟨more, longer, behind⟩
    · cases more with
      | nil => exact ⟨by simpa using longer.symm, (List.cons.inj behind).2⟩
      | cons c more =>
        obtain ⟨rfl, -⟩ := List.cons.inj behind
        exact absurd ⟨more, by simp [longer]⟩ apart
    · cases more with
      | nil => exact ⟨by simpa using longer, (List.cons.inj behind).2.symm⟩
      | cons c more =>
        obtain ⟨rfl, -⟩ := List.cons.inj behind
        exact absurd ⟨more, by simp [longer]⟩ apart'
  · rintro ⟨rfl, rfl⟩
    rfl

end DiagramLint
