import DiagramLint.Check.Duplicates
import Mathlib.Data.List.Basic
import Mathlib.Tactic.Common

/-!
Names that are reserved and defined in turn, in any order. The first call with a name keeps the name and its place, and no
later call moves the place or the order of the names (`Keeps.step`). So a definition is found just when an earlier call
of either kind has its name, with a label back to the earliest (`outcomes_of_calls`).
-/
namespace DiagramLint.Duplicates

open Text

/-- One call: a name is defined without being written, or it is written. -/
inductive Call where
  | reserve (name : Text) (position : Position)
  | check (name : Text) (position : Position)
  deriving DecidableEq, Repr

namespace Call

def name : Call → Text
  | .reserve name _ | .check name _ => name

def position : Call → Position
  | .reserve _ position | .check _ position => position

end Call

/-- What a call gives, and the names behind it. Only a definition that is written can be found. -/
def call (d : Duplicates) : Call → Option Finding × Duplicates
  | .reserve name position => (none, d.reserve name position)
  | .check name position => d.check name position

/-- What each of some calls gives in turn, and the names behind all of them. -/
def run (d : Duplicates) : List Call → List (Option Finding) × Duplicates
  | [] => ([], d)
  | c :: calls => ((d.call c).1 :: ((d.call c).2.run calls).1, ((d.call c).2.run calls).2)

/-- The calls that write some definitions. -/
def checks (definitions : List (Text × Position)) : List Call :=
  definitions.map fun (name, position) => .check name position

/-- The names are those of some calls, each at the place of the earliest call with it. -/
structure Keeps (d : Duplicates) (calls : List Call) : Prop where
  first : ∀ name, d.first? name = (calls.find? fun c => c.name = name).map Call.position
  names : d.names = (calls.map Call.name).eraseDups

variable {d : Duplicates} {c : Call} {calls : List Call} {name : Text} {position first : Position}

/-! ### One call -/

theorem call_of_seen (seen : d.first? c.name = some first) : (d.call c).2 = d := by
  cases c with
  | reserve name position => rw [call, reserve, show d.first? name = some first from seen]
  | check name position => rw [call, check, show d.first? name = some first from seen]

theorem call_of_new (unseen : d.first? c.name = none) :
    (d.call c).2 = { d with seen := d.seen ++ [(c.name, c.position)] } := by
  cases c with
  | reserve name position => rw [call, reserve, show d.first? name = none from unseen]; rfl
  | check name position => rw [call, check, show d.first? name = none from unseen]; rfl

theorem category_call (d : Duplicates) (c : Call) : (d.call c).2.category = d.category := by
  cases seen : d.first? c.name with
  | none => rw [call_of_new seen]
  | some first => rw [call_of_seen seen]

theorem call_check (d : Duplicates) (name : Text) (position : Position) :
    (d.call (.check name position)).1 = (d.first? name).map fun first => finding d.category name position first := by
  rw [call, check]
  cases d.first? name <;> rfl

/-- A name that is added is known, and of the other names nothing changes. -/
theorem first?_concat (d : Duplicates) (added : Text) (position : Position) (name : Text) :
    Duplicates.first? { d with seen := d.seen ++ [(added, position)] } name =
      (d.first? name).or (if added = name then some position else none) := by
  rw [first?, first?, List.lookup_append, List.lookup_cons, List.lookup_nil]
  by_cases same : added = name
  · simp [same]
  · have other : (name == added) = false := by simpa using Ne.symm same
    simp [same, other]

theorem eraseDups_concat (names : List Text) (name : Text) :
    (names ++ [name]).eraseDups = if name ∈ names then names.eraseDups else names.eraseDups ++ [name] := by
  rw [List.eraseDups_append, List.removeAll, List.filter_singleton]
  by_cases known : name ∈ names <;> simp [known, List.eraseDups_cons]

namespace Keeps

theorem empty (category : String) : Keeps (.empty category) [] := ⟨fun _ => rfl, rfl⟩

theorem mem_iff (keeps : d.Keeps calls) : (d.first? name).isSome = true ↔ name ∈ calls.map Call.name := by
  rw [keeps.first, Option.isSome_map, List.find?_isSome]
  simp

/-- One more call adds its name behind the others if no earlier call has it, and else changes nothing. -/
theorem step (keeps : d.Keeps calls) (c : Call) : (d.call c).2.Keeps (calls ++ [c]) := by
  have known : (d.first? c.name).isSome = true ↔ c.name ∈ calls.map Call.name := keeps.mem_iff
  cases seen : d.first? c.name with
  | none =>
    have new : c.name ∉ calls.map Call.name := by simpa [seen] using known
    rw [call_of_new seen]
    constructor
    · intro name
      rw [first?_concat, keeps.first, List.find?_append, Option.map_or]
      by_cases same : c.name = name <;> simp [same]
    · rw [List.map_append, List.map_singleton, eraseDups_concat, if_neg new, ← keeps.names, Duplicates.names,
        List.map_append, List.map_singleton, Duplicates.names]
  | some first =>
    have old : c.name ∈ calls.map Call.name := by simpa [seen] using known
    rw [call_of_seen seen]
    constructor
    · intro name
      rw [keeps.first, List.find?_append, Option.map_or]
      by_cases same : c.name = name
      · subst same
        rw [← keeps.first, seen]
        rfl
      · simp [same]
    · rw [List.map_append, List.map_singleton, eraseDups_concat, if_pos old, ← keeps.names]

end Keeps

/-! ### Calls in turn -/

theorem run_cons (d : Duplicates) (c : Call) (calls : List Call) : (d.run (c :: calls)).1 =
    (d.call c).1 :: ((d.call c).2.run calls).1 ∧ (d.run (c :: calls)).2 = ((d.call c).2.run calls).2 := ⟨rfl, rfl⟩

theorem Keeps.run (keeps : d.Keeps calls) (more : List Call) : (d.run more).2.Keeps (calls ++ more) := by
  induction more generalizing d calls with
  | nil => rwa [List.append_nil]
  | cons c more ih =>
    have behind := ih (keeps.step c)
    rwa [List.append_assoc, List.singleton_append] at behind

theorem category_run (d : Duplicates) (calls : List Call) : (d.run calls).2.category = d.category := by
  induction calls generalizing d with
  | nil => rfl
  | cons c calls ih => exact (ih _).trans (category_call d c)

/-- What a call gives depends on the calls in front of it alone. -/
theorem getElem?_run (d : Duplicates) (calls : List Call) (i : Nat) :
    (d.run calls).1[i]? = calls[i]?.map fun c => ((d.run (calls.take i)).2.call c).1 := by
  induction calls generalizing d i with
  | nil => rfl
  | cons c calls ih =>
    cases i with
    | zero => rfl
    | succ i =>
      rw [run, List.getElem?_cons_succ, ih, List.getElem?_cons_succ]
      rfl

/-- Each definition that is written is found, or it adds its name. -/
theorem length_found_add_names (d : Duplicates) (definitions : List (Text × Position)) :
    ((d.run (checks definitions)).1.filterMap id).length + (d.run (checks definitions)).2.names.length =
      definitions.length + d.names.length := by
  induction definitions generalizing d with
  | nil => simp [checks, run]
  | cons definition definitions ih =>
    obtain ⟨name, position⟩ := definition
    have later := ih (d.call (.check name position)).2
    obtain ⟨outcomes, behind⟩ := run_cons d (.check name position) (checks definitions)
    rw [show checks ((name, position) :: definitions) = .check name position :: checks definitions from rfl, outcomes,
      behind, call_check, List.length_cons]
    cases seen : d.first? name with
    | none =>
      have grown : (d.call (.check name position)).2.names.length = d.names.length + 1 := by
        rw [call_of_new (c := .check name position) seen]
        simp [names]
      rw [Option.map_none, List.filterMap_cons_none (f := id) rfl]
      omega
    | some first =>
      rw [call_of_seen (c := .check name position) seen] at later ⊢
      rw [Option.map_some, List.filterMap_cons_some (f := id) rfl, List.length_cons]
      omega

theorem map_name_checks (definitions : List (Text × Position)) :
    (checks definitions).map Call.name = definitions.map Prod.fst := by
  rw [checks, List.map_map]
  rfl

/-- In any sequence of calls, a definition is found if an earlier call has its name, and the finding leads from its own
place back to that of the earliest one. The names are those of the calls, each once, in the order of their first calls. So
of definitions alone as many are found as there are more of them than names. -/
theorem outcomes_of_calls (category : String) (calls : List Call) :
    (∀ i name position, calls[i]? = some (.check name position) →
      ∃ outcome, ((empty category).run calls).1[i]? = some outcome ∧
        (outcome.isSome = true ↔ name ∈ (calls.take i).map Call.name) ∧
        ∀ f ∈ outcome, ∃ first, calls.find? (fun c => c.name = name) = some first ∧
          f = finding category name position first.position ∧
          f.labels = [⟨.primary, position, "duplicate definition"⟩, ⟨.secondary, first.position, "first defined here"⟩]) ∧
    ((empty category).run calls).2.names = (calls.map Call.name).eraseDups ∧
    ∀ definitions : List (Text × Position), (((empty category).run (checks definitions)).1.filterMap id).length +
      (definitions.map Prod.fst).eraseDups.length = definitions.length := by
  have names_of (calls : List Call) : ((empty category).run calls).2.Keeps calls := (Keeps.empty category).run calls
  refine ⟨?_, (names_of calls).names, ?_⟩
  · intro i name position here
    have keeps := names_of (calls.take i)
    have outcome := getElem?_run (empty category) calls i
    rw [here, Option.map_some, call_check, category_run] at outcome
    refine ⟨_, outcome, ?_, ?_⟩
    · rw [Option.isSome_map, keeps.mem_iff]
    · intro f found
      obtain ⟨p, seen, rfl⟩ := Option.map_eq_some_iff.mp found
      rw [keeps.first] at seen
      obtain ⟨first, earliest, rfl⟩ := Option.map_eq_some_iff.mp seen
      refine ⟨first, ?_, rfl, rfl⟩
      rw [← List.take_append_drop i calls, List.find?_append, earliest]
      rfl
  · intro definitions
    have count := length_found_add_names (empty category) definitions
    rw [(names_of _).names, map_name_checks] at count
    exact count

/-- A name that is reserved, then defined twice with another name in between. -/
def reservedMain : List Call :=
  [.reserve "main".toList ⟨1, 1⟩, .check "dev".toList ⟨2, 1⟩, .check "main".toList ⟨3, 1⟩, .check "main".toList ⟨4, 1⟩]

theorem outcomes_of_calls_reservedMain :
    reservedMain[3]? = some (.check "main".toList ⟨4, 1⟩) ∧
      ((empty "branch").run reservedMain).1[3]? = some (some (finding "branch" "main".toList ⟨4, 1⟩ ⟨1, 1⟩)) ∧
      ((empty "branch").run reservedMain).2.names = ["main".toList, "dev".toList] := by
  obtain ⟨outcomes, names, -⟩ := outcomes_of_calls "branch" reservedMain
  have here : reservedMain[3]? = some (.check "main".toList ⟨4, 1⟩) := by decide
  obtain ⟨outcome, given, found, labelled⟩ := outcomes 3 _ _ here
  obtain ⟨f, rfl⟩ := Option.isSome_iff_exists.mp (found.mpr (by decide))
  obtain ⟨first, earliest, rfl, -⟩ := labelled f rfl
  obtain rfl : .reserve "main".toList ⟨1, 1⟩ = first := Option.some.inj earliest
  exact ⟨here, given, names.trans (by decide)⟩

end DiagramLint.Duplicates
