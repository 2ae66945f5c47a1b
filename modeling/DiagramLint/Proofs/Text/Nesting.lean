import DiagramLint.Text.Outside
import Mathlib.Tactic.Common

/-!
Places outside quotes and brackets. A scan that looks for a pattern outside quotes and brackets goes past a text
in which no pattern begins at such a place (`cutWhere?_append`), and it goes on behind a text that closes all it
opens as if nothing stood in front (`Clear`).
-/
namespace DiagramLint.Text
namespace Nesting

/-! ### What is open behind a text -/

/-- What is open behind a text. -/
def run (n : Nesting) (t : Text) : Nesting := t.foldl step n

/-- The characters of a text that stand outside quotes and brackets. -/
def outer (n : Nesting) : Text → Text
  | [] => []
  | c :: t => if n.isOutside then c :: outer (n.step c) t else outer (n.step c) t

/-- The characters that open or close something. -/
def marks : List Char := ['"', '[', '(', '{', ']', ')', '}']

/-- The brackets that close. -/
def closings : List Char := [']', ')', '}']

variable {n : Nesting} {t u : Text} {c : Char}

theorem run_append (n : Nesting) (t u : Text) : n.run (t ++ u) = (n.run t).run u := List.foldl_append

theorem outer_append (n : Nesting) (t u : Text) : n.outer (t ++ u) = n.outer t ++ (n.run t).outer u := by
  induction t generalizing n with
  | nil => rfl
  | cons c t ih =>
    simp only [List.cons_append, outer, ih]
    split <;> rfl

theorem mem_of_mem_outer (inside : c ∈ n.outer t) : c ∈ t := by
  induction t generalizing n with
  | nil => exact inside
  | cons a t ih =>
    rw [outer] at inside
    split at inside
    · rcases List.mem_cons.mp inside with rfl | later
      · exact List.mem_cons_self
      · exact List.mem_cons_of_mem a (ih later)
    · exact List.mem_cons_of_mem a (ih inside)

theorem step_of_unmarked (unmarked : c ∉ marks) : n.step c = n := by
  simp only [marks, List.mem_cons, List.not_mem_nil, or_false, not_or] at unmarked
  simp [step, unmarked]

/-- Inside quotes only a quote matters. -/
theorem step_of_quoted (quoted : n.quoted = true) (unquote : c ≠ '"') : n.step c = n := by
  simp [step, quoted, unquote]

theorem run_of_steps (still : ∀ c ∈ t, n.step c = n) : n.run t = n := by
  induction t with
  | nil => rfl
  | cons c t ih =>
    obtain ⟨first, others⟩ := List.forall_mem_cons.mp still
    rw [run, List.foldl_cons, first]
    exact ih others

theorem run_of_unmarked (unmarked : ∀ c ∈ t, c ∉ marks) : n.run t = n :=
  run_of_steps fun c member => step_of_unmarked (unmarked c member)

theorem run_of_quoted (quoted : n.quoted = true) (unquoted : '"' ∉ t) : n.run t = n := by
  refine run_of_steps fun c member => step_of_quoted quoted ?_
  rintro rfl
  exact unquoted member

theorem outer_of_quoted (quoted : n.quoted = true) (unquoted : '"' ∉ t) : n.outer t = [] := by
  induction t with
  | nil => rfl
  | cons c t ih =>
    obtain ⟨first, others⟩ : ¬ '"' = c ∧ '"' ∉ t := by simpa using unquoted
    have inside : n.isOutside = false := by simp [isOutside, quoted]
    rw [outer, inside, step_of_quoted quoted (fun same => first same.symm)]
    exact ih others

/-- Without a closing bracket nothing gets less deep. -/
theorem depth_le_run (kept : ∀ c ∈ t, c ∉ closings) : n.depth ≤ (n.run t).depth := by
  induction t generalizing n with
  | nil => exact Nat.le_refl _
  | cons c t ih =>
    obtain ⟨first, others⟩ := List.forall_mem_cons.mp kept
    have one : n.depth ≤ (n.step c).depth := by
      simp only [closings, List.mem_cons, List.not_mem_nil, or_false, not_or] at first
      simp only [step, first]
      split
      · exact Nat.le_refl _
      · split
        · exact Nat.le_refl _
        · split <;> simp
    exact Nat.le_trans one (ih others)

/-- What is open is closed by a closing bracket. -/
theorem exists_closing (inside : 0 < n.depth) (outside : (n.run t).isOutside = true) :
    ∃ x c y, c ∈ closings ∧ t = x ++ c :: y := by
  have level : (n.run t).depth = 0 := by
    simp only [isOutside, Bool.and_eq_true, beq_iff_eq] at outside
    exact outside.2
  obtain ⟨c, member, closes⟩ : ∃ c ∈ t, c ∈ closings := by
    by_contra kept
    have deeper : n.depth ≤ (n.run t).depth := depth_le_run fun c member listed => kept ⟨c, member, listed⟩
    omega
  obtain ⟨x, y, same⟩ := List.append_of_mem member
  exact ⟨x, c, y, closes, same⟩

end Nesting

/-! ### Scans -/

open Nesting

variable {test : Text → Bool} {n : Nesting} {t u before rest : Text} {marks : List Char}

/-- A place that is found lies outside quotes and brackets. -/
theorem outside_of_cutWhere? (found : cutWhere? test n t = some (before, rest)) :
    (n.run before).isOutside = true := by
  induction t generalizing n before with
  | nil => cases found
  | cons c t ih =>
    rw [cutWhere?] at found
    split at found
    · next here =>
      simp only [Option.some.injEq, Prod.mk.injEq] at found
      obtain ⟨rfl, -⟩ := found
      exact (Bool.and_eq_true_iff.mp here).1
    · obtain ⟨⟨b, r⟩, later, same⟩ := Option.map_eq_some_iff.mp found
      simp only [Prod.mk.injEq] at same
      obtain ⟨rfl, rfl⟩ := same
      have behind : ((n.step c).run b).isOutside = true := ih later
      exact behind

theorem cutWhere?_append (quiet : ∀ c ∈ n.outer t, ∀ rest, test (c :: rest) = false) (u : Text) :
    cutWhere? test n (t ++ u) = (cutWhere? test (n.run t) u).map fun (before, rest) => (t ++ before, rest) := by
  induction t generalizing n with
  | nil => simp [run]
  | cons c t ih =>
    have here : (n.isOutside && test (c :: (t ++ u))) = false := by
      by_cases outside : n.isOutside = true
      · rw [quiet c (by simp [outer, outside]), Bool.and_false]
      · simp [outside]
    have later : ∀ a ∈ (n.step c).outer t, ∀ rest, test (a :: rest) = false := by
      intro a member
      refine quiet a ?_
      rw [outer]
      split
      · exact List.mem_cons_of_mem c member
      · exact member
    rw [List.cons_append, cutWhere?, here, ih later]
    simp [run, Function.comp_def]

theorem cutWhere?_eq_none (quiet : ∀ c ∈ n.outer t, ∀ rest, test (c :: rest) = false) : cutWhere? test n t = none := by
  simpa [cutWhere?] using cutWhere?_append quiet []

/-- A text is cut at the first place outside quotes and brackets where the rest passes the test. -/
theorem cutWhere?_eq_find? (test : Text → Bool) (n : Nesting) (t : Text) : cutWhere? test n t =
    ((List.range t.length).find? fun i => (n.run (t.take i)).isOutside && test (t.drop i)).map
      fun i => (t.take i, t.drop i) := by
  induction t generalizing n with
  | nil => rfl
  | cons c t ih =>
    have here : (n.run ((c :: t).take 0)).isOutside = n.isOutside := rfl
    rw [cutWhere?, ih, List.length_cons, List.range_succ_eq_map, List.find?_cons, here, List.drop_zero]
    cases n.isOutside && test (c :: t) with
    | true => rfl
    | false =>
      rw [if_neg Bool.false_ne_true, List.find?_map, Option.map_map, Option.map_map]
      rfl

theorem cutWhere?_eq_none_iff : cutWhere? test n t = none ↔
    ∀ i < t.length, (n.run (t.take i)).isOutside = true → ¬ test (t.drop i) = true := by
  rw [cutWhere?_eq_find?, Option.map_eq_none_iff, List.find?_range_eq_none]
  simp only [Bool.not_eq_true', Bool.and_eq_false_imp, Bool.not_eq_true]

theorem cutWhere?_eq_some_iff : cutWhere? test n t = some (before, rest) ↔
    ∃ i < t.length, before = t.take i ∧ rest = t.drop i ∧ (n.run (t.take i)).isOutside = true ∧ test (t.drop i) = true ∧
      ∀ j < i, (n.run (t.take j)).isOutside = true → ¬ test (t.drop j) = true := by
  rw [cutWhere?_eq_find?, Option.map_eq_some_iff]
  simp only [List.find?_range_eq_some, Prod.mk.injEq, Bool.and_eq_true, List.mem_range, Bool.not_eq_true',
    Bool.and_eq_false_imp, Bool.not_eq_true]
  constructor
  · rintro ⟨i, ⟨⟨outside, passed⟩, inside, first⟩, rfl, rfl⟩
    exact ⟨i, inside, rfl, rfl, outside, passed, first⟩
  · rintro ⟨i, inside, rfl, rfl, outside, passed, first⟩
    exact ⟨i, ⟨⟨outside, passed⟩, inside, first⟩, rfl, rfl⟩

/-- A text closes what it opens, and none of some characters stands in it outside quotes and brackets. -/
structure Clear (chars : List Char) (t : Text) : Prop where
  level : outermost.run t = outermost
  free : ∀ c ∈ outermost.outer t, c ∉ chars

namespace Clear

variable {chars : List Char}

theorem nil : Clear chars [] := ⟨rfl, nofun⟩

theorem append (first : Clear chars t) (second : Clear chars u) : Clear chars (t ++ u) := by
  constructor
  · rw [run_append, first.level, second.level]
  · rw [outer_append, first.level]
    intro c member
    rcases List.mem_append.mp member with before | behind
    · exact first.free c before
    · exact second.free c behind

theorem of_apart (apart : ∀ c ∈ t, c ∉ Nesting.marks ++ chars) : Clear chars t := by
  constructor
  · exact run_of_unmarked fun c member listed => apart c member (List.mem_append_left _ listed)
  · exact fun c member listed => apart c (mem_of_mem_outer member) (List.mem_append_right _ listed)

theorem mono {fewer : List Char} (clear : Clear chars t) (subset : fewer ⊆ chars) : Clear fewer t :=
  ⟨clear.level, fun c member listed => clear.free c member (subset listed)⟩

/-- A scan for what begins with one of the characters goes on behind the text. -/
theorem cutWhere?_append (clear : Clear chars t) (begins : ∀ c rest, test (c :: rest) = true → c ∈ chars) (u : Text) :
    cutWhere? test outermost (t ++ u) =
      (cutWhere? test outermost u).map fun (before, rest) => (t ++ before, rest) := by
  have quiet : ∀ c ∈ outermost.outer t, ∀ rest, test (c :: rest) = false := by
    intro c member rest
    by_contra passed
    exact clear.free c member (begins c rest (by simpa using passed))
  rw [Text.cutWhere?_append quiet, clear.level]

theorem cutWhere?_eq_none (clear : Clear chars t) (begins : ∀ c rest, test (c :: rest) = true → c ∈ chars) :
    cutWhere? test outermost t = none := by
  simpa [cutWhere?] using clear.cutWhere?_append begins []

end Clear

end DiagramLint.Text
