import DiagramLint.Proofs.Text.Ends
import DiagramLint.Proofs.Text.Places

/-!
The statements of a line. A line is cut at its first semicolon outside quotes and brackets, and what stands behind it is
searched as if it were a line of its own. Nothing is open where a line is cut, so one scan over the whole line sees the
same semicolons, whatever quotes and brackets are left open or closed too often; and a statement is not cut again
(`statements_in_one_scan`).
-/
namespace DiagramLint.Text

open Nesting

variable {n m : Nesting} {t u s : Text} {mark c : Char}

/-! ### One scan over a text -/

/-- The characters of a text, each with what stands in front of it. -/
def withFronts (t : Text) : List (Char × Text) := t.zip t.inits

/-- The pieces of a text between the marks in front of which neither a quote nor a bracket is open. -/
def outerPieces (mark : Char) (t : Text) : List Text :=
  ((withFronts t).splitOnP fun (c, front) => c = mark && nothingOpen front).map fun piece => piece.map Prod.fst

/-- The characters of a text, each with what a scan has open in front of it. -/
def nested (n : Nesting) (t : Text) : List (Char × Nesting) := t.zip (t.scanl Nesting.step n)

theorem nested_cons (n : Nesting) (c : Char) (t : Text) : nested n (c :: t) = (c, n) :: nested (n.step c) t := by
  rw [nested, List.scanl_cons, List.zip_cons_cons, nested]

theorem nested_eq (n : Nesting) (t : Text) : nested n t = (withFronts t).map fun (c, front) => (c, n.run front) := by
  induction t generalizing n with
  | nil => rfl
  | cons c t ih =>
    rw [nested_cons, ih, withFronts, withFronts, List.inits_cons, List.zip_cons_cons, List.map_cons, List.zip_map_right,
      List.map_map]
    rfl

theorem splitOnP_map {α β : Type} (f : α → β) (p : β → Bool) (as : List α) :
    (as.map f).splitOnP p = (as.splitOnP fun a => p (f a)).map (List.map f) := by
  induction as with
  | nil => rfl
  | cons a as ih =>
    rw [List.map_cons, List.splitOnP_cons_eq_if_modifyHead, List.splitOnP_cons_eq_if_modifyHead, ih]
    split
    · rfl
    · cases as.splitOnP fun a => p (f a) with
      | nil => rfl
      | cons first pieces => rfl

/-- One scan over a text cuts it at the same marks. -/
theorem outerPieces_eq (mark : Char) (t : Text) : outerPieces mark t =
    ((nested outermost t).splitOnP fun (c, inside) => c = mark && inside.isOutside).map fun piece => piece.map Prod.fst := by
  rw [nested_eq, splitOnP_map, List.map_map, outerPieces]
  simp only [isOutside_run, Function.comp_def, List.map_map]

theorem nested_append (n : Nesting) (t u : Text) : nested n (t ++ u) = nested n t ++ nested (n.run t) u := by
  induction t generalizing n with
  | nil => rfl
  | cons c t ih =>
    have behind : n.run (c :: t) = (n.step c).run t := rfl
    rw [List.cons_append, nested_cons, ih, nested_cons, List.cons_append, behind]

theorem map_fst_nested (n : Nesting) (t : Text) : (nested n t).map Prod.fst = t := by
  induction t generalizing n with
  | nil => rfl
  | cons c t ih => rw [nested_cons, List.map_cons, ih]

theorem mem_outer_of_nested (inside : (c, m) ∈ nested n t) (outside : m.isOutside = true) : c ∈ n.outer t := by
  induction t generalizing n with
  | nil => cases inside
  | cons a t ih =>
    rw [nested_cons, List.mem_cons] at inside
    rw [outer]
    rcases inside with here | later
    · obtain ⟨rfl, rfl⟩ := Prod.mk.inj here
      simp [outside]
    · split
      · exact List.mem_cons_of_mem a (ih later)
      · exact ih later

/-- No mark is seen where none stands outside quotes and brackets. -/
theorem unseen_of_quiet (quiet : mark ∉ n.outer t) :
    ∀ entry ∈ nested n t, (entry.1 = mark && entry.2.isOutside) = false := by
  rintro ⟨c, m⟩ inside
  by_contra seen
  obtain ⟨same, outside⟩ : c = mark ∧ m.isOutside = true := by simpa using seen
  exact quiet (same ▸ mem_outer_of_nested inside outside)

theorem outerPieces_of_quiet (quiet : mark ∉ outermost.outer t) : outerPieces mark t = [t] := by
  rw [outerPieces_eq, List.splitOnP_eq_singleton (unseen_of_quiet quiet), List.map_singleton, map_fst_nested]

/-- A mark outside quotes and brackets stands behind a text that closes what it opens. -/
theorem eq_outermost_of_outside (outside : n.isOutside = true) : n = outermost := by
  obtain ⟨quoted, depth⟩ := n
  obtain ⟨unquoted, level⟩ : quoted = false ∧ depth = 0 := by simpa [isOutside] using outside
  rw [unquoted, level, outermost]

theorem outerPieces_append (quiet : mark ∉ outermost.outer t) (outside : (outermost.run t).isOutside = true)
    (unmarked : mark ∉ marks) (u : Text) : outerPieces mark (t ++ mark :: u) = t :: outerPieces mark u := by
  have level := eq_outermost_of_outside outside
  have behind : nested outermost (t ++ mark :: u) = nested outermost t ++ (mark, outermost) :: nested outermost u := by
    rw [nested_append, level, nested_cons, step_of_unmarked unmarked]
  have seen : (mark = mark && outermost.isOutside) = true := by simp [isOutside, outermost]
  rw [outerPieces_eq, behind, List.splitOnP_append_cons_of_forall_mem (unseen_of_quiet quiet) _ seen, List.map_cons,
    map_fst_nested, outerPieces_eq]

/-- The first mark outside quotes and brackets. -/
theorem exists_first_mark (inside : mark ∈ n.outer t) :
    ∃ a b, t = a ++ mark :: b ∧ mark ∉ n.outer a ∧ (n.run a).isOutside = true := by
  induction t generalizing n with
  | nil => cases inside
  | cons c t ih =>
    rw [outer] at inside
    by_cases here : n.isOutside = true ∧ c = mark
    · obtain ⟨outside, rfl⟩ := here
      exact ⟨[], t, rfl, List.not_mem_nil, outside⟩
    · have later : mark ∈ (n.step c).outer t := by
        split at inside
        · next outside => exact (List.mem_cons.mp inside).resolve_left fun same => here ⟨outside, same.symm⟩
        · exact inside
      obtain ⟨a, b, rfl, quiet, outside⟩ := ih later
      refine ⟨c :: a, b, rfl, ?_, outside⟩
      rw [outer]
      split
      · next open_here =>
        rw [List.mem_cons, not_or]
        exact ⟨fun same => here ⟨open_here, same.symm⟩, quiet⟩
      · exact quiet

/-! ### Statements -/

theorem startsWith_mark (mark c : Char) (t : Text) : startsWith [mark] (c :: t) = decide (mark = c) := by
  by_cases same : mark = c <;> simp [startsWith, dropStart?, same]

theorem cutOutside?_of_quiet (quiet : mark ∉ outermost.outer t) : cutOutside? [mark] t = none := by
  rw [cutOutside?, cutWhere?_eq_none, Option.map_none]
  intro c member rest
  rw [startsWith_mark]
  exact decide_eq_false fun same => quiet (same ▸ member)

theorem cutOutside?_append (quiet : mark ∉ outermost.outer t) (outside : (outermost.run t).isOutside = true) (u : Text) :
    cutOutside? [mark] (t ++ mark :: u) = some (t, u) := by
  have unseen : ∀ c ∈ outermost.outer t, ∀ rest, startsWith [mark] (c :: rest) = false := by
    intro c member rest
    rw [startsWith_mark]
    exact decide_eq_false fun same => quiet (same ▸ member)
  rw [cutOutside?, cutWhere?_append unseen, cutWhere?, outside, startsWith_mark]
  simp

/-- A text without a semicolon outside quotes and brackets is one statement, or none if it is blank. -/
theorem statements_of_quiet (quiet : ';' ∉ outermost.outer t) : statements t = (trimmed? t).toList := by
  rw [statements]
  split
  · rfl
  · next found =>
    rw [cutOutside?_of_quiet quiet] at found
    cases found

/-- A semicolon outside quotes and brackets ends a statement. -/
theorem statements_append (quiet : ';' ∉ outermost.outer t) (outside : (outermost.run t).isOutside = true) (u : Text) :
    statements (t ++ ';' :: u) = (trimmed? t).toList ++ statements u := by
  have cut := cutOutside?_append quiet outside u
  rw [statements]
  split
  · next found =>
    rw [cut] at found
    cases found
  · next found =>
    rw [cut] at found
    obtain ⟨rfl, rfl⟩ := Prod.mk.inj (Option.some.inj found)
    rfl

/-- A text without a semicolon is one statement. -/
theorem statements_of_no_semicolon (filled : t ≠ []) (tight : trim t = t) (absent : ';' ∉ t) : statements t = [t] := by
  rw [statements_of_quiet fun member => absent (mem_of_mem_outer member), trimmed?_of_tight filled tight]
  rfl

theorem toList_trimmed? (t : Text) : (trimmed? t).toList = [trim t].filter (· ≠ []) := by
  by_cases filled : trim t = []
  · rw [trimmed?, filled]
    rfl
  · rw [trimmed?_of_ne_nil filled, List.filter_singleton]
    simp [filled]

theorem statements_eq (t : Text) : statements t = ((outerPieces ';' t).map trim).filter (· ≠ []) := by
  induction length : t.length using Nat.strongRecOn generalizing t with
  | ind k ih =>
    by_cases inside : ';' ∈ outermost.outer t
    · obtain ⟨a, b, rfl, quiet, outside⟩ := exists_first_mark inside
      have shorter : b.length < k := by
        simp only [List.length_append, List.length_cons] at length
        omega
      rw [statements_append quiet outside, ih _ shorter b rfl, outerPieces_append quiet outside (by decide),
        toList_trimmed?, List.map_cons, ← List.filter_append, List.singleton_append]
    · rw [statements_of_quiet inside, outerPieces_of_quiet inside, toList_trimmed?, List.map_singleton]

/-! ### Statements cut again -/

theorem unmarked_of_blank (blank : allBlank t = true) : ∀ c ∈ t, c ∉ marks := by
  intro c member listed
  have visible : ∀ c ∈ marks, isBlank c = false := by decide
  exact not_mem_of_blank blank (visible c listed) member

/-- Blanks open and close nothing, so what is seen in a trimmed text was seen before. -/
theorem quiet_trim (quiet : mark ∉ outermost.outer t) : mark ∉ outermost.outer (trim t) := by
  obtain ⟨b, b', same, blank, -⟩ := exists_trim t
  rw [same, outer_append, run_of_unmarked (unmarked_of_blank blank), outer_append] at quiet
  exact fun inside => quiet (List.mem_append_right _ (List.mem_append_left _ inside))

theorem alone_of_quiet (quiet : ';' ∉ outermost.outer t) (member : s ∈ (trimmed? t).toList) : statements s = [s] := by
  rw [toList_trimmed?, List.mem_filter, List.mem_singleton] at member
  obtain ⟨rfl, filled⟩ := member
  rw [statements_of_quiet (quiet_trim quiet), trimmed?_of_tight (by simpa using filled) (trim_trim t), Option.toList_some]

theorem alone_of_mem_statements (member : s ∈ statements t) : statements s = [s] := by
  induction length : t.length using Nat.strongRecOn generalizing t with
  | ind k ih =>
    by_cases inside : ';' ∈ outermost.outer t
    · obtain ⟨a, b, rfl, quiet, outside⟩ := exists_first_mark inside
      have shorter : b.length < k := by
        simp only [List.length_append, List.length_cons] at length
        omega
      rw [statements_append quiet outside, List.mem_append] at member
      rcases member with first | later
      · exact alone_of_quiet quiet first
      · exact ih _ shorter later rfl
    · rw [statements_of_quiet inside] at member
      exact alone_of_quiet inside member

/-- The statements of a line are the pieces between the semicolons outside quotes and brackets, counted over the whole
line, without the blanks at their ends and without those of which nothing is left. No statement is cut again. -/
theorem statements_in_one_scan (t : Text) : statements t = ((outerPieces ';' t).map trim).filter (· ≠ []) ∧
    ∀ s ∈ statements t, statements s = [s] :=
  ⟨statements_eq t, fun _ member => alone_of_mem_statements member⟩

/-- A bracket that closes nothing counts for nothing, and behind a quote that stays open nothing is cut. -/
example : outerPieces ';' "a];[b;c]; ;\"d;e".toList = ["a]", "[b;c]", " ", "\"d;e"].map String.toList := by decide

end DiagramLint.Text
