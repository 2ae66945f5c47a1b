import DiagramLint.Proofs.Text.Ends
import DiagramLint.Proofs.Text.Keywords

/-!
Where a text is cut at the first occurrence of a pattern. A pattern that is found in a text is found there in front of
anything else (`cut?_append`), and one that is not found in it is looked for behind the next character that it does not
hold (`cut?_behind_mark`).
-/
namespace DiagramLint.Text

variable {pattern t u before rest inner : Text} {c mark : Char}

theorem cut?_at_start (pattern rest : Text) : cut? pattern (pattern ++ rest) = some ([], rest) := by
  have start : dropStart? pattern (pattern ++ rest) = some rest := dropStart?_eq_some_iff.mpr rfl
  cases whole : pattern ++ rest with
  | nil =>
    obtain ⟨rfl, rfl⟩ := List.append_eq_nil_iff.mp whole
    rfl
  | cons c t =>
    rw [whole] at start
    rw [cut?, start]

/-- A text is cut behind its first character where the pattern does not begin with it. -/
theorem cut?_cons (elsewhere : ¬ pattern <+: c :: t) :
    cut? pattern (c :: t) = (cut? pattern t).map fun (before, rest) => (c :: before, rest) := by
  have start : dropStart? pattern (c :: t) = none := by
    by_contra found
    obtain ⟨rest, found⟩ := Option.ne_none_iff_exists'.mp found
    exact elsewhere ⟨rest, (dropStart?_eq_some_iff.mp found).symm⟩
  rw [cut?, start]

/-- The first occurrence stays the first one in front of anything. -/
theorem cut?_append (found : cut? pattern t = some (before, rest)) (u : Text) :
    cut? pattern (t ++ u) = some (before, rest ++ u) := by
  induction t generalizing before with
  | nil =>
    have whole := append_of_cut? found
    obtain ⟨rfl, behind⟩ := List.append_eq_nil_iff.mp whole
    obtain ⟨rfl, rfl⟩ := List.append_eq_nil_iff.mp behind
    exact cut?_at_start [] u
  | cons c t ih =>
    by_cases here : pattern <+: c :: t
    · obtain ⟨behind, same⟩ := here
      rw [← same, cut?_at_start] at found
      obtain ⟨rfl, rfl⟩ := Prod.mk.inj (Option.some.inj found)
      rw [← same, List.append_assoc, cut?_at_start]
    · rw [cut?_cons here] at found
      obtain ⟨⟨front, behind⟩, later, same⟩ := Option.map_eq_some_iff.mp found
      obtain ⟨rfl, rfl⟩ := Prod.mk.inj same
      -- The pattern is no longer than the text in which it is found, so nothing behind it can complete it.
      have fits : pattern.length ≤ (c :: t).length := by
        have lengths := congrArg List.length (append_of_cut? later)
        simp only [List.length_append, List.length_cons] at lengths ⊢
        omega
      have elsewhere : ¬ pattern <+: c :: (t ++ u) := by
        intro here'
        exact here (List.prefix_of_prefix_length_le here' ⟨u, rfl⟩ fits)
      rw [List.cons_append, cut?_cons elsewhere, ih later]
      rfl

/-- A pattern is looked for behind characters that it does not begin with. -/
theorem cut?_behind (absent : c ∉ u) : cut? (c :: pattern) (u ++ t) =
    (cut? (c :: pattern) t).map fun (before, rest) => (u ++ before, rest) := by
  induction u with
  | nil => simp
  | cons a u ih =>
    obtain ⟨other, others⟩ : ¬ c = a ∧ c ∉ u := by simpa using absent
    have elsewhere : ¬ c :: pattern <+: a :: (u ++ t) := fun here => other (List.cons_prefix_cons.mp here).1
    rw [List.cons_append, cut?_cons elsewhere, ih others, Option.map_map]
    rfl

/-- A pattern that does not lie in a text does not reach over a mark that it does not hold. -/
theorem cut?_behind_mark (outside : ¬ pattern <:+: t) (foreign : mark ∉ pattern) (u : Text) :
    cut? pattern (t ++ mark :: u) = (cut? pattern u).map fun (before, rest) => (t ++ mark :: before, rest) := by
  induction t with
  | nil =>
    obtain ⟨c, pattern, rfl⟩ := List.exists_cons_of_ne_nil (show pattern ≠ [] by rintro rfl; simp at outside)
    have absent : c ∉ [mark] := by
      rintro inside
      obtain rfl := List.mem_singleton.mp inside
      exact foreign List.mem_cons_self
    exact cut?_behind absent
  | cons c t ih =>
    have elsewhere : ¬ pattern <+: c :: (t ++ mark :: u) := by
      intro here
      have front : c :: t ++ [mark] <+: c :: (t ++ mark :: u) := ⟨u, by simp⟩
      rcases List.prefix_or_prefix_of_prefix here front with inside | longer
      · rcases List.prefix_concat_iff.mp inside with rfl | inside
        · simp at foreign
        · exact outside inside.isInfix
      · exact foreign (longer.subset (by simp))
    rw [List.cons_append, cut?_cons elsewhere, ih fun inside => outside (inside.trans (List.suffix_cons c t).isInfix),
      Option.map_map]
    rfl

/-- The first opening bracket begins what is in brackets, and a closing one ends it. -/
theorem cutBracketed?_eq_some_iff :
    cutBracketed? t = some (before, inner) ↔ '[' ∉ before ∧ t = before ++ '[' :: (inner ++ [']']) := by
  unfold cutBracketed?
  constructor
  · intro found
    obtain ⟨⟨before, rest⟩, cut, made⟩ := Option.bind_eq_some_iff.mp found
    obtain ⟨inner', ended, same⟩ := Option.map_eq_some_iff.mp made
    obtain ⟨rfl, rfl⟩ := Prod.mk.inj same
    refine ⟨not_mem_of_cut? cut, ?_⟩
    rw [← append_of_cut? cut, append_of_dropEnd? ended]
    rfl
  · rintro ⟨absent, rfl⟩
    simp [cut?_mark absent, dropEnd?_append]

end DiagramLint.Text
