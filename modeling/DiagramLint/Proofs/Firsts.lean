import Mathlib.Data.List.Nodup

/-!
First occurrences. Of the entries with one key only the first is kept, so the keys that are left are
those of all entries, each once, in the order in which they first occur.
-/
namespace DiagramLint

variable {α κ : Type} [DecidableEq κ] {key : α → κ}

/-- The entries whose keys no earlier entry has. -/
def firsts (key : α → κ) : List α → List α
  | [] => []
  | a :: as => a :: (firsts key as).filter fun b => key b ≠ key a

theorem mem_keys_firsts {as : List α} {k : κ} : k ∈ (firsts key as).map key ↔ k ∈ as.map key := by
  induction as with
  | nil => simp [firsts]
  | cons a as ih =>
    by_cases same : k = key a
    · simp [firsts, same]
    · have later : k ∈ ((firsts key as).filter fun b => key b ≠ key a).map key ↔ k ∈ (firsts key as).map key := by
        simp only [List.mem_map, List.mem_filter]
        constructor
        · rintro ⟨b, ⟨member, -⟩, rfl⟩
          exact ⟨b, member, rfl⟩
        · rintro ⟨b, member, rfl⟩
          exact ⟨b, ⟨member, by simpa using same⟩, rfl⟩
      rw [firsts, List.map_cons, List.mem_cons, later, ih, List.map_cons, List.mem_cons]

theorem nodup_keys_firsts (as : List α) : ((firsts key as).map key).Nodup := by
  induction as with
  | nil => simp [firsts]
  | cons a as ih =>
    rw [firsts, List.map_cons, List.nodup_cons]
    refine ⟨by simp, ?_⟩
    exact ih.sublist (List.filter_sublist.map key)

/-- One more entry stays if its key is new. -/
theorem firsts_concat (as : List α) (a : α) :
    firsts key (as ++ [a]) = if key a ∈ as.map key then firsts key as else firsts key as ++ [a] := by
  induction as with
  | nil => simp [firsts]
  | cons first as ih =>
    rw [List.cons_append, firsts, ih, firsts, List.map_cons]
    by_cases seen : key a ∈ as.map key
    · rw [if_pos seen, if_pos (List.mem_cons_of_mem _ seen)]
    · rw [if_neg seen, List.filter_append]
      by_cases same : key a = key first
      · simp [same]
      · rw [if_neg (by simp_all)]
        simp [same]

end DiagramLint
