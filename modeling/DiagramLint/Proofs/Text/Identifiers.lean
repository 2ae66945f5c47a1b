import DiagramLint.Proofs.Text.Ends
import DiagramLint.Proofs.Text.Keywords

/-!
Identifiers: what characters they have, and that none of these is blank, so that an identifier in front of a blank is the
first word of a line.
-/
namespace DiagramLint.Text

variable {id : Text} {c : Char}

theorem isIdentifierChar_of_mem (identifier : isIdentifier id = true) (member : c ∈ id) : isIdentifierChar c = true :=
  List.all_eq_true.mp (Bool.and_eq_true_iff.mp identifier).2 c member

theorem not_mem_of_identifier (identifier : isIdentifier id = true) (foreign : isIdentifierChar c = false) : c ∉ id := by
  intro member
  rw [isIdentifierChar_of_mem identifier member] at foreign
  cases foreign

theorem visible_of_identifierChar (inside : isIdentifierChar c = true) : isBlank c = false := by
  simp only [isIdentifierChar, Bool.or_eq_true, decide_eq_true_eq] at inside
  rcases inside with ((alphanumeric | rfl) | rfl) | rfl
  · exact not_blank_of_alphanumeric alphanumeric
  all_goals decide

theorem visible_of_identifier (identifier : isIdentifier id = true) : ∀ c ∈ id, isBlank c = false :=
  fun _ member => visible_of_identifierChar (isIdentifierChar_of_mem identifier member)

theorem ne_nil_of_identifier (identifier : isIdentifier id = true) : id ≠ [] := by
  rintro rfl
  cases identifier

theorem begins_of_identifier (identifier : isIdentifier id = true) (t : Text) : BeginsVisible (id ++ t) := by
  obtain ⟨c, rest, rfl⟩ := List.exists_cons_of_ne_nil (ne_nil_of_identifier identifier)
  exact ⟨c, rest ++ t, rfl, visible_of_identifier identifier c List.mem_cons_self⟩

/-- A text with an identifier at its end ends with a visible character. -/
theorem ends_of_identifier (identifier : isIdentifier id = true) (t : Text) : EndsVisible (t ++ id) := by
  have filled := ne_nil_of_identifier identifier
  refine EndsVisible.append ⟨id.dropLast, id.getLast filled, (List.dropLast_concat_getLast filled).symm, ?_⟩ t
  exact visible_of_identifier identifier _ (List.getLast_mem filled)

/-- The text begins with a letter or a digit. -/
def BeginsAlphanumeric (t : Text) : Prop := ∃ c rest, t = c :: rest ∧ isAlphanumeric c = true

theorem BeginsAlphanumeric.append {t : Text} (begins : BeginsAlphanumeric t) (u : Text) : BeginsAlphanumeric (t ++ u) := by
  obtain ⟨c, rest, rfl, alphanumeric⟩ := begins
  exact ⟨c, rest ++ u, rfl, alphanumeric⟩

theorem BeginsAlphanumeric.visible {t : Text} (begins : BeginsAlphanumeric t) : BeginsVisible t := by
  obtain ⟨c, rest, rfl, alphanumeric⟩ := begins
  exact ⟨c, rest, rfl, not_blank_of_alphanumeric alphanumeric⟩

theorem firstWord_of_identifier (identifier : isIdentifier id = true) (t : Text) : firstWord (id ++ ' ' :: t) = id := by
  rw [firstWord, List.takeWhile_append_of_pos (by simpa using visible_of_identifier identifier)]
  simp [show isBlank ' ' = true by decide]

theorem headWord_of_identifier (identifier : isIdentifier id = true) (t : Text) : headWord (id ++ ' ' :: t) = id := by
  have solid : ∀ c ∈ id, (!isBlank c && c != ':') = true := by
    intro c member
    have other : c ≠ ':' := by
      rintro rfl
      exact not_mem_of_identifier identifier (by decide) member
    simp [visible_of_identifier identifier c member, other]
  rw [headWord, List.takeWhile_append_of_pos solid]
  simp [show isBlank ' ' = true by decide]

end DiagramLint.Text
