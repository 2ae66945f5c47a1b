import DiagramLint.Proofs.Text.Ends
import DiagramLint.Proofs.Text.Fields

/-!
Fields in quotes. Every text can be written as a field: in double quotes, with a backslash in front of each
backslash and each double quote of it, and with blanks around the quotes. Fields that are written so, with
commas between them, are read back as they were (`fields_of_quoted`).
-/
namespace DiagramLint.Text

open DiagramLint.Text.Parser

/-- The text with a backslash in front of each backslash and each double quote. -/
def escape : Text → Text
  | [] => []
  | c :: t => if c = '\\' ∨ c = '"' then '\\' :: c :: escape t else c :: escape t

/-- A field in quotes, with the blanks around them. -/
structure QuotedField where
  before : Text
  value : Text
  after : Text
  before_blank : allBlank before = true
  after_blank : allBlank after = true

/-- The field as it is written. -/
def QuotedField.written (f : QuotedField) : Text := f.before ++ '"' :: (escape f.value ++ '"' :: f.after)

/-! ### Parts of a field -/

theorem written_escape (t : Text) : Written ['"'] (escape t) t := by
  induction t with
  | nil => exact .nil
  | cons c t ih =>
    rw [escape]
    by_cases special : c = '\\' ∨ c = '"'
    · rw [if_pos special]
      exact .escaped c ih
    · rw [if_neg special]
      simp only [not_or] at special
      exact .plain special.1 (by simpa using special.2) ih

/-- Characters without a meaning are written as they are. -/
theorem written_of_plain {marks : List Char} {t : Text} (plain : ∀ c ∈ t, c ≠ '\\' ∧ c ∉ marks) : Written marks t t := by
  induction t with
  | nil => exact .nil
  | cons c t ih =>
    obtain ⟨⟨unescaped, unmarked⟩, others⟩ := List.forall_mem_cons.mp plain
    exact .plain unescaped unmarked (ih others)

/-- Blanks are written as they are. -/
theorem written_blank {t : Text} (blank : allBlank t = true) : Written [',', '"'] t t := by
  refine written_of_plain fun c member => ?_
  have here : isBlank c = true := List.all_eq_true.mp blank c member
  have no_comma : c ≠ ',' := ne_of_blank here (by decide)
  have no_quote : c ≠ '"' := ne_of_blank here (by decide)
  exact ⟨ne_of_blank here (by decide), by simp [no_comma, no_quote]⟩

/-- Blanks in front of a quote, or behind everything, add no part that says something. -/
theorem exists_parts_of_blank {t w : Text} {parts : List Segment} (blank : allBlank t = true) (later : Parts w parts)
    (next : w = [] ∨ ∃ rest, w = '"' :: rest) :
    ∃ front, Parts (t ++ w) (front ++ parts) ∧ front.filter Segment.isSignificant = [] := by
  by_cases empty : t = []
  · subst empty
    exact ⟨[], later, rfl⟩
  · exact ⟨[.plain t], .plain empty (written_blank blank) next later, by simp [Segment.isSignificant, blank]⟩

/-- The quoted part is the only part of the field that says something. -/
theorem QuotedField.exists_parts (f : QuotedField) : ∃ parts, Parts f.written parts ∧ fieldValue parts = f.value := by
  obtain ⟨back, after, silent_after⟩ := exists_parts_of_blank f.after_blank .nil (.inl rfl)
  simp only [List.append_nil] at after
  have quoted := Parts.quoted (written_escape f.value) after
  obtain ⟨front, whole, silent_before⟩ := exists_parts_of_blank f.before_blank quoted (.inr ⟨_, rfl⟩)
  refine ⟨_, whole, ?_⟩
  have significant : (front ++ .quoted f.value :: back).filter Segment.isSignificant = [.quoted f.value] := by
    rw [List.filter_append, silent_before, List.filter_cons_of_pos rfl, silent_after]
    rfl
  simp only [fieldValue, significant]

theorem QuotedField.read (f : QuotedField) {rest : Text} (finished : FieldEnd rest) :
    field (f.written ++ rest) = .done f.value rest := by
  obtain ⟨parts, whole, value⟩ := f.exists_parts
  rw [field_of_parts whole finished, value]

/-! ### Lists of fields -/

theorem readAll_of_quoted (f : QuotedField) (fs : List QuotedField) :
    fieldList.readAll (join [','] ((f :: fs).map QuotedField.written)) = .ok ((f :: fs).map QuotedField.value) := by
  induction fs generalizing f with
  | nil =>
    have first : field f.written = .done f.value [] := by simpa using f.read (.inl rfl)
    simp [join, readAll, fieldList_of_last first (.inl rfl)]
  | cons g fs ih =>
    have split : join [','] ((f :: g :: fs).map QuotedField.written) =
        f.written ++ ',' :: join [','] ((g :: fs).map QuotedField.written) := by
      simp [join, List.intercalate]
    rw [split, readAll_of_comma (f.read (.inr (.inr ⟨_, rfl⟩))), ih g]
    rfl

theorem not_allBlank_of_quoted (f : QuotedField) (fs : List QuotedField) :
    allBlank (join [','] ((f :: fs).map QuotedField.written)) = false := by
  have opened : '"' ∈ join [','] ((f :: fs).map QuotedField.written) := by
    cases fs <;> simp [join, List.intercalate, QuotedField.written]
  refine List.all_eq_false.mpr ⟨'"', opened, by decide⟩

/-- Fields that are written in quotes, with blanks around them and commas between them, are read as they were,
with the blanks, commas, quotes and backslashes that they hold. -/
theorem fields_of_quoted (fs : List QuotedField) :
    fields (join [','] (fs.map QuotedField.written)) = .ok (fs.map QuotedField.value) := by
  cases fs with
  | nil => rfl
  | cons f fs =>
    rw [fields, not_allBlank_of_quoted, readAll_of_quoted]
    rfl

/-- Two fields with blanks around their quotes: one holds a blank, a comma, a quote and a backslash, the other nothing. -/
def spacedFields : List QuotedField :=
  [⟨[' '], " a, \"b\\".toList, ['\t', ' '], by decide, by decide⟩, ⟨[], [], [' '], by decide, by decide⟩]

theorem fields_of_quoted_spaced :
    join [','] (spacedFields.map QuotedField.written) = " \" a, \\\"b\\\\\"\t ,\"\" ".toList ∧
      fields " \" a, \\\"b\\\\\"\t ,\"\" ".toList = .ok [" a, \"b\\".toList, []] := by
  have written : join [','] (spacedFields.map QuotedField.written) = " \" a, \\\"b\\\\\"\t ,\"\" ".toList := by decide
  refine ⟨written, ?_⟩
  rw [← written]
  exact fields_of_quoted spacedFields

end DiagramLint.Text
