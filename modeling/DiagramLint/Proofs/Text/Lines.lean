import DiagramLint.Proofs.LineNumbers
import DiagramLint.Proofs.Text.Pieces
import Mathlib.Data.List.Forall2

/-!
Lines as they are written. Texts with line feeds between them are cut apart again; at most a carriage return is lost at the
end of each, and that is a blank. So if every text says something, the lines of the source are those texts, one behind the
other from the first line on (`ofText_join`).
-/
namespace DiagramLint

open Text

namespace Text

variable {raw t b : Text} {ts : List Text}

/-! ### Lines of a text -/

theorem trimEnd_append_blank (blank : allBlank b = true) (t : Text) : trimEnd (t ++ b) = trimEnd t := by
  have backwards : allBlank b.reverse = true := by simpa [allBlank] using blank
  rw [trimEnd, List.reverse_append, dropWhile_blank_append backwards, trimEnd]

/-- Blanks at the end do not matter to what is trimmed. -/
theorem trim_append_blank (blank : allBlank b = true) (t : Text) : trim (t ++ b) = trim t := by
  rw [trim, trim, trimStart, List.dropWhile_append]
  split
  · next empty =>
    have nothing : b.dropWhile isBlank = [] := List.dropWhile_eq_nil_iff.mpr (by simpa [allBlank] using blank)
    rw [nothing, trimStart, List.isEmpty_iff.mp empty]
  · exact trimEnd_append_blank blank _

theorem trim_trimEnd (t : Text) : trim (trimEnd t) = trim t := by
  obtain ⟨b, split, blank⟩ := exists_trimEnd t
  conv_rhs => rw [split, trim_append_blank blank]

/-- The line that a written text becomes: a carriage return at its end may be lost. -/
inductive LineOf : Text → Text → Prop where
  | whole (t : Text) : LineOf t t
  | returned (t : Text) : LineOf t (t ++ ['\r'])

theorem lineOf_dropReturn (t : Text) : LineOf (dropReturn t) t := by
  unfold dropReturn
  cases ended : dropEnd? ['\r'] t with
  | none => exact .whole t
  | some before =>
    rw [append_of_dropEnd? ended]
    exact .returned before

theorem LineOf.trim (of : LineOf raw t) : trim raw = Text.trim t := by
  cases of with
  | whole => rfl
  | returned => exact (trim_append_blank (by decide) raw).symm

theorem lineOf_linesOfPieces (filled : ∀ t ∈ ts, t ≠ []) : List.Forall₂ LineOf (linesOfPieces ts) ts := by
  induction ts with
  | nil => exact .nil
  | cons t ts ih =>
    obtain ⟨first, others⟩ := List.forall_mem_cons.mp filled
    cases ts with
    | nil =>
      rw [linesOfPieces, if_neg first]
      exact .cons (.whole t) .nil
    | cons u ts => exact .cons (lineOf_dropReturn t) (ih others)

/-- Texts with line feeds between them are the lines. -/
theorem lines_join (single : ∀ t ∈ ts, '\n' ∉ t) (filled : ∀ t ∈ ts, t ≠ []) :
    List.Forall₂ LineOf (lines (join ['\n'] ts)) ts := by
  by_cases empty : ts = []
  · subst empty
    exact .nil
  · rw [lines, pieces_eq_splitOn, join, List.splitOn_intercalate '\n' single empty]
    exact lineOf_linesOfPieces filled

/-! ### Lines that say something -/

/-- The text is one line, and it begins like neither a blank line nor a comment. -/
structure Speaks (t : Text) : Prop where
  single : '\n' ∉ t
  begins : ∃ c rest, t = c :: rest ∧ isBlank c = false ∧ c ≠ '%'

theorem Speaks.ne_nil (speaks : Speaks t) : t ≠ [] := by
  obtain ⟨c, rest, rfl, -⟩ := speaks.begins
  exact List.cons_ne_nil c rest

/-- The line begins as the text. -/
theorem LineOf.exists_cons (of : LineOf raw t) (speaks : Speaks t) :
    ∃ c rest, raw = c :: rest ∧ t.head? = some c ∧ isBlank c = false ∧ c ≠ '%' := by
  obtain ⟨c, rest, begun, visible, spoken⟩ := speaks.begins
  cases of with
  | whole => exact ⟨c, rest, begun, by simp [begun], visible, spoken⟩
  | returned =>
    cases raw with
    | nil =>
      obtain ⟨rfl, -⟩ := List.cons.inj begun
      exact absurd visible (by decide)
    | cons a raw =>
      obtain ⟨rfl, -⟩ := List.cons.inj begun
      exact ⟨a, raw, rfl, rfl, visible, spoken⟩

theorem LineOf.exists_trim (of : LineOf raw t) (speaks : Speaks t) :
    ∃ c rest, Text.trim raw = c :: rest ∧ t.head? = some c ∧ c ≠ '%' := by
  obtain ⟨c, rest, rfl, first, visible, spoken⟩ := of.exists_cons speaks
  exact ⟨c, trimEnd rest, trim_cons visible rest, first, spoken⟩

end Text

variable {raw t first : Text} {raws ts : List Text}

theorem Text.LineOf.not_silent (of : LineOf raw t) (speaks : Speaks t) : ¬ IsSilent raw := by
  obtain ⟨c, rest, trimmed, -, spoken⟩ := of.exists_trim speaks
  exact not_silent_of_begins trimmed spoken

/-- A line that begins with no blank stands in the first column. -/
theorem Text.LineOf.position (of : LineOf raw t) (speaks : Speaks t) (number : Nat) :
    (Line.ofRaw number raw).position = ⟨number, 1⟩ := by
  obtain ⟨c, rest, rfl, -, visible, -⟩ := of.exists_cons speaks
  simp [Line.ofRaw, Line.position, visible]

theorem significantLines_of_written (written : List.Forall₂ LineOf raws ts) (spoken : ∀ t ∈ ts, Speaks t) (number : Nat) :
    significantLines .content number raws = raws.mapIdx fun i raw => .ofRaw (number + i) raw := by
  induction written generalizing number with
  | nil => rfl
  | cons of _ ih =>
    obtain ⟨first, others⟩ := List.forall_mem_cons.mp spoken
    rw [significantLines_cons, Zone.content_line? (of.not_silent first), List.mapIdx_cons]
    simp [Zone.next, ih others (number + 1), Nat.add_assoc, Nat.add_comm 1]

/-- Texts that say something are the lines of the source, if the first is not the beginning of a front matter. -/
theorem ofText_join (spoken : ∀ t ∈ first :: ts, Speaks t) (unfenced : first.head? ≠ some '-') (offset : Nat) :
    ∃ raw raws, LineOf raw first ∧ List.Forall₂ LineOf raws ts ∧
      (Source.ofText (join ['\n'] (first :: ts)) offset).lines =
        .ofRaw (offset + 1) raw :: raws.mapIdx fun i raw => .ofRaw (offset + 2 + i) raw := by
  have cut := lines_join (fun t member => (spoken t member).single) fun t member => (spoken t member).ne_nil
  obtain ⟨raw, raws, of, others, split⟩ := List.forall₂_cons_right_iff.mp cut
  refine ⟨raw, raws, of, others, ?_⟩
  obtain ⟨speaks, behind⟩ := List.forall_mem_cons.mp spoken
  have not_fence : trim raw ≠ fence := by
    obtain ⟨c, rest, trimmed, begins, -⟩ := of.exists_trim speaks
    rintro fenced
    obtain ⟨rfl, -⟩ := List.cons.inj (trimmed.symm.trans fenced)
    exact unfenced begins
  have here : Zone.start.line? (offset + 1) raw = some (.ofRaw (offset + 1) raw) := by
    simp [Zone.line?, not_fence, of.not_silent speaks]
  have next : Zone.start.next raw = .content := by simp [Zone.next, not_fence, of.not_silent speaks]
  rw [Source.ofText, split, significantLines_cons, here, next, significantLines_of_written others behind]
  rfl

end DiagramLint
