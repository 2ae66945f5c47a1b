import DiagramLint.Proofs.LineNumbers
import Mathlib.Data.List.Basic

/-!
Front matter. Of the lines of a text, those are kept that are neither blank nor comments and stand outside
the front matter (`lines_of_text`). The front matter begins at the first line that says something, if this
is a fence, and it ends with the next fence or with the text. Fences further down are lines like others.
-/
namespace DiagramLint

open Text

/-- The front matter begins at the line: it is a fence, and all lines in front of it are silent. -/
def FrontMatterAt (raws : List Text) (first : Nat) : Prop :=
  raws[first]?.map trim = some fence ∧ ∀ raw ∈ raws.take first, IsSilent raw

/-- The line belongs to the front matter: this begins there or further up, and no fence stands between its
first line and the line. -/
def InFrontMatter (raws : List Text) (i : Nat) : Prop :=
  ∃ first ≤ i, FrontMatterAt raws first ∧ ∀ raw ∈ (raws.take i).drop (first + 1), trim raw ≠ fence

instance (raws : List Text) (first : Nat) : Decidable (FrontMatterAt raws first) :=
  inferInstanceAs (Decidable (_ ∧ _))

instance (raws : List Text) (i : Nat) : Decidable (InFrontMatter raws i) :=
  inferInstanceAs (Decidable (∃ first, first ≤ i ∧ _ ∧ _))

variable {raw : Text} {rest : List Text} {i : Nat}

/-! ### The first line of a text -/

theorem frontMatterAt_zero : FrontMatterAt (raw :: rest) 0 ↔ trim raw = fence := by
  simp [FrontMatterAt]

theorem frontMatterAt_succ : FrontMatterAt (raw :: rest) (i + 1) ↔ IsSilent raw ∧ FrontMatterAt rest i := by
  simp only [FrontMatterAt, List.getElem?_cons_succ, List.take_succ_cons, List.forall_mem_cons]
  tauto

theorem inFrontMatter_zero : InFrontMatter (raw :: rest) 0 ↔ trim raw = fence := by
  simp [InFrontMatter, frontMatterAt_zero]

/-- A line belongs to the front matter if this begins with the first line and is not closed above the line, or
if the first line is silent and the line belongs to the front matter of the others. -/
theorem inFrontMatter_succ : InFrontMatter (raw :: rest) (i + 1) ↔
    trim raw = fence ∧ (∀ raw ∈ rest.take i, trim raw ≠ fence) ∨ IsSilent raw ∧ InFrontMatter rest i := by
  constructor
  · rintro ⟨first, bound, begins, unclosed⟩
    cases first with
    | zero => exact .inl ⟨frontMatterAt_zero.mp begins, by simpa using unclosed⟩
    | succ first =>
      obtain ⟨silent, begins⟩ := frontMatterAt_succ.mp begins
      exact .inr ⟨silent, first, Nat.le_of_succ_le_succ bound, begins, by simpa using unclosed⟩
  · rintro (⟨fenced, unclosed⟩ | ⟨silent, first, bound, begins, unclosed⟩)
    · exact ⟨0, Nat.zero_le _, frontMatterAt_zero.mpr fenced, by simpa using unclosed⟩
    · exact ⟨first + 1, Nat.succ_le_succ bound, frontMatterAt_succ.mpr ⟨silent, begins⟩, by simpa using unclosed⟩

/-- There is a front matter exactly if the first line that says something is a fence. -/
theorem exists_inFrontMatter_iff {raws : List Text} :
    (∃ i, InFrontMatter raws i) ↔ (raws.find? fun raw => ¬ IsSilent raw).map trim = some fence := by
  induction raws with
  | nil => simp [InFrontMatter, FrontMatterAt]
  | cons raw rest ih =>
    by_cases silent : IsSilent raw
    · have plain := trim_ne_fence_of_silent silent
      rw [List.find?_cons_of_neg (by simpa using silent), ← ih]
      constructor
      · rintro ⟨i, inside⟩
        cases i with
        | zero => exact absurd (inFrontMatter_zero.mp inside) plain
        | succ i =>
          rcases inFrontMatter_succ.mp inside with ⟨fenced, -⟩ | ⟨-, inside⟩
          · exact absurd fenced plain
          · exact ⟨i, inside⟩
      · rintro ⟨i, inside⟩
        exact ⟨i + 1, inFrontMatter_succ.mpr (.inr ⟨silent, inside⟩)⟩
    · rw [List.find?_cons_of_pos (by simpa using silent), Option.map_some, Option.some.injEq]
      constructor
      · rintro ⟨i, inside⟩
        cases i with
        | zero => exact inFrontMatter_zero.mp inside
        | succ i =>
          rcases inFrontMatter_succ.mp inside with ⟨fenced, -⟩ | ⟨quiet, -⟩
          · exact fenced
          · exact absurd quiet silent
      · intro fenced
        exact ⟨0, inFrontMatter_zero.mpr fenced⟩

/-! ### Lines that are kept -/

/-- The line of a text is passed over by a pass that stands in a zone in front of the text. -/
def Zone.Hides (zone : Zone) (raws : List Text) (i : Nat) : Prop :=
  match zone with
  | start => InFrontMatter raws i
  | frontMatter => ∀ raw ∈ raws.take i, trim raw ≠ fence
  | content => False

instance (zone : Zone) (raws : List Text) (i : Nat) : Decidable (zone.Hides raws i) :=
  match zone with
  | .start => inferInstanceAs (Decidable (InFrontMatter raws i))
  | .frontMatter => inferInstanceAs (Decidable (∀ raw ∈ raws.take i, trim raw ≠ fence))
  | .content => inferInstanceAs (Decidable False)

/-- The line at an index of a text, if the pass keeps it. -/
def Zone.kept? (zone : Zone) (number : Nat) (raws : List Text) (entry : Text × Nat) : Option Line :=
  if IsSilent entry.1 ∨ zone.Hides raws entry.2 then none else some (.ofRaw (number + entry.2) entry.1)

theorem Zone.kept?_first (zone : Zone) (number : Nat) (raw : Text) (rest : List Text) :
    zone.kept? number (raw :: rest) (raw, 0) = zone.line? number raw := by
  cases zone with
  | start => simp only [line?, kept?, Hides, inFrontMatter_zero, or_comm, Nat.add_zero]
  | frontMatter => simp [line?, kept?, Hides]
  | content => simp only [line?, kept?, Hides, or_false, Nat.add_zero]

theorem Zone.hides_succ (zone : Zone) : zone.Hides (raw :: rest) (i + 1) ↔ (zone.next raw).Hides rest i := by
  cases zone with
  | start =>
    simp only [Hides, next, inFrontMatter_succ]
    by_cases fenced : trim raw = fence
    · have loud : ¬ IsSilent raw := fun silent => trim_ne_fence_of_silent silent fenced
      simp [fenced, loud]
    · by_cases silent : IsSilent raw
      · simp [fenced, silent]
      · simp [fenced, silent]
  | frontMatter =>
    simp only [Hides, next, List.take_succ_cons, List.forall_mem_cons]
    by_cases fenced : trim raw = fence
    · simp [fenced]
    · simp [fenced]
  | content => rfl

theorem Zone.kept?_succ (zone : Zone) (number : Nat) (raw : Text) (rest : List Text) (entry : Text × Nat) :
    zone.kept? number (raw :: rest) (entry.1, entry.2 + 1) = (zone.next raw).kept? (number + 1) rest entry := by
  simp only [kept?, zone.hides_succ, Nat.add_right_comm number 1, Nat.add_assoc]

/-- A pass keeps the lines that are neither silent nor passed over. -/
theorem significantLines_eq_filterMap (zone : Zone) (number : Nat) (raws : List Text) :
    significantLines zone number raws = raws.zipIdx.filterMap (zone.kept? number raws) := by
  induction raws generalizing zone number with
  | nil => rfl
  | cons raw rest ih =>
    have later : (rest.zipIdx 1).filterMap (zone.kept? number (raw :: rest)) =
        significantLines (zone.next raw) (number + 1) rest := by
      rw [ih, List.zipIdx_succ, List.filterMap_map]
      refine List.filterMap_congr ?_
      intro entry _
      exact zone.kept?_succ number raw rest entry
    rw [significantLines_cons, List.zipIdx_cons, List.filterMap_cons, later, zone.kept?_first]
    cases zone.line? number raw <;> rfl

/-- The lines of a text that say something: all that are neither blank nor comments nor in the front matter,
in order, with their numbers and columns. -/
theorem lines_of_text (text : Text) (offset : Nat) :
    ((∃ i, InFrontMatter (Text.lines text) i) ↔
      ((Text.lines text).find? fun raw => ¬ IsSilent raw).map trim = some fence) ∧
    (Source.ofText text offset).lines = (Text.lines text).zipIdx.filterMap fun (raw, i) =>
      if IsSilent raw ∨ InFrontMatter (Text.lines text) i then none
      else some ⟨offset + i + 1, (raw.takeWhile isBlank).length + 1, indentWidth raw, raw, trim raw⟩ := by
  refine ⟨exists_inFrontMatter_iff, ?_⟩
  show significantLines .start (offset + 1) (Text.lines text) = _
  rw [significantLines_eq_filterMap]
  refine List.filterMap_congr ?_
  intro entry _
  simp only [Zone.kept?, Zone.Hides, Line.ofRaw, Nat.add_right_comm]

end DiagramLint
