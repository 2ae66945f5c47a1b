import DiagramLint.Source

/-!
The lines of a source that say something keep their order: their numbers grow, so a line is told by
its position. Which lines say something is decided from front to back: of the lines in front only the
zone matters that they lead to, and a silent line leads nowhere.
-/
namespace DiagramLint

open Text

/-- A line that is blank, or a comment. -/
def IsSilent (raw : Text) : Prop := trim raw = [] ∨ isComment (trim raw) = true

instance (raw : Text) : Decidable (IsSilent raw) := inferInstanceAs (Decidable (_ ∨ _))

theorem isSilent_iff (raw : Text) : ((trim raw).isEmpty || isComment (trim raw)) = true ↔ IsSilent raw := by
  rw [IsSilent, Bool.or_eq_true, List.isEmpty_iff]

/-- A line is blank or a comment only if its text is empty or begins with a percent sign. -/
theorem not_silent_of_begins {raw t : Text} {c : Char} (begun : trim raw = c :: t) (other : c ≠ '%') : ¬ IsSilent raw := by
  rw [IsSilent, begun]
  rintro (empty | comment)
  · exact absurd empty (List.cons_ne_nil c t)
  · rw [isComment, startsWith, Option.isSome_iff_exists] at comment
    obtain ⟨rest, found⟩ := comment
    have same := dropStart?_eq_some_iff.mp found
    exact other (List.cons.inj same).1

/-- A line whose first word is no comment is none. -/
theorem not_silent_of_word {raw w rest : Text} {b : Char} (begun : trim raw = w ++ b :: rest)
    (spoken : isComment w = false) (other : b ≠ '%') : ¬ IsSilent raw := by
  rw [IsSilent, begun]
  rintro (empty | comment)
  · simp at empty
  · match w with
    | [] => simp [isComment, startsWith, dropStart?, Ne.symm other] at comment
    | [c] => simp [isComment, startsWith, dropStart?, Ne.symm other] at comment
    | c :: c' :: w =>
      have same : isComment (c :: c' :: w ++ b :: rest) = isComment (c :: c' :: w) := by
        simp only [isComment, startsWith, dropStart?, List.cons_append]
        split
        · split
          · rfl
          · rfl
        · rfl
      rw [same, spoken] at comment
      exact Bool.false_ne_true comment

namespace Zone

/-- Where the pass stands behind a line. -/
def next (zone : Zone) (raw : Text) : Zone :=
  match zone with
  | start => if trim raw = fence then frontMatter else if IsSilent raw then start else content
  | frontMatter => if trim raw = fence then content else frontMatter
  | content => content

/-- The line that says something, if the next one does. -/
def line? (zone : Zone) (number : Nat) (raw : Text) : Option Line :=
  match zone with
  | start => if trim raw = fence ∨ IsSilent raw then none else some (.ofRaw number raw)
  | frontMatter => none
  | content => if IsSilent raw then none else some (.ofRaw number raw)

/-- Where the pass stands behind some lines. -/
def behind (zone : Zone) (raws : List Text) : Zone := raws.foldl next zone

theorem eq_of_line? {zone : Zone} {number : Nat} {raw : Text} {line : Line}
    (kept : zone.line? number raw = some line) : line = .ofRaw number raw := by
  cases zone
  case frontMatter => exact nomatch kept
  all_goals
    simp only [line?] at kept
    split at kept
    · exact nomatch kept
    · exact (Option.some.inj kept).symm

end Zone

theorem trim_ne_fence_of_silent {raw : Text} (silent : IsSilent raw) : trim raw ≠ fence := by
  intro fenced
  rw [IsSilent, fenced] at silent
  exact absurd silent (by decide)

/-- A silent line leaves the pass where it stands. -/
theorem Zone.next_of_silent {raw : Text} (silent : IsSilent raw) (zone : Zone) : zone.next raw = zone := by
  cases zone <;> simp [Zone.next, trim_ne_fence_of_silent silent, silent]

theorem Zone.line?_of_silent {raw : Text} (silent : IsSilent raw) (zone : Zone) (number : Nat) :
    zone.line? number raw = none := by
  cases zone <;> simp [Zone.line?, silent]

theorem Zone.content_line? {raw : Text} (spoken : ¬ IsSilent raw) (number : Nat) :
    content.line? number raw = some (.ofRaw number raw) :=
  if_neg spoken

/-! ### Lines that say something -/

theorem significantLines_cons (zone : Zone) (number : Nat) (raw : Text) (rest : List Text) :
    significantLines zone number (raw :: rest) =
      (zone.line? number raw).toList ++ significantLines (zone.next raw) (number + 1) rest := by
  have silence := isSilent_iff raw
  cases zone with
  | start =>
    by_cases fenced : trim raw = fence
    · simp [significantLines, Zone.line?, Zone.next, fenced]
    · by_cases silent : IsSilent raw
      · simp [significantLines, Zone.line?, Zone.next, fenced, silence, silent]
      · simp [significantLines, Zone.line?, Zone.next, fenced, silence, silent]
  | frontMatter => rfl
  | content =>
    by_cases silent : IsSilent raw
    · simp [significantLines, Zone.line?, Zone.next, silence, silent]
    · simp [significantLines, Zone.line?, Zone.next, silence, silent]

/-- The lines in front tell the zone and the number of the lines behind, and nothing else. -/
theorem significantLines_append (zone : Zone) (number : Nat) (before after : List Text) :
    significantLines zone number (before ++ after) = significantLines zone number before ++
      significantLines (zone.behind before) (number + before.length) after := by
  induction before generalizing zone number with
  | nil => rfl
  | cons raw before ih =>
    rw [List.cons_append, significantLines_cons, ih, significantLines_cons, List.append_assoc, List.length_cons,
      Nat.add_right_comm, Nat.add_assoc]
    rfl

theorem significantLines_of_silent {raw : Text} (silent : IsSilent raw) (zone : Zone) (number : Nat)
    (rest : List Text) : significantLines zone number (raw :: rest) = significantLines zone (number + 1) rest := by
  rw [significantLines_cons, Zone.line?_of_silent silent, Zone.next_of_silent silent]
  rfl

/-- A line that says something has a text. -/
theorem text_ne_nil_of_mem_significantLines {zone : Zone} {number : Nat} {raws : List Text} {line : Line}
    (member : line ∈ significantLines zone number raws) : line.text ≠ [] := by
  induction raws generalizing zone number with
  | nil => exact nomatch member
  | cons raw rest ih =>
    rw [significantLines_cons] at member
    rcases List.mem_append.mp member with kept | inside
    · have kept := Option.mem_toList.mp kept
      obtain rfl := Zone.eq_of_line? kept
      intro empty
      rw [Zone.line?_of_silent (.inl empty)] at kept
      exact nomatch kept
    · exact ih inside

/-! ### Numbers -/

/-- The numbers of lines are those of a part of the source. -/
theorem number_of_mem_significantLines {zone : Zone} {number : Nat} {raws : List Text} {line : Line}
    (member : line ∈ significantLines zone number raws) :
    number ≤ line.number ∧ line.number < number + raws.length := by
  induction raws generalizing zone number with
  | nil => exact nomatch member
  | cons raw rest ih =>
    rw [significantLines_cons] at member
    rcases List.mem_append.mp member with kept | inside
    · obtain rfl := Zone.eq_of_line? (Option.mem_toList.mp kept)
      simp [Line.ofRaw]
    · have bounds := ih inside
      rw [List.length_cons]
      omega

theorem number_le_of_mem_significantLines {zone : Zone} {number : Nat} {raws : List Text} {line : Line}
    (member : line ∈ significantLines zone number raws) : number ≤ line.number :=
  (number_of_mem_significantLines member).1

/-- The numbers of the lines that say something grow. -/
theorem significantLines_increasing (zone : Zone) (number : Nat) (raws : List Text) :
    (significantLines zone number raws).Pairwise fun a b => a.number < b.number := by
  induction raws generalizing zone number with
  | nil => exact List.Pairwise.nil
  | cons raw rest ih =>
    rw [significantLines_cons]
    refine List.pairwise_append.mpr ⟨?_, ih _ _, ?_⟩
    · cases zone.line? number raw with
      | none => exact List.Pairwise.nil
      | some line => exact List.pairwise_singleton _ line
    · intro line kept later inside
      obtain rfl := Zone.eq_of_line? (Option.mem_toList.mp kept)
      exact Nat.lt_of_succ_le (number_le_of_mem_significantLines inside)

/-- The numbers of the body lines of a text grow. -/
theorem body_increasing (text : Text) (offset : Nat) :
    (Source.ofText text offset).body.Pairwise fun a b => a.number < b.number :=
  (significantLines_increasing .start (offset + 1) (Text.lines text)).tail

/-- Body lines have positions of their own. -/
theorem body_positions_nodup (text : Text) (offset : Nat) :
    ((Source.ofText text offset).body.map Line.position).Nodup := by
  refine List.pairwise_map.mpr ((body_increasing text offset).imp ?_)
  intro a b below same
  have numbers : a.number = b.number := congrArg Position.line same
  omega

end DiagramLint
