import DiagramLint.Direction
import DiagramLint.Text.Word
import Mathlib.Data.List.TakeWhile
import Mathlib.Tactic.Common

/-!
What a line looks like that a keyword begins, and what characters the parts of a line have.
-/
namespace DiagramLint.Text

/-! ### Keywords -/

theorem prefix_of_dropStart? {start t rest : Text} (found : dropStart? start t = some rest) : start <+: t :=
  ⟨rest, (dropStart?_eq_some_iff.mp found).symm⟩

/-- A line behind whose keyword something is read begins with the keyword. -/
theorem prefix_of_afterKeyword? {keyword : String} {t rest : Text} (found : afterKeyword? keyword t = some rest) :
    keyword.toList <+: t := by
  unfold afterKeyword? at found
  split at found
  · exact nomatch found
  · next start => exact prefix_of_dropStart? start
  · next start => exact prefix_of_dropStart? start

theorem prefix_of_afterKeywordColon? {keyword : String} {t rest : Text}
    (found : afterKeywordColon? keyword t = some rest) : keyword.toList <+: t := by
  unfold afterKeywordColon? at found
  split at found
  · exact nomatch found
  · next start => exact prefix_of_dropStart? start
  · next start => exact prefix_of_dropStart? start

/-- No line begins with two texts of which neither begins the other. -/
theorem not_prefix_of_apart {a b t : Text} (first : a <+: t) (apart : ¬ a <+: b ∧ ¬ b <+: a) : ¬ b <+: t := by
  intro second
  rcases List.prefix_or_prefix_of_prefix first second with inside | inside
  · exact apart.1 inside
  · exact apart.2 inside

theorem afterKeyword?_eq_none {a : Text} {keyword : String} {t : Text} (first : a <+: t)
    (apart : ¬ a <+: keyword.toList ∧ ¬ keyword.toList <+: a) : afterKeyword? keyword t = none := by
  cases found : afterKeyword? keyword t with
  | none => rfl
  | some rest => exact absurd (prefix_of_afterKeyword? found) (not_prefix_of_apart first apart)

theorem afterKeywordColon?_eq_none {a : Text} {keyword : String} {t : Text} (first : a <+: t)
    (apart : ¬ a <+: keyword.toList ∧ ¬ keyword.toList <+: a) : afterKeywordColon? keyword t = none := by
  cases found : afterKeywordColon? keyword t with
  | none => rfl
  | some rest => exact absurd (prefix_of_afterKeywordColon? found) (not_prefix_of_apart first apart)

/-- The text up to the first blank. -/
def firstWord (t : Text) : Text := t.takeWhile fun c => !isBlank c

/-- A keyword without blanks that a line begins with is its first word. -/
theorem firstWord_of_afterKeyword? {keyword : String} {t rest : Text} (found : afterKeyword? keyword t = some rest)
    (visible : keyword.toList.all fun c => !isBlank c) : firstWord t = keyword.toList := by
  have whole : ∀ c ∈ keyword.toList, (!isBlank c) = true := List.all_eq_true.mp visible
  unfold afterKeyword? at found
  split at found
  · exact nomatch found
  · next start =>
    rw [dropStart?_eq_some_iff.mp start, firstWord, List.takeWhile_append_of_pos whole]
    simp
  · next c behind start =>
    split at found
    · next blank =>
      rw [dropStart?_eq_some_iff.mp start, firstWord, List.takeWhile_append_of_pos whole]
      simp [blank]
    · exact nomatch found

/-- A line does not begin with a keyword that is not its first word. -/
theorem afterKeyword?_eq_none_of_firstWord {keyword : String} {t : Text} (other : firstWord t ≠ keyword.toList)
    (visible : keyword.toList.all fun c => !isBlank c) : afterKeyword? keyword t = none := by
  cases found : afterKeyword? keyword t with
  | none => rfl
  | some rest => exact absurd (firstWord_of_afterKeyword? found visible) other

/-- The text up to the first blank or colon. -/
def headWord (t : Text) : Text := t.takeWhile fun c => !isBlank c && c != ':'

/-- A keyword without blanks and colons that a line begins with is its head word. -/
theorem headWord_of_afterKeywordColon? {keyword : String} {t : Text} (found : (afterKeywordColon? keyword t).isSome)
    (solid : keyword.toList.all fun c => !isBlank c && c != ':') : headWord t = keyword.toList := by
  have whole : ∀ c ∈ keyword.toList, (!isBlank c && c != ':') = true := List.all_eq_true.mp solid
  unfold afterKeywordColon? at found
  split at found
  · exact nomatch found
  · next start =>
    rw [dropStart?_eq_some_iff.mp start, headWord, List.takeWhile_append_of_pos whole]
    simp
  · next c behind start =>
    rw [dropStart?_eq_some_iff.mp start, headWord, List.takeWhile_append_of_pos whole]
    split at found
    · next colon => simp [colon]
    · split at found
      · next blank => simp [blank]
      · exact nomatch found

/-- A keyword that ends at a blank or at the end of a line ends well where a colon may end it too. -/
theorem afterKeywordColon?_of_afterKeyword? {keyword : String} {t rest : Text}
    (found : afterKeyword? keyword t = some rest) : (afterKeywordColon? keyword t).isSome := by
  unfold afterKeyword? at found
  unfold afterKeywordColon?
  split at found
  · exact nomatch found
  · rfl
  · split at found
    · split <;> rfl
    · exact nomatch found

/-- The word is in front of the text, and a blank, a colon or the end of the text is behind it. -/
def Leads (word : String) (t : Text) : Prop :=
  ∃ rest, t = word.toList ++ rest ∧ ∀ c ∈ rest.head?, isBlank c = true ∨ c = ':'

theorem afterKeywordColon?_isSome_iff {word : String} {t : Text} :
    (afterKeywordColon? word t).isSome ↔ t.Leads word := by
  unfold afterKeywordColon? Leads
  constructor
  · intro found
    split at found
    · cases found
    · next start => exact ⟨[], dropStart?_eq_some_iff.mp start, nofun⟩
    · next c rest start =>
      refine ⟨c :: rest, dropStart?_eq_some_iff.mp start, ?_⟩
      rintro _ ⟨⟩
      split at found
      · next colon => exact .inr colon
      · split at found
        · next blank => exact .inl blank
        · cases found
  · rintro ⟨rest, whole, ended⟩
    rw [dropStart?_eq_some_iff.mpr whole]
    cases rest with
    | nil => rfl
    | cons c rest =>
      rcases ended c rfl with blank | colon
      · simp only [blank, if_true]
        split <;> rfl
      · simp [colon]

instance (word : String) (t : Text) : Decidable (t.Leads word) := decidable_of_iff _ afterKeywordColon?_isSome_iff

/-- A word in front of a text is taken as a keyword unless a colon is directly behind it. -/
theorem afterKeyword?_isSome_or_colon {word : String} {t : Text} (leads : t.Leads word) :
    (afterKeyword? word t).isSome ∨ word.toList ++ [':'] <+: t := by
  obtain ⟨rest, rfl, ended⟩ := leads
  unfold afterKeyword?
  rw [dropStart?_eq_some_iff.mpr rfl]
  cases rest with
  | nil => exact .inl rfl
  | cons c rest =>
    rcases ended c rfl with blank | rfl
    · exact .inl (by simp [blank])
    · exact .inr ⟨rest, by simp⟩

theorem leads_of_colon {word : String} {t : Text} (colon : word.toList ++ [':'] <+: t) : t.Leads word := by
  obtain ⟨rest, rfl⟩ := colon
  exact ⟨':' :: rest, by simp, by simp⟩

theorem afterKeyword?_of_colon {word : String} {t : Text} (colon : word.toList ++ [':'] <+: t) :
    afterKeyword? word t = none := by
  obtain ⟨rest, rfl⟩ := colon
  have start : dropStart? word.toList (word.toList ++ [':'] ++ rest) = some (':' :: rest) :=
    dropStart?_eq_some_iff.mpr (by simp)
  rw [afterKeyword?, start]
  rfl

/-! ### Characters -/

theorem append_of_dropEnd? {finish t before : Text} (found : dropEnd? finish t = some before) :
    t = before ++ finish := by
  obtain ⟨rest, start, rfl⟩ := Option.map_eq_some_iff.mp found
  have whole := congrArg List.reverse (dropStart?_eq_some_iff.mp start)
  simpa using whole

theorem dropEnd?_eq_none {finish t : Text} (other : ¬ finish <:+ t) : dropEnd? finish t = none := by
  by_contra found
  obtain ⟨before, found⟩ := Option.ne_none_iff_exists'.mp found
  exact other ⟨before, (append_of_dropEnd? found).symm⟩

theorem mem_of_endsWith {c : Char} {t : Text} (finished : endsWith [c] t = true) : c ∈ t := by
  obtain ⟨before, found⟩ := Option.isSome_iff_exists.mp finished
  rw [append_of_dropEnd? found]
  simp

theorem mem_of_mem_cutColon? {quoted : Bool} {t head label : Text} (found : cutColon? quoted t = some (head, label)) :
    ∀ c ∈ head, c ∈ t := by
  induction t generalizing quoted head label with
  | nil => exact nomatch found
  | cons a t ih =>
    unfold cutColon? at found
    split at found
    · simp only [Option.some.injEq, Prod.mk.injEq] at found
      obtain ⟨rfl, -⟩ := found
      exact nofun
    · obtain ⟨⟨before, rest⟩, later, same⟩ := Option.map_eq_some_iff.mp found
      simp only [Prod.mk.injEq] at same
      obtain ⟨rfl, -⟩ := same
      intro c member
      rcases List.mem_cons.mp member with rfl | inside
      · exact List.mem_cons_self
      · exact List.mem_cons_of_mem a (ih later c inside)

theorem mem_of_mem_trimEnd {t : Text} : ∀ c ∈ trimEnd t, c ∈ t := by
  intro c member
  have kept := (List.dropWhile_sublist isBlank).subset (List.mem_reverse.mp member)
  exact List.mem_reverse.mp kept

theorem mem_of_mem_trim {t : Text} : ∀ c ∈ trim t, c ∈ t :=
  fun c member => (List.dropWhile_sublist isBlank).subset (mem_of_mem_trimEnd c member)

/-- The head of a line is made of characters of the line. -/
theorem mem_of_mem_head {t : Text} : ∀ c ∈ (headAndLabel t).1, c ∈ t := by
  intro c member
  unfold headAndLabel at member
  split at member
  · next head label found => exact mem_of_mem_cutColon? found c (mem_of_mem_trimEnd c member)
  · exact member

theorem mem_of_mem_consWord {c : Char} {word : Text} {words : List Text} {w : Text}
    (member : w ∈ consWord word words) (inside : c ∈ w) : c ∈ word ∨ ∃ w ∈ words, c ∈ w := by
  unfold consWord at member
  split at member
  · exact .inr ⟨w, member, inside⟩
  · rcases List.mem_cons.mp member with rfl | later
    · exact .inl inside
    · exact .inr ⟨w, later, inside⟩

/-- The tokens of a text are made of its characters. -/
theorem mem_of_mem_tokens {c : Char} {t w : Text} (member : w ∈ tokens t) (inside : c ∈ w) : c ∈ t := by
  have from_rest : ∀ t : Text, (c ∈ (tokensFrom t).1 ∨ ∃ w ∈ (tokensFrom t).2, c ∈ w) → c ∈ t := by
    intro t
    induction t with
    | nil => simp [tokensFrom]
    | cons a t ih =>
      intro found
      simp only [tokensFrom] at found
      split at found
      · rcases found with found | ⟨w, member, inside⟩
        · exact nomatch found
        · exact List.mem_cons_of_mem a (ih (mem_of_mem_consWord member inside))
      · rcases found with found | later
        · rcases List.mem_cons.mp found with rfl | found
          · exact List.mem_cons_self
          · exact List.mem_cons_of_mem a (ih (.inl found))
        · exact List.mem_cons_of_mem a (ih (.inr later))
  exact from_rest t (mem_of_mem_consWord member inside)

/-! ### Directions -/

/-- The line sets a direction. -/
def namesDirection (t : Text) : Bool := ((afterKeyword? "direction" t).bind Direction.ofName?).isSome

theorem not_namesDirection {a t : Text} (first : a <+: t)
    (apart : ¬ a <+: "direction".toList ∧ ¬ "direction".toList <+: a) : namesDirection t = false := by
  rw [namesDirection, afterKeyword?_eq_none first apart]
  rfl

theorem not_namesDirection_of_none {t : Text} (other : afterKeyword? "direction" t = none) :
    namesDirection t = false := by
  rw [namesDirection, other]
  rfl

/-- A line that sets a direction has letters and blanks only. -/
theorem mem_of_namesDirection {t : Text} (names : namesDirection t = true) :
    ∀ c ∈ t, isBlank c = true ∨ c ∈ "directionTBDLR".toList := by
  obtain ⟨direction, found⟩ := Option.isSome_iff_exists.mp names
  obtain ⟨rest, after, named⟩ := Option.bind_eq_some_iff.mp found
  have letters : rest ⊆ "directionTBDLR".toList := by
    have same : direction.name.toList = rest := by simpa using List.find?_some named
    rw [← same]
    cases direction <;> decide
  unfold afterKeyword? at after
  split at after
  · exact nomatch after
  · obtain rfl : [] = rest := by simpa using after
    exact nomatch named
  · next a behind start =>
    split at after
    · obtain rfl : trimStart (a :: behind) = rest := by simpa using after
      intro c member
      rw [dropStart?_eq_some_iff.mp start] at member
      rcases List.mem_append.mp member with keyword | inside
      · right
        have letters : "direction".toList ⊆ "directionTBDLR".toList := by decide
        exact letters keyword
      · rw [← List.takeWhile_append_dropWhile (p := isBlank) (l := a :: behind)] at inside
        rcases List.mem_append.mp inside with blank | letter
        · exact .inl (List.mem_takeWhile_imp blank)
        · exact .inr (letters letter)
    · exact nomatch after

theorem not_mem_of_namesDirection {c : Char} {t : Text} (names : namesDirection t = true)
    (visible : isBlank c = false) (foreign : c ∉ "directionTBDLR".toList) : c ∉ t := by
  intro member
  rcases mem_of_namesDirection names c member with blank | letter
  · rw [visible] at blank
    exact nomatch blank
  · exact foreign letter

end DiagramLint.Text
