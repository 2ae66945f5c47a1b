import DiagramLint.Proofs.Text.Words
import Mathlib.Data.List.Infix

/-!
Where a text is cut into words. A blank cuts where the number of double quotes in front of it is even, so one look at
the whole text tells all cuts. The words are what stands between them, as far as anything does: nothing but the blanks
that cut is lost, only the last word may have a quote that is not closed, and words put together with blanks between
them are cut where they were put together (`words_between_outer_blanks`).
-/
namespace DiagramLint.Text

variable {t a b w : Text} {ws : List Text} {c : Char} {quoted : Bool}

/-! ### Blanks outside quotes -/

/-- Whether a place is inside double quotes, behind a text; `quoted` says whether the text begins inside them. -/
def insideBehind (quoted : Bool) (front : Text) : Bool := quoted != (front.count '"' % 2 == 1)

/-- The characters of a text, each with whether it is inside double quotes. -/
def quoting (quoted : Bool) (t : Text) : List (Char × Bool) := t.zip (t.inits.map (insideBehind quoted))

/-- A blank outside double quotes. -/
def isOuterBlank (place : Char × Bool) : Bool := isBlank place.1 && !place.2

/-- The text without its blanks outside double quotes. -/
def withoutOuterBlanks (t : Text) : Text := ((quoting false t).filter fun place => !isOuterBlank place).map Prod.fst

/-- The texts between the blanks outside double quotes. -/
def betweenOuterBlanks (t : Text) : List Text :=
  ((quoting false t).splitOnP isOuterBlank).map fun piece => piece.map Prod.fst

/-- The text has no blank outside double quotes. -/
def Uncut (quoted : Bool) (t : Text) : Prop := ∀ place ∈ quoting quoted t, isOuterBlank place = false

/-- A double quote turns inside into outside. -/
theorem insideBehind_cons (quoted : Bool) (c : Char) (front : Text) :
    insideBehind quoted (c :: front) = insideBehind (if c = '"' then !quoted else quoted) front := by
  unfold insideBehind
  by_cases quote : c = '"'
  · have flipped : ((front.count '"' + 1) % 2 == 1) = !(front.count '"' % 2 == 1) := by
      rw [Bool.eq_iff_iff]
      simp only [beq_iff_eq, Bool.not_eq_true', beq_eq_false_iff_ne]
      omega
    rw [if_pos quote, quote, List.count_cons_self, flipped, Bool.bne_not, Bool.not_bne]
  · rw [if_neg quote, List.count_cons_of_ne quote]

theorem quoting_cons (quoted : Bool) (c : Char) (t : Text) :
    quoting quoted (c :: t) = (c, quoted) :: quoting (if c = '"' then !quoted else quoted) t := by
  have fronts : insideBehind quoted ∘ (c :: ·) = insideBehind (if c = '"' then !quoted else quoted) :=
    funext (insideBehind_cons quoted c)
  have first : insideBehind quoted [] = quoted := by simp [insideBehind]
  rw [quoting, List.inits_cons, List.map_cons, List.map_map, fronts, first, List.zip_cons_cons, quoting]

theorem quoting_append (quoted : Bool) (a b : Text) :
    quoting quoted (a ++ b) = quoting quoted a ++ quoting (insideBehind quoted a) b := by
  induction a generalizing quoted with
  | nil => simp [quoting, insideBehind]
  | cons c a ih => rw [List.cons_append, quoting_cons, ih, quoting_cons, insideBehind_cons, List.cons_append]

theorem map_fst_quoting (quoted : Bool) (t : Text) : (quoting quoted t).map Prod.fst = t := by
  induction t generalizing quoted with
  | nil => rfl
  | cons c t ih => rw [quoting_cons, List.map_cons, ih]

theorem uncut_cons_iff :
    Uncut quoted (c :: t) ↔ isOuterBlank (c, quoted) = false ∧ Uncut (if c = '"' then !quoted else quoted) t := by
  rw [Uncut, quoting_cons, List.forall_mem_cons, Uncut]

/-- A text that is whole between blanks has no blank to be cut at and closes its quotes. -/
theorem isWhole_isBlank_iff :
    isWhole isBlank quoted t = true ↔ Uncut quoted t ∧ insideBehind quoted t = false := by
  induction t generalizing quoted with
  | nil => simp [isWhole, Uncut, quoting, insideBehind]
  | cons c t ih =>
    have here : (quoted || !isBlank c) = true ↔ isOuterBlank (c, quoted) = false := by
      cases quoted <;> simp [isOuterBlank]
    rw [isWhole, Bool.and_eq_true_iff, ih, uncut_cons_iff, insideBehind_cons, here, and_assoc]

/-- The first blank outside double quotes. -/
theorem exists_first_cut (cut : ¬ Uncut quoted t) :
    ∃ a c b, t = a ++ c :: b ∧ isWhole isBlank quoted a = true ∧ isBlank c = true := by
  induction t generalizing quoted with
  | nil => exact absurd nofun cut
  | cons c t ih =>
    by_cases here : isOuterBlank (c, quoted) = true
    · obtain ⟨blank, outside⟩ := Bool.and_eq_true_iff.mp here
      exact ⟨[], c, t, rfl, outside, blank⟩
    · rw [Bool.not_eq_true] at here
      obtain ⟨a, c', b, rfl, whole, blank⟩ := ih fun later => cut (uncut_cons_iff.mpr ⟨here, later⟩)
      obtain ⟨uncut, closed⟩ := isWhole_isBlank_iff.mp whole
      refine ⟨c :: a, c', b, rfl, isWhole_isBlank_iff.mpr ⟨uncut_cons_iff.mpr ⟨here, uncut⟩, ?_⟩, blank⟩
      rw [insideBehind_cons, closed]

/-- Induction along the cuts: a text is cut nowhere, or at a blank behind a text that is cut nowhere. -/
theorem cut_induction {P : Text → Prop} (uncut : ∀ t, Uncut false t → P t)
    (cut : ∀ a c b, isWhole isBlank false a = true → isBlank c = true → P b → P (a ++ c :: b)) (t : Text) : P t := by
  induction length : t.length using Nat.strongRecOn generalizing t with
  | ind k ih =>
    by_cases here : Uncut false t
    · exact uncut t here
    · obtain ⟨a, c, b, rfl, whole, blank⟩ := exists_first_cut here
      refine cut a c b whole blank (ih b.length ?_ b rfl)
      simp only [List.length_append, List.length_cons] at length
      omega

/-! ### One cut -/

theorem words_of_uncut (uncut : Uncut false t) : words t = consWord t [] := by
  have one : ∀ quoted, Uncut quoted t → wordsFrom quoted t = (t, []) := by
    intro quoted uncut
    clear * - uncut
    induction t generalizing quoted with
    | nil => rfl
    | cons c t ih =>
      obtain ⟨here, later⟩ := uncut_cons_iff.mp uncut
      have inside : (isBlank c && !(if c = '"' then !quoted else quoted)) = false := by
        by_cases quote : c = '"'
        · have mark : isBlank '"' = false := by decide
          simp [quote, mark]
        · rw [if_neg quote]
          exact here
      simp only [wordsFrom, ih _ later, inside, Bool.false_eq_true, if_false]
  rw [words, one false uncut]

theorem words_append_blank (whole : isWhole isBlank false a = true) (blank : isBlank c = true) (b : Text) :
    words (a ++ c :: b) = consWord a (words b) := by
  have unquoted : c ≠ '"' := by
    rintro rfl
    exact absurd blank (by decide)
  have cut : wordsFrom false (c :: b) = ([], words b) := by simp [wordsFrom, unquoted, blank, words]
  rw [words, wordsFrom_of_whole whole, cut, List.append_nil]

theorem quoting_append_blank (whole : isWhole isBlank false a = true) (blank : isBlank c = true) (b : Text) :
    quoting false (a ++ c :: b) = quoting false a ++ (c, false) :: quoting false b := by
  have unquoted : c ≠ '"' := by
    rintro rfl
    exact absurd blank (by decide)
  rw [quoting_append, (isWhole_isBlank_iff.mp whole).2, quoting_cons, if_neg unquoted]

theorem betweenOuterBlanks_of_uncut (uncut : Uncut false t) : betweenOuterBlanks t = [t] := by
  rw [betweenOuterBlanks, List.splitOnP_eq_singleton uncut, List.map_singleton, map_fst_quoting]

theorem betweenOuterBlanks_append_blank (whole : isWhole isBlank false a = true) (blank : isBlank c = true) (b : Text) :
    betweenOuterBlanks (a ++ c :: b) = a :: betweenOuterBlanks b := by
  have seen : isOuterBlank (c, false) = true := by simp [isOuterBlank, blank]
  rw [betweenOuterBlanks, quoting_append_blank whole blank,
    List.splitOnP_append_cons_of_forall_mem (isWhole_isBlank_iff.mp whole).1 _ seen, List.map_cons, map_fst_quoting,
    betweenOuterBlanks]

theorem withoutOuterBlanks_of_uncut (uncut : Uncut false t) : withoutOuterBlanks t = t := by
  have kept : ∀ place ∈ quoting false t, (!isOuterBlank place) = true := by simpa [Uncut] using uncut
  rw [withoutOuterBlanks, List.filter_eq_self.mpr kept, map_fst_quoting]

theorem withoutOuterBlanks_append_blank (whole : isWhole isBlank false a = true) (blank : isBlank c = true) (b : Text) :
    withoutOuterBlanks (a ++ c :: b) = a ++ withoutOuterBlanks b := by
  have front := withoutOuterBlanks_of_uncut (isWhole_isBlank_iff.mp whole).1
  have lost : (!isOuterBlank (c, false)) = false := by simp [isOuterBlank, blank]
  rw [withoutOuterBlanks] at front
  rw [withoutOuterBlanks, quoting_append_blank whole blank, List.filter_append, List.map_append, front,
    List.filter_cons_of_neg (by simp [lost]), withoutOuterBlanks]

/-! ### Words -/

theorem consWord_eq (w : Text) (ws : List Text) : consWord w ws = [w].filter (· ≠ []) ++ ws := by
  cases w <;> rfl

theorem flatten_consWord (w : Text) (ws : List Text) : (consWord w ws).flatten = w ++ ws.flatten := by
  cases w <;> rfl

theorem words_eq (t : Text) : words t = (betweenOuterBlanks t).filter (· ≠ []) := by
  induction t using cut_induction with
  | uncut t uncut => rw [words_of_uncut uncut, betweenOuterBlanks_of_uncut uncut, consWord_eq, List.append_nil]
  | cut a c b whole blank ih =>
    rw [words_append_blank whole blank, betweenOuterBlanks_append_blank whole blank, ih, consWord_eq,
      ← List.filter_append, List.singleton_append]

theorem flatten_words (t : Text) : (words t).flatten = withoutOuterBlanks t := by
  induction t using cut_induction with
  | uncut t uncut =>
    rw [words_of_uncut uncut, withoutOuterBlanks_of_uncut uncut, flatten_consWord, List.flatten_nil, List.append_nil]
  | cut a c b whole blank ih =>
    rw [words_append_blank whole blank, withoutOuterBlanks_append_blank whole blank, flatten_consWord, ih]

/-- Texts that blanks can be put between: none has a blank to be cut at, and all but the last one close their quotes. -/
structure Spaceable (ws : List Text) : Prop where
  filled : ∀ w ∈ ws, w ≠ []
  uncut : ∀ w ∈ ws, Uncut false w
  closed : ∀ w ∈ ws.dropLast, insideBehind false w = false

theorem Spaceable.consWord (spaceable : Spaceable ws) (whole : isWhole isBlank false w = true) :
    Spaceable (consWord w ws) := by
  obtain ⟨uncut, closed⟩ := isWhole_isBlank_iff.mp whole
  unfold Text.consWord
  split
  · exact spaceable
  · next filled =>
    refine ⟨List.forall_mem_cons.mpr ⟨by simpa using filled, spaceable.filled⟩,
      List.forall_mem_cons.mpr ⟨uncut, spaceable.uncut⟩, ?_⟩
    cases ws with
    | nil => exact nofun
    | cons v ws =>
      rw [List.dropLast_cons_cons]
      exact List.forall_mem_cons.mpr ⟨closed, spaceable.closed⟩

theorem spaceable_words (t : Text) : Spaceable (words t) := by
  induction t using cut_induction with
  | uncut t uncut =>
    rw [words_of_uncut uncut]
    unfold consWord
    split
    · exact ⟨nofun, nofun, nofun⟩
    · next filled => exact ⟨by simpa using filled, by simpa using uncut, nofun⟩
  | cut a c b whole blank ih =>
    rw [words_append_blank whole blank]
    exact ih.consWord whole

theorem words_join_of_spaceable (spaceable : Spaceable ws) : words (join [' '] ws) = ws := by
  induction ws with
  | nil => rfl
  | cons w ws ih =>
    obtain ⟨filled, others_filled⟩ := List.forall_mem_cons.mp spaceable.filled
    obtain ⟨uncut, others_uncut⟩ := List.forall_mem_cons.mp spaceable.uncut
    cases ws with
    | nil =>
      rw [join, List.intercalate_singleton, words_of_uncut uncut, consWord_eq]
      simp [filled]
    | cons v ws =>
      have closed := spaceable.closed
      rw [List.dropLast_cons_cons, List.forall_mem_cons] at closed
      have whole : isWhole isBlank false w = true := isWhole_isBlank_iff.mpr ⟨uncut, closed.1⟩
      rw [join_cons (List.cons_ne_nil v ws), words_cons_whole filled whole,
        ih ⟨others_filled, others_uncut, closed.2⟩]

theorem even_of_closed (closed : insideBehind false t = false) : t.count '"' % 2 = 0 := by
  simpa [insideBehind] using closed

/-- The words of a text are what stands between its blanks outside double quotes, as far as anything does. None of them
is empty or has a blank outside double quotes, in a row they are the text without just these blanks, all but the last
have an even number of double quotes, and with spaces between them they make a text with the same words. -/
theorem words_between_outer_blanks (t : Text) :
    words t = (betweenOuterBlanks t).filter (· ≠ []) ∧
    (∀ w ∈ words t, w ≠ [] ∧ Uncut false w) ∧
    (words t).flatten = withoutOuterBlanks t ∧
    (∀ w ∈ (words t).dropLast, w.count '"' % 2 = 0) ∧
    words (join [' '] (words t)) = words t := by
  have spaceable := spaceable_words t
  exact ⟨words_eq t, fun w member => ⟨spaceable.filled w member, spaceable.uncut w member⟩, flatten_words t,
    fun w member => even_of_closed (spaceable.closed w member), words_join_of_spaceable spaceable⟩

/-- A quote in the middle of a word, one kind of blank beside another, and a quote that stays open. -/
example : words "a\"b c\"d \t\u00a0e \"f g".toList = ["a\"b c\"d", "e", "\"f g"].map String.toList := by decide

end DiagramLint.Text
