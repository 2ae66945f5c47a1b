import DiagramLint.Proofs.Text.Ends
import DiagramLint.Proofs.Text.Keywords

/-!
Words and the pieces between marks. A keyword is told apart from what is written behind it, a word ends at the first blank,
and a word falls into the pieces between its marks, of which only those count that are not empty.
-/
namespace DiagramLint.Text

variable {t u w rest : Text} {c mark b : Char} {keyword : String}

/-! ### Keywords and words -/

/-- A keyword ends in front of a blank or the end. -/
theorem afterKeyword?_append (ended : ∀ c ∈ u.head?, isBlank c = true) :
    afterKeyword? keyword (keyword.toList ++ u) = some (trimStart u) := by
  have start : dropStart? keyword.toList (keyword.toList ++ u) = some u := dropStart?_eq_some_iff.mpr rfl
  rw [afterKeyword?, start]
  cases u with
  | nil => rfl
  | cons c u => exact if_pos (ended c rfl)

/-- What is written behind a keyword and some blanks. -/
theorem afterKeyword?_written {gap : Text} (filled : gap ≠ []) (blank : allBlank gap = true) (begins : BeginsVisible rest) :
    afterKeyword? keyword (keyword.toList ++ (gap ++ rest)) = some rest := by
  have ended : ∀ c ∈ (gap ++ rest).head?, isBlank c = true := by
    obtain ⟨b, gap, rfl⟩ := List.exists_cons_of_ne_nil filled
    rintro c ⟨⟩
    exact List.all_eq_true.mp blank _ List.mem_cons_self
  rw [afterKeyword?_append ended, trimStart_of_begins blank begins]

/-- A line begins with a keyword if the keyword is its first word. -/
theorem isSome_afterKeyword?_iff (visible : keyword.toList.all fun c => !isBlank c) :
    (afterKeyword? keyword t).isSome = true ↔ firstWord t = keyword.toList := by
  constructor
  · intro found
    obtain ⟨rest, found⟩ := Option.isSome_iff_exists.mp found
    exact firstWord_of_afterKeyword? found visible
  · intro first
    have whole : t = keyword.toList ++ t.dropWhile fun c => !isBlank c := by
      rw [← first, firstWord, List.takeWhile_append_dropWhile]
    have ended : ∀ c ∈ (t.dropWhile fun c => !isBlank c).head?, isBlank c = true := by
      intro c head
      have stopped := List.head?_dropWhile_not (fun c => !isBlank c) t
      rw [Option.mem_def.mp head] at stopped
      simpa using stopped
    rw [whole, afterKeyword?_append ended]
    rfl

theorem afterKeywordColon?_written (begins : BeginsVisible rest) :
    afterKeywordColon? keyword (keyword.toList ++ ' ' :: rest) = some rest := by
  have start : dropStart? keyword.toList (keyword.toList ++ ' ' :: rest) = some (' ' :: rest) :=
    dropStart?_eq_some_iff.mpr rfl
  have blank : isBlank ' ' = true := by decide
  have trimmed : trimStart (' ' :: rest) = rest := trimStart_of_begins (b := [' ']) allBlank_space begins
  simp [afterKeywordColon?, start, blank, trimmed]

/-- A keyword with something behind it ends in front of blanks. -/
theorem exists_gap_of_afterKeyword? (found : afterKeyword? keyword t = some rest) (filled : rest ≠ []) :
    ∃ gap, t = keyword.toList ++ (gap ++ rest) ∧ gap ≠ [] ∧ allBlank gap = true := by
  unfold afterKeyword? at found
  split at found
  · cases found
  · obtain rfl := Option.some.inj found
    exact absurd rfl filled
  · next c behind start =>
    split at found
    · next blank =>
      obtain rfl := Option.some.inj found
      refine ⟨(c :: behind).takeWhile isBlank, ?_, by simp [blank], List.all_takeWhile⟩
      rw [dropStart?_eq_some_iff.mp start, trimStart, List.takeWhile_append_dropWhile]
    · cases found

theorem cutBlank?_eq_none_iff : cutBlank? t = none ↔ ∀ c ∈ t, isBlank c = false := by
  induction t with
  | nil => simp [cutBlank?]
  | cons c t ih =>
    by_cases blank : isBlank c = true
    · simp [cutBlank?, blank]
    · simp [cutBlank?, blank, ih]

theorem cutBlank?_written (visible : ∀ c ∈ w, isBlank c = false) (blank : isBlank b = true) :
    cutBlank? (w ++ b :: rest) = some (w, rest) := by
  induction w with
  | nil => simp [cutBlank?, blank]
  | cons c w ih =>
    obtain ⟨first, others⟩ := List.forall_mem_cons.mp visible
    simp [cutBlank?, first, ih others]

theorem cutBlank?_spec (found : cutBlank? t = some (w, rest)) :
    (∀ c ∈ w, isBlank c = false) ∧ ∃ b, isBlank b = true ∧ t = w ++ b :: rest := by
  induction t generalizing w with
  | nil => cases found
  | cons c t ih =>
    rw [cutBlank?] at found
    split at found
    · next blank =>
      obtain ⟨rfl, rfl⟩ := Prod.mk.inj (Option.some.inj found)
      exact ⟨nofun, c, blank, rfl⟩
    · next visible =>
      obtain ⟨⟨before, behind⟩, later, same⟩ := Option.map_eq_some_iff.mp found
      obtain ⟨rfl, rfl⟩ := Prod.mk.inj same
      obtain ⟨others, b, blank, rfl⟩ := ih later
      exact ⟨List.forall_mem_cons.mpr ⟨by simpa using visible, others⟩, b, blank, rfl⟩

/-- The last word stands behind the last blank. -/
theorem cutLastBlank?_written (visible : ∀ c ∈ w, isBlank c = false) (blank : isBlank b = true) :
    cutLastBlank? (t ++ b :: w) = some (t, w) := by
  have backwards : (t ++ b :: w).reverse = w.reverse ++ b :: t.reverse := by simp
  rw [cutLastBlank?, backwards, cutBlank?_written (by simpa using visible) blank]
  simp

theorem cutLastBlank?_of_visible (visible : ∀ c ∈ w, isBlank c = false) : cutLastBlank? w = none := by
  have uncut : cutBlank? w.reverse = none := cutBlank?_eq_none_iff.mpr (by simpa using visible)
  rw [cutLastBlank?, uncut, Option.map_none]

/-! ### Open quotes -/

/-- A quote at the start that is not closed is no quote around the text. -/
theorem unquote_of_unclosed (unclosed : ∀ u, t = '"' :: u → '"' ∉ u) : unquote t = t := by
  have open_ended : between? ['"'] ['"'] t = none := by
    rw [between?, Option.bind_eq_none_iff]
    intro u start
    have begins : t = '"' :: u := dropStart?_eq_some_iff.mp start
    refine dropEnd?_eq_none fun ends => unclosed u begins ?_
    exact ends.subset List.mem_cons_self
  rw [unquote, open_ended, Option.getD_none]

/-- A quote that is not closed stays in the text. -/
theorem quote_of_unclosed (absent : '"' ∉ u) : ∃ t, trimmed? (unquote (trim ('"' :: u))) = some t ∧ '"' ∈ t := by
  have visible : isBlank '"' = false := by decide
  have unquoted : unquote ('"' :: trimEnd u) = '"' :: trimEnd u := by
    refine unquote_of_unclosed fun v begins member => absent (mem_of_mem_trimEnd '"' ?_)
    rwa [(List.cons.inj begins).2]
  refine ⟨'"' :: trimEnd (trimEnd u), ?_, List.mem_cons_self⟩
  rw [trim_cons visible, unquoted, trimmed?_of_ne_nil (by simp [trim_cons visible]), trim_cons visible]

/-! ### Pieces -/

theorem pieces_ne_nil (mark : Char) (t : Text) : pieces mark t ≠ [] := by
  cases t with
  | nil => exact List.cons_ne_nil _ _
  | cons c t =>
    rw [pieces]
    split
    · exact List.cons_ne_nil _ _
    · split <;> exact List.cons_ne_nil _ _

theorem pieces_cons (mark c : Char) (t : Text) :
    pieces mark (c :: t) = if c = mark then [] :: pieces mark t else (pieces mark t).modifyHead (c :: ·) := by
  obtain ⟨first, others, found⟩ := List.exists_cons_of_ne_nil (pieces_ne_nil mark t)
  rw [pieces, found]
  rfl

theorem pieces_eq_splitOn (mark : Char) (t : Text) : pieces mark t = t.splitOn mark := by
  induction t with
  | nil => rfl
  | cons c t ih => simp only [pieces_cons, List.splitOn_cons_eq_if_modifyHead, ih, beq_iff_eq]

theorem pieces_append_mark (t u : Text) : pieces mark (t ++ mark :: u) = pieces mark t ++ pieces mark u := by
  rw [pieces_eq_splitOn, pieces_eq_splitOn, pieces_eq_splitOn]
  exact List.splitOnP_append_cons t u (beq_self_eq_true mark)

theorem mem_of_mem_pieces {piece : Text} (member : piece ∈ pieces mark t) (inside : c ∈ piece) : c ∈ t := by
  induction t generalizing piece with
  | nil =>
    obtain rfl : piece = [] := by simpa [pieces] using member
    exact inside
  | cons a t ih =>
    rw [pieces_cons] at member
    split at member
    · rcases List.mem_cons.mp member with rfl | later
      · cases inside
      · exact List.mem_cons_of_mem a (ih later inside)
    · obtain ⟨first, others, found⟩ := List.exists_cons_of_ne_nil (pieces_ne_nil mark t)
      rw [found, List.modifyHead_cons] at member
      rcases List.mem_cons.mp member with rfl | later
      · rcases List.mem_cons.mp inside with rfl | behind
        · exact List.mem_cons_self
        · exact List.mem_cons_of_mem a (ih (by simp [found]) behind)
      · exact List.mem_cons_of_mem a (ih (by simp [found, later]) inside)

/-- Every character but the mark stands in a piece. -/
theorem exists_piece (mark : Char) (inside : c ∈ t) (other : c ≠ mark) : ∃ piece ∈ pieces mark t, c ∈ piece := by
  induction t with
  | nil => cases inside
  | cons a t ih =>
    rw [pieces_cons]
    split
    · next same =>
      obtain ⟨piece, member, held⟩ := ih ((List.mem_cons.mp inside).resolve_left fun here => other (here.trans same))
      exact ⟨piece, List.mem_cons_of_mem _ member, held⟩
    · obtain ⟨first, others, found⟩ := List.exists_cons_of_ne_nil (pieces_ne_nil mark t)
      rw [found] at ih ⊢
      rw [List.modifyHead_cons]
      rcases List.mem_cons.mp inside with rfl | later
      · exact ⟨c :: first, List.mem_cons_self, List.mem_cons_self⟩
      · obtain ⟨piece, member, held⟩ := ih later
        rcases List.mem_cons.mp member with rfl | behind
        · exact ⟨a :: piece, List.mem_cons_self, List.mem_cons_of_mem a held⟩
        · exact ⟨piece, List.mem_cons_of_mem _ behind, held⟩

/-- The pieces that are not empty. -/
def filledPieces (mark : Char) (t : Text) : List Text := (pieces mark t).filter fun piece => piece ≠ []

theorem filledPieces_nil (mark : Char) : filledPieces mark [] = [] := rfl

theorem filledPieces_append_mark (t u : Text) :
    filledPieces mark (t ++ mark :: u) = filledPieces mark t ++ filledPieces mark u := by
  rw [filledPieces, pieces_append_mark, List.filter_append]
  rfl

theorem filledPieces_cons_mark (t : Text) : filledPieces mark (mark :: t) = filledPieces mark t :=
  filledPieces_append_mark [] t

theorem filledPieces_of_unmarked (filled : w ≠ []) (unmarked : mark ∉ w) : filledPieces mark w = [w] := by
  rw [filledPieces, pieces_eq_splitOn, List.splitOn_eq_singleton unmarked]
  simp [filled]

/-- No piece of a word has blanks to trim. -/
theorem filterMap_trimmed?_pieces (visible : ∀ c ∈ w, isBlank c = false) :
    (pieces mark w).filterMap trimmed? = filledPieces mark w := by
  have trimmed : ∀ piece ∈ pieces mark w, trimmed? piece = if piece ≠ [] then some piece else none := by
    intro piece member
    by_cases filled : piece = []
    · subst filled
      rfl
    · have inside : ∀ c ∈ piece, isBlank c = false := fun c here => visible c (mem_of_mem_pieces member here)
      rw [if_pos filled, trimmed?_of_tight filled (trim_of_all_visible filled inside)]
  rw [filledPieces]
  generalize pieces mark w = ps at trimmed ⊢
  induction ps with
  | nil => rfl
  | cons piece others ih =>
    obtain ⟨first, later⟩ := List.forall_mem_cons.mp trimmed
    rw [List.filterMap_cons, first, ih later]
    by_cases filled : piece = [] <;> simp [filled]

/-- A text has no piece that is not empty if it is made of marks. -/
theorem filledPieces_eq_nil_iff : filledPieces mark t = [] ↔ ∀ c ∈ t, c = mark := by
  induction t with
  | nil => simp [filledPieces, pieces]
  | cons a t ih =>
    rw [filledPieces, pieces_cons, List.forall_mem_cons, ← ih]
    by_cases same : a = mark
    · simp [same, filledPieces]
    · obtain ⟨first, others, found⟩ := List.exists_cons_of_ne_nil (pieces_ne_nil mark t)
      simp [same, found]

/-! ### Tokens -/

theorem tokensFrom_append (visible : ∀ c ∈ w, isBlank c = false) (t : Text) :
    tokensFrom (w ++ t) = (w ++ (tokensFrom t).1, (tokensFrom t).2) := by
  induction w with
  | nil => rfl
  | cons c w ih =>
    obtain ⟨first, others⟩ := List.forall_mem_cons.mp visible
    simp [tokensFrom, first, ih others]

theorem tokens_cons_blank (blank : isBlank b = true) (t : Text) : tokens (b :: t) = tokens t := by
  simp [tokens, tokensFrom, blank, consWord]

theorem tokens_blank_append (blank : allBlank u = true) (t : Text) : tokens (u ++ t) = tokens t := by
  induction u with
  | nil => rfl
  | cons b u ih =>
    obtain ⟨first, others⟩ := List.forall_mem_cons.mp (List.all_eq_true.mp blank)
    rw [List.cons_append, tokens_cons_blank first, ih (List.all_eq_true.mpr others)]

/-- A word is a token if a blank or nothing stands behind it. -/
theorem tokens_cons_word (filled : w ≠ []) (visible : ∀ c ∈ w, isBlank c = false)
    (ended : ∀ c ∈ t.head?, isBlank c = true) : tokens (w ++ t) = w :: tokens t := by
  have alone : (tokensFrom t).1 = [] := by
    cases t with
    | nil => rfl
    | cons c t => simp [tokensFrom, ended c rfl]
  rw [tokens, tokensFrom_append visible, alone, List.append_nil, consWord, if_neg (by simpa using filled), tokens, alone]
  rfl

theorem visible_of_mem_tokens (member : w ∈ tokens t) : ∀ c ∈ w, isBlank c = false := by
  have from_rest (t : Text) : ∀ w ∈ (tokensFrom t).1 :: (tokensFrom t).2, ∀ c ∈ w, isBlank c = false := by
    induction t with
    | nil => simp [tokensFrom]
    | cons a t ih =>
      by_cases blank : isBlank a = true
      · simp only [tokensFrom, blank, if_true, List.forall_mem_cons]
        refine ⟨List.forall_mem_nil _, ?_⟩
        intro w member
        unfold consWord at member
        split at member
        · exact ih w (List.mem_cons_of_mem _ member)
        · exact ih w member
      · obtain ⟨first, others⟩ := List.forall_mem_cons.mp ih
        have visible : isBlank a = false := by simpa using blank
        simp only [tokensFrom, visible, Bool.false_eq_true, if_false, List.forall_mem_cons, true_and]
        exact ⟨first, others⟩
  unfold tokens consWord at member
  split at member
  · exact from_rest t w (List.mem_cons_of_mem _ member)
  · exact from_rest t w member

/-- What stands between blanks or marks. -/
def tokenPieces (mark : Char) (t : Text) : List Text := (tokens t).flatMap (filledPieces mark)

theorem filterMap_trimmed?_tokens (mark : Char) (t : Text) :
    ((tokens t).flatMap (pieces mark)).filterMap trimmed? = tokenPieces mark t := by
  rw [List.filterMap_flatMap, tokenPieces]
  exact List.flatMap_congr fun w member => filterMap_trimmed?_pieces (visible_of_mem_tokens member)

theorem tokenPieces_eq (mark : Char) (t : Text) : tokenPieces mark t =
    filledPieces mark (tokensFrom t).1 ++ (tokensFrom t).2.flatMap (filledPieces mark) := by
  rw [tokenPieces, tokens, consWord]
  split
  · next empty =>
    rw [List.isEmpty_iff.mp empty]
    rfl
  · rfl

theorem tokenPieces_cons (apart : isBlank c = true ∨ c = mark) (t : Text) :
    tokenPieces mark (c :: t) = tokenPieces mark t := by
  by_cases blank : isBlank c = true
  · rw [tokenPieces, tokens_cons_blank blank, tokenPieces]
  · obtain rfl := apart.resolve_left blank
    simp [tokenPieces_eq, tokensFrom, blank, filledPieces_cons_mark]

theorem tokenPieces_gap_append (apart : ∀ c ∈ u, isBlank c = true ∨ c = mark) (t : Text) :
    tokenPieces mark (u ++ t) = tokenPieces mark t := by
  induction u with
  | nil => rfl
  | cons c u ih =>
    obtain ⟨first, others⟩ := List.forall_mem_cons.mp apart
    rw [List.cons_append, tokenPieces_cons first, ih others]

/-- A word without marks stands by itself if a blank, a mark or nothing stands behind it. -/
theorem tokenPieces_cons_word (filled : w ≠ []) (visible : ∀ c ∈ w, isBlank c = false) (unmarked : mark ∉ w)
    (ended : ∀ c ∈ t.head?, isBlank c = true ∨ c = mark) : tokenPieces mark (w ++ t) = w :: tokenPieces mark t := by
  have alone := filledPieces_of_unmarked filled unmarked
  have cut : filledPieces mark (w ++ (tokensFrom t).1) = w :: filledPieces mark (tokensFrom t).1 := by
    cases t with
    | nil => simpa [tokensFrom, filledPieces_nil] using alone
    | cons c t =>
      by_cases blank : isBlank c = true
      · simpa [tokensFrom, blank, filledPieces_nil] using alone
      · obtain rfl := (ended c rfl).resolve_left blank
        have behind : (tokensFrom (c :: t)).1 = c :: (tokensFrom t).1 := by simp [tokensFrom, blank]
        rw [behind, filledPieces_append_mark, alone, filledPieces_cons_mark]
        rfl
  rw [tokenPieces_eq, tokensFrom_append visible, cut, tokenPieces_eq]
  rfl

end DiagramLint.Text
