import DiagramLint.Proofs.Text.Ends

/-!
Texts cut outside double quotes. A text that passes no cut is one that closes its quotes and has nothing to be cut at
outside them (`isWhole`). Such texts with blanks between them are the words of a text (`words_join`), and a colon behind
such a text is the one that begins a label (`headAndLabel_of_whole`).
-/
namespace DiagramLint.Text

variable {test : Char → Bool} {t u w : Text} {ws : List Text} {quoted : Bool} {c : Char}

/-! ### Whole texts -/

/-- No character outside double quotes passes the test, and all quotes are closed; `quoted` says whether the scan starts
inside them. -/
def isWhole (test : Char → Bool) (quoted : Bool) : Text → Bool
  | [] => !quoted
  | c :: t => (quoted || !test c) && isWhole test (if c = '"' then !quoted else quoted) t

theorem isWhole_append (front : isWhole test quoted t = true) (back : isWhole test false u = true) :
    isWhole test quoted (t ++ u) = true := by
  induction t generalizing quoted with
  | nil =>
    obtain rfl : quoted = false := by simpa [isWhole] using front
    exact back
  | cons c t ih =>
    obtain ⟨here, later⟩ := Bool.and_eq_true_iff.mp front
    exact Bool.and_eq_true_iff.mpr ⟨here, ih later⟩

theorem isWhole_of_plain (plain : ∀ c ∈ t, test c = false ∧ c ≠ '"') : isWhole test false t = true := by
  induction t with
  | nil => rfl
  | cons c t ih =>
    obtain ⟨⟨other, unquoted⟩, others⟩ := List.forall_mem_cons.mp plain
    simp [isWhole, other, unquoted, ih others]

theorem isWhole_behind_quote (unquoted : '"' ∉ t) : isWhole test true (t ++ ['"']) = true := by
  induction t with
  | nil => simp [isWhole]
  | cons c t ih =>
    obtain ⟨other, others⟩ : ¬ '"' = c ∧ '"' ∉ t := by simpa using unquoted
    simp [isWhole, Ne.symm other, ih others]

/-- In double quotes anything but double quotes may stand. -/
theorem isWhole_quoted (mark : test '"' = false) (unquoted : '"' ∉ t) :
    isWhole test false ('"' :: (t ++ ['"'])) = true := by
  simp [isWhole, mark, isWhole_behind_quote unquoted]

/-! ### Words -/

theorem join_cons {mark : Char} (filled : ws ≠ []) (w : Text) : join [mark] (w :: ws) = w ++ mark :: join [mark] ws := by
  obtain ⟨v, ws, rfl⟩ := List.exists_cons_of_ne_nil filled
  rw [join, List.intercalate_cons_cons, List.append_assoc]
  rfl

/-- What stands in front of the first word stands in front of the text. -/
theorem join_append_head (separator front w : Text) (ws : List Text) :
    join separator ((front ++ w) :: ws) = front ++ join separator (w :: ws) := by
  cases ws with
  | nil => simp [join]
  | cons v ws => simp only [join, List.intercalate_cons_cons, List.append_assoc]

/-- The last word is the end of the text. -/
theorem suffix_join (ws : List Text) (w : Text) : w <:+ join [' '] (ws ++ [w]) := by
  induction ws with
  | nil => simp [join]
  | cons v ws ih =>
    rw [List.cons_append, join_cons (by simp)]
    exact ih.trans ⟨v ++ [' '], by simp⟩

theorem isWhole_join (blank : test ' ' = false) (whole : ∀ w ∈ ws, isWhole test false w = true) :
    isWhole test false (join [' '] ws) = true := by
  induction ws with
  | nil => rfl
  | cons w ws ih =>
    obtain ⟨first, others⟩ := List.forall_mem_cons.mp whole
    cases ws with
    | nil => simpa [join] using first
    | cons v ws =>
      rw [join_cons (List.cons_ne_nil v ws)]
      exact isWhole_append first (by simpa [isWhole, blank] using ih others)

/-- A text without blanks outside quotes is part of one word. -/
theorem wordsFrom_of_whole (whole : isWhole isBlank quoted t = true) (u : Text) :
    wordsFrom quoted (t ++ u) = (t ++ (wordsFrom false u).1, (wordsFrom false u).2) := by
  have mark : isBlank '"' = false := by decide
  induction t generalizing quoted with
  | nil =>
    obtain rfl : quoted = false := by simpa [isWhole] using whole
    rfl
  | cons c t ih =>
    obtain ⟨here, later⟩ := Bool.and_eq_true_iff.mp whole
    have inside : (isBlank c && !(if c = '"' then !quoted else quoted)) = false := by
      by_cases quote : c = '"'
      · simp [quote, mark]
      · rw [if_neg quote]
        cases quoted with
        | false => simpa using here
        | true => simp
    simp only [List.cons_append, wordsFrom, ih later, inside, Bool.false_eq_true, if_false]

theorem words_of_whole (filled : w ≠ []) (whole : isWhole isBlank false w = true) : words w = [w] := by
  have cut := wordsFrom_of_whole whole []
  rw [List.append_nil] at cut
  rw [words, cut]
  simp [wordsFrom, consWord, filled]

theorem words_cons_whole (filled : w ≠ []) (whole : isWhole isBlank false w = true) (u : Text) :
    words (w ++ ' ' :: u) = w :: words u := by
  have blank : isBlank ' ' = true := by decide
  have cut : wordsFrom false (' ' :: u) = ([], words u) := by simp [wordsFrom, blank, words]
  rw [words, wordsFrom_of_whole whole, cut]
  simp [consWord, filled]

/-- Words with blanks between them are cut apart again. -/
theorem words_join (whole : ∀ w ∈ ws, w ≠ [] ∧ isWhole isBlank false w = true) : words (join [' '] ws) = ws := by
  induction ws with
  | nil => rfl
  | cons w ws ih =>
    obtain ⟨⟨filled, first⟩, others⟩ := List.forall_mem_cons.mp whole
    cases ws with
    | nil => simpa [join] using words_of_whole filled first
    | cons v ws =>
      rw [join_cons (List.cons_ne_nil v ws), words_cons_whole filled first, ih others]

/-! ### Labels -/

/-- A text without colons outside quotes stays in front of the first one that is. -/
theorem cutColon?_of_whole (whole : isWhole (· = ':') quoted t = true) (u : Text) :
    cutColon? quoted (t ++ u) = (cutColon? false u).map fun (head, label) => (t ++ head, label) := by
  induction t generalizing quoted with
  | nil =>
    obtain rfl : quoted = false := by simpa [isWhole] using whole
    simp
  | cons c t ih =>
    obtain ⟨here, later⟩ := Bool.and_eq_true_iff.mp whole
    have outside : (decide (c = ':') && !quoted) = false := by
      cases quoted with
      | false => simpa using here
      | true => simp
    simp [cutColon?, outside, ih later, Function.comp_def]

theorem headAndLabel_of_unlabelled (whole : isWhole (· = ':') false t = true) : headAndLabel t = (t, none) := by
  have cut := cutColon?_of_whole whole []
  rw [List.append_nil] at cut
  rw [headAndLabel, cut]
  rfl

theorem headAndLabel_of_whole (whole : isWhole (· = ':') false t = true) (u : Text) :
    headAndLabel (t ++ ':' :: u) = (trimEnd t, some (trim u)) := by
  have cut : cutColon? false (t ++ ':' :: u) = some (t, u) := by
    rw [cutColon?_of_whole whole]
    simp [cutColon?]
  rw [headAndLabel, cut]

/-- A head without colons and double quotes ends at the first colon. -/
theorem headAndLabel_written (plain : ∀ c ∈ t, c ≠ ':' ∧ c ≠ '"') (ends : EndsVisible t) (u : Text) :
    headAndLabel (t ++ ':' :: u) = (t, some (trim u)) := by
  have whole : isWhole (· = ':') false t = true := isWhole_of_plain (by simpa using plain)
  have trimmed : trimEnd t = t := by simpa using trimEnd_of_ends ends allBlank_nil
  rw [headAndLabel_of_whole whole, trimmed]

end DiagramLint.Text
