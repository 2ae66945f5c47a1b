import DiagramLint.Proofs.GitGraph.Options

/-!
Double quotes in option texts. A double quote in front of a value opens it only if it is closed somewhere behind, in
whatever option; otherwise it is the first character of a bare word (`values_of_quotes`).
-/
namespace DiagramLint.GitGraph

open Text

/-- The text from the value of an option on, where others stand behind it. -/
def WrittenOption.onward (w : WrittenOption) (after : List WrittenOption) : Text :=
  w.valueText ++ (w.behind ++ optionText after)

/-- A double quote at the start that is never closed. -/
def Unclosed (t : Text) : Prop := ∃ u, t = '"' :: u ∧ '"' ∉ u

variable {u rest : Text} {w : WrittenOption} {ws : List WrittenOption}

theorem Fitting.at_split {before after : List WrittenOption} (fitting : Fitting rest (before ++ w :: after)) :
    w.Fits (optionText after ++ rest) := by
  induction before with
  | nil => exact fitting.1
  | cons w' before ih => exact ih fitting.2

/-- A value begins with a double quote exactly if the quote that stands in front of it is never closed. -/
theorem WrittenOption.value_quoted_iff {after : List WrittenOption} (fits : w.Fits (optionText after)) :
    ['"'] <+: w.value ↔ Unclosed (w.onward after) := by
  unfold onward valueText
  constructor
  · rintro ⟨u, begins⟩
    cases quoted : w.quoted with
    | true => exact absurd (by simp [← begins]) (fits.1 quoted)
    | false =>
      have bare := (fits.2 quoted).unclosed u begins.symm
      exact ⟨u ++ (w.behind ++ optionText after), by simp [← begins], bare⟩
  · rintro ⟨u, begins, absent⟩
    cases quoted : w.quoted with
    | true =>
      -- The quote behind the value closes the one in front of it.
      rw [quoted] at begins
      obtain ⟨-, rfl⟩ := List.cons.inj begins
      simp at absent
    | false =>
      obtain ⟨c, value, same⟩ := List.exists_cons_of_ne_nil (fits.2 quoted).filled
      rw [quoted, if_neg Bool.false_ne_true, same] at begins
      obtain ⟨rfl, -⟩ := List.cons.inj begins
      exact ⟨value, same.symm⟩

/-- A quote that is never closed begins a bare word, and what stands behind the word is read as the options are. -/
theorem options?_unclosed {h : OptionHead} (fitting : Fitting (h.written ++ '"' :: u) ws) (absent : '"' ∉ u) :
    options? (optionText ws ++ (h.written ++ '"' :: u)) = (options? (skipSpaces (behindWord u))).map
      fun after => ws.map WrittenOption.option ++ ⟨h.key, '"' :: firstWord u⟩ :: after := by
  have mark : isBlank '"' = false := by decide
  have word : firstWord ('"' :: u) = '"' :: firstWord u := by simp [firstWord, mark]
  have behind : behindWord ('"' :: u) = behindWord u := by simp [behindWord, mark]
  have bare : IsBare (firstWord ('"' :: u)) (behindWord ('"' :: u)) := by
    refine isBare_firstWord ?_ (by simp [word])
    rintro v ⟨rfl⟩
    exact absent
  have read := valueStart?_eq_some_iff.mpr (.inr ⟨(append_behindWord _).symm, bare⟩)
  rw [word, behind] at read
  have found : option? (h.written ++ '"' :: u) = some (⟨h.key, '"' :: firstWord u⟩, skipSpaces (behindWord u)) := by
    rw [option?_head, skipSpaces_of_begins (begins_of_valueStart? read), read, Option.map_some]
  rw [options?_append fitting (options?_of_skipSpaces (skipSpaces_skipSpaces _) found), options?_cons found, Option.map_map]
  rfl

/-- Every value of an option text that is accepted is written in it, and it begins with a double quote exactly if the quote
in front of it is never closed. A quote that is never closed begins a bare word; the text is accepted if what stands behind
the word is made up of options. An option text that is refused is refused as malformed. -/
theorem values_of_quotes (line : Line) (t : Text) (allowed : List String) :
    (∀ os, options line t allowed = .ok os →
      ∃ ws, Fitting [] ws ∧ optionText ws = t ∧ ws.map WrittenOption.option = os ∧
        ∀ before w after, ws = before ++ w :: after → (['"'] <+: w.value ↔ Unclosed (w.onward after))) ∧
    (∀ ws (h : OptionHead) u, t = optionText ws ++ (h.written ++ '"' :: u) → Fitting (h.written ++ '"' :: u) ws → '"' ∉ u →
      ∀ os, options line t allowed = .ok os ↔
        (∃ behind, options? (skipSpaces (behindWord u)) = some behind ∧
          os = ws.map WrittenOption.option ++ ⟨h.key, '"' :: firstWord u⟩ :: behind) ∧
        ∀ o ∈ os, ∃ key ∈ allowed, key.toList = o.key) ∧
    ∀ e, options line t allowed = .error e → e.code = .e101 := by
  refine ⟨?_, ?_, fun e => code_of_options⟩
  · intro os accepted
    obtain ⟨ws, fitting, text, written⟩ := options?_eq_some_iff.mp (options_eq_ok_iff.mp accepted).1
    refine ⟨ws, fitting, text, written, ?_⟩
    rintro before w after rfl
    have fits := fitting.at_split
    rw [List.append_nil] at fits
    exact w.value_quoted_iff fits
  · rintro ws h u rfl fitting absent os
    rw [options_eq_ok_iff, options?_unclosed fitting absent, Option.map_eq_some_iff]
    simp only [eq_comm]

/-- An option in double quotes. -/
def closedId : WrittenOption where
  before := []
  key := ['i', 'd']
  beforeColon := []
  behindColon := [' ']
  value := "a b".toList
  quoted := true
  behind := [' ']
  before_spaces := no_spaces
  key_filled := by decide
  key_solid := by decide +kernel
  beforeColon_spaces := no_spaces
  behindColon_spaces := single_space
  behind_spaces := single_space

/-- What stands in front of the value of a tag. -/
def tagHead : OptionHead where
  before := []
  key := ['t', 'a', 'g']
  beforeColon := [' ']
  behindColon := []
  before_spaces := no_spaces
  key_filled := by decide
  key_solid := by decide +kernel
  beforeColon_spaces := single_space
  behindColon_spaces := no_spaces

/-- A commit whose tag is behind a quote that is never closed, with another option behind the first word of it. -/
def openTag : Line := .ofRaw 2 "commit id: \"a b\" tag :\"x msg: y".toList

theorem values_of_quotes_openTag :
    ("id: \"a b\" tag :\"x msg: y".toList = optionText [closedId] ++ (tagHead.written ++ '"' :: "x msg: y".toList) ∧
      Fitting (tagHead.written ++ '"' :: "x msg: y".toList) [closedId] ∧ '"' ∉ "x msg: y".toList) ∧
    options openTag "id: \"a b\" tag :\"x msg: y".toList ["id", "msg", "tag", "type"] =
      .ok [⟨"id".toList, "a b".toList⟩, ⟨"tag".toList, "\"x".toList⟩, ⟨"msg".toList, "y".toList⟩] ∧
    ∃ ws, Fitting [] ws ∧ optionText ws = "id: \"a b\" tag :\"x msg: y".toList ∧ ws.map WrittenOption.option =
        [⟨"id".toList, "a b".toList⟩, ⟨"tag".toList, "\"x".toList⟩, ⟨"msg".toList, "y".toList⟩] ∧
      ∀ before w after, ws = before ++ w :: after → (['"'] <+: w.value ↔ Unclosed (w.onward after)) := by
  have split : "id: \"a b\" tag :\"x msg: y".toList =
      optionText [closedId] ++ (tagHead.written ++ '"' :: "x msg: y".toList) := by decide
  have fitting : Fitting (tagHead.written ++ '"' :: "x msg: y".toList) [closedId] := ⟨⟨fun _ => by decide, nofun⟩, trivial⟩
  have absent : '"' ∉ "x msg: y".toList := by decide
  obtain ⟨values, unclosed, -⟩ :=
    values_of_quotes openTag "id: \"a b\" tag :\"x msg: y".toList ["id", "msg", "tag", "type"]
  have accepted := (unclosed _ _ _ split fitting absent [⟨"id".toList, "a b".toList⟩, ⟨"tag".toList, "\"x".toList⟩,
    ⟨"msg".toList, "y".toList⟩]).mpr ⟨⟨[⟨"msg".toList, "y".toList⟩], by decide +kernel, by decide +kernel⟩, by decide⟩
  exact ⟨⟨split, fitting, absent⟩, accepted, values _ accepted⟩

/-- A commit whose id is behind a quote that is never closed. -/
def openQuote : Text := "gitGraph\ncommit id: \"abc".toList

/-- The quote is taken for the first character of the id. -/
theorem openQuote_accepted : ∃ g, read (Source.ofText openQuote 0) = .ok g ∧
    g.commands = [⟨.commit (some "\"abc".toList) none none none, ⟨2, 1⟩⟩] :=
  ⟨_, eq_ok_get (by decide +kernel), by decide +kernel⟩

end DiagramLint.GitGraph
