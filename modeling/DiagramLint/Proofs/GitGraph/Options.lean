import DiagramLint.GitGraph
import DiagramLint.Proofs.Results
import DiagramLint.Proofs.Text.Ends
import DiagramLint.Proofs.Text.Keywords

/-!
Option texts as they are written. An option has a key, a colon and a value, with spaces around them; the value stands
between double quotes, or it is a bare word. A text is read as options exactly if it is written so
(`options?_eq_some_iff`), and what is read is what is written.
-/
namespace DiagramLint.GitGraph

open Text

/-- A space or a tab. -/
def isSpace (c : Char) : Bool := c = ' ' || c = '\t'

/-- What stands in front of the value of an option. -/
structure OptionHead where
  before : Text
  key : Text
  beforeColon : Text
  behindColon : Text
  before_spaces : ∀ c ∈ before, isSpace c = true
  key_filled : key ≠ []
  key_solid : ∀ c ∈ key, isKeyChar c = true
  beforeColon_spaces : ∀ c ∈ beforeColon, isSpace c = true
  behindColon_spaces : ∀ c ∈ behindColon, isSpace c = true

/-- The key and its colon as they are written. -/
def OptionHead.written (h : OptionHead) : Text := h.before ++ (h.key ++ (h.beforeColon ++ ':' :: h.behindColon))

/-- An option as it is written. -/
structure WrittenOption extends OptionHead where
  value : Text
  /-- The value stands between double quotes. -/
  quoted : Bool
  behind : Text
  behind_spaces : ∀ c ∈ behind, isSpace c = true

/-- A word that is a value in front of a text: it ends at a blank, and a double quote that it begins with is never closed. -/
structure IsBare (value rest : Text) : Prop where
  filled : value ≠ []
  visible : ∀ c ∈ value, isBlank c = false
  ended : ∀ c ∈ rest.head?, isBlank c = true
  unclosed : ∀ u, value = '"' :: u → '"' ∉ u ++ rest

namespace WrittenOption

/-- The value as it is written. -/
def valueText (w : WrittenOption) : Text := if w.quoted then '"' :: (w.value ++ ['"']) else w.value

/-- The option as it is written. -/
def written (w : WrittenOption) : Text := w.toOptionHead.written ++ (w.valueText ++ w.behind)

/-- The option that is written. -/
def option (w : WrittenOption) : GitOption := ⟨w.key, w.value⟩

/-- The value ends where it is written to end, in front of a text. -/
def Fits (w : WrittenOption) (rest : Text) : Prop :=
  (w.quoted = true → '"' ∉ w.value) ∧ (w.quoted = false → IsBare w.value (w.behind ++ rest))

end WrittenOption

/-- Options as they are written. -/
def optionText (ws : List WrittenOption) : Text := ws.flatMap WrittenOption.written

/-- Every value ends where it is written to end, in front of a text. -/
def Fitting (rest : Text) : List WrittenOption → Prop
  | [] => True
  | w :: ws => w.Fits (optionText ws ++ rest) ∧ Fitting rest ws

variable {t u v value rest : Text} {c : Char} {o : GitOption} {os : List GitOption} {w : WrittenOption}
  {ws : List WrittenOption} {test : Char → Bool} {line : Line} {allowed : List String}

/-! ### Spaces -/

theorem no_spaces : ∀ c ∈ ([] : Text), isSpace c = true := List.forall_mem_nil _

theorem single_space : ∀ c ∈ [' '], isSpace c = true := by decide

theorem skipSpaces_eq (t : Text) : skipSpaces t = t.dropWhile isSpace := rfl

theorem blank_of_space (space : isSpace c = true) : isBlank c = true := by
  have either : c = ' ' ∨ c = '\t' := by simpa [isSpace] using space
  rcases either with rfl | rfl
  · decide
  · decide

theorem not_space_of_visible (visible : isBlank c = false) : isSpace c = false := by
  by_contra space
  rw [blank_of_space (by simpa using space)] at visible
  cases visible

theorem visible_of_key (solid : isKeyChar c = true) : isBlank c = false := by
  rcases Bool.or_eq_true_iff.mp solid with alphanumeric | underscore
  · exact not_blank_of_alphanumeric alphanumeric
  · rw [of_decide_eq_true underscore]
    decide

/-- A run of characters ends in front of one that is none of them. -/
theorem span_of_run (run : ∀ c ∈ u, test c = true) (ended : ∀ c ∈ v.head?, test c = false) :
    (u ++ v).takeWhile test = u ∧ (u ++ v).dropWhile test = v := by
  rw [List.takeWhile_append_of_pos run, List.dropWhile_append_of_pos run]
  cases v with
  | nil => simp
  | cons c v => simp [ended c rfl]

theorem skipSpaces_append (spaces : ∀ c ∈ u, isSpace c = true) (t : Text) : skipSpaces (u ++ t) = skipSpaces t :=
  List.dropWhile_append_of_pos spaces

theorem skipSpaces_of_begins (begins : ∀ c ∈ t.head?, isSpace c = false) : skipSpaces t = t :=
  (span_of_run (u := []) nofun begins).2

theorem exists_spaces (t : Text) : ∃ u, (∀ c ∈ u, isSpace c = true) ∧ t = u ++ skipSpaces t ∧
    ∀ c ∈ (skipSpaces t).head?, isSpace c = false := by
  refine ⟨t.takeWhile isSpace, fun c => List.mem_takeWhile_imp, List.takeWhile_append_dropWhile.symm, ?_⟩
  intro c first
  have stopped := List.head?_dropWhile_not isSpace t
  rw [← skipSpaces_eq, Option.mem_def.mp first] at stopped
  simpa using stopped

theorem skipSpaces_skipSpaces (t : Text) : skipSpaces (skipSpaces t) = skipSpaces t := by
  obtain ⟨-, -, -, begins⟩ := exists_spaces t
  exact skipSpaces_of_begins begins

/-! ### Values -/

theorem quoted_eq_some_iff : (dropStart? ['"'] t).bind (cut? ['"']) = some (value, rest) ↔
    t = '"' :: (value ++ '"' :: rest) ∧ '"' ∉ value := by
  constructor
  · intro found
    obtain ⟨inner, start, close⟩ := Option.bind_eq_some_iff.mp found
    rw [dropStart?_eq_some_iff.mp start, ← append_of_cut? close]
    exact ⟨rfl, not_mem_of_cut? close⟩
  · rintro ⟨rfl, absent⟩
    have start : dropStart? ['"'] ('"' :: (value ++ '"' :: rest)) = some (value ++ '"' :: rest) :=
      dropStart?_eq_some_iff.mpr rfl
    rw [start, Option.bind_some, cut?_mark absent]

theorem quoted_eq_none_iff : (dropStart? ['"'] t).bind (cut? ['"']) = none ↔ ∀ u, t = '"' :: u → '"' ∉ u := by
  rw [Option.bind_eq_none_iff]
  constructor
  · rintro unclosed u rfl member
    have uncut := unclosed u (dropStart?_eq_some_iff.mpr rfl)
    exact cut?_eq_none_iff.mp uncut ((List.singleton_infix_iff _ _).mpr member)
  · intro unclosed u start
    exact cut?_of_not_mem (unclosed u (dropStart?_eq_some_iff.mp start))

/-- What stands behind the first word. -/
def behindWord (t : Text) : Text := t.dropWhile fun c => !isBlank c

theorem append_behindWord (t : Text) : firstWord t ++ behindWord t = t := List.takeWhile_append_dropWhile

/-- The first word is a value if no quotes are closed around one. -/
theorem isBare_firstWord (unclosed : ∀ u, t = '"' :: u → '"' ∉ u) (filled : firstWord t ≠ []) :
    IsBare (firstWord t) (behindWord t) where
  filled := filled
  visible := fun c member => by simpa using List.mem_takeWhile_imp member
  ended := by
    intro c first
    have stopped := List.head?_dropWhile_not (fun c => !isBlank c) t
    rw [show (t.dropWhile fun c => !isBlank c).head? = some c from first] at stopped
    simpa using stopped
  unclosed := by
    intro u begins
    refine unclosed (u ++ behindWord t) ?_
    rw [← List.cons_append, ← begins, append_behindWord]

/-- A value stands between the first two double quotes, or it is a bare word. -/
theorem valueStart?_eq_some_iff : valueStart? t = some (value, rest) ↔
    (t = '"' :: (value ++ '"' :: rest) ∧ '"' ∉ value) ∨ (t = value ++ rest ∧ IsBare value rest) := by
  rw [valueStart?]
  cases quoted : (dropStart? ['"'] t).bind (cut? ['"']) with
  | some found =>
    constructor
    · rintro ⟨rfl⟩
      exact .inl (quoted_eq_some_iff.mp quoted)
    · rintro (closed | ⟨rfl, bare⟩)
      · exact quoted.symm.trans (quoted_eq_some_iff.mpr closed)
      · have none_closed : (dropStart? ['"'] (value ++ rest)).bind (cut? ['"']) = none := by
          obtain ⟨c, value, rfl⟩ := List.exists_cons_of_ne_nil bare.filled
          refine quoted_eq_none_iff.mpr fun u begins => ?_
          obtain ⟨rfl, rfl⟩ := List.cons.inj begins
          exact bare.unclosed value rfl
        rw [none_closed] at quoted
        cases quoted
  | none =>
    have unclosed := quoted_eq_none_iff.mp quoted
    dsimp only
    constructor
    · intro found
      split at found
      · cases found
      · next filled =>
        obtain ⟨rfl, rfl⟩ := Prod.mk.inj (Option.some.inj found)
        exact .inr ⟨(append_behindWord t).symm, isBare_firstWord unclosed (by simpa [firstWord] using filled)⟩
    · rintro (⟨rfl, -⟩ | ⟨rfl, bare⟩)
      · exact absurd (by simp) (unclosed _ rfl)
      · have parts : (value ++ rest).takeWhile (fun c => !isBlank c) = value ∧
            (value ++ rest).dropWhile (fun c => !isBlank c) = rest :=
          span_of_run (by simpa using bare.visible) (by simpa using bare.ended)
        simp [parts, bare.filled]

/-! ### One option -/

/-- A value that is written behind the colon. -/
theorem WrittenOption.valueStart?_written (fits : w.Fits rest) :
    valueStart? (w.valueText ++ (w.behind ++ rest)) = some (w.value, w.behind ++ rest) := by
  rw [valueStart?_eq_some_iff, valueText]
  cases quoted : w.quoted with
  | true => exact .inl ⟨by simp, fits.1 quoted⟩
  | false => exact .inr ⟨by simp, fits.2 quoted⟩

theorem begins_of_valueStart? (found : valueStart? t = some (value, rest)) : ∀ c ∈ t.head?, isSpace c = false := by
  rcases valueStart?_eq_some_iff.mp found with ⟨rfl, -⟩ | ⟨rfl, bare⟩
  · rintro _ ⟨rfl⟩
    decide
  · obtain ⟨a, value, rfl⟩ := List.exists_cons_of_ne_nil bare.filled
    rintro _ ⟨rfl⟩
    exact not_space_of_visible (bare.visible a List.mem_cons_self)

/-- Behind the head of an option its value is read, and the spaces behind it are skipped. -/
theorem option?_head (h : OptionHead) (t : Text) :
    option? (h.written ++ t) = (valueStart? (skipSpaces t)).map fun (value, rest) => (⟨h.key, value⟩, skipSpaces rest) := by
  have key_begins : ∀ c ∈ (h.key ++ (h.beforeColon ++ ':' :: (h.behindColon ++ t))).head?, isSpace c = false := by
    obtain ⟨a, key, same⟩ := List.exists_cons_of_ne_nil h.key_filled
    rw [same]
    rintro _ ⟨rfl⟩
    exact not_space_of_visible (visible_of_key (h.key_solid a (by simp [same])))
  have front : skipSpaces (h.written ++ t) = h.key ++ (h.beforeColon ++ ':' :: (h.behindColon ++ t)) := by
    have split : h.written ++ t = h.before ++ (h.key ++ (h.beforeColon ++ ':' :: (h.behindColon ++ t))) := by
      simp [OptionHead.written]
    rw [split, skipSpaces_append h.before_spaces, skipSpaces_of_begins key_begins]
  have key_ends : ∀ c ∈ (h.beforeColon ++ ':' :: (h.behindColon ++ t)).head?, isKeyChar c = false := by
    cases spaces : h.beforeColon with
    | nil =>
      rintro _ ⟨rfl⟩
      decide +kernel
    | cons a more =>
      rintro _ ⟨rfl⟩
      have blank := blank_of_space (h.beforeColon_spaces a (by simp [spaces]))
      by_contra solid
      rw [visible_of_key (by simpa using solid)] at blank
      cases blank
  obtain ⟨key, behind_key⟩ := span_of_run h.key_solid key_ends
  have colon : skipSpaces (h.beforeColon ++ ':' :: (h.behindColon ++ t)) = ':' :: (h.behindColon ++ t) := by
    rw [skipSpaces_append h.beforeColon_spaces, skipSpaces_of_begins]
    rintro _ ⟨rfl⟩
    decide
  rw [option?, front]
  simp only [key, behind_key, colon, List.isEmpty_iff, h.key_filled, if_false, skipSpaces_append h.behindColon_spaces]

theorem WrittenOption.option?_written (fits : w.Fits rest) : option? (w.written ++ rest) = some (w.option, skipSpaces rest) := by
  have read := w.valueStart?_written fits
  have split : w.written ++ rest = w.toOptionHead.written ++ (w.valueText ++ (w.behind ++ rest)) := by simp [written]
  rw [split, option?_head, skipSpaces_of_begins (begins_of_valueStart? read), read, Option.map_some]
  simp only [skipSpaces_append w.behind_spaces, option]

theorem exists_head (found : option? t = some (o, rest)) : ∃ (h : OptionHead) (u behind : Text), t = h.written ++ u ∧
    h.key = o.key ∧ valueStart? u = some (o.value, behind) ∧ rest = skipSpaces behind := by
  rw [option?] at found
  dsimp only at found
  split at found
  · cases found
  · next filled =>
    split at found
    · next tail colon =>
      obtain ⟨⟨value, behind⟩, read, same⟩ := Option.map_eq_some_iff.mp found
      obtain ⟨rfl, rfl⟩ := Prod.mk.inj same
      have key := List.takeWhile_append_dropWhile (p := isKeyChar) (l := skipSpaces t)
      obtain ⟨before, before_spaces, front, -⟩ := exists_spaces t
      obtain ⟨beforeColon, beforeColon_spaces, middle, -⟩ := exists_spaces ((skipSpaces t).dropWhile isKeyChar)
      obtain ⟨behindColon, behindColon_spaces, valued, -⟩ := exists_spaces tail
      refine ⟨⟨before, (skipSpaces t).takeWhile isKeyChar, beforeColon, behindColon, before_spaces, by simpa using filled,
        fun c => List.mem_takeWhile_imp, beforeColon_spaces, behindColon_spaces⟩, skipSpaces tail, behind, ?_, rfl, read, rfl⟩
      calc t = before ++ ((skipSpaces t).takeWhile isKeyChar ++ (skipSpaces t).dropWhile isKeyChar) := by rw [key, ← front]
        _ = before ++ ((skipSpaces t).takeWhile isKeyChar ++ (beforeColon ++ ':' :: (behindColon ++ skipSpaces tail))) := by
          rw [← valued, ← colon, ← middle]
        _ = _ := by simp [OptionHead.written]
    · cases found

/-- What is read as an option is written as one. -/
theorem exists_written (found : option? t = some (o, rest)) : ∃ w : WrittenOption, w.option = o ∧ t = w.written ++ rest ∧
    w.Fits rest := by
  obtain ⟨h, u, behind, rfl, key, read, rfl⟩ := exists_head found
  obtain ⟨spaces, only_spaces, split, -⟩ := exists_spaces behind
  rcases valueStart?_eq_some_iff.mp read with ⟨rfl, absent⟩ | ⟨rfl, bare⟩
  · refine ⟨⟨h, o.value, true, spaces, only_spaces⟩, ?_, ?_, fun _ => absent, nofun⟩
    · simp [WrittenOption.option, key]
    · simp [WrittenOption.written, WrittenOption.valueText, ← split]
  · refine ⟨⟨h, o.value, false, spaces, only_spaces⟩, ?_, ?_, nofun, fun _ => split ▸ bare⟩
    · simp [WrittenOption.option, key]
    · simp [WrittenOption.written, WrittenOption.valueText, ← split]

/-! ### Options in turn -/

theorem options?_cons (found : option? t = some (o, rest)) : options? t = (options? rest).map (o :: ·) := by
  rw [options?]
  split
  · next none_found =>
    rw [found] at none_found
    cases none_found
  · next other behind other_found =>
    rw [found] at other_found
    obtain ⟨rfl, rfl⟩ := Prod.mk.inj (Option.some.inj other_found)
    rfl

theorem options?_of_none (none_found : option? t = none) : options? t = if t = [] then some [] else none := by
  rw [options?]
  split
  · simp
  · next other behind other_found =>
    rw [none_found] at other_found
    cases other_found

/-- Spaces in front of an option do not matter. -/
theorem options?_of_skipSpaces (same : skipSpaces u = skipSpaces t) (found : option? t = some (o, rest)) :
    options? u = options? t := by
  have here : option? u = option? t := by rw [option?, option?, same]
  rw [options?_cons (here.trans found), options?_cons found]

/-- Options in front of a text are read one behind the other. -/
theorem options?_append (fitting : Fitting rest ws) (ready : options? (skipSpaces rest) = options? rest) :
    options? (optionText ws ++ rest) = (options? rest).map (ws.map WrittenOption.option ++ ·) := by
  induction ws with
  | nil => simp [optionText]
  | cons w ws ih =>
    obtain ⟨fits, others⟩ := fitting
    -- The spaces in front of the next option are skipped behind this one, which makes no difference to it.
    have next : options? (skipSpaces (optionText ws ++ rest)) = options? (optionText ws ++ rest) := by
      cases ws with
      | nil => exact ready
      | cons w' ws =>
        have found := w'.option?_written others.1
        rw [← List.append_assoc] at found
        exact options?_of_skipSpaces (skipSpaces_skipSpaces _) found
    have split : optionText (w :: ws) ++ rest = w.written ++ (optionText ws ++ rest) := by simp [optionText]
    rw [split, options?_cons (w.option?_written fits), next, ih others, Option.map_map]
    rfl

theorem options?_nil : options? [] = some [] := by
  have none_found : option? [] = none := rfl
  rw [options?_of_none none_found, if_pos rfl]

/-- A text is read as options exactly if it is written as them. -/
theorem options?_eq_some_iff : options? t = some os ↔ ∃ ws, Fitting [] ws ∧ optionText ws = t ∧
    ws.map WrittenOption.option = os := by
  constructor
  · intro read
    induction t using options?.induct generalizing os with
    | case1 t none_found empty =>
      rw [options?_of_none none_found, if_pos (by simpa using empty)] at read
      obtain rfl := Option.some.inj read
      exact ⟨[], trivial, (List.isEmpty_iff.mp empty).symm, rfl⟩
    | case2 t none_found filled =>
      rw [options?_of_none none_found, if_neg (by simpa using filled)] at read
      cases read
    | case3 t o rest found ih =>
      rw [options?_cons found] at read
      obtain ⟨os, later, rfl⟩ := Option.map_eq_some_iff.mp read
      obtain ⟨ws, fitting, rfl, rfl⟩ := ih later
      obtain ⟨w, rfl, rfl, fits⟩ := exists_written found
      exact ⟨w :: ws, ⟨by simpa using fits, fitting⟩, by simp [optionText], rfl⟩
  · rintro ⟨ws, fitting, rfl, rfl⟩
    have read := options?_append fitting rfl
    simpa [options?_nil] using read

theorem options_eq_ok_iff : options line t allowed = .ok os ↔
    options? t = some os ∧ ∀ o ∈ os, ∃ key ∈ allowed, key.toList = o.key := by
  rw [options]
  cases options? t with
  | none => simp
  | some found =>
    dsimp only
    split
    · next o foreign =>
      have unlisted : ∀ key ∈ allowed, key.toList ≠ o.key := by simpa using List.find?_some foreign
      constructor
      · nofun
      · rintro ⟨⟨rfl⟩, listed⟩
        obtain ⟨key, member, same⟩ := listed o (List.mem_of_find?_eq_some foreign)
        exact absurd same (unlisted key member)
    · next foreign =>
      have listed : ∀ o ∈ found, ∃ key ∈ allowed, key.toList = o.key := by simpa using List.find?_eq_none.mp foreign
      constructor
      · rintro ⟨rfl⟩
        exact ⟨rfl, listed⟩
      · rintro ⟨⟨rfl⟩, -⟩
        rfl

theorem code_of_options {e : ParseError} (refused : options line t allowed = .error e) : e.code = .e101 := by
  rw [options] at refused
  split at refused
  · obtain rfl := Except.error.inj refused
    rfl
  · split at refused
    · obtain rfl := Except.error.inj refused
      rfl
    · cases refused

end DiagramLint.GitGraph
