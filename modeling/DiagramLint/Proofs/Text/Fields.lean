import DiagramLint.Text.Field
import Mathlib.Tactic.Common

/-!
Fields and the scan of their characters. A scan from left to right that knows quotes and backslashes
tells which commas separate fields. The parser of fields fails where the scan does not end outside
quotes, and else reads each text between two such commas by itself (`fields_between_commas`).
-/
namespace DiagramLint.Text

open DiagramLint.Text.Parser

/-! ### The scan -/

/-- What the scan knows in front of a character. -/
structure Scan where
  /-- The character stands between quotes. -/
  quoted : Bool
  /-- The character is taken as it is. -/
  escaped : Bool
  deriving DecidableEq

namespace Scan

/-- Outside quotes. -/
def outside : Scan := ⟨false, false⟩

/-- Behind a character: a backslash takes the next one as it is, and a quote opens or closes. -/
def step (s : Scan) (c : Char) : Scan :=
  if s.escaped then { s with escaped := false }
  else if c = '\\' then { s with escaped := true }
  else if c = '"' then { s with quoted := !s.quoted }
  else s

/-- Behind a text. -/
def run (s : Scan) (t : Text) : Scan := t.foldl step s

/-- The character is a comma that separates two fields. -/
def separates (s : Scan) (c : Char) : Bool := c = ',' && !s.quoted && !s.escaped

/-- Nothing is left open. -/
def isComplete (s : Scan) : Bool := !s.quoted && !s.escaped

/-- The number of commas that separate fields. -/
def separators (s : Scan) : Text → Nat
  | [] => 0
  | c :: t => (if s.separates c then 1 else 0) + separators (s.step c) t

/-- The texts between the commas that separate fields. -/
def chunks (s : Scan) : Text → List Text
  | [] => [[]]
  | c :: t =>
    if s.separates c then [] :: chunks (s.step c) t
    else (chunks (s.step c) t).modifyHead (c :: ·)

end Scan

/-- The byte at which a scan that is not complete ends: that of the backslash which takes nothing,
or the end of the text. -/
def scanEnd (t : Text) : Nat :=
  if (Scan.outside.run t).escaped then byteSize t - 1 else byteSize t

namespace Scan

theorem run_append (s : Scan) (t u : Text) : s.run (t ++ u) = (s.run t).run u := List.foldl_append

theorem separators_append (s : Scan) (t u : Text) :
    s.separators (t ++ u) = s.separators t + (s.run t).separators u := by
  induction t generalizing s with
  | nil => simp [separators, run]
  | cons c t ih =>
    rw [List.cons_append, separators, ih, separators, Nat.add_assoc]
    rfl

/-- Behind a comma that separates fields the scan is outside quotes. -/
theorem step_of_separates {s : Scan} {c : Char} (separating : s.separates c = true) : s.step c = outside := by
  rcases s with ⟨_ | _, _ | _⟩
  · obtain rfl : c = ',' := by simpa [separates] using separating
    rfl
  · simp [separates] at separating
  · simp [separates] at separating
  · simp [separates] at separating

theorem chunks_ne_nil (s : Scan) (t : Text) : s.chunks t ≠ [] := by
  cases t with
  | nil => simp [chunks]
  | cons c t =>
    rw [chunks]
    split
    · exact List.cons_ne_nil _ _
    · simpa using chunks_ne_nil (s.step c) t

/-- A text without a comma that separates fields goes to the first chunk. -/
theorem chunks_append {s : Scan} {t : Text} (quiet : s.separators t = 0) (u : Text) :
    s.chunks (t ++ u) = ((s.run t).chunks u).modifyHead (t ++ ·) := by
  induction t generalizing s with
  | nil => cases found : s.chunks u <;> simp [run, found]
  | cons c t ih =>
    rw [separators] at quiet
    have apart : s.separates c = false := by
      by_contra separating
      rw [if_pos (by simpa using separating)] at quiet
      omega
    rw [List.cons_append, chunks, apart, ih (by omega)]
    simp [run, Function.comp_def]

theorem length_chunks (s : Scan) (t : Text) : (s.chunks t).length = s.separators t + 1 := by
  induction t generalizing s with
  | nil => rfl
  | cons c t ih =>
    rw [chunks, separators]
    split
    · rw [List.length_cons, ih, Nat.add_comm 1]
    · rw [List.length_modifyHead, ih, Nat.zero_add]

/-- The chunks with commas between them make up the text. -/
theorem join_chunks (s : Scan) (t : Text) : join [','] (s.chunks t) = t := by
  induction t generalizing s with
  | nil => rfl
  | cons c t ih =>
    have behind := ih (s.step c)
    rw [chunks]
    cases found : (s.step c).chunks t with
    | nil => exact absurd found (chunks_ne_nil _ _)
    | cons first rest =>
      rw [found] at behind
      split
      · next separating =>
        have comma : c = ',' := by
          simp only [separates, Bool.and_eq_true, decide_eq_true_eq] at separating
          exact separating.1.1
        subst comma
        conv_rhs => rw [← behind]
        simp [join, List.intercalate]
      · conv_rhs => rw [← behind]
        cases rest <;> simp [join, List.intercalate]

/-- The first chunk of a scan has no comma that separates fields, nor have the chunks behind it. -/
theorem separators_chunks (s : Scan) (t : Text) :
    ∃ first rest, s.chunks t = first :: rest ∧ s.separators first = 0 ∧
      ∀ chunk ∈ rest, outside.separators chunk = 0 := by
  induction t generalizing s with
  | nil => exact ⟨[], [], rfl, rfl, by simp⟩
  | cons c t ih =>
    obtain ⟨first, rest, found, quiet, others⟩ := ih (s.step c)
    rw [chunks, found]
    split
    · next separating =>
      rw [step_of_separates separating] at quiet
      refine ⟨[], first :: rest, rfl, rfl, ?_⟩
      intro chunk member
      rcases List.mem_cons.mp member with rfl | later
      · exact quiet
      · exact others chunk later
    · next apart =>
      refine ⟨c :: first, rest, rfl, ?_, others⟩
      rw [separators, if_neg apart, quiet]

end Scan

/-! ### Characters and parts of fields -/

/-- Characters as they are written where the marks have a meaning: none of the marks and no
backslash, or any character behind a backslash. -/
inductive Written (marks : List Char) : Text → Text → Prop where
  | nil : Written marks [] []
  | escaped {v cs : Text} (c : Char) (later : Written marks v cs) : Written marks ('\\' :: c :: v) (c :: cs)
  | plain {v cs : Text} {c : Char} (unescaped : c ≠ '\\') (unmarked : c ∉ marks) (later : Written marks v cs) :
      Written marks (c :: v) (c :: cs)

/-- Where characters end: at the end of the text, at a backslash that takes nothing, or at a mark. -/
def CharactersEnd (marks : List Char) (t : Text) : Prop :=
  t = [] ∨ t = ['\\'] ∨ ∃ c rest, t = c :: rest ∧ c ≠ '\\' ∧ c ∈ marks

theorem exists_written (marks : List Char) (t : Text) :
    ∃ v cs rest, t = v ++ rest ∧ Written marks v cs ∧ CharactersEnd marks rest := by
  induction size : t.length using Nat.strongRecOn generalizing t with
  | ind n ih =>
    cases t with
    | nil => exact ⟨[], [], [], rfl, .nil, .inl rfl⟩
    | cons c t =>
      by_cases backslash : c = '\\'
      · subst backslash
        cases t with
        | nil => exact ⟨[], [], _, rfl, .nil, .inr (.inl rfl)⟩
        | cons c t =>
          have shorter : t.length < n := by
            rw [← size, List.length_cons, List.length_cons]
            omega
          obtain ⟨v, cs, rest, rfl, written, finished⟩ := ih t.length shorter t rfl
          exact ⟨_, _, rest, rfl, .escaped c written, finished⟩
      · by_cases marked : c ∈ marks
        · exact ⟨[], [], _, rfl, .nil, .inr (.inr ⟨c, t, rfl, backslash, marked⟩)⟩
        · obtain ⟨v, cs, rest, rfl, written, finished⟩ := ih t.length (by simp [← size]) t rfl
          exact ⟨_, _, rest, rfl, .plain backslash marked written, finished⟩

theorem character_escaped (marks : List Char) (c : Char) (t : Text) :
    character marks ('\\' :: c :: t) = .done c t := by
  simp [character, orElse, preceded, char]

theorem character_plain {marks : List Char} {c : Char} (unescaped : c ≠ '\\') (unmarked : c ∉ marks)
    (t : Text) : character marks (c :: t) = .done c t := by
  simp [character, orElse, preceded, char, unescaped, unmarked]

theorem character_at_end {marks : List Char} {t : Text} (finished : CharactersEnd marks t) :
    character marks t = .failed t := by
  rcases finished with rfl | rfl | ⟨c, rest, rfl, unescaped, marked⟩
  · rfl
  · simp [character, orElse, preceded, char]
  · simp [character, orElse, preceded, char, unescaped, marked]

theorem many_of_failed {α : Type} {p : Parser α} {t rest : Text} (failed : p t = .failed rest) :
    many p t = .done [] t := by
  rw [many, failed]

theorem many_of_done {α : Type} {p : Parser α} {t rest : Text} {value : α} (done : p t = .done value rest)
    (shorter : rest.length < t.length) : many p t = (many p rest).map (value :: ·) := by
  rw [many, done]
  exact if_pos shorter

theorem many_written {marks : List Char} {v cs rest : Text} (written : Written marks v cs)
    (finished : CharactersEnd marks rest) : many (character marks) (v ++ rest) = .done cs rest := by
  induction written with
  | nil => exact many_of_failed (character_at_end finished)
  | @escaped v cs c _ ih =>
    have shorter : (v ++ rest).length < ('\\' :: c :: (v ++ rest)).length := by
      rw [List.length_cons, List.length_cons]
      omega
    rw [List.cons_append, List.cons_append, many_of_done (character_escaped marks c _) shorter, ih]
    rfl
  | plain unescaped unmarked _ ih =>
    rw [List.cons_append, many_of_done (character_plain unescaped unmarked _) (by simp), ih]
    rfl

/-- The parts of a field as they are written; a plain part goes up to the next quote. -/
inductive Parts : Text → List Segment → Prop where
  | nil : Parts [] []
  | quoted {v cs w : Text} {parts : List Segment} (inner : Written ['"'] v cs) (later : Parts w parts) :
      Parts ('"' :: (v ++ '"' :: w)) (.quoted cs :: parts)
  | plain {v cs w : Text} {parts : List Segment} (filled : v ≠ []) (text : Written [',', '"'] v cs)
      (next : w = [] ∨ ∃ rest, w = '"' :: rest) (later : Parts w parts) :
      Parts (v ++ w) (.plain cs :: parts)

/-- Where a field ends: at the end of the text, at a backslash that takes nothing, or at a comma. -/
def FieldEnd (t : Text) : Prop := t = [] ∨ t = ['\\'] ∨ ∃ rest, t = ',' :: rest

/-- A text that begins with a quote which is not closed: it ends in the quoted part, at its end or at
a backslash that takes nothing. -/
def Unclosed (t rest : Text) : Prop :=
  ∃ v cs, t = '"' :: (v ++ rest) ∧ Written ['"'] v cs ∧ (rest = [] ∨ rest = ['\\'])

theorem exists_parts (t : Text) :
    ∃ w parts rest, t = w ++ rest ∧ Parts w parts ∧ (FieldEnd rest ∨ ∃ behind, Unclosed rest behind) := by
  induction size : t.length using Nat.strongRecOn generalizing t with
  | ind n ih =>
    obtain ⟨v, cs, rest, rfl, text, finished⟩ := exists_written [',', '"'] t
    -- a plain part, if it holds anything, goes in front of what begins at the next mark
    have in_front : ∀ {w rest' : Text} {parts : List Segment}, rest = w ++ rest' → Parts w parts →
        (w = [] ∨ ∃ r, w = '"' :: r) → ∃ w' parts', v ++ rest = w' ++ rest' ∧ Parts w' parts' := by
      intro w rest' parts whole later next
      by_cases empty : v = []
      · exact ⟨w, parts, by rw [empty, whole]; rfl, later⟩
      · exact ⟨v ++ w, _, by rw [whole, List.append_assoc], .plain empty text next later⟩
    rcases finished with rfl | rfl | ⟨c, behind, rfl, _, mark⟩
    · obtain ⟨w, parts, whole, read⟩ := in_front (w := []) rfl .nil (.inl rfl)
      exact ⟨w, parts, [], whole, read, .inl (.inl rfl)⟩
    · obtain ⟨w, parts, whole, read⟩ := in_front (w := []) rfl .nil (.inl rfl)
      exact ⟨w, parts, _, whole, read, .inl (.inr (.inl rfl))⟩
    · have comma_or_quote : c = ',' ∨ c = '"' := by simpa using mark
      rcases comma_or_quote with rfl | rfl
      · obtain ⟨w, parts, whole, read⟩ := in_front (w := []) rfl .nil (.inl rfl)
        exact ⟨w, parts, _, whole, read, .inl (.inr (.inr ⟨behind, rfl⟩))⟩
      · obtain ⟨u, ds, inside, rfl, inner, closing⟩ := exists_written ['"'] behind
        have unclosed : ∀ {r : Text}, inside = r → (r = [] ∨ r = ['\\']) →
            ∃ w parts rest, v ++ '"' :: (u ++ inside) = w ++ rest ∧ Parts w parts ∧
              (FieldEnd rest ∨ ∃ behind, Unclosed rest behind) := by
          intro r same open_end
          obtain ⟨w, parts, whole, read⟩ := in_front (w := []) rfl .nil (.inl rfl)
          exact ⟨w, parts, _, whole, read, .inr ⟨inside, u, ds, rfl, inner, same ▸ open_end⟩⟩
        rcases closing with closing | closing | ⟨c, r, rfl, _, mark⟩
        · exact unclosed closing (.inl rfl)
        · exact unclosed closing (.inr rfl)
        · obtain rfl : c = '"' := by simpa using mark
          have shorter : r.length < n := by
            simp only [← size, List.length_cons, List.length_append]
            omega
          obtain ⟨w, parts, rest, rfl, read, ends⟩ := ih r.length shorter r rfl
          have whole : '"' :: (u ++ '"' :: (w ++ rest)) = '"' :: (u ++ '"' :: w) ++ rest := by simp
          obtain ⟨w', parts', together, read'⟩ := in_front whole (.quoted inner read) (.inr ⟨_, rfl⟩)
          exact ⟨w', parts', rest, together, read', ends⟩

/-! ### Parts are read as they are written -/

theorem quotedPart_of_closed {v cs rest : Text} (inner : Written ['"'] v cs) :
    quotedPart ('"' :: (v ++ '"' :: rest)) = .done cs rest := by
  have closing : CharactersEnd ['"'] ('"' :: rest) := .inr (.inr ⟨'"', rest, rfl, by decide, by simp⟩)
  have read : many (character ['"']) (v ++ '"' :: rest) = .done cs ('"' :: rest) := many_written inner closing
  simp [quotedPart, preceded, commit, terminated, char, read, Parsed.map]

theorem quotedPart_of_unclosed {t rest : Text} (unclosed : Unclosed t rest) : quotedPart t = .committed rest := by
  obtain ⟨v, cs, rfl, inner, finished⟩ := unclosed
  have stops : CharactersEnd ['"'] rest := by
    rcases finished with rfl | rfl
    · exact .inl rfl
    · exact .inr (.inl rfl)
  have read : many (character ['"']) (v ++ rest) = .done cs rest := many_written inner stops
  have no_quote : (char (· = '"')) rest = .failed rest := by
    rcases finished with rfl | rfl
    · rfl
    · rfl
  have opened : quotedPart ('"' :: (v ++ rest)) =
      commit (terminated (many (character ['"'])) (char (· = '"'))) (v ++ rest) := rfl
  rw [opened, commit, terminated, read]
  simp only [no_quote, Parsed.map]

theorem fieldPart_of_quoted {v cs rest : Text} (inner : Written ['"'] v cs) :
    fieldPart ('"' :: (v ++ '"' :: rest)) = .done (.quoted cs) rest := by
  simp [fieldPart, orElse, map, quotedPart_of_closed inner, Parsed.map]

theorem fieldPart_of_unclosed {t rest : Text} (unclosed : Unclosed t rest) : fieldPart t = .committed rest := by
  simp [fieldPart, orElse, map, quotedPart_of_unclosed unclosed, Parsed.map]

theorem quotedPart_of_unquoted {t : Text} (unquoted : t.head? ≠ some '"') : quotedPart t = .failed t := by
  cases t with
  | nil => rfl
  | cons c t =>
    have other : c ≠ '"' := by simpa using unquoted
    simp [quotedPart, preceded, char, other]

theorem fieldPart_of_plain {v cs rest : Text} (filled : v ≠ []) (text : Written [',', '"'] v cs)
    (finished : CharactersEnd [',', '"'] rest) : fieldPart (v ++ rest) = .done (.plain cs) rest := by
  have unquoted : (v ++ rest).head? ≠ some '"' := by
    cases text with
    | nil => exact absurd rfl filled
    | escaped c _ => simp
    | plain _ unmarked _ =>
      intro first
      obtain rfl : _ = '"' := by simpa using first
      exact unmarked (by simp)
  have read : plainPart (v ++ rest) = .done cs rest := by
    cases text with
    | nil => exact absurd rfl filled
    | escaped c later =>
      simp [plainPart, many1, character_escaped, many_written later finished, Parsed.map]
    | plain unescaped unmarked later =>
      simp [plainPart, many1, character_plain unescaped unmarked, many_written later finished, Parsed.map]
  simp [fieldPart, orElse, map, quotedPart_of_unquoted unquoted, read, Parsed.map]

theorem charactersEnd_of_fieldEnd {t : Text} (finished : FieldEnd t) : CharactersEnd [',', '"'] t := by
  rcases finished with rfl | rfl | ⟨rest, rfl⟩
  · exact .inl rfl
  · exact .inr (.inl rfl)
  · exact .inr (.inr ⟨',', rest, rfl, by decide, by simp⟩)

theorem fieldPart_at_end {t : Text} (finished : FieldEnd t) : fieldPart t = .failed t := by
  have unquoted : t.head? ≠ some '"' := by
    rcases finished with rfl | rfl | ⟨rest, rfl⟩
    · simp
    · simp
    · simp
  have nothing : plainPart t = .failed t := by
    simp [plainPart, many1, character_at_end (charactersEnd_of_fieldEnd finished)]
  simp [fieldPart, orElse, map, quotedPart_of_unquoted unquoted, nothing, Parsed.map]

/-- Parts are read one by one, whatever comes behind them that plain text does not go on in. -/
theorem many_parts {w rest : Text} {parts : List Segment} (read : Parts w parts)
    (finished : CharactersEnd [',', '"'] rest) :
    many fieldPart (w ++ rest) = (many fieldPart rest).map (parts ++ ·) := by
  induction read with
  | nil => cases behind : many fieldPart rest <;> simp [behind, Parsed.map]
  | @quoted v cs w parts inner _ ih =>
    have together : '"' :: (v ++ '"' :: w) ++ rest = '"' :: (v ++ '"' :: (w ++ rest)) := by simp
    have shorter : (w ++ rest).length < ('"' :: (v ++ '"' :: (w ++ rest))).length := by
      simp only [List.length_cons, List.length_append]
      omega
    rw [together, many_of_done (fieldPart_of_quoted inner) shorter, ih]
    cases many fieldPart rest <;> rfl
  | @plain v cs w parts filled text next _ ih =>
    have stops : CharactersEnd [',', '"'] (w ++ rest) := by
      rcases next with rfl | ⟨behind, rfl⟩
      · exact finished
      · exact .inr (.inr ⟨'"', behind ++ rest, rfl, by decide, by simp⟩)
    have shorter : (w ++ rest).length < (v ++ (w ++ rest)).length := by
      have := List.length_pos_iff.mpr filled
      simp only [List.length_append]
      omega
    rw [List.append_assoc, many_of_done (fieldPart_of_plain filled text stops) shorter, ih]
    cases many fieldPart rest <;> rfl

theorem field_of_parts {w rest : Text} {parts : List Segment} (read : Parts w parts) (finished : FieldEnd rest) :
    field (w ++ rest) = .done (fieldValue parts) rest := by
  rw [field, map, many_parts read (charactersEnd_of_fieldEnd finished), many_of_failed (fieldPart_at_end finished)]
  simp [Parsed.map]

theorem field_of_unclosed {w t rest : Text} {parts : List Segment} (read : Parts w parts)
    (unclosed : Unclosed t rest) : field (w ++ t) = .committed rest := by
  have stops : CharactersEnd [',', '"'] t := by
    obtain ⟨v, _, rfl, _⟩ := unclosed
    exact .inr (.inr ⟨'"', v ++ rest, rfl, by decide, by simp⟩)
  have broken : many fieldPart t = .committed rest := by rw [many, fieldPart_of_unclosed unclosed]
  rw [field, map, many_parts read stops, broken]
  rfl

/-! ### Parts in the scan -/

theorem Written.scan_quoted {v cs : Text} (inner : Written ['"'] v cs) :
    Scan.run ⟨true, false⟩ v = ⟨true, false⟩ ∧ Scan.separators ⟨true, false⟩ v = 0 := by
  induction inner with
  | nil => exact ⟨rfl, rfl⟩
  | escaped c _ ih => simpa [Scan.run, Scan.separators, Scan.step, Scan.separates] using ih
  | @plain _ _ c unescaped unmarked _ ih =>
    have unquoted : c ≠ '"' := by simpa using unmarked
    simpa [Scan.run, Scan.separators, Scan.step, Scan.separates, unescaped, unquoted] using ih

theorem Written.scan_plain {v cs : Text} (text : Written [',', '"'] v cs) :
    Scan.outside.run v = .outside ∧ Scan.outside.separators v = 0 := by
  induction text with
  | nil => exact ⟨rfl, rfl⟩
  | escaped c _ ih => simpa [Scan.run, Scan.separators, Scan.step, Scan.separates, Scan.outside] using ih
  | @plain _ _ c unescaped unmarked _ ih =>
    obtain ⟨not_comma, unquoted⟩ : c ≠ ',' ∧ c ≠ '"' := by simpa using unmarked
    simpa [Scan.run, Scan.separators, Scan.step, Scan.separates, Scan.outside, unescaped, not_comma, unquoted]
      using ih

theorem Parts.scan {w : Text} {parts : List Segment} (read : Parts w parts) :
    Scan.outside.run w = .outside ∧ Scan.outside.separators w = 0 := by
  induction read with
  | nil => exact ⟨rfl, rfl⟩
  | @quoted v cs w parts inner _ ih =>
    obtain ⟨stays, quiet⟩ := inner.scan_quoted
    have opened : Scan.outside.step '"' = ⟨true, false⟩ := rfl
    have closed : Scan.step ⟨true, false⟩ '"' = .outside := rfl
    constructor
    · show (Scan.outside.step '"').run (v ++ '"' :: w) = .outside
      rw [opened, Scan.run_append, stays]
      exact ih.1
    · show 0 + (Scan.outside.step '"').separators (v ++ '"' :: w) = 0
      rw [opened, Scan.separators_append, quiet, stays, Scan.separators, closed, ih.2]
      rfl
  | plain _ text _ _ ih =>
    obtain ⟨stays, quiet⟩ := text.scan_plain
    constructor
    · rw [Scan.run_append, stays, ih.1]
    · rw [Scan.separators_append, quiet, stays, ih.2]

theorem Unclosed.scan {t rest : Text} (unclosed : Unclosed t rest) :
    (rest = [] ∨ rest = ['\\']) ∧ Scan.outside.run t = ⟨true, rest = ['\\']⟩ := by
  obtain ⟨v, cs, rfl, inner, finished⟩ := unclosed
  refine ⟨finished, ?_⟩
  show (Scan.run ⟨true, false⟩ (v ++ rest)) = _
  rw [Scan.run_append, inner.scan_quoted.1]
  rcases finished with rfl | rfl
  · rfl
  · rfl

/-! ### Fields are the texts between commas -/

/-- A field is read up to where it ends, and reads the same without what comes behind it; or it
breaks off in a quoted part. -/
theorem field_reads (t : Text) :
    ∃ w rest, t = w ++ rest ∧ Scan.outside.run w = .outside ∧ Scan.outside.separators w = 0 ∧
      ((FieldEnd rest ∧ ∃ value, field t = .done value rest ∧ field w = .done value []) ∨
        ∃ behind, Unclosed rest behind ∧ field t = .committed behind) := by
  obtain ⟨w, parts, rest, rfl, read, ends⟩ := exists_parts t
  obtain ⟨stays, quiet⟩ := read.scan
  refine ⟨w, rest, rfl, stays, quiet, ?_⟩
  rcases ends with finished | ⟨behind, unclosed⟩
  · have alone : field (w ++ []) = .done (fieldValue parts) [] := field_of_parts read (.inl rfl)
    rw [List.append_nil] at alone
    exact .inl ⟨finished, _, field_of_parts read finished, alone⟩
  · exact .inr ⟨behind, unclosed, field_of_unclosed read unclosed⟩

/-- Behind a comma another field follows. -/
theorem many_field_of_comma (t : Text) :
    many (preceded (char (· = ',')) field) (',' :: t) = fieldList t := by
  have comma : preceded (char (· = ',')) field (',' :: t) = field t := rfl
  rw [fieldList, separated]
  obtain ⟨w, rest, rfl, -, -, ⟨-, value, found, -⟩ | ⟨behind, -, found⟩⟩ := field_reads t
  · have shorter : rest.length < (',' :: (w ++ rest)).length := by
      simp only [List.length_cons, List.length_append]
      omega
    rw [many_of_done (comma.trans found) shorter, found]
  · rw [many, comma, found]

theorem readAll_of_comma {t behind value : Text} (first : field t = .done value (',' :: behind)) :
    fieldList.readAll t = (fieldList.readAll behind).map (value :: ·) := by
  have whole : fieldList t = (fieldList behind).map (value :: ·) := by
    rw [← many_field_of_comma behind, fieldList, separated, first]
  rw [readAll, readAll, whole]
  cases fieldList behind with
  | done values rest => cases rest <;> rfl
  | failed rest => rfl
  | committed rest => rfl

/-- Where no comma follows the first field, it is the last. -/
theorem fieldList_of_last {t value rest : Text} (first : field t = .done value rest)
    (last : rest = [] ∨ rest = ['\\']) : fieldList t = .done [value] rest := by
  have no_comma : preceded (char (· = ',')) field rest = .failed rest := by
    rcases last with rfl | rfl
    · rfl
    · rfl
  rw [fieldList, separated, first]
  simp only [many_of_failed no_comma, Parsed.map]

/-- Each text between two commas gives its own field, when the scan leaves nothing open; else the
list cannot be read, and reading stops at the end or at the backslash that takes nothing. -/
theorem readAll_fieldList (t : Text) :
    if (Scan.outside.run t).isComplete then
      ∃ values, fieldList.readAll t = .ok values ∧
        List.Forall₂ (fun chunk value => field chunk = .done value []) (Scan.outside.chunks t) values
    else
      fieldList.readAll t = .error (if (Scan.outside.run t).escaped then ['\\'] else []) := by
  induction size : t.length using Nat.strongRecOn generalizing t with
  | ind n ih =>
    obtain ⟨w, rest, rfl, stays, quiet, ⟨finished, value, found, alone⟩ | ⟨behind, unclosed, found⟩⟩ :=
      field_reads t
    · have scanned : Scan.outside.run (w ++ rest) = Scan.outside.run rest := by rw [Scan.run_append, stays]
      have cut : Scan.outside.chunks (w ++ rest) = (Scan.outside.chunks rest).modifyHead (w ++ ·) := by
        rw [Scan.chunks_append quiet, stays]
      rw [scanned, cut]
      rcases finished with rfl | rfl | ⟨behind, rfl⟩
      · refine ⟨[value], ?_, ?_⟩
        · rw [readAll, fieldList_of_last found (.inl rfl)]
        · simpa [Scan.chunks] using alone
      · show fieldList.readAll _ = .error ['\\']
        rw [readAll, fieldList_of_last found (.inr rfl)]
      · have shorter : behind.length < n := by
          simp only [← size, List.length_cons, List.length_append]
          omega
        have later := ih behind.length shorter behind rfl
        have comma : Scan.outside.run (',' :: behind) = Scan.outside.run behind := rfl
        have next : Scan.outside.chunks (',' :: behind) = [] :: Scan.outside.chunks behind := rfl
        rw [comma, next, readAll_of_comma found]
        split
        · next complete =>
          rw [if_pos complete] at later
          obtain ⟨values, read, each⟩ := later
          refine ⟨value :: values, by rw [read]; rfl, ?_⟩
          show List.Forall₂ _ ((w ++ []) :: Scan.outside.chunks behind) _
          rw [List.append_nil]
          exact .cons alone each
        · next open_end =>
          rw [if_neg open_end] at later
          rw [later]
          rfl
    · obtain ⟨open_end, scanned⟩ := unclosed.scan
      have broken : fieldList.readAll (w ++ rest) = .error behind := by
        rw [readAll, fieldList, separated, found]
      rw [Scan.run_append, stays, scanned, broken]
      rcases open_end with rfl | rfl
      · rfl
      · rfl

/-- The commas that the scan finds outside quotes and behind no backslash cut a text into its fields,
each read from its own piece, and the pieces with commas between them are the text again. The
fields cannot be told apart exactly where the scan of a text that is not blank ends between quotes
or behind a backslash; the error tells the byte of that backslash, or else the end of the text. -/
theorem fields_between_commas (t : Text) :
    join [','] (Scan.outside.chunks t) = t ∧
      (Scan.outside.chunks t).length = Scan.outside.separators t + 1 ∧
      (∀ chunk ∈ Scan.outside.chunks t, Scan.outside.separators chunk = 0) ∧
      if allBlank t then fields t = .ok []
      else if (Scan.outside.run t).isComplete then
        ∃ values, fields t = .ok values ∧
          List.Forall₂ (fun chunk value => field chunk = .done value []) (Scan.outside.chunks t) values
      else fields t = .error ⟨scanEnd t⟩ := by
  refine ⟨Scan.join_chunks _ t, Scan.length_chunks _ t, ?_, ?_⟩
  · intro chunk member
    obtain ⟨first, rest, found, quiet, others⟩ := Scan.separators_chunks .outside t
    rw [found] at member
    rcases List.mem_cons.mp member with rfl | later
    · exact quiet
    · exact others chunk later
  · have read := readAll_fieldList t
    rw [fields]
    split
    · rfl
    · split
      · next complete =>
        rw [if_pos complete] at read
        obtain ⟨values, whole, each⟩ := read
        exact ⟨values, by rw [whole]; rfl, each⟩
      · next open_end =>
        rw [if_neg open_end] at read
        rw [read, scanEnd]
        split
        · rfl
        · rfl

example : fields "a, \"b, c\" ,, x\\,y".toList = .ok ["a".toList, "b, c".toList, [], "x,y".toList] := by
  cbv

end DiagramLint.Text
