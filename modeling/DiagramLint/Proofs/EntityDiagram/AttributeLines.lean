import DiagramLint.EntityDiagram.Reader
import DiagramLint.Proofs.LineNumbers
import DiagramLint.Proofs.LineRule
import DiagramLint.Proofs.Text.Pieces

/-!
Attributes as they are written. Behind the type and the name of an attribute stand its keys, with blanks and commas between
them, and a comment in double quotes, which may hold what looks like keys. An attribute is read as it is written; an
asterisk in front of the name adds the key `PK` if it is not among the keys (`written_attribute_read`).
-/
namespace DiagramLint.EntityDiagram

open Text

/-- A key with the blanks and commas in front of it. -/
structure WrittenKey where
  gap : Text
  key : Text
  gap_filled : gap ≠ []
  gap_apart : ∀ c ∈ gap, isBlank c = true ∨ c = ','
  key_filled : key ≠ []
  key_visible : ∀ c ∈ key, isBlank c = false
  key_plain : ',' ∉ key ∧ '"' ∉ key

/-- The key as it is written. -/
def WrittenKey.written (k : WrittenKey) : Text := k.gap ++ k.key

/-- An attribute as it is written. -/
structure WrittenAttribute where
  type : Text
  /-- The blanks between the type and the name. -/
  gap : Text
  /-- An asterisk stands in front of the name. -/
  starred : Bool
  name : Text
  keys : List WrittenKey
  /-- The blanks in front of the comment. -/
  commentGap : Text
  comment : Option Text
  type_filled : type ≠ []
  type_visible : ∀ c ∈ type, isBlank c = false
  type_unquoted : '"' ∉ type
  type_spoken : isComment type = false
  gap_filled : gap ≠ []
  gap_blank : allBlank gap = true
  name_filled : name ≠ []
  name_visible : ∀ c ∈ name, isBlank c = false
  name_unquoted : '"' ∉ name
  name_unstarred : ¬ ['*'] <+: name
  /-- A comma directly behind the name would belong to it. -/
  keys_apart : ∀ k ∈ keys.head?, ∀ c ∈ k.gap.head?, isBlank c = true
  commentGap_blank : allBlank commentGap = true
  comment_unquoted : ∀ t ∈ comment, '"' ∉ t

namespace WrittenAttribute

/-- The name as it is written. -/
def marked (m : WrittenAttribute) : Text := if m.starred then '*' :: m.name else m.name

/-- The keys as they are written. -/
def keyText (m : WrittenAttribute) : Text := m.keys.flatMap WrittenKey.written

/-- What stands in front of the comment. -/
def head (m : WrittenAttribute) : Text := m.type ++ (m.gap ++ (m.marked ++ m.keyText))

/-- The comment as it is written. -/
def commentText (m : WrittenAttribute) : Text := m.comment.elim [] fun t => m.commentGap ++ '"' :: (t ++ ['"'])

/-- The attribute as it is written. -/
def written (m : WrittenAttribute) : Text := m.head ++ m.commentText

/-- The keys of the attribute. An asterisk stands for a primary key, which is not put to the keys twice. -/
def allKeys (m : WrittenAttribute) : List Text :=
  let keys := m.keys.map WrittenKey.key
  if m.starred && !keys.contains primaryKey then primaryKey :: keys else keys

/-- The attribute that is written, at a position. -/
def entry (m : WrittenAttribute) (position : Position) : Attribute := ⟨m.type, m.name, m.allKeys, m.comment, position⟩

end WrittenAttribute

variable {d : Draft} {e : Entity} {line : Line} {ks : List WrittenKey} {t : Text}

/-! ### Keys -/

/-- Behind a name or a key come keys or nothing. -/
theorem begins_gap (ks : List WrittenKey) : ∀ c ∈ (ks.flatMap WrittenKey.written).head?, isBlank c = true ∨ c = ',' := by
  cases ks with
  | nil => simp
  | cons k ks =>
    obtain ⟨b, gap, split⟩ := List.exists_cons_of_ne_nil k.gap_filled
    have first := k.gap_apart b (by simp [split])
    simpa [WrittenKey.written, split] using first

/-- Keys with gaps between them are read back. -/
theorem tokenPieces_keys (ks : List WrittenKey) :
    tokenPieces ',' (ks.flatMap WrittenKey.written) = ks.map WrittenKey.key := by
  induction ks with
  | nil => rfl
  | cons k ks ih =>
    rw [List.flatMap_cons, WrittenKey.written, List.append_assoc, tokenPieces_gap_append k.gap_apart,
      tokenPieces_cons_word k.key_filled k.key_visible k.key_plain.1 (begins_gap ks), ih, List.map_cons]

theorem keys_end (ends : EndsVisible t) (ks : List WrittenKey) : EndsVisible (t ++ ks.flatMap WrittenKey.written) := by
  induction ks generalizing t with
  | nil => simpa using ends
  | cons k ks ih =>
    have key_ends : EndsVisible k.key := ends_of_trim k.key_filled (trim_of_all_visible k.key_filled k.key_visible)
    have front : EndsVisible (t ++ k.written) := by
      rw [WrittenKey.written, ← List.append_assoc]
      exact key_ends.append (t ++ k.gap)
    rw [List.flatMap_cons, ← List.append_assoc]
    exact ih front

/-! ### The parts of an attribute -/

namespace WrittenAttribute

theorem marked_filled (m : WrittenAttribute) : m.marked ≠ [] := by
  unfold marked
  split
  · exact List.cons_ne_nil _ _
  · exact m.name_filled

theorem marked_visible (m : WrittenAttribute) : ∀ c ∈ m.marked, isBlank c = false := by
  unfold marked
  split
  · exact List.forall_mem_cons.mpr ⟨by decide, m.name_visible⟩
  · exact m.name_visible

theorem head_ends (m : WrittenAttribute) : EndsVisible m.head := by
  have marked_ends : EndsVisible m.marked := ends_of_trim m.marked_filled (trim_of_all_visible m.marked_filled m.marked_visible)
  have whole : m.head = (m.type ++ m.gap ++ m.marked) ++ m.keyText := by simp [head]
  rw [whole]
  exact keys_end (marked_ends.append _) m.keys

theorem head_unquoted (m : WrittenAttribute) : '"' ∉ m.head := by
  have gap := not_mem_of_blank m.gap_blank (c := '"') (by decide)
  have marked : '"' ∉ m.marked := by
    unfold marked
    split <;> simp [m.name_unquoted]
  have keys : '"' ∉ m.keyText := by
    intro member
    obtain ⟨k, -, inside⟩ := List.mem_flatMap.mp member
    rcases List.mem_append.mp inside with in_gap | in_key
    · exact absurd (k.gap_apart _ in_gap) (by decide)
    · exact k.key_plain.2 in_key
  simp [head, m.type_unquoted, gap, marked, keys]

/-- The comment is cut off, and what stands in front of it is left without the blanks at its end. -/
theorem splitComment?_written (m : WrittenAttribute) : splitComment? m.written = some (m.head, m.comment) := by
  cases commented : m.comment with
  | none =>
    obtain ⟨front, last, whole, -⟩ := m.head_ends
    have other : '"' ≠ last := by
      rintro rfl
      exact m.head_unquoted (by simp [whole])
    have plain : dropEnd? ['"'] m.written = none := by
      rw [written, commentText, commented, Option.elim_none, List.append_nil, whole]
      exact dropEnd?_of_other other
    rw [splitComment?, plain, written, commentText, commented, Option.elim_none, List.append_nil]
  | some t =>
    have unquoted : '"' ∉ t := m.comment_unquoted t (by simp [commented])
    have whole : m.written = ((m.head ++ m.commentGap) ++ '"' :: t) ++ ['"'] := by
      simp [written, commentText, commented]
    have trimmed : trimEnd (m.head ++ m.commentGap) = m.head := trimEnd_of_ends m.head_ends m.commentGap_blank
    rw [splitComment?, whole, dropEnd?_append]
    simp only [cutLast?_mark unquoted, Option.map_some, trimmed]

theorem tokens_head (m : WrittenAttribute) : tokens m.head = m.type :: m.marked :: tokens m.keyText := by
  have gap_first : ∀ c ∈ (m.gap ++ (m.marked ++ m.keyText)).head?, isBlank c = true := by
    obtain ⟨b, gap, split⟩ := List.exists_cons_of_ne_nil m.gap_filled
    have blank : isBlank b = true := List.all_eq_true.mp m.gap_blank b (by simp [split])
    simpa [split] using blank
  have keys_first : ∀ c ∈ m.keyText.head?, isBlank c = true := by
    rw [keyText]
    cases listed : m.keys with
    | nil => simp
    | cons k ks =>
      obtain ⟨b, gap, split⟩ := List.exists_cons_of_ne_nil k.gap_filled
      have blank := m.keys_apart k (by simp [listed]) b (by simp [split])
      simpa [WrittenKey.written, split] using blank
  rw [head, tokens_cons_word m.type_filled m.type_visible gap_first, tokens_blank_append m.gap_blank,
    tokens_cons_word m.marked_filled m.marked_visible keys_first]

theorem nameAndKeys_marked (m : WrittenAttribute) :
    nameAndKeys m.marked (m.keys.map WrittenKey.key) = (m.name, m.allKeys) := by
  unfold marked allKeys
  by_cases starred : m.starred = true
  · by_cases listed : primaryKey ∈ m.keys.map WrittenKey.key
    · simp [nameAndKeys, starred, listed]
    · simp [nameAndKeys, starred, listed]
  · have plain (keys : List Text) : nameAndKeys m.name keys = (m.name, keys) := by
      unfold nameAndKeys
      split
      · next name same => exact absurd ⟨name, same.symm⟩ m.name_unstarred
      · rfl
    simp [plain, starred]

/-- A written attribute is read as it is written. -/
theorem attribute?_written (m : WrittenAttribute) (written : line.text = m.written) :
    attribute? line = some (m.entry line.position) := by
  have filled : m.name.isEmpty = false := by simpa using m.name_filled
  rw [attribute?, written, m.splitComment?_written, Option.bind_some]
  simp only [m.tokens_head, filterMap_trimmed?_tokens, keyText, tokenPieces_keys, m.nameAndKeys_marked, filled]
  rfl

/-- The text of the line begins with the type and a blank. -/
theorem exists_gap (m : WrittenAttribute) : ∃ b rest, m.written = m.type ++ b :: rest ∧ isBlank b = true := by
  obtain ⟨b, gap, split⟩ := List.exists_cons_of_ne_nil m.gap_filled
  have blank : isBlank b = true := List.all_eq_true.mp m.gap_blank b (by simp [split])
  exact ⟨b, gap ++ (m.marked ++ m.keyText) ++ m.commentText, by simp [written, head, split], blank⟩

end WrittenAttribute

/-! ### Lines of bodies -/

/-- A written line in an open body adds its attribute. -/
theorem readLine_written (opened : d.body = some e) (m : WrittenAttribute) (written : line.text = m.written) :
    readLine (rules d) d line = .ok { d with
      body := some { e with attributes := e.attributes ++ [m.entry line.position] } } := by
  have inside : rules d = bodyRules := by rw [rules, opened]; rfl
  have open_still : closeLine d line = pass := by
    obtain ⟨b, rest, begun, blank⟩ := m.exists_gap
    refine if_neg ?_
    intro brace
    have member : b ∈ line.text := by simp [written, begun]
    have other : b ≠ '\x7d' := ne_of_blank blank (by decide)
    exact other (by simpa [brace] using member)
  have listed : attributeLine d line = (Except.ok { d with
      body := some { e with attributes := e.attributes ++ [m.entry line.position] } }).map some := by
    rw [attributeLine, m.attribute?_written written, opened]
    rfl
  rw [inside]
  exact readLine_of_first (firstTaking_cons_of_pass open_still) listed

/-- Written lines in an open body add their attributes in order. -/
theorem readLines_written (opened : d.body = some e) {ms : List WrittenAttribute} {lines : List Line}
    (written : List.Forall₂ (fun line m => line.text = m.written) lines ms) :
    readLines rules d lines = .ok { d with body := some { e with
      attributes := e.attributes ++ List.zipWith (fun line m => m.entry line.position) lines ms } } := by
  induction written generalizing d e with
  | nil => simp [readLines, ← opened]
  | cons first others ih =>
    rw [readLines_cons_ok (readLine_written opened _ first), ih rfl]
    simp

/-- A line of an open body that is written as an attribute is one, and it is read as this attribute and nothing else. -/
theorem written_attribute_read (m : WrittenAttribute) (opened : d.body = some e) (number : Nat) {raw : Text}
    (written : trim raw = m.written) :
    Zone.content.line? number raw = some (.ofRaw number raw) ∧
      readLine (rules d) d (.ofRaw number raw) = .ok { d with
        body := some { e with attributes := e.attributes ++ [m.entry (Line.ofRaw number raw).position] } } := by
  refine ⟨?_, readLine_written opened m written⟩
  obtain ⟨b, rest, begun, blank⟩ := m.exists_gap
  have spoken : ¬ IsSilent raw := not_silent_of_word (written.trans begun) m.type_spoken
    (ne_of_blank blank (by decide))
  exact Zone.content_line? spoken number

/-- A primary key with further keys, in whose comment stands what looks like keys. -/
def busyAttribute : WrittenAttribute where
  type := "varchar(9)".toList
  gap := "  ".toList
  starred := true
  name := "id,2".toList
  keys := [
    { gap := " ".toList, key := "FK".toList, gap_filled := by decide, gap_apart := by decide +kernel,
      key_filled := by decide, key_visible := by decide +kernel, key_plain := by decide },
    { gap := " , ".toList, key := "*UK".toList, gap_filled := by decide, gap_apart := by decide +kernel,
      key_filled := by decide, key_visible := by decide +kernel, key_plain := by decide }]
  commentGap := " ".toList
  comment := some "PK, *UK \x7d".toList
  type_filled := by decide
  type_visible := by decide +kernel
  type_unquoted := by decide
  type_spoken := by decide
  gap_filled := by decide
  gap_blank := by decide
  name_filled := by decide
  name_visible := by decide +kernel
  name_unquoted := by decide
  name_unstarred := by decide
  keys_apart := by
    rintro _ ⟨rfl⟩ _ ⟨rfl⟩
    decide
  commentGap_blank := by decide
  comment_unquoted := by decide

theorem written_attribute_read_busyAttribute :
    trim "\tvarchar(9)  *id,2 FK , *UK \"PK, *UK \x7d\"".toList = busyAttribute.written ∧
      readLine (rules { body := some ⟨['A'], none, true, [], ⟨2, 1⟩⟩ }) { body := some ⟨['A'], none, true, [], ⟨2, 1⟩⟩ }
        (.ofRaw 3 "\tvarchar(9)  *id,2 FK , *UK \"PK, *UK \x7d\"".toList) = .ok { body := some ⟨['A'], none, true,
          [⟨"varchar(9)".toList, "id,2".toList, ["PK".toList, "FK".toList, "*UK".toList],
            some "PK, *UK \x7d".toList, ⟨3, 2⟩⟩], ⟨2, 1⟩⟩ } := by
  have written : trim "\tvarchar(9)  *id,2 FK , *UK \"PK, *UK \x7d\"".toList = busyAttribute.written := by decide
  exact ⟨written, (written_attribute_read busyAttribute (d := { body := some ⟨['A'], none, true, [], ⟨2, 1⟩⟩ }) rfl 3
    written).2⟩

end DiagramLint.EntityDiagram
