import DiagramLint.EntityDiagram.Reader
import DiagramLint.Proofs.LineNumbers
import DiagramLint.Proofs.LineRule
import DiagramLint.Proofs.Results
import DiagramLint.Proofs.Text.Cuts
import DiagramLint.Proofs.Text.Identifiers
import DiagramLint.Proofs.Text.Pieces
import DiagramLint.Proofs.Text.Words

/-!
Relationships as they are written. Two entities stand around a connector, whose marks are braces and bars, and a label
stands behind a colon, with or without double quotes. Every such line is read as it is written, unless it ends like a line
that begins a body; only a label without quotes can end like this (`written_relationship_read`).
-/
namespace DiagramLint.EntityDiagram

open Text

/-- A relationship as it is written. -/
structure WrittenRelationship where
  left : Text
  connector : Connector
  right : Text
  label : Option Text
  /-- The label stands in double quotes. -/
  quoted : Bool
  left_identifier : isIdentifier left = true
  right_identifier : isIdentifier right = true
  label_filled : ∀ t ∈ label, t ≠ []
  label_trimmed : ∀ t ∈ label, trim t = t
  label_unquoted : ∀ t ∈ label, '"' ∉ t

/-- The ends of lines that begin bodies. -/
def bodyMarks : List Text := [['{', '}'], ['{']]

namespace WrittenRelationship

/-- What stands in front of the label. -/
def head (m : WrittenRelationship) : Text := m.left ++ ' ' :: (m.connector.symbol.toList ++ ' ' :: m.right)

/-- A label as it is written. -/
def labelText (m : WrittenRelationship) (t : Text) : Text := if m.quoted then '"' :: (t ++ ['"']) else t

/-- The relationship as it is written. -/
def written (m : WrittenRelationship) : Text := m.head ++ m.label.elim [] fun t => ' ' :: ':' :: ' ' :: m.labelText t

/-- The label stands without quotes, and it ends like a line that begins a body. -/
def LooksOpen (m : WrittenRelationship) : Prop := ∃ t ∈ m.label, m.quoted = false ∧ ∃ mark ∈ bodyMarks, mark <:+ t

/-- The relationship that is written, at a position. -/
def entry (m : WrittenRelationship) (position : Position) : Relationship :=
  ⟨m.left, m.right, m.connector, m.label, position⟩

end WrittenRelationship

variable {d : Draft} {line : Line} {t u mark : Text}

/-! ### Connectors -/

theorem Connector.mem_all (c : Connector) : c ∈ Connector.all := by
  obtain ⟨left, identifying, right⟩ := c
  cases left <;> cases identifying <;> cases right <;> decide

theorem Connector.ofSymbol?_symbol (c : Connector) : Connector.ofSymbol? c.symbol.toList = some c := by
  have every : ∀ c ∈ Connector.all, Connector.ofSymbol? c.symbol.toList = some c := by decide +kernel
  exact every c c.mem_all

/-- The marks and the line of a connector are visible, and neither colons nor double quotes. -/
theorem Connector.symbol_plain (c : Connector) : c.symbol.toList ≠ [] ∧
    ∀ a ∈ c.symbol.toList, isBlank a = false ∧ a ≠ ':' ∧ a ≠ '"' := by
  have every : ∀ c ∈ Connector.all, c.symbol.toList ≠ [] ∧
      ∀ a ∈ c.symbol.toList, isBlank a = false ∧ a ≠ ':' ∧ a ≠ '"' := by decide +kernel
  exact every c c.mem_all

/-! ### Ends of lines -/

theorem openLine_of_unmarked (unmarked : ∀ mark ∈ bodyMarks, ¬ mark <:+ line.text) : openLine d line = pass := by
  have whole : dropEnd? ['{', '}'] line.text = none := dropEnd?_eq_none (unmarked _ (by decide))
  have brace : dropEnd? ['{'] line.text = none := dropEnd?_eq_none (unmarked _ (by decide))
  rw [openLine, whole]
  dsimp only
  rw [brace]

/-- Where a blank stands in front of any bracket, and something behind it, no entity is named. -/
theorem nameAndLabel?_of_blank (blank : ' ' ∈ u) (unbracketed : '[' ∉ u) (ends : EndsVisible u) (t : Text) :
    nameAndLabel? (u ++ t) = none := by
  have unnamed (v : Text) : isIdentifier (u ++ v) = false := by
    by_contra identifier
    exact not_mem_of_identifier (by simpa using identifier) (by decide) (List.mem_append_left v blank)
  rw [nameAndLabel?, cutBracketed?, cut?_behind unbracketed]
  cases cut? ['['] t with
  | none => simp [unnamed]
  | some found =>
    obtain ⟨before, rest⟩ := found
    cases closed : dropEnd? [']'] rest with
    | none => simp [closed, unnamed]
    | some label => simp [closed, trimEnd_append ends, unnamed]

/-- A line that ends like one that begins a body is refused where no entity is named in front. -/
theorem openLine_refused (marked : mark ∈ bodyMarks) (text : line.text = t ++ mark)
    (unnamed : nameAndLabel? (trimEnd t) = none) : openLine d line = .error (line.fail (.entityNameInvalid (trimEnd t))) := by
  have refused : bodiedEntity line (trimEnd t) = .error (line.fail (.entityNameInvalid (trimEnd t))) := by
    rw [bodiedEntity, unnamed]
  rw [openLine, text]
  rcases List.mem_pair.mp marked with rfl | rfl
  · rw [dropEnd?_append]
    simp only [refused, Except.map]
  · have other : dropEnd? ['{', '}'] (t ++ ['{']) = none := by
      refine dropEnd?_eq_none ?_
      rintro ⟨before, same⟩
      have last := congrArg List.getLast? same
      simp at last
    rw [other, dropEnd?_append]
    simp only [refused, Except.map]

namespace WrittenRelationship

/-! ### The parts of a relationship -/

/-- The first entity and the connector. -/
def front (m : WrittenRelationship) : Text := m.left ++ ' ' :: m.connector.symbol.toList

theorem front_ends (m : WrittenRelationship) : EndsVisible m.front := by
  obtain ⟨filled, plain⟩ := m.connector.symbol_plain
  have ends := ends_of_trim filled (trim_of_all_visible filled fun a member => (plain a member).1)
  simpa [front] using ends.append (m.left ++ [' '])

theorem front_unbracketed (m : WrittenRelationship) : '[' ∉ m.front := by
  have marks : ∀ c ∈ Connector.all, '[' ∉ c.symbol.toList := by decide +kernel
  simp [front, not_mem_of_identifier m.left_identifier, marks m.connector m.connector.mem_all,
    show isIdentifierChar '[' = false by decide +kernel]

theorem head_eq (m : WrittenRelationship) : m.head = m.front ++ ' ' :: m.right := by simp [head, front]

/-- The last part of the line, behind a blank. -/
def tail (m : WrittenRelationship) : Text := m.label.elim m.right m.labelText

theorem exists_front (m : WrittenRelationship) : ∃ u, m.written = m.front ++ u ++ ' ' :: m.tail := by
  rw [written, tail, head_eq]
  cases m.label with
  | none => exact ⟨[], by simp⟩
  | some t => exact ⟨' ' :: (m.right ++ [' ', ':']), by simp⟩

/-- A line of a relationship ends like one that begins a body only if its label does. -/
theorem looksOpen_of_suffix (m : WrittenRelationship) (marked : mark ∈ bodyMarks) (ends : mark <:+ m.written) :
    ∃ t ∈ m.label, m.quoted = false ∧ mark <:+ t := by
  have shapes : ∀ mark ∈ bodyMarks, '{' ∈ mark ∧ ' ' ∉ mark ∧ '"' ∉ mark := by decide
  obtain ⟨brace, unspaced, unquoted⟩ := shapes mark marked
  obtain ⟨u, split⟩ := m.exists_front
  rw [split] at ends
  have last : mark <:+ m.tail := suffix_behind unspaced ends
  unfold tail labelText at last
  cases labelled : m.label with
  | none =>
    rw [labelled] at last
    have foreign : isIdentifierChar '{' = false := by decide +kernel
    exact absurd (last.subset brace) (not_mem_of_identifier m.right_identifier foreign)
  | some t =>
    refine ⟨t, rfl, ?_⟩
    rw [labelled, Option.elim_some] at last
    split at last
    · rcases List.suffix_concat_iff.mp (List.cons_append ▸ last) with rfl | ⟨before, rfl, -⟩
      · cases brace
      · exact absurd (List.mem_append_right before List.mem_cons_self) unquoted
    · next plain => exact ⟨by simpa using plain, last⟩

theorem head_whole (m : WrittenRelationship) : isWhole (· = ':') false m.head = true := by
  have name {id : Text} (identifier : isIdentifier id = true) : ∀ c ∈ id, c ≠ ':' ∧ c ≠ '"' := by
    intro c member
    constructor
    · rintro rfl
      exact not_mem_of_identifier identifier (by decide) member
    · rintro rfl
      exact not_mem_of_identifier identifier (by decide) member
  have plain : ∀ c ∈ m.head, c ≠ ':' ∧ c ≠ '"' := by
    simp only [head, List.forall_mem_append, List.forall_mem_cons]
    exact ⟨name m.left_identifier, by decide, fun c member => (m.connector.symbol_plain.2 c member).2, by decide,
      name m.right_identifier⟩
  exact isWhole_of_plain (by simpa using plain)

theorem head_ends (m : WrittenRelationship) : EndsVisible m.head := by
  have ends := ends_of_identifier m.right_identifier (m.front ++ [' '])
  simpa [head_eq] using ends

theorem labelText_tight (m : WrittenRelationship) (labelled : t ∈ m.label) : trim (' ' :: m.labelText t) = m.labelText t := by
  have filled := m.label_filled t labelled
  have trimmed := m.label_trimmed t labelled
  unfold labelText
  split
  · have begins : BeginsVisible ('"' :: (t ++ ['"'])) := ⟨'"', t ++ ['"'], rfl, by decide⟩
    have ends : EndsVisible ('"' :: (t ++ ['"'])) := ⟨'"' :: t, '"', rfl, by decide⟩
    exact trim_of_blank_front allBlank_space begins ends
  · exact trim_of_blank_front allBlank_space (begins_of_trim filled trimmed) (ends_of_trim filled trimmed)

theorem headAndLabel_written (m : WrittenRelationship) : headAndLabel m.written = (m.head, m.label.map m.labelText) := by
  cases labelled : m.label with
  | none =>
    have bare : m.written = m.head := by simp [written, labelled]
    rw [bare, headAndLabel_of_unlabelled m.head_whole, Option.map_none]
  | some t =>
    have parts : m.written = (m.head ++ [' ']) ++ ':' :: ' ' :: m.labelText t := by simp [written, labelled]
    have whole : isWhole (· = ':') false (m.head ++ [' ']) = true := isWhole_append m.head_whole (by decide)
    rw [parts, headAndLabel_of_whole whole, trimEnd_of_ends m.head_ends allBlank_space, m.labelText_tight labelled,
      Option.map_some]

theorem tokens_head (m : WrittenRelationship) : tokens m.head = [m.left, m.connector.symbol.toList, m.right] := by
  have blank : isBlank ' ' = true := by decide
  have marks := m.connector.symbol_plain
  have right : tokens m.right = [m.right] := by
    simpa [tokens, tokensFrom, consWord] using
      tokens_cons_word (t := []) (ne_nil_of_identifier m.right_identifier) (visible_of_identifier m.right_identifier) (by simp)
  rw [head, tokens_cons_word (ne_nil_of_identifier m.left_identifier) (visible_of_identifier m.left_identifier)
    (by simpa using blank), tokens_cons_blank blank, tokens_cons_word marks.1 (fun a member => (marks.2 a member).1)
    (by simpa using blank), tokens_cons_blank blank, right]

theorem label_read (m : WrittenRelationship) :
    ((m.label.map m.labelText).bind fun t => trimmed? (unquote t)) = m.label := by
  cases labelled : m.label with
  | none => rfl
  | some t =>
    have bare : unquote (m.labelText t) = t := by
      unfold labelText
      split
      · exact unquote_quoted t
      · exact unquote_of_unquoted (m.label_unquoted t labelled)
    simp [bare, trimmed?_of_tight (m.label_filled t labelled) (m.label_trimmed t labelled)]

/-! ### The line of a relationship -/

theorem relationshipLine_written (m : WrittenRelationship) (text : line.text = m.written) :
    relationshipLine d line = take { d with relationships := d.relationships ++ [m.entry line.position] } := by
  rw [relationshipLine, text, m.headAndLabel_written]
  simp only [m.tokens_head, Connector.ofSymbol?_symbol, m.left_identifier, m.right_identifier, m.label_read]
  rfl

/-- Where the label ends like a line that begins a body, no entity is named in front of that end. -/
theorem openLine_of_label (m : WrittenRelationship) (text : line.text = m.written) (labelled : t ∈ m.label)
    (plain : m.quoted = false) (marked : mark ∈ bodyMarks) (ends : mark <:+ t) : ∃ before,
      m.written = before ++ mark ∧ openLine d line = .error (line.fail (.entityNameInvalid (trimEnd before))) := by
  obtain ⟨begun, rfl⟩ := ends
  have split : m.written = m.front ++ (' ' :: (m.right ++ ' ' :: ':' :: ' ' :: begun)) ++ mark := by
    simp [written, head_eq, Option.mem_def.mp labelled, labelText, plain]
  refine ⟨_, split, openLine_refused marked (text.trans split) ?_⟩
  rw [trimEnd_append m.front_ends]
  exact nameAndLabel?_of_blank (by simp [front]) m.front_unbracketed m.front_ends _

theorem written_begins (m : WrittenRelationship) : ∃ c rest, m.written = c :: rest ∧ isIdentifierChar c = true := by
  obtain ⟨c, rest, named⟩ := List.exists_cons_of_ne_nil (ne_nil_of_identifier m.left_identifier)
  have inside : isIdentifierChar c = true := isIdentifierChar_of_mem m.left_identifier (by simp [named])
  exact ⟨c, _, by rw [written, head, named, List.cons_append, List.cons_append], inside⟩

end WrittenRelationship

/-- A line outside bodies that is written as a relationship is one, and it is read as this relationship and nothing else.
Only a line whose label ends without quotes like a line that begins a body is refused, for the name of the entity. -/
theorem written_relationship_read (m : WrittenRelationship) (closed : d.body = none) (number : Nat) {raw : Text}
    (written : trim raw = m.written) :
    Zone.content.line? number raw = some (.ofRaw number raw) ∧
    (¬ m.LooksOpen → readLine (rules d) d (.ofRaw number raw) =
      .ok { d with relationships := d.relationships ++ [m.entry (Line.ofRaw number raw).position] }) ∧
    (m.LooksOpen → ∃ before, ∃ mark ∈ bodyMarks, m.written = before ++ mark ∧ readLine (rules d) d (.ofRaw number raw) =
      .error ((Line.ofRaw number raw).fail (.entityNameInvalid (trimEnd before)))) := by
  have text : (Line.ofRaw number raw).text = m.written := written
  have outer : rules d = outerRules := by rw [rules, closed]; rfl
  refine ⟨?_, ?_, ?_⟩
  · obtain ⟨c, rest, begins, inside⟩ := m.written_begins
    have spoken : ¬ IsSilent raw := by
      refine not_silent_of_begins (written.trans begins) ?_
      rintro rfl
      exact absurd inside (by decide +kernel)
    exact Zone.content_line? spoken number
  · intro shut
    have unopened : openLine d (.ofRaw number raw) = pass := by
      refine openLine_of_unmarked fun mark marked ends => shut ?_
      obtain ⟨t, labelled, plain, inside⟩ := m.looksOpen_of_suffix marked (text ▸ ends)
      exact ⟨t, labelled, plain, mark, marked, inside⟩
    rw [outer]
    exact readLine_of_first (firstTaking_cons_of_pass unopened) (m.relationshipLine_written text)
  · rintro ⟨t, labelled, plain, mark, marked, ends⟩
    obtain ⟨before, split, refused⟩ := m.openLine_of_label text (d := d) labelled plain marked ends
    refine ⟨before, mark, marked, split, ?_⟩
    have reached : firstTaking d (.ofRaw number raw) outerRules =
        firstTaking d (.ofRaw number raw) (⟨"entity body", openLine⟩ :: outerRules.tail) := rfl
    rw [outer]
    exact readLine_of_first reached refused

/-- A relationship whose ends look like other lines, and whose label holds colons, an operator and a brace at its end. -/
def busyRelationship : WrittenRelationship where
  left := "direction".toList
  connector := ⟨.zeroOrMore, false, .oneOrMore⟩
  right := "--".toList
  label := some "a : B ||--o\x7b".toList
  quoted := true
  left_identifier := by decide +kernel
  right_identifier := by decide +kernel
  label_filled := by decide
  label_trimmed := by decide
  label_unquoted := by decide

theorem written_relationship_read_busyRelationship :
    (trim "  direction \x7do..|\x7b -- : \"a : B ||--o\x7b\"".toList = busyRelationship.written ∧
      ¬ busyRelationship.LooksOpen) ∧
    readLine (rules {}) {} (.ofRaw 2 "  direction \x7do..|\x7b -- : \"a : B ||--o\x7b\"".toList) = .ok {
      relationships := [⟨"direction".toList, "--".toList, ⟨.zeroOrMore, false, .oneOrMore⟩,
        some "a : B ||--o\x7b".toList, ⟨2, 3⟩⟩] } := by
  have written : trim "  direction \x7do..|\x7b -- : \"a : B ||--o\x7b\"".toList = busyRelationship.written := by decide
  have shut : ¬ busyRelationship.LooksOpen := by
    rintro ⟨-, -, quoted, -⟩
    cases quoted
  exact ⟨⟨written, shut⟩, (written_relationship_read busyRelationship (d := {}) rfl 2 written).2.1 shut⟩

/-- A relationship whose label ends with a brace. -/
def bracedLabel : Text := "erDiagram\nA ||--o\x7b B : x\x7b".toList

/-- The whole line is taken for the beginning of a body, and what stands in front of the brace names no entity. -/
theorem bracedLabel_refused : read (Source.ofText bracedLabel 0) = .error
    ((Line.ofRaw 2 "A ||--o\x7b B : x\x7b".toList).fail (.entityNameInvalid "A ||--o\x7b B : x".toList)) :=
  eq_error_of_seen (by decide +kernel)

end DiagramLint.EntityDiagram
