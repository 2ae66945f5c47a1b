import DiagramLint.Proofs.Coverage.ClassDiagram
import DiagramLint.Proofs.LineNumbers
import DiagramLint.Proofs.LineRule
import DiagramLint.Proofs.Text.Identifiers
import DiagramLint.Proofs.Text.Words

/-!
Relations as they are written. Cardinalities and labels may hold blanks, colons and what looks like a relation, but a
cardinality is one word with double quotes around it, and a label stands behind the first colon outside quotes. So the
first word that is a relation is the one that was written (`written_relation_read`).
-/
namespace DiagramLint.ClassDiagram

open Text

/-- The words that begin lines of other sorts. -/
def leadingWords : List String := ["class", "note", "direction"]

/-- A text in double quotes. -/
def inQuotes (t : Text) : Text := '"' :: (t ++ ['"'])

/-- A relation as it is written: the source, the arrow and the target, with a cardinality at either end and a label. -/
structure WrittenRelation where
  source : Text
  sourceCardinality : Option Text
  relation : Relation
  targetCardinality : Option Text
  target : Text
  label : Option Text
  source_identifier : isIdentifier source = true
  source_free : ∀ word ∈ leadingWords, source ≠ word.toList
  /-- The source would be taken for the arrow. -/
  source_unlike : ∀ r ∈ Relation.all, source ≠ r.symbol.toList
  source_unquoted : ∀ t ∈ sourceCardinality, '"' ∉ t
  target_unquoted : ∀ t ∈ targetCardinality, '"' ∉ t
  target_identifier : isIdentifier target = true
  label_filled : ∀ t ∈ label, t ≠ []
  label_trimmed : ∀ t ∈ label, trim t = t

namespace WrittenRelation

/-- The words behind the source and in front of the target. -/
def between (m : WrittenRelation) : List Text :=
  (m.sourceCardinality.map inQuotes).toList ++ m.relation.symbol.toList :: (m.targetCardinality.map inQuotes).toList

/-- The words in front of the label. -/
def words (m : WrittenRelation) : List Text := m.source :: (m.between ++ [m.target])

/-- What stands in front of the label. -/
def head (m : WrittenRelation) : Text := join [' '] m.words

/-- The relation as it is written. -/
def written (m : WrittenRelation) : Text := m.head ++ m.label.elim [] fun t => ' ' :: ':' :: ' ' :: t

/-- The relation that is written, at a position. -/
def relationship (m : WrittenRelation) (position : Position) : Relationship :=
  ⟨m.source, m.target, m.relation, m.sourceCardinality, m.targetCardinality, m.label, position⟩

end WrittenRelation

variable {d : Draft} {m : WrittenRelation} {t : Text} {front back : List Text} {r : Relation}

/-! ### Arrows -/

theorem Relation.mem_all (r : Relation) : r ∈ Relation.all := by
  obtain ⟨left, dashed, right⟩ := r
  rcases left with _ | _ | _ | _ | _ <;> cases dashed <;> rcases right with _ | _ | _ | _ | _ <;> decide

theorem Relation.ofSymbol?_symbol (r : Relation) : Relation.ofSymbol? r.symbol.toList = some r := by
  have every : ∀ r ∈ Relation.all, Relation.ofSymbol? r.symbol.toList = some r := by decide +kernel
  exact every r r.mem_all

theorem Relation.ofSymbol?_eq_none (other : ∀ r ∈ Relation.all, t ≠ r.symbol.toList) : Relation.ofSymbol? t = none := by
  refine List.find?_eq_none.mpr fun r listed => ?_
  simpa using (other r listed).symm

/-- The marks and the line of an arrow are visible, and neither colons nor double quotes. -/
theorem Relation.symbol_plain (r : Relation) : r.symbol.toList ≠ [] ∧
    ∀ c ∈ r.symbol.toList, isBlank c = false ∧ c ≠ ':' ∧ c ≠ '"' := by
  have every : ∀ r ∈ Relation.all, r.symbol.toList ≠ [] ∧
      ∀ c ∈ r.symbol.toList, isBlank c = false ∧ c ≠ ':' ∧ c ≠ '"' := by decide +kernel
  exact every r r.mem_all

theorem ofSymbol?_inQuotes (t : Text) : Relation.ofSymbol? (inQuotes t) = none := by
  refine Relation.ofSymbol?_eq_none fun r _ same => ?_
  have quote : '"' ∈ r.symbol.toList := same ▸ List.mem_cons_self
  exact (r.symbol_plain.2 _ quote).2.2 rfl

/-- Words are cut at the first one that is a relation. -/
theorem cutRelation?_of_first (others : ∀ w ∈ front, Relation.ofSymbol? w = none) :
    cutRelation? (front ++ r.symbol.toList :: back) = some (front, r, back) := by
  induction front with
  | nil => simp [cutRelation?, r.ofSymbol?_symbol]
  | cons w front ih =>
    obtain ⟨first, later⟩ := List.forall_mem_cons.mp others
    simp [cutRelation?, first, ih later]

/-! ### Words -/

theorem inQuotes_ne_nil (t : Text) : inQuotes t ≠ [] := List.cons_ne_nil _ _

theorem endpoint?_written (id : Text) (cardinality : Option Text) :
    endpoint? (id :: (cardinality.map inQuotes).toList) = some (id, cardinality) := by
  cases cardinality with
  | none => rfl
  | some t => simp [endpoint?, startsWith, dropStart?, inQuotes, unquote_quoted]

namespace WrittenRelation

/-- What holds of names, of arrows and of texts in quotes holds of every word. -/
theorem forall_words {p : Text → Prop} (m : WrittenRelation) (name : ∀ {id}, isIdentifier id = true → p id)
    (arrow : ∀ r : Relation, p r.symbol.toList) (quoted : ∀ {t}, '"' ∉ t → p (inQuotes t)) : ∀ w ∈ m.words, p w := by
  have cardinality {t? : Option Text} (unquoted : ∀ t ∈ t?, '"' ∉ t) : ∀ w ∈ (t?.map inQuotes).toList, p w := by
    intro w member
    obtain ⟨t, here, rfl⟩ := Option.map_eq_some_iff.mp (Option.mem_toList.mp member)
    exact quoted (unquoted t here)
  simp only [words, between, List.forall_mem_cons, List.forall_mem_append]
  exact ⟨name m.source_identifier, ⟨cardinality m.source_unquoted, arrow m.relation, cardinality m.target_unquoted⟩,
    name m.target_identifier, List.forall_mem_nil _⟩

theorem words_filled (m : WrittenRelation) : ∀ w ∈ m.words, w ≠ [] :=
  m.forall_words ne_nil_of_identifier (fun r => r.symbol_plain.1) fun _ => inQuotes_ne_nil _

/-- No word has a blank or a colon outside quotes. -/
theorem words_whole (m : WrittenRelation) {test : Char → Bool}
    (among : ∀ c, test c = true → isBlank c = true ∨ c = ':') : ∀ w ∈ m.words, isWhole test false w = true := by
  have other {c : Char} (visible : isBlank c = false) (colon : c ≠ ':') : test c = false := by
    by_contra passed
    rcases among c (by simpa using passed) with blank | rfl
    · simp [visible] at blank
    · exact colon rfl
  refine m.forall_words ?_ ?_ ?_
  · intro id identifier
    refine isWhole_of_plain fun c member => ⟨other (visible_of_identifier identifier c member) ?_, ?_⟩
    · rintro rfl
      exact not_mem_of_identifier identifier (by decide) member
    · rintro rfl
      exact not_mem_of_identifier identifier (by decide) member
  · intro r
    refine isWhole_of_plain fun c member => ?_
    obtain ⟨visible, colon, quote⟩ := r.symbol_plain.2 c member
    exact ⟨other visible colon, quote⟩
  · intro t unquoted
    exact isWhole_quoted (other (by decide) (by decide)) unquoted

theorem words_head (m : WrittenRelation) : Text.words m.head = m.words :=
  words_join fun w member => ⟨m.words_filled w member, m.words_whole (fun _ => .inl) w member⟩

theorem head_cons (m : WrittenRelation) : m.head = m.source ++ ' ' :: join [' '] (m.between ++ [m.target]) :=
  join_cons (by simp) m.source

theorem head_ends (m : WrittenRelation) : EndsVisible m.head := by
  obtain ⟨front, same⟩ := suffix_join (m.source :: m.between) m.target
  rw [head, words, ← List.cons_append, ← same]
  exact ends_of_identifier m.target_identifier front

theorem headAndLabel_written (m : WrittenRelation) : headAndLabel m.written = (m.head, m.label) := by
  have whole : isWhole (· = ':') false m.head = true :=
    isWhole_join (by decide) (m.words_whole fun c colon => .inr (of_decide_eq_true colon))
  cases labelled : m.label with
  | none =>
    have bare : m.written = m.head := by simp [written, labelled]
    rw [bare, headAndLabel_of_unlabelled whole]
  | some t =>
    have filled := m.label_filled t labelled
    have trimmed := m.label_trimmed t labelled
    have parts : m.written = (m.head ++ [' ']) ++ ':' :: ' ' :: t := by simp [written, labelled]
    have behind : isWhole (· = ':') false (m.head ++ [' ']) = true := isWhole_append whole (by decide)
    have label : trim (' ' :: t) = t :=
      trim_of_blank_front allBlank_space (begins_of_trim filled trimmed) (ends_of_trim filled trimmed)
    rw [parts, headAndLabel_of_whole behind, trimEnd_of_ends m.head_ends allBlank_space, label]

theorem cutRelation?_words (m : WrittenRelation) : cutRelation? m.words =
    some (m.source :: (m.sourceCardinality.map inQuotes).toList, m.relation,
      (m.targetCardinality.map inQuotes).toList ++ [m.target]) := by
  have parts : m.words = (m.source :: (m.sourceCardinality.map inQuotes).toList) ++
      m.relation.symbol.toList :: ((m.targetCardinality.map inQuotes).toList ++ [m.target]) := by simp [words, between]
  rw [parts]
  refine cutRelation?_of_first (List.forall_mem_cons.mpr ⟨Relation.ofSymbol?_eq_none m.source_unlike, ?_⟩)
  intro w member
  obtain ⟨t, -, rfl⟩ := Option.map_eq_some_iff.mp (Option.mem_toList.mp member)
  exact ofSymbol?_inQuotes t

theorem relationship_made (m : WrittenRelation) (line : Line) :
    ClassDiagram.relationship line (m.source :: (m.sourceCardinality.map inQuotes).toList) m.relation
      ((m.targetCardinality.map inQuotes).toList ++ [m.target]) m.label = .ok (m.relationship line.position) := by
  have target : ((m.targetCardinality.map inQuotes).toList ++ [m.target]).reverse =
      m.target :: (m.targetCardinality.map inQuotes).toList := by
    cases m.targetCardinality <;> rfl
  rw [ClassDiagram.relationship, target, endpoint?_written, endpoint?_written]
  simp [m.source_identifier, m.target_identifier, relationship]

/-! ### The line of a relation -/

theorem exists_behind_source (m : WrittenRelation) : ∃ t, m.written = m.source ++ ' ' :: t := by
  rw [written, head_cons, List.append_assoc, List.cons_append]
  exact ⟨_, rfl⟩

/-- A line that begins with the source is of no other sort. -/
theorem passed (m : WrittenRelation) (d : Draft) {line : Line} (written : line.text = m.written) :
    ∀ rule ∈ outerRules.take 4, rule.read d line = pass := by
  obtain ⟨behind, begins⟩ := m.exists_behind_source
  rw [begins] at written
  have unkeyed {word : String} (listed : word ∈ leadingWords) : afterKeyword? word line.text = none := by
    have visible : ∀ word ∈ leadingWords, (word.toList.all fun c => !isBlank c) = true := by decide
    refine afterKeyword?_eq_none_of_firstWord ?_ (visible word listed)
    rw [written, firstWord_of_identifier m.source_identifier]
    exact m.source_free word listed
  have unmarked : stereotype? line.text = none := by
    obtain ⟨c, rest, named⟩ := List.exists_cons_of_ne_nil (ne_nil_of_identifier m.source_identifier)
    rw [named] at written
    refine stereotype?_of_begins written ?_
    rintro rfl
    exact absurd (named ▸ List.mem_cons_self) (not_mem_of_identifier m.source_identifier (by decide))
  simp only [outerRules, List.take_succ_cons, List.take_zero, List.forall_mem_cons]
  refine ⟨?_, ?_, ?_, ?_, List.forall_mem_nil _⟩
  · rw [classLine, unkeyed (by decide)]
  · rw [annotationLine, unmarked]
  · rw [noteLine, unkeyed (by decide)]
  · rw [directionLine, unkeyed (by decide)]

end WrittenRelation

/-- A line outside bodies that is written as a relation is one, and it is read as this relation and nothing else. -/
theorem written_relation_read (m : WrittenRelation) (closed : d.body = none) (number : Nat) {raw : Text}
    (written : trim raw = m.written) :
    Zone.content.line? number raw = some (.ofRaw number raw) ∧
      readLine (rules d) d (.ofRaw number raw) =
        .ok { d with relationships := d.relationships ++ [m.relationship (Line.ofRaw number raw).position] } := by
  have text : (Line.ofRaw number raw).text = m.written := written
  have outer : rules d = outerRules := by rw [rules, closed]; rfl
  have related : relationshipLine d (.ofRaw number raw) = (Except.ok { d with
      relationships := d.relationships ++ [m.relationship (Line.ofRaw number raw).position] }).map some := by
    have label : m.label.bind trimmed? = m.label := by
      cases labelled : m.label with
      | none => rfl
      | some t => exact trimmed?_of_tight (m.label_filled t labelled) (m.label_trimmed t labelled)
    rw [relationshipLine, text, m.headAndLabel_written]
    simp only [m.words_head, m.cutRelation?_words, label, m.relationship_made]
    rfl
  refine ⟨?_, ?_⟩
  · have spoken : ¬ IsSilent raw := by
      obtain ⟨c, rest, named⟩ := List.exists_cons_of_ne_nil (ne_nil_of_identifier m.source_identifier)
      obtain ⟨behind, begins⟩ := m.exists_behind_source
      have begun : trim raw = c :: (rest ++ ' ' :: behind) := by rw [written, begins, named]; rfl
      refine not_silent_of_begins begun ?_
      rintro rfl
      exact not_mem_of_identifier m.source_identifier (by decide) (named ▸ List.mem_cons_self)
    exact Zone.content_line? spoken number
  · rw [outer]
    exact readLine_of_first (firstTaking_append_of_pass (m.passed d text)) related

/-- A relation whose cardinalities and label hold blanks, colons and arrows. -/
def arrowsEverywhere : WrittenRelation where
  source := "a--b".toList
  sourceCardinality := some "0 --> : n".toList
  relation := ⟨some .hollowDiamond, true, some .triangle⟩
  targetCardinality := some " ".toList
  target := "o--".toList
  label := some "\"x\" : <|-- y".toList
  source_identifier := by decide +kernel
  source_free := by decide
  source_unlike := by decide
  source_unquoted := by decide
  target_unquoted := by decide
  target_identifier := by decide +kernel
  label_filled := by decide
  label_trimmed := by decide

theorem written_relation_read_arrowsEverywhere :
    trim "  a--b \"0 --> : n\" o..|> \" \" o-- : \"x\" : <|-- y".toList = arrowsEverywhere.written ∧
      readLine (rules {}) {} (.ofRaw 2 "  a--b \"0 --> : n\" o..|> \" \" o-- : \"x\" : <|-- y".toList) = .ok {
        relationships := [⟨"a--b".toList, "o--".toList, ⟨some .hollowDiamond, true, some .triangle⟩,
          some "0 --> : n".toList, some " ".toList, some "\"x\" : <|-- y".toList, ⟨2, 3⟩⟩] } := by
  have written : trim "  a--b \"0 --> : n\" o..|> \" \" o-- : \"x\" : <|-- y".toList =
      arrowsEverywhere.written := by decide
  exact ⟨written, (written_relation_read arrowsEverywhere (d := {}) rfl 2 written).2⟩

end DiagramLint.ClassDiagram
