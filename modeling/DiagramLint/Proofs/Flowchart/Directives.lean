import DiagramLint.Proofs.Flowchart.Arrows
import DiagramLint.Proofs.Text.Pieces

/-!
Directives and their targets. The targets of a directive are the names between the commas of one word, so a list of targets
ends at its first blank: targets behind a blank belong to the value, and a word of commas is a list without targets
(`targets_end_at_blank`).
-/
namespace DiagramLint.Flowchart

open Text

/-! ### Directives as they are written -/

/-- A target behind a comma, with the blanks around the comma. -/
structure NextTarget where
  before : Text
  after : Text
  id : Text
  before_blank : allBlank before = true
  after_blank : allBlank after = true
  identifier : isIdentifier id = true

/-- The comma and the target as they are written. -/
def NextTarget.written (t : NextTarget) : Text := t.before ++ ',' :: (t.after ++ t.id)

/-- No blanks stand around the comma. -/
def NextTarget.IsTight (t : NextTarget) : Prop := t.before = [] ∧ t.after = []

instance (t : NextTarget) : Decidable t.IsTight := inferInstanceAs (Decidable (t.before = [] ∧ t.after = []))

/-- What is written behind the first of the blanks around the comma. -/
def NextTarget.behindBlank (t : NextTarget) : Text := if t.before = [] then t.id else ',' :: (t.after ++ t.id)

/-- A directive as it is written: its keyword, targets with commas between them, and its value. -/
structure WrittenDirective where
  kind : DirectiveKind
  gap : Text
  first : Text
  more : List NextTarget
  space : Text
  value : Text
  gap_filled : gap ≠ []
  gap_blank : allBlank gap = true
  identifier : isIdentifier first = true
  space_filled : space ≠ []
  space_blank : allBlank space = true
  value_filled : value ≠ []
  value_trimmed : trim value = value
  value_single : ';' ∉ value

namespace WrittenDirective

/-- The targets and the value as they are written. -/
def body (w : WrittenDirective) : Text := w.first ++ (w.more.flatMap NextTarget.written ++ (w.space ++ w.value))

/-- The directive as it is written. -/
def written (w : WrittenDirective) : Text := w.kind.keyword.toList ++ (w.gap ++ w.body)

/-- The targets that are written. -/
def targets (w : WrittenDirective) : List Text := w.first :: w.more.map NextTarget.id

end WrittenDirective

/-- The directive is what the statement says, whose first word behind the keyword is given. -/
structure Directive.SaidBy (x : Directive) (statement : Line) (word : Text) : Prop where
  position : x.position = statement.position
  word_filled : word ≠ []
  word_visible : ∀ c ∈ word, isBlank c = false
  split : ∃ blank rest, isBlank blank = true ∧
    afterKeyword? x.kind.keyword statement.text = some (word ++ blank :: rest) ∧ x.value = trim rest
  value_filled : x.value ≠ []
  targets : x.targets = filledPieces ',' word

variable {d d' : Draft} {line : Line} {kind : DirectiveKind} {id t word rest : Text} {b c : Char}

/-! ### The rule of a directive -/

/-- The kinds of directives, in the order of their rules. -/
def directiveKinds : List DirectiveKind := [.classDef, .styleClass, .style, .linkStyle, .click]

theorem mem_directiveKinds (kind : DirectiveKind) : kind ∈ directiveKinds := by cases kind <;> decide

theorem rules_split : rules = rules.take 3 ++ (directiveKinds.map directiveRule ++ rules.drop 8) := rfl

theorem keyword_visible (kind : DirectiveKind) : kind.keyword.toList.all fun c => !isBlank c := by cases kind <;> decide

/-- The keyword of one directive is no other keyword. -/
theorem pass_of_other_keyword (first : firstWord line.text = kind.keyword.toList) :
    subgraphLine d line = pass ∧ endLine d line = pass ∧ directionLine d line = pass ∧
      ∀ other ≠ kind, directiveLine other d line = pass := by
  have absent (keyword : String) (apart : kind.keyword.toList ≠ keyword.toList)
      (visible : keyword.toList.all fun c => !isBlank c) : afterKeyword? keyword line.text = none :=
    afterKeyword?_eq_none_of_firstWord (by rwa [first]) visible
  refine ⟨subgraphLine_of_none (absent _ ?_ (by decide)), endLine_of_other ?_, directionLine_of_none (absent _ ?_ (by decide)), ?_⟩
  · cases kind <;> decide
  · intro ends
    rw [ends] at first
    revert first
    cases kind <;> decide
  · cases kind <;> decide
  · intro other apart
    refine directiveLine_of_none (absent _ ?_ (keyword_visible other))
    revert apart
    cases kind <;> cases other <;> decide

/-- A statement that begins with the keyword of a directive goes to the rule of that directive. -/
theorem readLine_directive {result : Except ParseError Draft} (first : firstWord line.text = kind.keyword.toList)
    (taken : directiveLine kind d line = result.map some) : readLine rules d line = result := by
  obtain ⟨no_subgraph, no_end, no_direction, no_other⟩ := pass_of_other_keyword (d := d) first
  obtain ⟨front, behind, split, absent⟩ := List.eq_append_cons_of_mem (mem_directiveKinds kind)
  have start : ∀ rule ∈ rules.take 3, rule.read d line = pass := by
    simp only [rules, List.take_succ_cons, List.take_zero, List.forall_mem_cons]
    exact ⟨no_subgraph, no_end, no_direction, List.forall_mem_nil _⟩
  have ahead : ∀ rule ∈ front.map directiveRule, rule.read d line = pass := by
    intro rule member
    obtain ⟨other, here, rfl⟩ := List.mem_map.mp member
    exact no_other other fun same => absent (same ▸ here)
  have reached : firstTaking d line rules =
      firstTaking d line (directiveRule kind :: (behind.map directiveRule ++ rules.drop 8)) := by
    have whole := rules_split
    rw [split, List.map_append, List.append_assoc] at whole
    exact (congrArg (firstTaking d line) whole).trans
      ((firstTaking_append_of_pass start).trans (firstTaking_append_of_pass ahead))
  exact readLine_of_first reached taken

/-- What is read of a directive: the word behind the keyword, and the value behind that. -/
theorem readLine_directive_of_word (after : afterKeyword? kind.keyword line.text = some (word ++ b :: rest))
    (filled : word ≠ []) (visible : ∀ c ∈ word, isBlank c = false) (blank : isBlank b = true) (valued : trim rest ≠ []) :
    readLine rules d line = .ok { d with
      directives := d.directives ++ [⟨kind, filledPieces ',' word, trim rest, line.position⟩] } := by
  refine readLine_directive (firstWord_of_afterKeyword? after (keyword_visible kind)) ?_
  have complete : (word.isEmpty || (trim rest).isEmpty) = false := by simp [filled, valued]
  rw [directiveLine, after]
  simp only [cutBlank?_written visible blank, complete, filterMap_trimmed?_pieces visible]
  rfl

theorem directiveLine_said (taken : directiveLine kind d line = .ok (some d')) :
    ∃ x word, x.SaidBy line word ∧ d'.directives = d.directives ++ [x] := by
  unfold directiveLine at taken
  split at taken
  · cases taken
  · next behind after =>
    cases cut : cutBlank? behind with
    | none => simp [cut] at taken
    | some parts =>
      obtain ⟨word, rest⟩ := parts
      obtain ⟨visible, b, blank, rfl⟩ := cutBlank?_spec cut
      simp only [cut] at taken
      split at taken
      · cases taken
      · next complete =>
        obtain ⟨filled, valued⟩ : word ≠ [] ∧ trim rest ≠ [] := by simpa using complete
        obtain rfl := eq_of_take taken
        let x : Directive := ⟨kind, (pieces ',' word).filterMap trimmed?, trim rest, line.position⟩
        have said : x.SaidBy line word :=
          ⟨rfl, filled, visible, ⟨b, rest, blank, after, rfl⟩, valued, filterMap_trimmed?_pieces visible⟩
        exact ⟨x, word, said, rfl⟩

/-! ### Directives of charts -/

theorem subgraphLine_directives (taken : subgraphLine d line = .ok (some d')) : d'.directives = d.directives := by
  unfold subgraphLine at taken
  split at taken
  · cases taken
  · cases taken
  · obtain rfl := eq_of_take taken
    rfl

theorem endLine_directives (taken : endLine d line = .ok (some d')) : d'.directives = d.directives := by
  unfold endLine at taken
  split at taken
  · split at taken
    · cases taken
    · obtain rfl := eq_of_take taken
      rfl
  · cases taken

theorem directionLine_directives (taken : directionLine d line = .ok (some d')) : d'.directives = d.directives := by
  unfold directionLine at taken
  split at taken
  · cases taken
  · obtain ⟨direction, -, same⟩ := exists_of_map_ok taken
    split at same
    · obtain rfl := Option.some.inj same
      rfl
    · obtain rfl := Option.some.inj same
      rfl

theorem addChain_directives (d : Draft) (source : Node) (hops : List Hop) :
    (d.addChain source hops).directives = d.directives := by
  induction hops generalizing d source with
  | nil => rfl
  | cons hop hops ih => exact ih _ _

theorem edgeLine_directives (taken : edgeLine d line = .ok (some d')) : d'.directives = d.directives := by
  unfold edgeLine at taken
  split at taken
  · cases taken
  · next source hops _ =>
    obtain rfl := eq_of_take taken
    exact addChain_directives d source hops

theorem nodeLine_directives (taken : nodeLine d line = .ok (some d')) : d'.directives = d.directives := by
  unfold nodeLine at taken
  split at taken
  · cases taken
  · obtain rfl := eq_of_take taken
    rfl

/-- A statement leaves the directives as they are or adds the one that it says. -/
theorem readLine_directives (read : readLine rules d line = .ok d') :
    d'.directives = d.directives ∨ ∃ x word, x.SaidBy line word ∧ d'.directives = d.directives ++ [x] := by
  obtain ⟨rule, member, taken⟩ := taken_by read
  rw [rules_split, List.mem_append, List.mem_append, List.mem_map] at member
  rcases member with start | ⟨kind, -, rfl⟩ | behind
  · simp only [rules, List.take_succ_cons, List.take_zero, List.mem_cons, List.not_mem_nil, or_false] at start
    rcases start with rfl | rfl | rfl
    · exact .inl (subgraphLine_directives taken)
    · exact .inl (endLine_directives taken)
    · exact .inl (directionLine_directives taken)
  · exact .inr (directiveLine_said taken)
  · simp only [rules, List.drop_succ_cons, List.drop_zero, List.mem_cons, List.not_mem_nil, or_false] at behind
    rcases behind with rfl | rfl
    · exact .inl (edgeLine_directives taken)
    · exact .inl (nodeLine_directives taken)

/-- The directives are what some statements say. -/
def Said (statements : List Line) (directives : List Directive) : Prop :=
  ∀ x ∈ directives, ∃ statement ∈ statements, ∃ word, x.SaidBy statement word

theorem Said.step {statements : List Line} (said : Said statements d.directives) (taken : readLine rules d line = .ok d') :
    Said (statements ++ [line]) d'.directives := by
  have earlier : Said (statements ++ [line]) d.directives := by
    intro x member
    obtain ⟨statement, before, found⟩ := said x member
    exact ⟨statement, List.mem_append_left [line] before, found⟩
  rcases readLine_directives taken with kept | ⟨x, word, found, added⟩
  · rwa [kept]
  · intro y member
    rw [added] at member
    rcases List.mem_append.mp member with here | last
    · exact earlier y here
    · obtain rfl := List.mem_singleton.mp last
      exact ⟨line, by simp, word, found⟩

/-- The directives of an accepted chart are what its statements say. -/
theorem said_of_read {s : Source} {chart : Flowchart} (accepted : read s = .ok chart) :
    Said (s.body.flatMap statementLines) chart.directives := by
  obtain ⟨header, direction, d, run, rfl⟩ := exists_of_read accepted
  have blank : Said [] ({ direction := direction } : Draft).directives := nofun
  simpa using readLines_holds (P := fun statements d => Said statements d.directives) Said.step blank run

/-! ### The end of the targets -/

variable {w : WrittenDirective} {front back : List NextTarget} {target : NextTarget}

theorem filledPieces_of_identifier (identifier : isIdentifier id = true) : filledPieces ',' id = [id] := by
  have absent : ',' ∉ id := not_mem_of_identifier identifier (by decide)
  exact filledPieces_of_unmarked (ne_nil_of_identifier identifier) absent

theorem NextTarget.single (target : NextTarget) : ';' ∉ target.written := by
  have before := not_mem_of_blank (c := ';') target.before_blank (by decide)
  have after := not_mem_of_blank (c := ';') target.after_blank (by decide)
  have name := not_mem_of_identifier (c := ';') target.identifier (by decide)
  simp [NextTarget.written, before, after, name]

theorem NextTarget.written_of_tight (tight : target.IsTight) : target.written = ',' :: target.id := by
  rw [NextTarget.written, tight.1, tight.2]
  rfl

/-- Targets without blanks between them make one word, whose pieces they are. -/
theorem tight_word (identifier : isIdentifier id = true) (tight : ∀ u ∈ front, u.IsTight) :
    (∀ c ∈ id ++ front.flatMap NextTarget.written, isBlank c = false) ∧
      filledPieces ',' (id ++ front.flatMap NextTarget.written) = id :: front.map NextTarget.id := by
  induction front generalizing id with
  | nil =>
    rw [List.flatMap_nil, List.append_nil]
    exact ⟨visible_of_identifier identifier, filledPieces_of_identifier identifier⟩
  | cons target front ih =>
    obtain ⟨first, others⟩ := List.forall_mem_cons.mp tight
    obtain ⟨visible, split⟩ := ih target.identifier others
    have written : id ++ (target :: front).flatMap NextTarget.written =
        id ++ ',' :: (target.id ++ front.flatMap NextTarget.written) := by
      rw [List.flatMap_cons, target.written_of_tight first]
      rfl
    rw [written]
    constructor
    · intro c member
      rcases List.mem_append.mp member with here | behind
      · exact visible_of_identifier identifier c here
      · rcases List.mem_cons.mp behind with rfl | later
        · decide
        · exact visible c later
    · rw [filledPieces_append_mark, split, filledPieces_of_identifier identifier]
      rfl

namespace WrittenDirective

theorem ends_body (w : WrittenDirective) : EndsVisible w.body :=
  (((ends_of_trim w.value_filled w.value_trimmed).append w.space).append _).append w.first

theorem single (w : WrittenDirective) : ';' ∉ w.written := by
  have keyword : ';' ∉ w.kind.keyword.toList := by cases w.kind <;> decide
  have gap := not_mem_of_blank (c := ';') w.gap_blank (by decide)
  have first := not_mem_of_identifier (c := ';') w.identifier (by decide)
  have more : ';' ∉ w.more.flatMap NextTarget.written := by
    intro member
    obtain ⟨target, -, inside⟩ := List.mem_flatMap.mp member
    exact target.single inside
  have space := not_mem_of_blank (c := ';') w.space_blank (by decide)
  simp only [written, body, List.mem_append, keyword, gap, first, more, space, w.value_single, or_self, not_false_eq_true]

/-- The directive is one statement. -/
theorem statementLines_written (w : WrittenDirective) (text : line.text = w.written) : statementLines line = [line] := by
  have begins : BeginsVisible w.written := by
    obtain ⟨c, rest, same⟩ := List.exists_cons_of_ne_nil (show w.kind.keyword.toList ≠ [] by cases w.kind <;> decide)
    have visible := List.all_eq_true.mp (keyword_visible w.kind) c (same ▸ List.mem_cons_self)
    exact ⟨c, rest ++ (w.gap ++ w.body), by rw [written, same]; rfl, by simpa using visible⟩
  have ends : EndsVisible w.written := (w.ends_body.append w.gap).append w.kind.keyword.toList
  have filled : w.written ≠ [] := by
    obtain ⟨c, rest, same, -⟩ := begins
    rw [same]
    exact List.cons_ne_nil c rest
  rw [statementLines, text, statements_of_no_semicolon filled (trim_of_visible begins ends) w.single, ← text]
  rfl

theorem readLines_of_word (w : WrittenDirective) (text : line.text = w.written) (split : w.body = word ++ b :: rest)
    (filled : word ≠ []) (visible : ∀ c ∈ word, isBlank c = false) (blank : isBlank b = true) (valued : trim rest ≠ []) :
    readLines (fun _ => rules) d (statementLines line) = .ok { d with
      directives := d.directives ++ [⟨w.kind, filledPieces ',' word, trim rest, line.position⟩] } := by
  have after : afterKeyword? w.kind.keyword line.text = some (word ++ b :: rest) := by
    rw [text, written, ← split]
    exact afterKeyword?_written w.gap_filled w.gap_blank (begins_of_identifier w.identifier _)
  rw [w.statementLines_written text, readLines_cons_ok (readLine_directive_of_word after filled visible blank valued)]
  rfl

end WrittenDirective

/-- A comma with blanks around it is cut at the first of them: the targets end there, with the comma or without it. -/
theorem NextTarget.written_of_loose (loose : ¬ target.IsTight) : ∃ mark b gap, (mark = [] ∨ mark = [',']) ∧
    isBlank b = true ∧ allBlank gap = true ∧ BeginsVisible target.behindBlank ∧
    target.written = mark ++ b :: (gap ++ target.behindBlank) := by
  by_cases before : target.before = []
  · have after : target.after ≠ [] := fun after => loose ⟨before, after⟩
    obtain ⟨b, gap, same⟩ := List.exists_cons_of_ne_nil after
    obtain ⟨blank, blanks⟩ : isBlank b = true ∧ allBlank gap = true := by simpa [same, allBlank] using target.after_blank
    refine ⟨[','], b, gap, .inr rfl, blank, blanks, ?_, ?_⟩
    · simpa [behindBlank, before] using begins_of_identifier target.identifier []
    · simp [written, behindBlank, before, same]
  · obtain ⟨b, gap, same⟩ := List.exists_cons_of_ne_nil before
    obtain ⟨blank, blanks⟩ : isBlank b = true ∧ allBlank gap = true := by simpa [same, allBlank] using target.before_blank
    refine ⟨[], b, gap, .inl rfl, blank, blanks, ?_, ?_⟩
    · exact ⟨',', target.after ++ target.id, by simp [behindBlank, before], by decide⟩
    · simp [written, behindBlank, same]

/-- Targets without blanks between them are read as they are written. -/
theorem readLines_tight (text : line.text = w.written) (tight : ∀ u ∈ w.more, u.IsTight) :
    readLines (fun _ => rules) d (statementLines line) = .ok { d with
      directives := d.directives ++ [⟨w.kind, w.targets, w.value, line.position⟩] } := by
  obtain ⟨b, space, same⟩ := List.exists_cons_of_ne_nil w.space_filled
  obtain ⟨blank, blanks⟩ : isBlank b = true ∧ allBlank space = true := by simpa [same, allBlank] using w.space_blank
  obtain ⟨visible, split⟩ := tight_word w.identifier tight
  have written : w.body = (w.first ++ w.more.flatMap NextTarget.written) ++ b :: (space ++ w.value) := by
    simp [WrittenDirective.body, same]
  have value : trim (space ++ w.value) = w.value :=
    trim_of_blank_front blanks (begins_of_trim w.value_filled w.value_trimmed) (ends_of_trim w.value_filled w.value_trimmed)
  have filled : w.first ++ w.more.flatMap NextTarget.written ≠ [] := by simp [ne_nil_of_identifier w.identifier]
  rw [w.readLines_of_word text written filled visible blank (by rw [value]; exact w.value_filled), split, value]
  rfl

/-- The first target with blanks around its comma is no target: what is written from there on is the value. -/
theorem readLines_loose (text : line.text = w.written) (more : w.more = front ++ target :: back)
    (tight : ∀ u ∈ front, u.IsTight) (loose : ¬ target.IsTight) :
    readLines (fun _ => rules) d (statementLines line) = .ok { d with
      directives := d.directives ++ [⟨w.kind, w.first :: front.map NextTarget.id,
        target.behindBlank ++ (back.flatMap NextTarget.written ++ (w.space ++ w.value)), line.position⟩] } := by
  obtain ⟨mark, b, gap, marked, blank, blanks, begins, cut⟩ := NextTarget.written_of_loose loose
  obtain ⟨visible, split⟩ := tight_word w.identifier tight
  let behind := target.behindBlank ++ (back.flatMap NextTarget.written ++ (w.space ++ w.value))
  have written : w.body = ((w.first ++ front.flatMap NextTarget.written) ++ mark) ++ b :: (gap ++ behind) := by
    simp [WrittenDirective.body, more, cut, behind]
  have value : trim (gap ++ behind) = behind :=
    trim_of_blank_front blanks (begins.append _)
      ((((ends_of_trim w.value_filled w.value_trimmed).append _).append _).append _)
  have filled : (w.first ++ front.flatMap NextTarget.written) ++ mark ≠ [] := by simp [ne_nil_of_identifier w.identifier]
  have names : filledPieces ',' ((w.first ++ front.flatMap NextTarget.written) ++ mark) = w.first :: front.map NextTarget.id := by
    rcases marked with rfl | rfl
    · rw [List.append_nil, split]
    · rw [filledPieces_append_mark, split, filledPieces_eq_nil_iff.mpr (List.forall_mem_nil _), List.append_nil]
  have visible' : ∀ c ∈ (w.first ++ front.flatMap NextTarget.written) ++ mark, isBlank c = false := by
    rcases marked with rfl | rfl
    · simpa using visible
    · intro c member
      rcases List.mem_append.mp member with here | last
      · exact visible c here
      · obtain rfl := List.mem_singleton.mp last
        decide
  have valued : trim (gap ++ behind) ≠ [] := by simp [value, behind, w.value_filled]
  rw [w.readLines_of_word text written filled visible' blank valued, names, value]

/-- A directive without blanks between its targets is read as it is written. With blanks between them the targets end in
front of the first blank, and what is written behind it is the value. Every directive of a chart is read so, and it has no
targets if there is nothing but commas in front of the first blank. -/
theorem targets_end_at_blank {s : Source} {chart : Flowchart} (text : line.text = w.written) (accepted : read s = .ok chart) :
    ((∀ u ∈ w.more, u.IsTight) →
      readLines (fun _ => rules) d (statementLines line) = .ok { d with
        directives := d.directives ++ [⟨w.kind, w.targets, w.value, line.position⟩] }) ∧
    (∀ front target back, w.more = front ++ target :: back → (∀ u ∈ front, u.IsTight) → ¬ target.IsTight →
      readLines (fun _ => rules) d (statementLines line) = .ok { d with
        directives := d.directives ++ [⟨w.kind, w.first :: front.map NextTarget.id,
          target.behindBlank ++ (back.flatMap NextTarget.written ++ (w.space ++ w.value)), line.position⟩] }) ∧
    ∀ x ∈ chart.directives, ∃ statement ∈ s.body.flatMap statementLines, ∃ word, x.SaidBy statement word ∧
      (x.targets = [] ↔ ∀ c ∈ word, c = ',') := by
  refine ⟨readLines_tight text, ?_, ?_⟩
  · intro front target back more tight loose
    exact readLines_loose text more tight loose
  · intro x member
    obtain ⟨statement, listed, word, said⟩ := said_of_read accepted x member
    refine ⟨statement, listed, word, said, ?_⟩
    rw [said.targets, filledPieces_eq_nil_iff]

/-- A style class for two nodes, with some blanks behind the comma. -/
def classOfTwo (gap : Text) (blank : allBlank gap = true) : WrittenDirective where
  kind := .styleClass
  gap := [' ']
  first := ['A']
  more := [⟨[], gap, ['B'], rfl, blank, by decide⟩]
  space := [' ']
  value := "hot".toList
  gap_filled := by decide
  gap_blank := allBlank_space
  identifier := by decide
  space_filled := by decide
  space_blank := allBlank_space
  value_filled := by decide
  value_trimmed := by decide
  value_single := by decide

/-- Directives with a blank behind the comma, without one, and with a comma alone. -/
def classLines : Text := "flowchart TD\nclass A, B hot\nclass A,B hot\nclass , hot".toList

/-- The source of these directives. -/
def classSource : Source := Source.ofText classLines 0

theorem targets_end_at_blank_class :
    (readLines (fun _ => rules) {} (statementLines (.ofRaw 3 "class A,B hot".toList)) =
        .ok { directives := [⟨.styleClass, [['A'], ['B']], "hot".toList, ⟨3, 1⟩⟩] } ∧
      readLines (fun _ => rules) {} (statementLines (.ofRaw 2 "class A, B hot".toList)) =
        .ok { directives := [⟨.styleClass, [['A']], "B hot".toList, ⟨2, 1⟩⟩] }) ∧
    ∃ chart, read classSource = .ok chart ∧ ∃ x ∈ chart.directives,
      ∃ statement ∈ classSource.body.flatMap statementLines, ∃ word, x.SaidBy statement word ∧
        (x.targets = [] ↔ ∀ c ∈ word, c = ',') := by
  have seen : (read classSource).toOption.isSome := by decide +kernel
  have accepted := eq_ok_get seen
  have member : ⟨.styleClass, [], "hot".toList, ⟨4, 1⟩⟩ ∈ ((read classSource).toOption.get seen).directives := by
    decide +kernel +revert
  have tight : (Line.ofRaw 3 "class A,B hot".toList).text = (classOfTwo [] rfl).written := by decide
  have loose : (Line.ofRaw 2 "class A, B hot".toList).text = (classOfTwo [' '] rfl).written := by decide
  refine ⟨⟨?_, ?_⟩, _, accepted, _, member, (targets_end_at_blank (d := {}) tight accepted).2.2 _ member⟩
  · exact (targets_end_at_blank (d := {}) tight accepted).1 (by decide)
  · exact (targets_end_at_blank (d := {}) loose accepted).2.1 [] _ [] rfl nofun (by decide)

/-- The second target behind a blank belongs to the value, and a comma alone makes a directive without targets. -/
theorem spacedClass_cut : (read classSource).toOption.map Flowchart.directives =
    some [⟨.styleClass, [['A']], "B hot".toList, ⟨2, 1⟩⟩, ⟨.styleClass, [['A'], ['B']], "hot".toList, ⟨3, 1⟩⟩,
      ⟨.styleClass, [], "hot".toList, ⟨4, 1⟩⟩] := by
  decide +kernel

end DiagramLint.Flowchart
