import DiagramLint.Proofs.Flowchart.Chains

/-!
Labels in quotes. Whatever the quotes hold, no statement is cut and no arrow is found in them, so an edge from a node with
a quoted label is read as it is written. The one exception are three colons, which are taken for those of a style class
(`quoted_label_read`).
-/
namespace DiagramLint.Flowchart

open Text

variable {id t : Text} {position : Position} {d d' : Draft} {line : Line}

/-! ### Statements that begin with a label -/

theorem firstWord_of_visible (visible : ∀ c ∈ id, isBlank c = false) {c : Char} (also : isBlank c = false) (rest : Text) :
    c ∈ firstWord (id ++ c :: rest) := by
  have front : ∀ a ∈ id, (!isBlank a) = true := by simpa using visible
  rw [firstWord, List.takeWhile_append_of_pos front]
  simp [also]

/-- A bracket in the first word makes it no keyword. -/
theorem not_command_of_label (word : id.all isWordChar = true) (l : QuotedLabel) (t : Text) :
    isCommand (id ++ (l.written ++ t)) = false := by
  obtain ⟨c, rest, same, delimiter⟩ := l.begins
  have visible : isBlank c = false := by
    simp only [isDelimiter, Bool.or_eq_true, decide_eq_true_eq] at delimiter
    rcases delimiter with ((rfl | rfl) | rfl) | rfl
    all_goals decide
  have in_word : c ∈ firstWord (id ++ (l.written ++ t)) := by
    rw [same]
    exact firstWord_of_visible (fun a member => not_blank_of_word (List.all_eq_true.mp word a member)) visible (rest ++ t)
  have no_keyword (keyword : String) (foreign : (keyword.toList.any isDelimiter) = false)
      (plain : keyword.toList.all fun c => !isBlank c) : afterKeyword? keyword (id ++ (l.written ++ t)) = none := by
    refine afterKeyword?_eq_none_of_firstWord ?_ plain
    intro equal
    rw [equal] at in_word
    simp [List.any_eq_false.mp foreign c in_word] at delimiter
  have no_end : id ++ (l.written ++ t) ≠ "end".toList := by
    intro equal
    have apart : ∀ a ∈ firstWord "end".toList, isDelimiter a = false := by decide
    rw [equal] at in_word
    simp [apart c in_word] at delimiter
  have no_directive (kind : DirectiveKind) : afterKeyword? kind.keyword (id ++ (l.written ++ t)) = none := by
    cases kind
    all_goals exact no_keyword _ (by decide) (by decide)
  have no_subgraph := no_keyword "subgraph" (by decide) (by decide)
  have no_direction := no_keyword "direction" (by decide) (by decide)
  rw [isCommand, decide_eq_false no_end]
  simp [no_subgraph, no_direction, no_directive]

/-! ### The edge behind a label -/

/-- A plain node named by one letter. -/
def letterZ : Token where
  id := ['Z']
  label := none
  filled := by decide
  word := by decide +kernel
  classless := by simp

/-- The arrow to that node. -/
def linkZ : Link where
  gap := [' ']
  spelling := "-->".toList
  arrow := .solidArrow
  inset := []
  bar := none
  space := [' ']
  token := letterZ
  listed := by decide
  gap_blank := allBlank_space
  inset_blank := allBlank_nil
  space_blank := allBlank_space
  bar_plain := by simp

/-- What stands in front of the arrow is read as a node, whatever the quotes hold. -/
theorem chain?_labelled (filled : id ≠ []) (word : id.all isWordChar = true) (l : QuotedLabel) :
    chain? position (id ++ (l.written ++ linkZ.written)) =
      (node? position (id ++ l.written)).map fun n => (n, [linkZ.hop position]) := by
  have clear : Clear scanned (id ++ l.written) := (clear_of_word word).append l.clear
  have tight : trim (id ++ l.written ++ linkZ.gap) = id ++ l.written :=
    trim_of_blank_end ((begins_of_word filled word).append l.written) (l.ends.append id) linkZ.gap_blank
  have cut := cutArrow?_written ((clear.mono (by decide)).append (clear_of_blank linkZ.gap_blank (by decide))) linkZ.listed
    (linkZ.head_behind [])
  have source := nodeAndText_written (clear.mono (by decide)) linkZ.gap_blank tight
  have hops : hops? position linkZ.arrow none (linkZ.behind ++ []) = some [linkZ.hop position] := hops?_written linkZ []
  have written : id ++ (l.written ++ linkZ.written) =
      id ++ l.written ++ linkZ.gap ++ (linkZ.spelling ++ (linkZ.behind ++ [])) := by
    simp [Link.written]
  rw [written, chain?, cut]
  simp only [Option.bind_eq_bind, Option.bind_some, source, hops]
  cases node? position (id ++ l.written) <;> rfl

/-- Without three colons the label is what the quotes hold. -/
theorem node?_labelled {l : QuotedLabel} (filled : id ≠ []) (word : id.all isWordChar = true) (nonblank : l.text ≠ [])
    (tight : trim l.text = l.text) (classless : ¬ [':', ':', ':'] <:+: l.text) :
    node? position (id ++ l.written) = some ⟨id, some l.text, l.brackets.shape, none, position⟩ := by
  let token : Token := ⟨id, some l, filled, word, by rintro _ ⟨rfl⟩; exact classless⟩
  have read : node? position token.written = some (token.node position) := token.read
  have label : trimmed? l.text = some l.text := trimmed?_of_tight nonblank tight
  simpa [token, Token.written, Token.node, label] using read

theorem oneStatement_labelled (filled : id ≠ []) (word : id.all isWordChar = true) (l : QuotedLabel) :
    OneStatement (id ++ (l.written ++ linkZ.written)) := by
  refine ⟨(begins_of_word filled word).append _, ?_, ?_⟩
  · exact ((letterZ.ends.append (linkZ.gap ++ (linkZ.spelling ++ linkZ.space))).append l.written).append id
  · exact ((clear_of_word word).mono (by decide)).append ((l.clear.mono (by decide)).append linkZ.clear)

/-! ### Nodes that are new -/

theorem addPlace_of_new {n : Node} {nodes : List Node} (new : n.id ∉ nodes.map Node.id) :
    addPlace n nodes = nodes ++ [n] := by
  induction nodes with
  | nil => rfl
  | cons known rest ih =>
    obtain ⟨other, others⟩ : ¬ n.id = known.id ∧ n.id ∉ rest.map Node.id := by simpa using new
    simp [addPlace, Ne.symm other, ih others]

/-- A node without label and style class changes no node that is known. -/
theorem mem_addPlace_of_bare {n bare : Node} {nodes : List Node} (unlabelled : bare.label = none)
    (unstyled : bare.styleClass = none) (member : n ∈ nodes) : n ∈ addPlace bare nodes := by
  have kept (known : Node) : known.fill bare = known := by simp [Node.fill, unlabelled, unstyled]
  induction nodes with
  | nil => cases member
  | cons known rest ih =>
    by_cases same : known.id = bare.id
    · simpa [addPlace, same, kept] using member
    · rcases List.mem_cons.mp member with rfl | later
      · simp [addPlace, same]
      · simp [addPlace, same, ih later]

/-! ### Colons -/

theorem QuotedLabel.last (l : QuotedLabel) : ∃ c, l.written.getLast? = some c ∧ isBlank c = false ∧ c ≠ ':' := by
  have shapes : ∀ b ∈ delimiters, b.finish.getLast?.any fun c => !isBlank c && c != ':' := by decide
  have last := shapes l.brackets l.listed
  cases finish : l.brackets.finish.getLast? with
  | none => simp [finish] at last
  | some c =>
    have parts : l.written = l.brackets.start ++ ('"' :: (l.text ++ ['"'])) ++ l.brackets.finish := by
      simp [QuotedLabel.written]
    refine ⟨c, ?_, by simpa [finish] using last⟩
    rw [parts, List.getLast?_append, finish]
    rfl

/-- A line with colons in the label is refused, or what stands in front of them is a node. -/
theorem styled_of_accepted {l : QuotedLabel} (filled : id ≠ []) (word : id.all isWordChar = true)
    (written : line.text = id ++ (l.written ++ linkZ.written)) (colons : [':', ':', ':'] <:+: l.text)
    (taken : readLine rules d line = .ok d') :
    ∃ n, n.styleClass.isSome = true ∧ (d' = d.addNode n ∨ d' = d.addChain n [linkZ.hop line.position]) := by
  have spoken : isCommand line.text = false := by
    rw [written]
    exact not_command_of_label word l linkZ.written
  have inside : [':', ':', ':'] <:+: id ++ l.written := by
    refine colons.trans ⟨id ++ (l.brackets.start ++ ['"']), '"' :: l.brackets.finish, ?_⟩
    simp [QuotedLabel.written]
  rcases (readLine_of_spoken spoken).mp taken with ⟨source, hops, read, rfl⟩ | ⟨-, n, read, rfl⟩
  · rw [written, chain?_labelled filled word l] at read
    obtain ⟨n, found, same⟩ := Option.map_eq_some_iff.mp read
    obtain ⟨rfl, rfl⟩ := Prod.mk.inj same
    obtain ⟨c, last, visible, other⟩ := l.last
    exact ⟨n, styleClass_of_colons inside visible other (by simp [List.getLast?_append, last]) found, .inr rfl⟩
  · rw [written] at read
    have within : [':', ':', ':'] <:+: id ++ (l.written ++ linkZ.written) :=
      inside.trans ⟨[], linkZ.written, by simp⟩
    have last : (id ++ (l.written ++ linkZ.written)).getLast? = some 'Z' := by
      rw [List.getLast?_append, List.getLast?_append]
      rfl
    exact ⟨n, styleClass_of_colons within (by decide) (by decide) last read, .inl rfl⟩

/-- A quoted label is opaque, unless it holds three colons. A line with an edge from a node with such a label draws this
edge, and a node that is new has the text as its label. With three colons the line is refused, or the node that is read has
a style class. -/
theorem quoted_label_read (l : QuotedLabel) (filled : id ≠ []) (word : id.all isWordChar = true)
    (nonblank : l.text ≠ []) (tight : trim l.text = l.text) (written : line.text = id ++ (l.written ++ " --> Z".toList)) :
    let source : Node := ⟨id, some l.text, l.brackets.shape, none, line.position⟩
    let target : Node := ⟨['Z'], none, .plain, none, line.position⟩
    (¬ ":::".toList <:+: l.text →
      readLines (fun _ => rules) d (statementLines line) = .ok { d with
        nodes := addPlace target (addPlace source d.nodes)
        edges := d.edges ++ [⟨id, ['Z'], .solidArrow, none, line.position⟩] } ∧
      (id ∉ d.nodes.map Node.id → source ∈ addPlace target (addPlace source d.nodes))) ∧
    (":::".toList <:+: l.text → ∀ d', readLines (fun _ => rules) d (statementLines line) = .ok d' →
      ∃ n, n.styleClass.isSome = true ∧
        (d' = d.addNode n ∨ d' = d.addChain n [⟨.solidArrow, none, target⟩])) := by
  intro source target
  have text : line.text = id ++ (l.written ++ linkZ.written) := written
  have cut : statementLines line = [line] := by
    have one := (oneStatement_labelled filled word l).statements_eq allBlank_nil
    rw [List.nil_append, ← text] at one
    rw [statementLines, one]
    rfl
  rw [cut]
  constructor
  · intro classless
    have read : chain? line.position line.text = some (source, [linkZ.hop line.position]) := by
      rw [text, chain?_labelled filled word l, node?_labelled filled word nonblank tight classless]
      rfl
    have spoken : isCommand line.text = false := by
      rw [text]
      exact not_command_of_label word l linkZ.written
    refine ⟨readLines_cons_ok (readLine_chain spoken read), ?_⟩
    intro new
    refine mem_addPlace_of_bare rfl rfl ?_
    rw [addPlace_of_new new]
    exact List.mem_append_right _ (List.mem_singleton_self source)
  · intro colons d' taken
    refine styled_of_accepted filled word text colons ?_
    cases read : readLine rules d line with
    | error e => simp [readLines, read] at taken
    | ok between => simpa [readLines, read] using taken

/-- A line with an edge from a node with an arrow, a bar, a semicolon and a bracket in its label. -/
def busyLine : Line := .ofRaw 2 "A[(\"x -->|y| z; ]\")] --> Z".toList

theorem quoted_label_read_busy :
    ("A".toList ≠ [] ∧ "A".toList.all isWordChar = true ∧ busyLabel.text ≠ [] ∧ trim busyLabel.text = busyLabel.text ∧
      busyLine.text = "A".toList ++ (busyLabel.written ++ " --> Z".toList) ∧ ¬ ":::".toList <:+: busyLabel.text) ∧
      readLines (fun _ => rules) {} (statementLines busyLine) = .ok
        { nodes := [⟨"A".toList, some "x -->|y| z; ]".toList, .cylinder, none, ⟨2, 1⟩⟩, ⟨['Z'], none, .plain, none, ⟨2, 1⟩⟩]
          edges := [⟨"A".toList, ['Z'], .solidArrow, none, ⟨2, 1⟩⟩] } := by
  have word : "A".toList.all isWordChar = true := by decide +kernel
  have tight : trim busyLabel.text = busyLabel.text := by decide +kernel
  have written : busyLine.text = "A".toList ++ (busyLabel.written ++ " --> Z".toList) := by decide +kernel
  have classless : ¬ ":::".toList <:+: busyLabel.text := cut?_eq_none_iff.mp (by decide +kernel)
  have read := (quoted_label_read (d := {}) busyLabel (by decide) word (by decide) tight written).1 classless
  exact ⟨⟨by decide, word, by decide, tight, written, classless⟩, read.1⟩

/-- A line with an edge from a node with three colons in its label. -/
def colonLine : Line := .ofRaw 2 "A[\"a:::b\"] --> Z".toList

/-- The colons are taken for those of a style class, and what stands in front of them is no node. -/
theorem colonLine_refused : readLines (fun _ => rules) {} (statementLines colonLine) =
    .error { colonLine.fail (.lineUnrecognised "A[\"a:::b\"] --> Z".toList) with expected := rules.map LineRule.name } :=
  eq_error_of_seen (by decide +kernel)

end DiagramLint.Flowchart
