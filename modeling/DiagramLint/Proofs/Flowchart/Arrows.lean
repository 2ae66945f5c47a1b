import DiagramLint.Proofs.Flowchart.Occurrences
import DiagramLint.Proofs.Text.Identifiers
import DiagramLint.Proofs.Text.Statements

/-!
Statements with an arrow. A statement that is no command and has an arrow outside quotes and brackets is read as a chain
of edges if its ends are nodes. Where they are not, the whole statement may still be read as a node, since the id and the
label of a node are told apart without counting the brackets. Such a statement draws no edge, though its arrow stands
outside the labels. `ArrowInNode` says what becomes of the arrow: it is taken into the id, the label or the style class
(`accepted_with_arrow`).
-/
namespace DiagramLint.Flowchart

open Text

variable {d d' : Draft} {line : Line} {t w rest before : Text} {arrow : Arrow} {n : Node} {position : Position}

/-! ### Commands -/

theorem subgraphLine_of_none (other : afterKeyword? "subgraph" line.text = none) : subgraphLine d line = pass := by
  rw [subgraphLine, other]

theorem endLine_of_other (other : line.text ≠ "end".toList) : endLine d line = pass := if_neg other

theorem directionLine_of_none (other : afterKeyword? "direction" line.text = none) : directionLine d line = pass := by
  rw [directionLine, other]

theorem directiveLine_of_none {kind : DirectiveKind} (other : afterKeyword? kind.keyword line.text = none) :
    directiveLine kind d line = pass := by
  rw [directiveLine, other]

/-- The first eight rules are those of the commands. -/
theorem passed_iff_not_command : (∀ rule ∈ rules.take 8, rule.read d line = pass) ↔ isCommand line.text = false := by
  constructor
  · intro passed
    simp only [rules, directiveRule, List.take_succ_cons, List.take_zero, List.forall_mem_cons] at passed
    obtain ⟨no_subgraph, no_end, no_direction, no_def, no_class, no_style, no_link, no_click, -⟩ := passed
    rw [isCommand, decide_eq_false (endLine_passed no_end)]
    simp [subgraphLine_passed no_subgraph, directionLine_passed no_direction, directiveLine_passed no_def,
      directiveLine_passed no_class, directiveLine_passed no_style, directiveLine_passed no_link,
      directiveLine_passed no_click]
  · intro spoken
    simp only [isCommand, Bool.or_eq_false_iff, decide_eq_false_iff_not, Option.isSome_eq_false_iff,
      Option.isNone_iff_eq_none, List.any_cons, List.any_nil] at spoken
    obtain ⟨⟨⟨no_end, no_subgraph⟩, no_direction⟩, no_def, no_class, no_style, no_link, no_click, -⟩ := spoken
    simp only [rules, directiveRule, List.take_succ_cons, List.take_zero, List.forall_mem_cons]
    exact ⟨subgraphLine_of_none no_subgraph, endLine_of_other no_end, directionLine_of_none no_direction,
      directiveLine_of_none no_def, directiveLine_of_none no_class, directiveLine_of_none no_style,
      directiveLine_of_none no_link, directiveLine_of_none no_click, List.forall_mem_nil _⟩

/-! ### Arrows -/

/-- The characters of arrows. -/
def arrowChars : List Char := ['<', '-', '=', '>', '.', 'o', 'x']

theorem mem_arrowChars (listed : (w, arrow) ∈ arrows) : ∀ c ∈ w, c ∈ arrowChars := by
  have all : ∀ entry ∈ arrows, ∀ c ∈ entry.1, c ∈ arrowChars := by decide
  exact all _ listed

theorem arrow_ne_nil (listed : (w, arrow) ∈ arrows) : w ≠ [] := by
  have all : ∀ entry ∈ arrows, entry.1 ≠ [] := by decide
  exact all _ listed

theorem visible_of_arrowChar {c : Char} (listed : c ∈ arrowChars) : isBlank c = false := by
  revert c
  decide

/-- What is made of characters of arrows stands in a text if no such character stands around the text. -/
theorem exists_of_arrowChars {u v x y : Text} (filled : w ≠ []) (chars : ∀ c ∈ w, c ∈ arrowChars)
    (before : ∀ c ∈ u, c ∉ arrowChars) (behind : ∀ c ∈ v, c ∉ arrowChars) (same : u ++ (t ++ v) = x ++ (w ++ y)) :
    ∃ a b, x = u ++ a ∧ t = a ++ (w ++ b) ∧ y = b ++ v := by
  refine exists_of_framed filled ?_ ?_ same
  · intro c member first
    exact before c member (chars c (List.mem_of_head? first))
  · intro c member last
    exact behind c member (chars c (List.mem_of_getLast? last))

/-- An arrow does not begin with its point, and ends with it if it has one. -/
theorem point_of_arrow {v u : Text} (listed : (v ++ '>' :: u, arrow) ∈ arrows) : v ≠ [] ∧ u = [] := by
  have all : ∀ entry ∈ arrows, entry.1.head? ≠ some '>' ∧ '>' ∉ entry.1.dropLast := by decide
  obtain ⟨first, others⟩ := all _ listed
  constructor
  · rintro rfl
    exact first rfl
  · cases u with
    | nil => rfl
    | cons c u => exact absurd (by simp) others

/-- A text without a character ends in front of the character. -/
theorem exists_of_append_cons {c : Char} {u v x : Text} (absent : c ∉ w) (same : w ++ v = u ++ c :: x) :
    ∃ a, u = w ++ a ∧ v = a ++ c :: x := by
  rcases List.append_eq_append_iff.mp same with ⟨a, front, behind⟩ | ⟨a, front, behind⟩
  · exact ⟨a, front, behind⟩
  · cases a with
    | nil => exact ⟨[], by simpa using front.symm, by simpa using behind.symm⟩
    | cons d a =>
      obtain ⟨rfl, -⟩ := List.cons.inj behind
      exact absurd (by simp [front]) absent

theorem foreign_of_blank {b : Text} (blank : allBlank b = true) : ∀ c ∈ b, c ∉ arrowChars :=
  fun _ member listed => not_mem_of_blank blank (visible_of_arrowChar listed) member

theorem arrowStart?_spec (found : arrowStart? t = some (arrow, rest)) : ∃ w, (w, arrow) ∈ arrows ∧ t = w ++ rest := by
  obtain ⟨⟨w, a⟩, listed, here⟩ := List.exists_of_findSome?_eq_some found
  obtain ⟨r, start, same⟩ := Option.map_eq_some_iff.mp here
  simp only [Prod.mk.injEq] at same
  obtain ⟨rfl, rfl⟩ := same
  exact ⟨w, listed, dropStart?_eq_some_iff.mp start⟩

/-- An arrow that is found stands outside quotes and brackets. -/
theorem cutArrow?_spec (found : cutArrow? t = some (before, arrow, rest)) :
    ∃ w, (w, arrow) ∈ arrows ∧ t = before ++ (w ++ rest) ∧ (Nesting.outermost.run before).isOutside = true := by
  obtain ⟨⟨b, r⟩, place, here⟩ := Option.bind_eq_some_iff.mp found
  obtain ⟨⟨a, r'⟩, start, same⟩ := Option.map_eq_some_iff.mp here
  simp only [Prod.mk.injEq] at same
  obtain ⟨rfl, rfl, rfl⟩ := same
  obtain ⟨w, listed, rfl⟩ := arrowStart?_spec start
  exact ⟨w, listed, (append_of_cutWhere? place).symm, outside_of_cutWhere? place⟩

/-! ### Nodes as they are written -/

theorem outline?_spec {label : Option Text} {shape : Shape} (found : outline? t = some (label, shape)) :
    ∃ brackets ∈ delimiters, ∃ inner, t = brackets.start ++ (inner ++ brackets.finish) ∧ shape = brackets.shape ∧
      label = trimmed? (unquote (trim inner)) := by
  obtain ⟨brackets, listed, here⟩ := List.exists_of_findSome?_eq_some found
  obtain ⟨inner, between, same⟩ := Option.map_eq_some_iff.mp here
  obtain ⟨behind, start, finish⟩ := Option.bind_eq_some_iff.mp between
  simp only [Prod.mk.injEq] at same
  refine ⟨brackets, listed, inner, ?_, same.2.symm, same.1.symm⟩
  rw [dropStart?_eq_some_iff.mp start, append_of_dropEnd? finish]

theorem unmarked_of_identifier {id : Text} (identifier : isIdentifier id = true) : ∀ c ∈ id, c ∉ Nesting.marks := by
  intro c member listed
  have foreign : ∀ c ∈ Nesting.marks, isIdentifierChar c = false := by decide +kernel
  exact not_mem_of_identifier identifier (foreign c listed) member

/-- How a node is written without its style class: its id, alone or with its label behind it in the brackets of its
shape. -/
inductive Outline (n : Node) : Text → Prop where
  | bare : Outline n n.id
  | labelled {brackets : Delimiters} {gap inner : Text} (listed : brackets ∈ delimiters) (blank : allBlank gap = true)
      (shape : n.shape = brackets.shape) (label : n.label = trimmed? (unquote (trim inner))) :
      Outline n (n.id ++ (gap ++ (brackets.start ++ (inner ++ brackets.finish))))

/-- What is written behind that: blanks, or three colons and a style class. -/
inductive ClassEnd (n : Node) : Text → Prop where
  | blank {b : Text} (blank : allBlank b = true) : ClassEnd n b
  | named {gap name b : Text} (blank_before : allBlank gap = true) (blank_behind : allBlank b = true)
      (named : n.styleClass = trimmed? name) : ClassEnd n (gap ++ (':' :: ':' :: ':' :: (name ++ b)))

theorem outline_of_node? {core : Text} {name : Option Text} (cut : splitClass (trim t) = (core, name))
    (found : node? position t = some n) : Outline n core ∧ n.styleClass = name := by
  unfold node? at found
  rw [cut] at found
  dsimp only [spanWhile] at found
  split at found
  · split at found
    · obtain rfl := Option.some.inj found
      exact ⟨.bare, rfl⟩
    · cases found
  · next front label _ same =>
    split at found
    · obtain ⟨⟨text, shape⟩, outlined, rfl⟩ := Option.map_eq_some_iff.mp found
      obtain ⟨brackets, listed, inner, written, shaped, labelled⟩ := outline?_spec outlined
      obtain ⟨gap, apart, blank⟩ := exists_trimEnd front
      have parts := List.takeWhile_append_dropWhile (p := fun c => !isDelimiter c) (l := core)
      obtain ⟨first, second⟩ := Prod.mk.inj same
      rw [first, second, written] at parts
      have whole : core = trimEnd front ++ (gap ++ (brackets.start ++ (inner ++ brackets.finish))) := by
        rw [← parts]
        conv_lhs => rw [apart]
        simp
      rw [whole]
      exact ⟨.labelled listed blank shaped labelled, rfl⟩
    · cases found

/-- The text of a node. -/
theorem node?_written (found : node? position t = some n) :
    ∃ b core last, allBlank b = true ∧ t = b ++ (core ++ last) ∧ Outline n core ∧ ClassEnd n last := by
  obtain ⟨b, b', trimmed, blank, blank'⟩ := exists_trim t
  cases cut : cut? [':', ':', ':'] (trim t) with
  | none =>
    have whole : splitClass (trim t) = (trim t, none) := by rw [splitClass, cut]
    exact ⟨b, trim t, b', blank, trimmed, (outline_of_node? whole found).1, .blank blank'⟩
  | some parts =>
    obtain ⟨before, name⟩ := parts
    have split : splitClass (trim t) = (trim before, trimmed? name) := by rw [splitClass, cut]
    obtain ⟨outline, named⟩ := outline_of_node? split found
    obtain ⟨c, c', apart, clear, clear'⟩ := exists_trim before
    refine ⟨b ++ c, trim before, _, ?_, ?_, outline, .named clear' blank' named⟩
    · rw [allBlank_append, blank, clear]
      rfl
    · rw [trimmed, ← append_of_cut? cut]
      conv_lhs => rw [apart]
      simp

/-! ### Where an arrow stands in a node -/

/-- Where an arrow of a statement stands that is read as a node, with the texts in front of the arrow and behind it. -/
inductive ArrowInNode (n : Node) (before w rest : Text) : Prop where
  /-- In the id, of which hyphens and full stops are characters. -/
  | id {b x y : Text} (blank : allBlank b = true) (front : before = b ++ x) (written : n.id = x ++ (w ++ y))
  /-- At the end of the id, and its last character opens an asymmetric label. -/
  | opening {b x v : Text} (blank : allBlank b = true) (front : before = b ++ x) (written : n.id = x ++ v)
      (last : w = v ++ ['>']) (shape : n.shape = .asymmetric)
  /-- In an asymmetric label. -/
  | asymmetric {b gap x y after : Text} (blank : allBlank b = true) (blank_gap : allBlank gap = true)
      (shape : n.shape = .asymmetric) (front : before = b ++ (n.id ++ (gap ++ '>' :: x)))
      (behind : rest = y ++ ']' :: after) (label : n.label = trimmed? (unquote (trim (x ++ (w ++ y)))))
  /-- In a label, behind a bracket that is closed. -/
  | closed {brackets : Delimiters} {b gap x between y after : Text} {c : Char} (blank : allBlank b = true)
      (blank_gap : allBlank gap = true) (listed : brackets ∈ delimiters) (shape : n.shape = brackets.shape)
      (closing : c ∈ Nesting.closings)
      (front : before = b ++ (n.id ++ (gap ++ (brackets.start ++ (x ++ c :: between)))))
      (behind : rest = y ++ (brackets.finish ++ after))
      (label : n.label = trimmed? (unquote (trim (x ++ c :: (between ++ (w ++ y))))))
  /-- In the style class. -/
  | styleClass {b core gap x y b' : Text} (blank : allBlank b = true) (outline : Outline n core)
      (blank_gap : allBlank gap = true) (front : before = b ++ (core ++ (gap ++ ':' :: ':' :: ':' :: x)))
      (behind : rest = y ++ b') (blank_behind : allBlank b' = true) (named : n.styleClass = trimmed? (x ++ (w ++ y)))

/-- The bracket that opens an asymmetric label is none that is counted. The others are counted, and stand in no arrow. -/
theorem opening_of_delimiters {brackets : Delimiters} (listed : brackets ∈ delimiters) :
    (brackets.start = ['>'] ∧ brackets.finish = [']'] ∧ brackets.shape = .asymmetric) ∨
      ∃ c start, brackets.start = c :: start ∧ c ∉ arrowChars ∧ Nesting.outermost.step c = ⟨false, 1⟩ := by
  have all : ∀ brackets ∈ delimiters,
      (brackets.start = ['>'] ∧ brackets.finish = [']'] ∧ brackets.shape = .asymmetric) ∨
        brackets.start.head?.any fun c => c ∉ arrowChars ∧ Nesting.outermost.step c = ⟨false, 1⟩ := by decide
  rcases all brackets listed with asymmetric | counted
  · exact .inl asymmetric
  · cases begins : brackets.start with
    | nil => simp [begins] at counted
    | cons c start => exact .inr ⟨c, start, rfl, by simpa [begins] using counted⟩

section

variable {b gap more after tail inner : Text} {brackets : Delimiters}

/-- An arrow that begins in front of a label stands in the id, or its last character opens the label. -/
theorem arrowInNode_of_front (listed : brackets ∈ delimiters) (shape : n.shape = brackets.shape)
    (blank : allBlank b = true) (blank_gap : allBlank gap = true) (written : (w, arrow) ∈ arrows)
    (front : b ++ (n.id ++ gap) = before ++ more) (same : w ++ after = more ++ (brackets.start ++ tail)) :
    ArrowInNode n before w rest := by
  have in_id {m : Text} (whole : more = w ++ m) : ArrowInNode n before w rest := by
    rw [whole] at front
    obtain ⟨x, y, front, inside, -⟩ := exists_of_arrowChars (arrow_ne_nil written) (mem_arrowChars written)
      (foreign_of_blank blank) (foreign_of_blank blank_gap) front
    exact .id blank front inside
  rcases List.append_eq_append_iff.mp same with ⟨m, whole, -⟩ | ⟨m, rfl, begins⟩
  · exact in_id whole
  · cases m with
    | nil => exact in_id (m := []) (by simp)
    | cons a m =>
      -- The arrow goes on in the label, whose first character it has.
      rcases opening_of_delimiters listed with ⟨start, -, asymmetric⟩ | ⟨c, start, opens, foreign, -⟩
      · rw [start] at begins
        obtain ⟨rfl, -⟩ := List.cons.inj begins
        obtain ⟨filled, rfl⟩ := point_of_arrow written
        have whole : b ++ (n.id ++ gap) = before ++ (more ++ []) := by rw [front, List.append_nil]
        obtain ⟨x, y, front, inside, none_left⟩ := exists_of_arrowChars filled
          (fun c member => mem_arrowChars written c (List.mem_append_left _ member)) (foreign_of_blank blank)
          (foreign_of_blank blank_gap) whole
        obtain ⟨rfl, -⟩ := List.append_eq_nil_iff.mp none_left.symm
        exact .opening blank front (by rw [inside, List.append_nil]) rfl (shape.trans asymmetric)
      · rw [opens] at begins
        obtain ⟨rfl, -⟩ := List.cons.inj begins
        exact absurd (mem_arrowChars written c (by simp)) foreign

/-- No arrow begins with the bracket that opens a label. -/
theorem exists_of_opening {c : Char} {start : Text} (listed : brackets ∈ delimiters) (opens : brackets.start = c :: start)
    (written : (w, arrow) ∈ arrows) (same : brackets.start ++ t = more ++ (w ++ after)) : ∃ m, more = c :: m := by
  cases more with
  | nil =>
    have apart : ∀ brackets ∈ delimiters, ∀ entry ∈ arrows, entry.1.head? ≠ brackets.start.head? := by decide
    obtain ⟨d, v, rfl⟩ := List.exists_cons_of_ne_nil (arrow_ne_nil written)
    rw [opens] at same
    exact absurd (by rw [opens, (List.cons.inj same).1]; rfl) (apart brackets listed _ written)
  | cons d m =>
    rw [opens] at same
    exact ⟨m, by rw [(List.cons.inj same).1]⟩

theorem foreign_of_finish (listed : brackets ∈ delimiters) (blank : allBlank tail = true) :
    ∀ c ∈ brackets.finish ++ tail, c ∉ arrowChars := by
  have no_arrow : ∀ brackets ∈ delimiters, ∀ c ∈ brackets.finish, c ∉ arrowChars := by decide
  exact List.forall_mem_append.mpr ⟨no_arrow brackets listed, foreign_of_blank blank⟩

/-- What begins with a closing bracket and ends with an arrow stands in the label. -/
theorem exists_of_closing {c : Char} {x between : Text} (listed : brackets ∈ delimiters) (blank : allBlank tail = true)
    (closing : c ∈ Nesting.closings) (written : (w, arrow) ∈ arrows)
    (same : brackets.start ++ (inner ++ (brackets.finish ++ tail)) = x ++ (c :: (between ++ w) ++ after)) :
    ∃ u v, x = brackets.start ++ u ∧ inner = u ++ (c :: (between ++ w) ++ v) ∧ after = v ++ (brackets.finish ++ tail) := by
  refine exists_of_framed (List.cons_ne_nil _ _) ?_ ?_ same
  · have opening : ∀ brackets ∈ delimiters, ∀ a ∈ brackets.start, a ∉ Nesting.closings := by decide
    intro a member first
    exact opening brackets listed a member (Option.some.inj first ▸ closing)
  · intro a member last
    rw [← List.cons_append, List.getLast?_append_of_ne_nil _ (arrow_ne_nil written)] at last
    exact foreign_of_finish listed blank a member (mem_arrowChars written a (List.mem_of_getLast? last))

/-- An arrow outside quotes and brackets that begins in a label stands behind a closed bracket, or the label is
asymmetric. -/
theorem arrowInNode_of_behind (listed : brackets ∈ delimiters) (shape : n.shape = brackets.shape)
    (label : n.label = trimmed? (unquote (trim inner))) (blank : allBlank b = true) (blank_gap : allBlank gap = true)
    (level : Nesting.outermost.run (b ++ (n.id ++ gap)) = .outermost) (blank_tail : allBlank tail = true)
    (written : (w, arrow) ∈ arrows) (same : brackets.start ++ (inner ++ (brackets.finish ++ tail)) = more ++ (w ++ after))
    (outside : (Nesting.outermost.run (b ++ (n.id ++ gap) ++ more)).isOutside = true) (last : Text) :
    ArrowInNode n (b ++ (n.id ++ gap) ++ more) w (after ++ last) := by
  rcases opening_of_delimiters listed with ⟨start, finish, asymmetric⟩ | ⟨c, start, opens, -, counted⟩
  · obtain ⟨m, rfl⟩ := exists_of_opening listed start written same
    rw [start] at same
    obtain ⟨x, y, rfl, inside, rest⟩ := exists_of_arrowChars (u := []) (arrow_ne_nil written) (mem_arrowChars written)
      (List.forall_mem_nil _) (foreign_of_finish listed blank_tail) (List.cons.inj same).2
    have front : b ++ (n.id ++ gap) ++ '>' :: m = b ++ (n.id ++ (gap ++ '>' :: m)) := by simp
    have behind : after ++ last = y ++ ']' :: (tail ++ last) := by
      rw [rest, finish]
      simp
    exact .asymmetric blank blank_gap (shape.trans asymmetric) front behind (by rw [label, inside])
  · obtain ⟨m, rfl⟩ := exists_of_opening listed opens written same
    have opened : Nesting.outermost.run (b ++ (n.id ++ gap) ++ c :: m) = (Nesting.mk false 1).run m := by
      rw [Nesting.run_append, level, ← counted]
      rfl
    rw [opened] at outside
    obtain ⟨x, closing, between, closes, rfl⟩ := Nesting.exists_closing (by simp) outside
    have parts : brackets.start ++ (inner ++ (brackets.finish ++ tail)) =
        (c :: x) ++ (closing :: (between ++ w) ++ after) := by
      rw [same]
      simp
    obtain ⟨u, v, front, inside, rest⟩ := exists_of_closing listed blank_tail closes written parts
    have text : inner = u ++ closing :: (between ++ (w ++ v)) := by simpa using inside
    have before_arrow : b ++ (n.id ++ gap) ++ c :: (x ++ closing :: between) =
        b ++ (n.id ++ (gap ++ (brackets.start ++ (u ++ closing :: between)))) := by
      rw [← List.cons_append, front]
      simp
    have behind : after ++ last = v ++ (brackets.finish ++ (tail ++ last)) := by
      rw [rest, List.append_assoc, List.append_assoc]
    exact .closed blank blank_gap listed shape closes before_arrow behind (by rw [label, text])

/-- An arrow outside quotes and brackets in the text of a node without its style class. -/
theorem arrowInNode_of_outline {core : Text} (outline : Outline n core) (identifier : isIdentifier n.id = true)
    (blank : allBlank b = true) (blank_tail : allBlank tail = true) (written : (w, arrow) ∈ arrows)
    (same : b ++ (core ++ tail) = before ++ (w ++ after)) (outside : (Nesting.outermost.run before).isOutside = true)
    (last : Text) : ArrowInNode n before w (after ++ last) := by
  cases outline with
  | bare =>
    obtain ⟨x, y, front, inside, -⟩ := exists_of_arrowChars (arrow_ne_nil written) (mem_arrowChars written)
      (foreign_of_blank blank) (foreign_of_blank blank_tail) same
    exact .id blank front inside
  | @labelled brackets gap inner listed blank_gap shape label =>
    have parts : b ++ (n.id ++ gap) ++ (brackets.start ++ (inner ++ (brackets.finish ++ tail))) = before ++ (w ++ after) := by
      rw [← same]
      simp
    have level : Nesting.outermost.run (b ++ (n.id ++ gap)) = .outermost := by
      refine Nesting.run_of_unmarked ?_
      simp only [List.forall_mem_append]
      exact ⟨unmarked_of_blank blank, unmarked_of_identifier identifier, unmarked_of_blank blank_gap⟩
    rcases List.append_eq_append_iff.mp parts with ⟨more, rfl, behind⟩ | ⟨more, front, behind⟩
    · exact arrowInNode_of_behind listed shape label blank blank_gap level blank_tail written behind outside last
    · exact arrowInNode_of_front listed shape blank blank_gap written front behind

end

/-- Where the arrow of a statement stands that is read as a node. -/
theorem arrowInNode (found : cutArrow? t = some (before, arrow, rest)) (read : node? position t = some n) :
    ∃ w, (w, arrow) ∈ arrows ∧ t = before ++ (w ++ rest) ∧ ArrowInNode n before w rest := by
  obtain ⟨w, written, same, outside⟩ := cutArrow?_spec found
  refine ⟨w, written, same, ?_⟩
  obtain ⟨b, core, last, blank, whole, outline, named⟩ := node?_written read
  have identifier := (node?_spec read).1
  rw [whole] at same
  cases named with
  | blank blank_last =>
    simpa using arrowInNode_of_outline outline identifier blank blank_last written same outside []
  | @named gap name b' blank_gap blank_behind named =>
    have parts : b ++ (core ++ gap) ++ ([':', ':', ':'] ++ (name ++ b')) = before ++ (w ++ rest) := by
      rw [← same]
      simp
    have no_colon : ':' ∉ arrowChars := by decide
    rcases List.append_eq_append_iff.mp parts with ⟨more, rfl, behind⟩ | ⟨more, front, behind⟩
    · obtain ⟨x, y, rfl, rfl, rest⟩ := exists_of_arrowChars (arrow_ne_nil written) (mem_arrowChars written)
        (by simpa using no_colon) (foreign_of_blank blank_behind) behind
      exact .styleClass blank outline blank_gap (by simp) rest blank_behind named
    · obtain ⟨a, rfl, rest⟩ := exists_of_append_cons (fun inside => no_colon (mem_arrowChars written _ inside)) behind
      rw [rest]
      exact arrowInNode_of_outline outline identifier blank blank_gap written front outside _

theorem hops?_ne_nil {text : Option Text} {hops : List Hop} (found : hops? position arrow text t = some hops) : hops ≠ [] := by
  rw [hops?] at found
  dsimp only at found
  split at found
  · obtain ⟨node, -, rfl⟩ := Option.map_eq_some_iff.mp found
    exact List.cons_ne_nil _ _
  · obtain ⟨node, -, found⟩ := Option.bind_eq_some_iff.mp found
    obtain ⟨later, -, same⟩ := Option.bind_eq_some_iff.mp found
    obtain rfl := Option.some.inj same
    exact List.cons_ne_nil _ _

/-- A chain has at least one arrow. -/
theorem exists_hop_of_chain? {source : Node} {hops : List Hop} (found : chain? position t = some (source, hops)) :
    ∃ hop later, hops = hop :: later := by
  obtain ⟨⟨before, arrow, rest⟩, -, found⟩ := Option.bind_eq_some_iff.mp found
  obtain ⟨first, -, found⟩ := Option.bind_eq_some_iff.mp found
  obtain ⟨later, behind, same⟩ := Option.bind_eq_some_iff.mp found
  simp only [Option.some.injEq, Prod.mk.injEq] at same
  obtain ⟨-, rfl⟩ := same
  exact List.exists_cons_of_ne_nil (hops?_ne_nil behind)

/-! ### Statements -/

/-- A statement that is no command is accepted exactly if it is a chain, or else a node. -/
theorem readLine_of_spoken (spoken : isCommand line.text = false) :
    readLine rules d line = .ok d' ↔
      (∃ source hops, chain? line.position line.text = some (source, hops) ∧ d' = d.addChain source hops) ∨
      chain? line.position line.text = none ∧ ∃ n, node? line.position line.text = some n ∧ d' = d.addNode n := by
  constructor
  · intro taken
    cases step_of_read taken with
    | begin id title marked => simp [isCommand_of_mark marked] at spoken
    | finish i stack marked top => simp [isCommand_of_mark marked] at spoken
    | turn direction marked => simp [isCommand_of_mark marked] at spoken
    | directive x commanded unmarked => simp [commanded] at spoken
    | chain source hops _ read => exact .inl ⟨source, hops, read, rfl⟩
    | node n _ unchained read => exact .inr ⟨unchained, n, read, rfl⟩
  · have reached : firstTaking d line rules = firstTaking d line [⟨"edge", edgeLine⟩, ⟨"node", nodeLine⟩] :=
      firstTaking_append_of_pass (passed_iff_not_command.mpr spoken)
    rintro (⟨source, hops, read, rfl⟩ | ⟨unchained, n, read, rfl⟩)
    · exact readLine_of_first reached (by rw [edgeLine, read]; rfl)
    · have no_edge : edgeLine d line = pass := by rw [edgeLine, unchained]
      exact readLine_of_first (reached.trans (firstTaking_cons_of_pass no_edge)) (by rw [nodeLine, read]; rfl)

/-- A chain draws an edge. -/
theorem draws_of_chain? {source : Node} {hops : List Hop} (read : chain? position t = some (source, hops)) (d : Draft) :
    ∃ e es, (d.addChain source hops).edges = d.edges ++ e :: es := by
  obtain ⟨hop, later, rfl⟩ := exists_hop_of_chain? read
  exact ⟨_, _, addChain_edges d source (hop :: later)⟩

/-- A statement that is no command and has an arrow outside quotes and brackets draws an edge exactly if it is a chain. It
is accepted without an edge exactly if it is no chain but a node, and then the arrow stands in the text of the node. -/
theorem accepted_with_arrow (passed : ∀ rule ∈ rules.take 8, rule.read d line = pass)
    (pointed : cutArrow? line.text = some (before, arrow, rest)) :
    ((∃ d' e es, readLine rules d line = .ok d' ∧ d'.edges = d.edges ++ e :: es) ↔
      (chain? line.position line.text).isSome = true) ∧
    ((∃ d', readLine rules d line = .ok d' ∧ d'.edges = d.edges) ↔
      chain? line.position line.text = none ∧ (node? line.position line.text).isSome = true) ∧
    ∀ d', readLine rules d line = .ok d' → (∃ e es, d'.edges = d.edges ++ e :: es) ∨
      ∃ n w, node? line.position line.text = some n ∧ d' = d.addNode n ∧ (w, arrow) ∈ arrows ∧
        line.text = before ++ (w ++ rest) ∧ ArrowInNode n before w rest := by
  have spoken := passed_iff_not_command.mp passed
  refine ⟨⟨?drawn, ?drawing⟩, ⟨?undrawn, ?undrawing⟩, ?placed⟩
  case drawn =>
    rintro ⟨d', e, es, taken, drawn⟩
    rcases (readLine_of_spoken spoken).mp taken with ⟨source, hops, chained, -⟩ | ⟨-, n, -, rfl⟩
    · exact Option.isSome_of_eq_some chained
    · exact absurd drawn (by simp [Draft.addNode])
  case drawing =>
    intro chained
    obtain ⟨⟨source, hops⟩, chained⟩ := Option.isSome_iff_exists.mp chained
    obtain ⟨e, es, drawn⟩ := draws_of_chain? chained d
    exact ⟨_, e, es, (readLine_of_spoken spoken).mpr (.inl ⟨source, hops, chained, rfl⟩), drawn⟩
  case undrawn =>
    rintro ⟨d', taken, undrawn⟩
    rcases (readLine_of_spoken spoken).mp taken with ⟨source, hops, chained, rfl⟩ | ⟨unchained, n, noded, -⟩
    · obtain ⟨e, es, drawn⟩ := draws_of_chain? chained d
      exact absurd (drawn.symm.trans undrawn) (by simp)
    · exact ⟨unchained, Option.isSome_of_eq_some noded⟩
  case undrawing =>
    rintro ⟨unchained, noded⟩
    obtain ⟨n, noded⟩ := Option.isSome_iff_exists.mp noded
    exact ⟨_, (readLine_of_spoken spoken).mpr (.inr ⟨unchained, n, noded, rfl⟩), rfl⟩
  case placed =>
    intro d' taken
    rcases (readLine_of_spoken spoken).mp taken with ⟨source, hops, chained, rfl⟩ | ⟨-, n, noded, rfl⟩
    · exact .inl (draws_of_chain? chained d)
    · obtain ⟨w, listed, same, stands⟩ := arrowInNode pointed noded
      exact .inr ⟨n, w, noded, rfl, listed, same, stands⟩

/-- Arrows in quotes and in brackets, and one outside. -/
def hiddenArrows : Line := .ofRaw 2 "a[\"] --> b\"] -- no --> c(d --> e)".toList

theorem accepted_with_arrow_hidden :
    (∀ rule ∈ rules.take 8, rule.read {} hiddenArrows = pass) ∧
      cutArrow? hiddenArrows.text = some ("a[\"] --> b\"] -- no ".toList, .solidArrow, " c(d --> e)".toList) ∧
      ∃ d' e es, readLine rules {} hiddenArrows = .ok d' ∧ d'.edges = [] ++ e :: es := by
  have passed : ∀ rule ∈ rules.take 8, rule.read {} hiddenArrows = pass := passed_iff_not_command.mpr (by decide +kernel)
  have pointed : cutArrow? hiddenArrows.text = some ("a[\"] --> b\"] -- no ".toList, .solidArrow, " c(d --> e)".toList) := by
    decide +kernel
  exact ⟨passed, pointed, (accepted_with_arrow passed pointed).1.mpr (by decide +kernel)⟩

/-- An arrow between a node and a label without an id. -/
def closedLabel : Line := .ofRaw 2 "A[x] --> [y]".toList

/-- The arrow stands outside brackets, but the statement is one node with the arrow in its label, and draws no edge. -/
theorem closedLabel_undrawn :
    (∀ rule ∈ rules.take 8, rule.read {} closedLabel = pass) ∧
      cutArrow? closedLabel.text = some ("A[x] ".toList, .solidArrow, " [y]".toList) ∧
      readLine rules {} closedLabel =
        .ok { nodes := [⟨"A".toList, some "x] --> [y".toList, .rectangle, none, ⟨2, 1⟩⟩], edges := [] } := by
  refine ⟨passed_iff_not_command.mpr (by decide +kernel), by decide +kernel, ?_⟩
  exact (eq_ok_get (by decide +kernel)).trans (congrArg Except.ok (by decide +kernel))

end DiagramLint.Flowchart
