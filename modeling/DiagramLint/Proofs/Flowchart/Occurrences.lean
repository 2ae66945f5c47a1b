import DiagramLint.Flowchart.Reader
import DiagramLint.Proofs.Coverage.Basic
import DiagramLint.Proofs.Firsts
import DiagramLint.Proofs.LineRule
import DiagramLint.Proofs.Results

/-!
Nodes of flowcharts and where they occur. A statement that is no command mentions nodes: those along a
chain of edges, or a node on its own. The nodes of a chart are the nodes that its statements mention,
each once, in the order and at the places of their first occurrences (`read_records`).
-/
namespace DiagramLint.Flowchart

open Text

/-! ### Statements -/

/-- The statement is about a subgraph, a direction or a directive. -/
def isCommand (t : Text) : Bool :=
  t = "end".toList || (afterKeyword? "subgraph" t).isSome || (afterKeyword? "direction" t).isSome ||
    [DirectiveKind.classDef, .styleClass, .style, .linkStyle, .click].any fun kind =>
      (afterKeyword? kind.keyword t).isSome

/-- The edges of a chain from a node. -/
def chainEdges (source : Node) : List Hop → List Edge
  | [] => []
  | hop :: hops => ⟨source.id, hop.node.id, hop.arrow, hop.label, source.position⟩ :: chainEdges hop.node hops

/-- The nodes that a statement mentions, in order. -/
def mentions (statement : Line) : List Node :=
  if isCommand statement.text then []
  else
    match chain? statement.position statement.text with
    | some (source, hops) => source :: hops.map Hop.node
    | none => (node? statement.position statement.text).toList

/-- The edges that a statement draws, in order. -/
def draws (statement : Line) : List Edge :=
  if isCommand statement.text then []
  else
    match chain? statement.position statement.text with
    | some (source, hops) => chainEdges source hops
    | none => []

/-- The ids that a statement mentions, each at the place of the statement. -/
def occurrences (statement : Line) : List (Text × Position) :=
  (mentions statement).map fun n => (n.id, statement.position)

theorem node?_spec {position : Position} {t : Text} {n : Node} (found : node? position t = some n) :
    isIdentifier n.id = true ∧ n.position = position := by
  unfold node? at found
  dsimp only at found
  split at found
  · split at found
    · next identifier =>
      obtain rfl := Option.some.inj found
      exact ⟨identifier, rfl⟩
    · exact nomatch found
  · split at found
    · next identifier =>
      obtain ⟨⟨label, shape⟩, -, rfl⟩ := Option.map_eq_some_iff.mp found
      exact ⟨identifier, rfl⟩
    · exact nomatch found

theorem hops?_spec {position : Position} {arrow : Arrow} {text : Option Text} {t : Text} {hops : List Hop}
    (found : hops? position arrow text t = some hops) :
    ∀ hop ∈ hops, isIdentifier hop.node.id = true ∧ hop.node.position = position := by
  -- A hop is followed by the text behind the next arrow, which is shorter.
  induction size : t.length using Nat.strongRecOn generalizing arrow text t hops with
  | ind n ih =>
    rw [hops?] at found
    dsimp only at found
    split at found
    · obtain ⟨node, last, rfl⟩ := Option.map_eq_some_iff.mp found
      intro hop member
      obtain rfl := List.mem_singleton.mp member
      exact node?_spec last
    · next before nextArrow after cut =>
      have shorter : after.length < n := by
        have cut_shorter := length_of_cutArrow? cut
        have label_shorter := length_splitBarLabel_le t
        omega
      obtain ⟨node, first, found⟩ := Option.bind_eq_some_iff.mp found
      obtain ⟨later, behind, same⟩ := Option.bind_eq_some_iff.mp found
      obtain rfl := Option.some.inj same
      intro hop member
      rcases List.mem_cons.mp member with rfl | member
      · exact node?_spec first
      · exact ih after.length shorter behind rfl hop member

/-- The nodes of a chain are identifiers, at the place of the chain. -/
theorem chain?_spec {position : Position} {t : Text} {source : Node} {hops : List Hop}
    (found : chain? position t = some (source, hops)) :
    (isIdentifier source.id = true ∧ source.position = position) ∧
      ∀ hop ∈ hops, isIdentifier hop.node.id = true ∧ hop.node.position = position := by
  obtain ⟨⟨before, arrow, rest⟩, -, found⟩ := Option.bind_eq_some_iff.mp found
  obtain ⟨first, read, found⟩ := Option.bind_eq_some_iff.mp found
  obtain ⟨later, behind, same⟩ := Option.bind_eq_some_iff.mp found
  simp only [Option.some.injEq, Prod.mk.injEq] at same
  obtain ⟨rfl, rfl⟩ := same
  exact ⟨node?_spec read, hops?_spec behind⟩

/-- A statement mentions identifiers, at its place. -/
theorem mentions_spec {statement : Line} :
    ∀ n ∈ mentions statement, isIdentifier n.id = true ∧ n.position = statement.position := by
  intro n member
  unfold mentions at member
  split at member
  · exact nomatch member
  · split at member
    · next source hops found =>
      obtain ⟨first, behind⟩ := chain?_spec found
      rcases List.mem_cons.mp member with rfl | member
      · exact first
      · obtain ⟨hop, inside, rfl⟩ := List.mem_map.mp member
        exact behind hop inside
    · exact node?_spec (Option.mem_toList.mp member)

/-- The ends of the edges of a chain are nodes of the chain. -/
theorem ends_of_chainEdges {source : Node} {hops : List Hop} {e : Edge} (member : e ∈ chainEdges source hops) :
    e.source ∈ (source :: hops.map Hop.node).map Node.id ∧ e.target ∈ (source :: hops.map Hop.node).map Node.id := by
  induction hops generalizing source with
  | nil => exact nomatch member
  | cons hop hops ih =>
    rcases List.mem_cons.mp member with rfl | member
    · simp
    · obtain ⟨left, right⟩ := ih member
      exact ⟨List.mem_cons_of_mem _ left, List.mem_cons_of_mem _ right⟩

/-- The ends of the edges that a statement draws are nodes that it mentions. -/
theorem ends_of_draws {statement : Line} {e : Edge} (member : e ∈ draws statement) :
    e.source ∈ (mentions statement).map Node.id ∧ e.target ∈ (mentions statement).map Node.id := by
  unfold draws at member
  unfold mentions
  split at member
  · exact nomatch member
  · next spoken =>
    rw [if_neg spoken]
    split at member
    · exact ends_of_chainEdges member
    · exact nomatch member

/-! ### Places of nodes -/

/-- What the nodes of a chart say about their occurrences. -/
def places (nodes : List Node) : List (Text × Position) := nodes.map fun n => (n.id, n.position)

theorem keys_places (nodes : List Node) : (places nodes).map Prod.fst = nodes.map Node.id := by
  simp [places, Function.comp_def]

/-- The nodes with one more place of each of some nodes. -/
def addPlaces (nodes : List Node) (more : List Node) : List Node := more.foldl (fun nodes n => addPlace n nodes) nodes

@[simp] theorem Node.id_fill (n m : Node) : (n.fill m).id = n.id := by
  unfold fill
  dsimp only
  split <;> rfl

@[simp] theorem Node.position_fill (n m : Node) : (n.fill m).position = n.position := by
  unfold fill
  dsimp only
  split <;> rfl

/-- A node that is known keeps its place, and any other comes last. -/
theorem places_addPlace (n : Node) (nodes : List Node) :
    places (addPlace n nodes) =
      if n.id ∈ nodes.map Node.id then places nodes else places nodes ++ [(n.id, n.position)] := by
  induction nodes with
  | nil => simp [addPlace, places]
  | cons known rest ih =>
    by_cases same : known.id = n.id
    · simp [addPlace, places, same]
    · have other : ¬ n.id = known.id := fun eq => same eq.symm
      rw [places, addPlace, if_neg same, List.map_cons, ← places, ih, List.map_cons]
      by_cases seen : n.id ∈ rest.map Node.id
      · rw [if_pos seen, if_pos (List.mem_cons_of_mem _ seen)]
        rfl
      · rw [if_neg seen, if_neg (by simpa [other] using seen)]
        rfl

/-- Nodes at their first places stay there when more places are added. -/
theorem places_addPlaces {nodes : List Node} {seen : List (Text × Position)}
    (first : places nodes = firsts Prod.fst seen) (more : List Node) :
    places (addPlaces nodes more) = firsts Prod.fst (seen ++ places more) := by
  induction more generalizing nodes seen with
  | nil => simpa [addPlaces, places] using first
  | cons n more ih =>
    have known : n.id ∈ nodes.map Node.id ↔ n.id ∈ seen.map Prod.fst := by
      rw [← keys_places, first, mem_keys_firsts]
    have one_more : places (addPlace n nodes) = firsts Prod.fst (seen ++ [(n.id, n.position)]) := by
      rw [places_addPlace, firsts_concat, first]
      by_cases old : n.id ∈ seen.map Prod.fst
      · rw [if_pos (known.mpr old), if_pos old]
      · rw [if_neg (fun new => old (known.mp new)), if_neg old]
    have later := ih one_more
    rwa [List.append_assoc] at later

/-! ### What a statement does -/

theorem addChain_nodes (d : Draft) (source : Node) (hops : List Hop) :
    (d.addChain source hops).nodes = addPlaces d.nodes (source :: hops.map Hop.node) := by
  induction hops generalizing d source with
  | nil => rfl
  | cons hop hops ih => exact ih _ _

theorem addChain_edges (d : Draft) (source : Node) (hops : List Hop) :
    (d.addChain source hops).edges = d.edges ++ chainEdges source hops := by
  induction hops generalizing d source with
  | nil => simp [Draft.addChain, Draft.addNode, chainEdges]
  | cons hop hops ih =>
    rw [Draft.addChain, ih]
    simp [Draft.addNode, chainEdges]

theorem addChain_subgraphs (d : Draft) (source : Node) (hops : List Hop) :
    (d.addChain source hops).subgraphs = d.subgraphs := by
  induction hops generalizing d source with
  | nil => rfl
  | cons hop hops ih => exact ih _ _

theorem addChain_direction (d : Draft) (source : Node) (hops : List Hop) :
    (d.addChain source hops).direction = d.direction := by
  induction hops generalizing d source with
  | nil => rfl
  | cons hop hops ih => exact ih _ _

theorem addChain_stack (d : Draft) (source : Node) (hops : List Hop) :
    (d.addChain source hops).stack = d.stack := by
  induction hops generalizing d source with
  | nil => rfl
  | cons hop hops ih => exact ih _ _

/-- What a statement says about subgraphs and directions. -/
inductive Mark where
  | begin (id : Text) (title : Option Text)
  | finish
  | turn (direction : Direction)
  deriving DecidableEq, Repr

/-- What a statement says about subgraphs and directions, if it does. -/
def mark? (t : Text) : Option Mark :=
  match afterKeyword? "subgraph" t with
  | some rest => some (.begin (subgraphName rest).1 (subgraphName rest).2)
  | none =>
    if t = "end".toList then some .finish
    else ((afterKeyword? "direction" t).bind Direction.ofName?).map .turn

/-- The draft where the innermost subgraph, or the whole chart, has a direction. -/
def Draft.turned (d : Draft) (direction : Direction) : Draft :=
  match d.stack with
  | [] => { d with direction := some direction }
  | i :: _ => { d with subgraphs := d.subgraphs.modify i fun s => { s with direction := some direction } }

/-- What the statements do to a draft. -/
inductive Step (d : Draft) (statement : Line) : Draft → Prop where
  | begin (id : Text) (title : Option Text) (marked : mark? statement.text = some (.begin id title)) :
      Step d statement { d with
        subgraphs := d.subgraphs ++ [⟨id, title, d.innermost?.map Subgraph.id, none, statement.position⟩]
        stack := d.subgraphs.length :: d.stack }
  | finish (i : Nat) (stack : List Nat) (marked : mark? statement.text = some .finish) (top : d.stack = i :: stack) :
      Step d statement { d with stack := stack }
  | turn (direction : Direction) (marked : mark? statement.text = some (.turn direction)) :
      Step d statement (d.turned direction)
  | directive (x : Directive) (commanded : isCommand statement.text = true) (unmarked : mark? statement.text = none) :
      Step d statement { d with directives := d.directives ++ [x] }
  | chain (source : Node) (hops : List Hop) (spoken : isCommand statement.text = false)
      (found : chain? statement.position statement.text = some (source, hops)) :
      Step d statement (d.addChain source hops)
  | node (n : Node) (spoken : isCommand statement.text = false)
      (unchained : chain? statement.position statement.text = none)
      (found : node? statement.position statement.text = some n) : Step d statement (d.addNode n)

variable {d d' : Draft} {line : Line}

theorem isCommand_of_mark {t : Text} {m : Mark} (marked : mark? t = some m) : isCommand t = true := by
  unfold mark? at marked
  split at marked
  · next after => simp [isCommand, after]
  · split at marked
    · next finish => simp [isCommand, finish]
    · obtain ⟨direction, named, -⟩ := Option.map_eq_some_iff.mp marked
      obtain ⟨rest, after, -⟩ := Option.bind_eq_some_iff.mp named
      simp [isCommand, after]

theorem subgraphLine_taken (taken : subgraphLine d line = .ok (some d')) : Step d line d' := by
  unfold subgraphLine at taken
  split at taken
  · cases taken
  · cases taken
  · next rest _ after =>
    obtain rfl := eq_of_take taken
    exact .begin (subgraphName rest).1 (subgraphName rest).2 (by rw [mark?, after])

theorem subgraphLine_passed (passed : subgraphLine d line = .ok none) : afterKeyword? "subgraph" line.text = none := by
  unfold subgraphLine at passed
  split at passed
  · assumption
  · cases passed
  · cases passed

theorem endLine_taken (taken : endLine d line = .ok (some d')) : Step d line d' := by
  unfold endLine at taken
  split at taken
  · next finish =>
    split at taken
    · cases taken
    · next i stack top =>
      obtain rfl := eq_of_take taken
      exact .finish i stack (by rw [finish]; decide) top
  · cases taken

theorem endLine_passed (passed : endLine d line = .ok none) : line.text ≠ "end".toList := by
  unfold endLine at passed
  split at passed
  · split at passed
    · cases passed
    · cases passed
  · assumption

theorem directionLine_taken (unnamed : afterKeyword? "subgraph" line.text = none) (unfinished : line.text ≠ "end".toList)
    (taken : directionLine d line = .ok (some d')) : Step d line d' := by
  unfold directionLine at taken
  split at taken
  · cases taken
  · next rest after =>
    obtain ⟨direction, named, same⟩ := exists_of_map_ok taken
    have turns : mark? line.text = some (.turn direction) := by
      unfold Line.direction at named
      split at named
      · next found =>
        obtain rfl := Except.ok.inj named
        rw [mark?, unnamed]
        simp only [if_neg unfinished, after, Option.bind_some, found, Option.map_some]
      · cases named
    have turned : some (d.turned direction) = some d' := by
      rw [← same, Draft.turned]
      cases d.stack <;> rfl
    rw [← Option.some.inj turned]
    exact .turn direction turns

theorem directionLine_passed (passed : directionLine d line = .ok none) :
    afterKeyword? "direction" line.text = none := by
  unfold directionLine at passed
  split at passed
  · assumption
  · obtain ⟨direction, -, same⟩ := exists_of_map_ok passed
    split at same
    · cases same
    · cases same

theorem directiveLine_taken {kind : DirectiveKind} (unmarked : mark? line.text = none)
    (taken : directiveLine kind d line = .ok (some d')) : Step d line d' := by
  unfold directiveLine at taken
  split at taken
  · cases taken
  · next rest after =>
    have commanded : isCommand line.text = true := by cases kind <;> simp [isCommand, after]
    dsimp only at taken
    split at taken <;> split at taken
    case h_1.isTrue | h_2.isTrue => cases taken
    case h_1.isFalse | h_2.isFalse =>
      obtain rfl := eq_of_take taken
      exact .directive _ commanded unmarked

theorem directiveLine_passed {kind : DirectiveKind} (passed : directiveLine kind d line = .ok none) :
    afterKeyword? kind.keyword line.text = none := by
  unfold directiveLine at passed
  split at passed
  · assumption
  · dsimp only at passed
    split at passed <;> split at passed <;> cases passed

theorem edgeLine_taken (spoken : isCommand line.text = false) (taken : edgeLine d line = .ok (some d')) :
    Step d line d' := by
  unfold edgeLine at taken
  split at taken
  · cases taken
  · next source hops found =>
    obtain rfl := eq_of_take taken
    exact .chain source hops spoken found

theorem edgeLine_passed (passed : edgeLine d line = .ok none) : chain? line.position line.text = none := by
  unfold edgeLine at passed
  split at passed
  · assumption
  · cases passed

theorem nodeLine_taken (spoken : isCommand line.text = false) (unchained : chain? line.position line.text = none)
    (taken : nodeLine d line = .ok (some d')) : Step d line d' := by
  unfold nodeLine at taken
  split at taken
  · cases taken
  · next n found =>
    obtain rfl := eq_of_take taken
    exact .node n spoken unchained found

theorem step_of_read (taken : readLine rules d line = .ok d') : Step d line d' := by
  rw [readLine_eq_ok_iff] at taken
  simp only [rules, directiveRule, firstTaking_cons, not_taken_by_none, and_false, or_false] at taken
  rcases taken with begun | ⟨no_subgraph, ended | ⟨no_end, directed | ⟨no_direction, others⟩⟩⟩
  · exact subgraphLine_taken begun
  · exact endLine_taken ended
  · exact directionLine_taken (subgraphLine_passed no_subgraph) (endLine_passed no_end) directed
  · have unmarked : mark? line.text = none := by
      rw [mark?, subgraphLine_passed no_subgraph]
      simp only [if_neg (endLine_passed no_end), directionLine_passed no_direction]
      rfl
    rcases others with set | ⟨no_def, set | ⟨no_class, set | ⟨no_style, set | ⟨no_link, set | ⟨no_click, spoken⟩⟩⟩⟩⟩
    · exact directiveLine_taken unmarked set
    · exact directiveLine_taken unmarked set
    · exact directiveLine_taken unmarked set
    · exact directiveLine_taken unmarked set
    · exact directiveLine_taken unmarked set
    -- Every command rule passes only a line that does not have its keyword.
    · have uncommanded : isCommand line.text = false := by
        rw [isCommand, decide_eq_false (endLine_passed no_end)]
        simp [subgraphLine_passed no_subgraph, directionLine_passed no_direction,
          directiveLine_passed no_def, directiveLine_passed no_class, directiveLine_passed no_style,
          directiveLine_passed no_link, directiveLine_passed no_click]
      rcases spoken with drawn | ⟨unchained, alone⟩
      · exact edgeLine_taken uncommanded drawn
      · exact nodeLine_taken uncommanded (edgeLine_passed unchained) alone

/-- The ids of some subgraphs and of the subgraphs around them. -/
def lineage (subgraphs : List Subgraph) : List (Text × Option Text) := subgraphs.map fun s => (s.id, s.parent)

/-- A command leaves nodes and edges as they are, and may begin a subgraph in the innermost one. -/
structure Draft.Commanded (d d' : Draft) : Prop where
  nodes : d'.nodes = d.nodes
  edges : d'.edges = d.edges
  subgraphs : lineage d'.subgraphs = lineage d.subgraphs ∨
    ∃ id, lineage d'.subgraphs = lineage d.subgraphs ++ [(id, d.innermost?.map Subgraph.id)]

/-- A statement that is no command adds the nodes that it mentions and the edges that it draws. -/
structure Draft.Extended (d d' : Draft) (line : Line) : Prop where
  nodes : d'.nodes = addPlaces d.nodes (mentions line)
  edges : d'.edges = d.edges ++ draws line
  subgraphs : d'.subgraphs = d.subgraphs

theorem commanded_turned (d : Draft) (direction : Direction) : d.Commanded (d.turned direction) := by
  unfold Draft.turned
  split
  · exact ⟨rfl, rfl, .inl rfl⟩
  · refine ⟨rfl, rfl, .inl ?_⟩
    exact map_modify_of_eq (f := fun s : Subgraph => { s with direction := some direction }) (fun _ => rfl) _ _

/-- A statement is a command, or it mentions nodes and draws edges. -/
theorem readLine_step (taken : readLine rules d line = .ok d') :
    isCommand line.text = true ∧ d.Commanded d' ∨ isCommand line.text = false ∧ d.Extended d' line := by
  cases step_of_read taken with
  | begin id title marked => exact .inl ⟨isCommand_of_mark marked, rfl, rfl, .inr ⟨id, List.map_append⟩⟩
  | finish i stack marked top => exact .inl ⟨isCommand_of_mark marked, rfl, rfl, .inl rfl⟩
  | turn direction marked => exact .inl ⟨isCommand_of_mark marked, commanded_turned d direction⟩
  | directive x commanded unmarked => exact .inl ⟨commanded, rfl, rfl, .inl rfl⟩
  | chain source hops spoken found =>
    refine .inr ⟨spoken, ?_, ?_, addChain_subgraphs d source hops⟩
    · simp [mentions, spoken, found, addChain_nodes]
    · simp [draws, spoken, found, addChain_edges]
  | node n spoken unchained found =>
    refine .inr ⟨spoken, ?_, ?_, rfl⟩
    · simp [mentions, spoken, unchained, found, Draft.addNode, addPlaces]
    · simp [draws, spoken, unchained, Draft.addNode]

/-! ### Charts -/

/-- Every subgraph in another one comes behind one with the id of that. -/
def ParentsFirst (subgraphs : List (Text × Option Text)) : Prop :=
  ∀ before id parent after, subgraphs = before ++ (id, some parent) :: after → parent ∈ before.map Prod.fst

theorem parentsFirst_concat {subgraphs : List (Text × Option Text)} {id : Text} {parent : Option Text}
    (first : ParentsFirst subgraphs) (known : ∀ p, parent = some p → p ∈ subgraphs.map Prod.fst) :
    ParentsFirst (subgraphs ++ [(id, parent)]) := by
  intro before id' parent' after split
  rcases List.eq_nil_or_concat after with rfl | ⟨after, last, rfl⟩
  · obtain ⟨rfl, same⟩ := List.append_inj' split rfl
    simp only [List.cons.injEq, Prod.mk.injEq, and_true] at same
    exact known parent' same.2
  · rw [List.concat_eq_append, ← List.cons_append, ← List.append_assoc] at split
    obtain ⟨rfl, -⟩ := List.append_inj' split rfl
    exact first before id' parent' after rfl

/-- What a draft holds of the statements read so far. -/
structure Draft.Holds (d : Draft) (statements : List Line) : Prop where
  nodes : places d.nodes = firsts Prod.fst (statements.flatMap occurrences)
  edges : d.edges = statements.flatMap draws
  parents : ParentsFirst (lineage d.subgraphs)

theorem places_mentions (statement : Line) : places (mentions statement) = occurrences statement := by
  refine List.map_congr_left ?_
  intro n member
  rw [(mentions_spec n member).2]

theorem mentions_command (commanded : isCommand line.text = true) : occurrences line = [] ∧ draws line = [] := by
  simp [occurrences, mentions, draws, commanded]

theorem Draft.Holds.step {statements : List Line} (holds : d.Holds statements)
    (taken : readLine rules d line = .ok d') : d'.Holds (statements ++ [line]) := by
  rcases readLine_step taken with ⟨commanded, nodes, edges, subgraphs⟩ | ⟨-, nodes, edges, subgraphs⟩
  · obtain ⟨unmentioned, undrawn⟩ := mentions_command commanded
    refine ⟨?_, ?_, ?_⟩
    · simpa [nodes, unmentioned] using holds.nodes
    · simpa [edges, undrawn] using holds.edges
    · rcases subgraphs with same | ⟨id, added⟩
      · rw [same]
        exact holds.parents
      -- The subgraph around the new one is looked up in the draft, so the new one comes behind it.
      · rw [added]
        refine parentsFirst_concat holds.parents ?_
        intro p named
        obtain ⟨s, innermost, rfl⟩ := Option.map_eq_some_iff.mp named
        obtain ⟨i, -, here⟩ := Option.bind_eq_some_iff.mp innermost
        have member : s.id ∈ d.subgraphs.map Subgraph.id := List.mem_map_of_mem (List.mem_of_getElem? here)
        simpa [lineage, Function.comp_def] using member
  · refine ⟨?_, ?_, ?_⟩
    · rw [nodes, places_addPlaces holds.nodes, places_mentions]
      simp
    · rw [edges, holds.edges]
      simp
    · rw [subgraphs]
      exact holds.parents

/-- A run over the statements of a chart holds what they say. -/
theorem holds_of_run {statements : List Line} {direction : Option Direction}
    (run : readLines (fun _ => rules) { direction := direction } statements = .ok d) : d.Holds statements := by
  have blank : Draft.Holds { direction := direction } [] := by
    refine ⟨rfl, rfl, ?_⟩
    intro before id parent after split
    simp [lineage] at split
  exact readLines_holds (P := fun read d => d.Holds read) Draft.Holds.step blank run

/-- A chart that is read is the draft behind its statements. -/
theorem exists_of_read {s : Source} {chart : Flowchart} (accepted : read s = .ok chart) :
    ∃ header direction d, readLines (fun _ => rules) { direction := direction } (s.body.flatMap statementLines) = .ok d ∧
      chart = ⟨header, d.direction, d.nodes, d.edges, d.subgraphs, d.directives⟩ := by
  obtain ⟨⟨header, keyword, rest⟩, -, accepted⟩ := exists_of_bind_ok accepted
  obtain ⟨direction, -, accepted⟩ := exists_of_bind_ok accepted
  obtain ⟨d, run, accepted⟩ := exists_of_bind_ok accepted
  split at accepted
  · exact nomatch accepted
  · exact ⟨_, direction, d, run, (Except.ok.inj accepted).symm⟩

/-- The parts of a chart are told by its statements. -/
structure Records (statements : List Line) (chart : Flowchart) : Prop where
  distinct : (chart.nodes.map Node.id).Nodup
  identifiers : ∀ n ∈ chart.nodes, isIdentifier n.id = true
  /-- The nodes stand in the order and at the places of their first occurrences. -/
  first_places : chart.nodes.map (fun n => (n.id, n.position)) = firsts Prod.fst (statements.flatMap occurrences)
  edges : chart.edges = statements.flatMap draws
  /-- Both ends of an edge are nodes. -/
  ends : ∀ e ∈ chart.edges, e.source ∈ chart.nodes.map Node.id ∧ e.target ∈ chart.nodes.map Node.id
  /-- The subgraph around another one comes before it. -/
  parents : ∀ before s after parent, chart.subgraphs = before ++ s :: after → s.parent = some parent →
    parent ∈ before.map Subgraph.id

theorem mem_ids_iff {statements : List Line} {nodes : List Node}
    (first : places nodes = firsts Prod.fst (statements.flatMap occurrences)) {id : Text} :
    id ∈ nodes.map Node.id ↔ ∃ statement ∈ statements, id ∈ (mentions statement).map Node.id := by
  rw [← keys_places, first, mem_keys_firsts]
  simp [occurrences]

/-- A flowchart that is read has the nodes that its statements mention, each once. -/
theorem read_records {s : Source} {chart : Flowchart} (accepted : read s = .ok chart) :
    Records (s.body.flatMap statementLines) chart := by
  obtain ⟨header, direction, d, run, rfl⟩ := exists_of_read accepted
  have holds := holds_of_run run
  refine ⟨?_, ?_, holds.nodes, holds.edges, ?_, ?_⟩
  · rw [← keys_places, holds.nodes]
    exact nodup_keys_firsts _
  · intro n member
    obtain ⟨statement, -, mentioned⟩ := (mem_ids_iff holds.nodes).mp (List.mem_map_of_mem member)
    obtain ⟨m, inside, same⟩ := List.mem_map.mp mentioned
    rw [← same]
    exact (mentions_spec m inside).1
  · intro e member
    rw [holds.edges] at member
    obtain ⟨statement, inside, drawn⟩ := List.mem_flatMap.mp member
    obtain ⟨source, target⟩ := ends_of_draws drawn
    exact ⟨(mem_ids_iff holds.nodes).mpr ⟨statement, inside, source⟩,
      (mem_ids_iff holds.nodes).mpr ⟨statement, inside, target⟩⟩
  · intro before s after parent split within
    have split : d.subgraphs = before ++ s :: after := split
    have known := holds.parents (lineage before) s.id parent (lineage after)
    simpa [split, lineage, within, Function.comp_def] using known

/-- A chain and a node in one line, nodes that come again, and a subgraph inside another one. -/
def repeatedNodes : Text :=
  "graph TD\nb --> a[A] -- x --> c; d\nsubgraph s [S]\n a --> e\n subgraph t\n  c(C)\n end\nend\nstyle a fill".toList

theorem read_records_repeated : ∃ chart, read (Source.ofText repeatedNodes 0) = .ok chart ∧
    Records ((Source.ofText repeatedNodes 0).body.flatMap statementLines) chart := by
  obtain ⟨chart, accepted⟩ := exists_of_isOk (x := read (Source.ofText repeatedNodes 0)) (by decide +kernel)
  exact ⟨chart, accepted, read_records accepted⟩

end DiagramLint.Flowchart
