import DiagramLint.Proofs.Flowchart.Occurrences
import DiagramLint.Proofs.Reading.Basic

/-!
How flowcharts are read. All statements of a line stand at the place of the line; a node that is known
already keeps its place, and the nodes and edges of a chain come last.
-/
namespace DiagramLint.Flowchart

open Text

instance : Stored Flowchart where
  header chart := chart.header
  withSource text chart := { chart with header := chart.header.withSource text }
  columns chart :=
    [chart.nodes.map Node.position, chart.edges.map Edge.position, chart.subgraphs.map Subgraph.position,
      chart.directives.map Directive.position]

/-- The positions of a draft. -/
def Draft.columns (d : Draft) : List (List Position) :=
  [d.nodes.map Node.position, d.edges.map Edge.position, d.subgraphs.map Subgraph.position,
    d.directives.map Directive.position]

theorem subgraphLine_marks (d : Draft) (line : Line) : Marks Draft.columns d line (subgraphLine d line) := by
  unfold subgraphLine
  split
  · simp
  · simp [Fault.code]
  · simp [Draft.columns, Grows]

theorem endLine_marks (d : Draft) (line : Line) : Marks Draft.columns d line (endLine d line) := by
  unfold endLine
  split
  · split <;> simp [Draft.columns, Fault.code]
  · simp

theorem directionLine_marks (d : Draft) (line : Line) : Marks Draft.columns d line (directionLine d line) := by
  unfold directionLine
  split
  · simp
  · refine (direction_ofLine line _).map ?_
    intro direction _
    split
    · rintro _ ⟨⟩
      exact .refl _ _
    · next i _ _ =>
      rintro _ ⟨⟩
      have places : (d.subgraphs.modify i fun s => { s with direction := some direction }).map Subgraph.position =
          d.subgraphs.map Subgraph.position := by
        refine map_modify_of_eq ?_ _ _
        intro s
        rfl
      simp [Draft.columns, Grows, places]

theorem directiveLine_marks (kind : DirectiveKind) (d : Draft) (line : Line) :
    Marks Draft.columns d line (directiveLine kind d line) := by
  unfold directiveLine
  split
  · simp
  · dsimp only
    split <;> split <;> simp [Draft.columns, Grows, Fault.code]

/-! ### Nodes and edges -/

theorem addPlace_places (node : Node) (nodes : List Node) :
    ∃ n, (addPlace node nodes).map Node.position = nodes.map Node.position ++ List.replicate n node.position := by
  have positions (nodes : List Node) : nodes.map Node.position = (places nodes).map Prod.snd := by
    simp [places, Function.comp_def]
  rw [positions, positions, places_addPlace]
  split
  · exact ⟨0, by simp⟩
  · exact ⟨1, by simp⟩

theorem addNode_grows (d : Draft) (node : Node) : Grows node.position d.columns (d.addNode node).columns := by
  obtain ⟨n, places⟩ := addPlace_places node d.nodes
  simp [Draft.columns, Draft.addNode, Grows, places]

theorem addChain_grows {p : Position} (d : Draft) {source : Node} {hops : List Hop} (here : source.position = p)
    (behind : ∀ hop ∈ hops, hop.node.position = p) : Grows p d.columns (d.addChain source hops).columns := by
  induction hops generalizing d source with
  | nil => exact here ▸ addNode_grows d source
  | cons hop hops ih =>
    have first : Grows p d.columns (d.addNode source).columns := here ▸ addNode_grows d source
    refine first.trans (Grows.trans ?_ (ih _ (behind hop List.mem_cons_self) fun later member =>
      behind later (List.mem_cons_of_mem hop member)))
    simp [Draft.columns, Grows, here]

theorem edgeLine_marks (d : Draft) (line : Line) : Marks Draft.columns d line (edgeLine d line) := by
  unfold edgeLine
  split
  · simp
  · next source hops found =>
    obtain ⟨here, behind⟩ := chain?_spec found
    exact Marks.take_iff.mpr (addChain_grows d here.2 fun hop member => (behind hop member).2)

theorem nodeLine_marks (d : Draft) (line : Line) : Marks Draft.columns d line (nodeLine d line) := by
  unfold nodeLine
  split
  · simp
  · next node found =>
    rw [Marks.take_iff, ← (node?_spec found).2]
    exact addNode_grows d node

theorem headerDirection_ofLine (line : Line) (keyword : String) (rest : Text) :
    OfLine line (headerDirection line keyword rest) fun _ => True := by
  unfold headerDirection
  split
  · trivial
  · split <;> simp [Fault.code]

theorem mem_of_innermost? {d : Draft} {s : Subgraph} (found : d.innermost? = some s) : s ∈ d.subgraphs := by
  obtain ⟨i, -, member⟩ := Option.bind_eq_some_iff.mp found
  exact List.mem_of_getElem? member

theorem rules_mark (d : Draft) : ∀ rule ∈ rules, ∀ line, Marks Draft.columns d line (rule.read d line) := by
  simp only [rules, directiveRule, List.forall_mem_cons]
  exact ⟨subgraphLine_marks d, endLine_marks d, directionLine_marks d, directiveLine_marks _ d,
    directiveLine_marks _ d, directiveLine_marks _ d, directiveLine_marks _ d, directiveLine_marks _ d,
    edgeLine_marks d, nodeLine_marks d, List.forall_mem_nil _⟩

/-- How flowcharts are read. -/
abbrev reading : Reading Flowchart where
  Head := Line × Kind × Option Direction
  State := Draft
  head first := do
    let (header, keyword, rest) ← first.alone.headerWith ["flowchart", "graph"]
    let direction ← headerDirection header keyword rest
    .ok (header, if keyword = "graph" then Kind.graph else Kind.flowchart, direction)
  fits := Text.BeginsWith ["flowchart", "graph"]
  line h := h.1
  start h := { direction := h.2.2 }
  rules _ := rules
  cut := statementLines
  columns := Draft.columns
  finish text h d :=
    match d.innermost? with
    | some subgraph => .error ((Fault.subgraphUnclosed subgraph.id).at subgraph.position)
    | none => .ok ⟨⟨h.2.1, text, h.1.position⟩, d.direction, d.nodes, d.edges, d.subgraphs, d.directives⟩

theorem reading_describes : reading.Describes read where
  read_eq text offset first body := by
    rw [bind_assoc]
    refine bind_congr ?_
    rintro ⟨header, word, rest⟩
    dsimp only
    rw [bind_assoc]
    rfl
  head_ofHeader first := by
    refine (headerWith_ofHeader [] 0 first [] ["flowchart", "graph"]).bind ?_
    rintro ⟨header, word, rest⟩ rfl
    refine (headerDirection_ofLine header word rest).bind ?_
    exact fun _ _ => rfl
  start_empty _ := by simp [Draft.columns]
  rules_mark := rules_mark
  cut_position line := by
    intro piece member
    obtain ⟨t, -, rfl⟩ := List.mem_map.mp member
    rfl
  finish_error failed := by
    dsimp only at failed
    split at failed
    · next subgraph found =>
      obtain rfl := Except.error.inj failed
      have opened := List.mem_map_of_mem (f := Subgraph.position) (mem_of_innermost? found)
      exact ⟨.inl rfl, .inr ⟨_, by simp [Draft.columns], opened⟩⟩
    · cases failed
  finish_ok finished := by
    dsimp only at finished
    split at finished
    · cases finished
    · obtain rfl := Except.ok.inj finished
      exact ⟨rfl, fun _ => id⟩
  finish_text text h d other := by
    dsimp only
    split <;> rfl

end DiagramLint.Flowchart
