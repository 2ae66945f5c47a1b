import DiagramLint.Flowchart.Checks
import DiagramLint.Flowchart.Reader
import DiagramLint.Proofs.Offset.Checks
import DiagramLint.Proofs.Offset.LineRule

/-!
Flowcharts further down in a document.
-/
namespace DiagramLint.Flowchart

open Text
open Placed (shift)

variable {k : Move}

instance : Placed Node := ⟨fun k n => { n with position := shift k n.position }⟩

instance : Placed Edge := ⟨fun k e => { e with position := shift k e.position }⟩

instance : Placed Subgraph := ⟨fun k s => { s with position := shift k s.position }⟩

instance : Placed Directive := ⟨fun k d => { d with position := shift k d.position }⟩

instance : Placed Hop := ⟨fun k h => { h with node := shift k h.node }⟩

instance : Placed Flowchart where
  shift k chart :=
    { chart with
      header := shift k chart.header
      nodes := shift k chart.nodes
      edges := shift k chart.edges
      subgraphs := shift k chart.subgraphs
      directives := shift k chart.directives }

instance : Placed Draft where
  shift k d :=
    { d with
      nodes := shift k d.nodes
      edges := shift k d.edges
      subgraphs := shift k d.subgraphs
      directives := shift k d.directives }

theorem innermost?_shift (d : Draft) : (shift k d).innermost? = shift k d.innermost? := by
  unfold Draft.innermost?
  show d.stack.head?.bind (fun i => (shift k d.subgraphs)[i]?) = _
  cases d.stack.head? with
  | none => rfl
  | some i => exact getElem?_shift d.subgraphs i

/-! ### Nodes and chains -/

theorem node?_shift (position : Position) (t : Text) : node? (shift k position) t = shift k (node? position t) := by
  unfold node?
  dsimp only
  split
  · split
    · rfl
    · rfl
  · next before label _ _ =>
    split
    · cases outline? label with
      | none => rfl
      | some outline => rfl
    · rfl

theorem hops?_shift (position : Position) (arrow : Arrow) (text : Option Text) (t : Text) :
    hops? (shift k position) arrow text t = shift k (hops? position arrow text t) := by
  induction size : t.length using Nat.strongRecOn generalizing arrow text t with
  | ind n ih =>
    rw [hops?, hops?]
    dsimp only
    split
    · rw [node?_shift]
      cases node? position (splitBarLabel t).2 with
      | none => rfl
      | some node => rfl
    · next before nextArrow after found =>
      have shorter : after.length < n := by
        rw [← size]
        exact Nat.lt_of_lt_of_le (length_of_cutArrow? found) (length_splitBarLabel_le t)
      rw [node?_shift, ih after.length shorter nextArrow _ after rfl]
      cases node? position (nodeAndText before).1 with
      | none => rfl
      | some node =>
        show (shift k (hops? position nextArrow _ after)).bind _ = shift k ((hops? position nextArrow _ after).bind _)
        cases hops? position nextArrow (nodeAndText before).2 after with
        | none => rfl
        | some hops => rfl

theorem chain?_shift (position : Position) (t : Text) : chain? (shift k position) t = shift k (chain? position t) := by
  unfold chain?
  cases cutArrow? t with
  | none => rfl
  | some parts =>
    obtain ⟨before, arrow, rest⟩ := parts
    show (node? (shift k position) (nodeAndText before).1).bind _ =
      shift k ((node? position (nodeAndText before).1).bind _)
    rw [node?_shift]
    cases node? position (nodeAndText before).1 with
    | none => rfl
    | some node =>
      show (hops? (shift k position) arrow (nodeAndText before).2 rest).bind _ =
        shift k ((hops? position arrow (nodeAndText before).2 rest).bind _)
      rw [hops?_shift]
      cases hops? position arrow (nodeAndText before).2 rest with
      | none => rfl
      | some hops => rfl

theorem fill_shift (known later : Node) : (shift k known).fill (shift k later) = shift k (known.fill later) := by
  have label : (shift k known).label = known.label := rfl
  have later_label : (shift k later).label = later.label := rfl
  unfold Node.fill
  dsimp only
  rw [label, later_label]
  split
  · rfl
  · rfl

theorem addPlace_shift (node : Node) (nodes : List Node) :
    addPlace (shift k node) (shift k nodes) = shift k (addPlace node nodes) := by
  induction nodes with
  | nil => rfl
  | cons known rest ih =>
    show (if known.id = node.id then (shift k known).fill (shift k node) :: shift k rest
      else shift k known :: addPlace (shift k node) (shift k rest)) =
      shift k (if known.id = node.id then known.fill node :: rest else known :: addPlace node rest)
    rw [fill_shift, ih]
    split
    · rfl
    · rfl

theorem addNode_shift (d : Draft) (node : Node) : (shift k d).addNode (shift k node) = shift k (d.addNode node) :=
  congrArg (fun nodes => { shift k d with nodes := nodes }) (addPlace_shift node d.nodes)

theorem addChain_shift (d : Draft) (source : Node) (hops : List Hop) :
    (shift k d).addChain (shift k source) (shift k hops) = shift k (d.addChain source hops) := by
  induction hops generalizing d source with
  | nil => exact addNode_shift d source
  | cons hop hops ih =>
    rw [shift_cons]
    unfold Draft.addChain
    dsimp only
    rw [addNode_shift]
    have longer : ∀ edges : List Edge, shift k (edges ++ [⟨source.id, hop.node.id, hop.arrow, hop.label, source.position⟩]) =
        shift k edges ++ [⟨(shift k source).id, (shift k hop).node.id, (shift k hop).arrow, (shift k hop).label,
          (shift k source).position⟩] := fun edges => shift_append ..
    have next := ih { d.addNode source with edges := (d.addNode source).edges ++
      [⟨source.id, hop.node.id, hop.arrow, hop.label, source.position⟩] } hop.node
    rw [← next]
    exact congrArg (fun edges => Draft.addChain { shift k (d.addNode source) with edges := edges } (shift k hop.node)
      (shift k hops)) (longer _).symm

/-! ### Statements -/

theorem subgraphLine_moves : Moves k subgraphLine := by
  intro d line
  unfold subgraphLine
  rw [text_shift]
  split
  · rfl
  · rfl
  · next rest _ _ =>
    have around : (shift k d).innermost?.map Subgraph.id = d.innermost?.map Subgraph.id := by
      rw [innermost?_shift]
      cases d.innermost? with
      | none => rfl
      | some s => rfl
    have places : (shift k d).subgraphs.length = d.subgraphs.length := length_shift d.subgraphs
    dsimp only
    rw [around, places]
    symm
    exact congrArg (fun subgraphs => take { shift k d with
      subgraphs := subgraphs
      stack := d.subgraphs.length :: d.stack }) (shift_append d.subgraphs _)

theorem endLine_moves : Moves k endLine := by
  intro d line
  unfold endLine
  rw [text_shift]
  split
  · have stack : (shift k d).stack = d.stack := rfl
    rw [stack]
    cases d.stack with
    | nil => rfl
    | cons i stack => rfl
  · rfl

theorem directionLine_moves : Moves k directionLine := by
  intro d line
  unfold directionLine
  rw [text_shift]
  split
  · rfl
  · next rest _ =>
    rw [direction_shift]
    cases line.direction rest with
    | error e => rfl
    | ok direction =>
      have stack : (shift k d).stack = d.stack := rfl
      rw [stack]
      cases d.stack with
      | nil => rfl
      | cons i stack =>
        have turned : (shift k d.subgraphs).modify i (fun s => { s with direction := some direction }) =
            shift k (d.subgraphs.modify i fun s => { s with direction := some direction }) := by
          refine modify_shift ?_ d.subgraphs i
          intro s
          rfl
        exact congrArg (fun subgraphs => Except.ok (some { shift k d with subgraphs := subgraphs, stack := i :: stack }))
          turned

theorem directiveLine_moves (kind : DirectiveKind) : Moves k (directiveLine kind) := by
  intro d line
  unfold directiveLine
  rw [text_shift]
  split
  · rfl
  · dsimp only
    rw [apply_ite (shift k)]
    congr 1
    symm
    exact congrArg (fun directives => take { shift k d with directives := directives }) (shift_append d.directives _)

theorem edgeLine_moves : Moves k edgeLine := by
  intro d line
  unfold edgeLine
  rw [text_shift, position_shift, chain?_shift]
  cases chain? line.position line.text with
  | none => rfl
  | some chain => exact congrArg take (addChain_shift d chain.1 chain.2)

theorem nodeLine_moves : Moves k nodeLine := by
  intro d line
  unfold nodeLine
  rw [text_shift, position_shift, node?_shift]
  cases node? line.position line.text with
  | none => rfl
  | some node => exact congrArg take (addNode_shift d node)

theorem rules_move (_ : Draft) : ∀ rule ∈ rules, Moves k rule.read := by
  simp only [rules, List.forall_mem_cons]
  exact ⟨subgraphLine_moves, endLine_moves, directionLine_moves, directiveLine_moves .classDef,
    directiveLine_moves .styleClass, directiveLine_moves .style, directiveLine_moves .linkStyle,
    directiveLine_moves .click, edgeLine_moves, nodeLine_moves, nofun⟩

theorem statementLines_shift (line : Line) : statementLines (shift k line) = shift k (statementLines line) := by
  unfold statementLines
  rw [text_shift, shift_map]
  rfl

theorem headerDirection_shift (line : Line) (keyword : String) (rest : Text) :
    headerDirection (shift k line) keyword rest = (headerDirection line keyword rest).mapError (shift k) := by
  unfold headerDirection
  split
  · rfl
  · split
    · rfl
    · rfl

/-- A flowchart is read further down as it is read. -/
theorem read_shift (s : Source) : read (shift k s) = shift k (read s) := by
  unfold read
  rw [headerWith_shift]
  refine result_bind_shift ?_ _
  rintro ⟨header, keyword, rest⟩
  show (headerDirection (shift k header) keyword rest >>= _) = shift k (headerDirection header keyword rest >>= _)
  rw [headerDirection_shift, body_shift, flatMap_shift statementLines_shift]
  cases headerDirection header keyword rest with
  | error e => rfl
  | ok direction =>
    show (readLines (fun _ => rules) (shift k { direction := direction }) (shift k (s.body.flatMap statementLines)) >>= _) =
      shift k (readLines (fun _ => rules) { direction := direction } (s.body.flatMap statementLines) >>= _)
    rw [readLines_shift rules_move fun _ => rfl]
    refine result_bind_shift ?_ _
    intro d
    rw [innermost?_shift]
    cases d.innermost? with
    | some subgraph => rfl
    | none => rfl

/-! ### Checks -/

theorem subgraphIds_shift (chart : Flowchart) : (shift k chart).subgraphs.map (fun s => (s.id, s.position)) =
    shift k (chart.subgraphs.map fun s => (s.id, s.position)) := by
  refine map_shift ?_ chart.subgraphs
  intro s
  rfl

theorem duplicateSubgraphs_shift (chart : Flowchart) :
    duplicateSubgraphs (shift k chart) = shift k (duplicateSubgraphs chart) := by
  unfold duplicateSubgraphs
  rw [subgraphIds_shift]
  exact Duplicates.findings_shift (.empty "subgraph") _

theorem places_shift (d : Directive) : (shift k d).places = shift k d.places := by
  unfold Directive.places
  rw [shift_map]
  rfl

theorem duplicateClassDefs_shift (chart : Flowchart) :
    duplicateClassDefs (shift k chart) = shift k (duplicateClassDefs chart) := by
  have definitions : ((shift k chart.directives).filter fun d => d.kind = .classDef) =
      shift k (chart.directives.filter fun d => d.kind = .classDef) := by
    refine filter_shift ?_ _
    intro d
    rfl
  unfold duplicateClassDefs
  show Duplicates.findings _ (((shift k chart.directives).filter fun d => d.kind = .classDef).flatMap _) = _
  rw [definitions, flatMap_shift places_shift]
  exact Duplicates.findings_shift (.empty "classDef") _

theorem directiveTargets_shift (chart : Flowchart) :
    directiveTargets (shift k chart) = shift k (directiveTargets chart) := by
  have nodeIds : (shift k chart).nodes.map (fun n => (n.id, n.position)) =
      shift k (chart.nodes.map fun n => (n.id, n.position)) := by
    refine map_shift ?_ chart.nodes
    intro n
    rfl
  have naming : ((shift k chart.directives).filter fun d => d.kind.namesNodes) =
      shift k (chart.directives.filter fun d => d.kind.namesNodes) := by
    refine filter_shift ?_ _
    intro d
    rfl
  have known : ∀ nodes subgraphs : List (Text × Position),
      ((References.empty "node").declareAll (shift k nodes)).declareAll (shift k subgraphs) =
        shift k (((References.empty "node").declareAll nodes).declareAll subgraphs) := by
    intro nodes subgraphs
    rw [← References.declareAll_shift, ← References.declareAll_shift]
    rfl
  unfold directiveTargets
  dsimp only
  rw [nodeIds, subgraphIds_shift, known]
  show ((shift k chart.directives).filter fun d => d.kind.namesNodes).flatMap _ = _
  rw [naming]
  refine flatMap_shift ?_ _
  intro d
  rw [shift_filterMap]
  simp only [← References.check_shift]
  rfl

end DiagramLint.Flowchart
