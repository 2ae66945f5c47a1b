import DiagramLint.Flowchart.Chain

/-!
Reading flowcharts, statement by statement. A node may be written many times: it stands at its first
place, and later places add only the label or the style class that is still missing.
-/
namespace DiagramLint.Flowchart

open Text

/-- What has been read of a flowchart. -/
structure Draft where
  direction : Option Direction := none
  nodes : List Node := []
  edges : List Edge := []
  subgraphs : List Subgraph := []
  directives : List Directive := []
  /-- The indices of the subgraphs that are not closed, the innermost first. -/
  stack : List Nat := []
  deriving DecidableEq, Repr

/-- What a node at a later place adds to a node. A label comes with its shape. -/
def Node.fill (known later : Node) : Node :=
  let labelled :=
    if known.label.isNone && later.label.isSome then
      { known with label := later.label, shape := later.shape }
    else known
  { labelled with styleClass := known.styleClass.or later.styleClass }

/-- The nodes with one more place of a node. -/
def addPlace (node : Node) : List Node → List Node
  | [] => [node]
  | known :: rest =>
    if known.id = node.id then known.fill node :: rest else known :: addPlace node rest

namespace Draft

/-- The innermost subgraph that is not closed. -/
def innermost? (d : Draft) : Option Subgraph := d.stack.head?.bind fun i => d.subgraphs[i]?

/-- The draft with one more place of a node. -/
def addNode (d : Draft) (node : Node) : Draft := { d with nodes := addPlace node d.nodes }

/-- The draft with the hops of a chain from a node, whose own place is counted before each edge. -/
def addChain (d : Draft) (source : Node) : List Hop → Draft
  | [] => d.addNode source
  | hop :: hops =>
    let d := d.addNode source
    let edge : Edge := ⟨source.id, hop.node.id, hop.arrow, hop.label, source.position⟩
    addChain { d with edges := d.edges ++ [edge] } hop.node hops

end Draft

/-- The id and the title of a subgraph: a title in square brackets behind the id, or one text for
both. -/
def subgraphName (t : Text) : Text × Option Text :=
  match cutBracketed? t with
  | some (id, title) => (trim id, trimmed? (unquote (trim title)))
  | none => (unquote t, some (unquote t))

/-- The beginning of a subgraph. -/
def subgraphLine (d : Draft) (line : Line) : Taken Draft :=
  match afterKeyword? "subgraph" line.text with
  | none => pass
  | some [] => .error (line.fail .subgraphUnnamed)
  | some rest =>
    let (id, title) := subgraphName rest
    let subgraph : Subgraph := ⟨id, title, d.innermost?.map Subgraph.id, none, line.position⟩
    take { d with
      subgraphs := d.subgraphs ++ [subgraph]
      stack := d.subgraphs.length :: d.stack }

/-- The end of the innermost subgraph. -/
def endLine (d : Draft) (line : Line) : Taken Draft :=
  if line.text = "end".toList then
    match d.stack with
    | [] => .error (line.fail .subgraphEndStray)
    | _ :: stack => take { d with stack := stack }
  else pass

/-- The direction of the innermost subgraph, or of the whole chart. -/
def directionLine (d : Draft) (line : Line) : Taken Draft :=
  match afterKeyword? "direction" line.text with
  | none => pass
  | some rest =>
    (line.direction rest).map fun direction =>
      match d.stack with
      | [] => some { d with direction := some direction }
      | i :: _ =>
        let turn (s : Subgraph) : Subgraph := { s with direction := some direction }
        some { d with subgraphs := d.subgraphs.modify i turn }

/-- A directive: targets with commas between them, and a value behind the first blank. -/
def directiveLine (kind : DirectiveKind) (d : Draft) (line : Line) : Taken Draft :=
  match afterKeyword? kind.keyword line.text with
  | none => pass
  | some rest =>
    let (targets, value) := match cutBlank? rest with
      | some (targets, value) => (targets, trim value)
      | none => (rest, [])
    if targets.isEmpty || value.isEmpty then
      .error (line.fail (.directiveIncomplete kind.keyword))
    else
      let names := (pieces ',' targets).filterMap trimmed?
      take { d with directives := d.directives ++ [⟨kind, names, value, line.position⟩] }

/-- The rule for a kind of directive. -/
def directiveRule (kind : DirectiveKind) : LineRule Draft := ⟨kind.keyword, directiveLine kind⟩

/-- A chain of edges. -/
def edgeLine (d : Draft) (line : Line) : Taken Draft :=
  match chain? line.position line.text with
  | none => pass
  | some (node, hops) => take (d.addChain node hops)

/-- A node on its own. -/
def nodeLine (d : Draft) (line : Line) : Taken Draft :=
  match node? line.position line.text with
  | none => pass
  | some node => take (d.addNode node)

/-- The rules for the statements of a flowchart. -/
def rules : List (LineRule Draft) :=
  [⟨"subgraph", subgraphLine⟩, ⟨"end", endLine⟩, ⟨"direction", directionLine⟩,
   directiveRule .classDef, directiveRule .styleClass, directiveRule .style,
   directiveRule .linkStyle, directiveRule .click, ⟨"edge", edgeLine⟩, ⟨"node", nodeLine⟩]

/-- The statements of a line, each as a line of its own at the place of the line. -/
def statementLines (line : Line) : List Line :=
  (statements line.text).map fun t => { line with text := t }

/-- The direction in a header, which may stand before semicolons. -/
def headerDirection (line : Line) (keyword : String) (rest : Text) :
    Except ParseError (Option Direction) :=
  match trim (dropTrailing ';' rest) with
  | [] => .ok none
  | word =>
    match Direction.ofName? word with
    | some d => .ok (some d)
    | none => .error ((Fault.headerModifier keyword word).at line.position)

/-- The flowchart of a source. -/
def read (s : Source) : Except ParseError Flowchart := do
  let (header, keyword, rest) ← s.headerWith ["flowchart", "graph"]
  let direction ← headerDirection header keyword rest
  let d ← readLines (fun _ => rules) { direction := direction } (s.body.flatMap statementLines)
  match d.innermost? with
  | some subgraph => .error ((Fault.subgraphUnclosed subgraph.id).at subgraph.position)
  | none =>
    let kind := if keyword = "graph" then Kind.graph else Kind.flowchart
    .ok ⟨s.header kind header, d.direction, d.nodes, d.edges, d.subgraphs, d.directives⟩

end DiagramLint.Flowchart
