import DiagramLint.Check.Duplicates
import DiagramLint.LineRule

/-!
Mindmaps. The tree comes from the indentation: a node belongs to the nearest node above it that is
indented less, and only the first node belongs to none. Lines that decorate belong to the node above
them.
-/
namespace DiagramLint

open Text

namespace Mindmap

/-- The outline of a node. -/
inductive Shape where
  | plain | square | rounded | circle | bang | cloud | hexagon
  deriving DecidableEq, Repr

/-- A node without its children. -/
structure Node where
  id : Option Text
  text : Text
  shape : Shape
  icon : Option Text
  styleClass : Option Text
  /-- The width of the indentation of its line. -/
  indent : Nat
  position : Position
  deriving DecidableEq, Repr

/-- A node with the trees below it. -/
inductive Tree where
  | node (value : Node) (children : List Tree)
  deriving Repr

namespace Tree

mutual

/-- The nodes of a tree, each before the nodes below it. -/
def preorder : Tree → List Node
  | .node value children => value :: preorderAll children

/-- The nodes of some trees, tree by tree. -/
def preorderAll : List Tree → List Node
  | [] => []
  | tree :: trees => preorder tree ++ preorderAll trees

end

end Tree

end Mindmap

/-- A mindmap. -/
structure Mindmap where
  header : Header
  root : Mindmap.Tree
  deriving Repr

namespace Mindmap

/-- A node with the trees that are finished below it so far. -/
structure Branch where
  node : Node
  children : List Tree
  deriving Repr

/-- The tree of a branch that gets no more children. -/
def Branch.tree (b : Branch) : Tree := .node b.node b.children

/-- The branches from the last node up to the root. -/
abbrev Draft := List Branch

/-- The delimiters of a shape. -/
structure Delimiters where
  start : Text
  finish : Text
  shape : Shape
  deriving DecidableEq, Repr

/-- The delimiters of all shapes, the longer ones first. -/
def delimiters : List Delimiters :=
  [⟨['(', '('], [')', ')'], .circle⟩, ⟨[')', ')'], ['(', '('], .bang⟩,
   ⟨['{', '{'], ['}', '}'], .hexagon⟩, ⟨['('], [')'], .rounded⟩, ⟨[')'], ['('], .cloud⟩,
   ⟨['['], [']'], .square⟩]

/-- What a line says about its node: the id, the text and the shape. -/
structure Caption where
  id : Option Text
  text : Text
  shape : Shape
  deriving DecidableEq, Repr

/-- An optional id and a text between the delimiters. -/
def caption? (t : Text) (d : Delimiters) : Option Caption :=
  match cut? d.start t with
  | none => none
  | some (id, rest) =>
    match dropEnd? d.finish rest with
    | none => none
    | some inner =>
      if id.isEmpty then some ⟨none, trim inner, d.shape⟩
      else if isIdentifier id then some ⟨some id, trim inner, d.shape⟩
      else none

/-- What a line says about its node; a line without delimiters is all text. -/
def caption (t : Text) : Caption := (delimiters.findSome? (caption? t)).getD ⟨none, t, .plain⟩

/-- The draft with the last node changed, if there is a node. -/
def decorate (d : Draft) (line : Line) (f : Node → Node) : Taken Draft :=
  match d with
  | [] => .error (line.fail .decorationStray)
  | top :: rest => take ({ top with node := f top.node } :: rest)

/-- An icon for the last node. -/
def iconLine (d : Draft) (line : Line) : Taken Draft :=
  match between? "::icon(".toList [')'] line.text with
  | none => pass
  | some icon => decorate d line fun n => { n with icon := trimmed? icon }

/-- A style class for the last node. -/
def classLine (d : Draft) (line : Line) : Taken Draft :=
  match dropStart? ":::".toList line.text with
  | none => pass
  | some name => decorate d line fun n => { n with styleClass := trimmed? name }

/-- The draft in which the branches that a node of the indentation ends are finished; the root is
never finished. -/
def closeTo (indent : Nat) : Draft → Draft
  | [] => []
  | [root] => [root]
  | top :: parent :: rest =>
    if indent ≤ top.node.indent then
      closeTo indent ({ parent with children := parent.children ++ [top.tree] } :: rest)
    else top :: parent :: rest
termination_by d => d.length

/-- A node; every line is taken for one. -/
def nodeLine (d : Draft) (line : Line) : Taken Draft :=
  let caption := caption line.text
  let node : Node :=
    ⟨caption.id, caption.text, caption.shape, none, none, line.indent, line.position⟩
  match closeTo line.indent d with
  | [root] =>
    if line.indent ≤ root.node.indent then .error (line.fail (.rootRepeated caption.text))
    else take [⟨node, []⟩, root]
  | branches => take (⟨node, []⟩ :: branches)

/-- The rules for the lines of a mindmap. -/
def rules : List (LineRule Draft) :=
  [⟨"::icon", iconLine⟩, ⟨":::class", classLine⟩, ⟨"node", nodeLine⟩]

/-- The tree of a draft in which every branch is finished. -/
def tree? : Draft → Option Tree
  | [] => none
  | [root] => some root.tree
  | top :: parent :: rest =>
    tree? ({ parent with children := parent.children ++ [top.tree] } :: rest)
termination_by d => d.length

/-- The mindmap of a source. -/
def read (s : Source) : Except ParseError Mindmap := do
  let header ← s.bareHeader "mindmap"
  let draft ← readLines (fun _ => rules) [] s.body
  match tree? draft with
  | some root => .ok ⟨s.header .mindmap header, root⟩
  | none => .error (Fault.rootMissing.at header.position)

/-- The nodes of the map, each before the nodes below it. -/
def nodes (m : Mindmap) : List Node := m.root.preorder

/-- Nodes with an id that an earlier node has. -/
def duplicateIds (m : Mindmap) : List Finding :=
  (Duplicates.empty "node id").findings
    (m.nodes.filterMap fun n => n.id.map fun id => (id, n.position))

end Mindmap
end DiagramLint
