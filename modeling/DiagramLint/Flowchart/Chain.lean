import DiagramLint.Flowchart.Basic
import DiagramLint.Text.Outside

/-!
Nodes and chains of edges as they are written in a statement. An arrow counts only outside quotes
and brackets, so that labels may hold arrows; each hop of a chain reads a shorter text than the hop
before it.
-/
namespace DiagramLint.Flowchart

open Text

/-! ### Nodes -/

/-- The brackets around the label of a shape. -/
structure Delimiters where
  start : Text
  finish : Text
  shape : Shape
  deriving DecidableEq, Repr

/-- The brackets of all shapes, the longer ones first. -/
def delimiters : List Delimiters :=
  [⟨['(', '('], [')', ')'], .circle⟩, ⟨['(', '['], [']', ')'], .stadium⟩,
   ⟨['[', '['], [']', ']'], .subroutine⟩, ⟨['[', '('], [')', ']'], .cylinder⟩,
   ⟨['{', '{'], ['}', '}'], .hexagon⟩, ⟨['>'], [']'], .asymmetric⟩, ⟨['['], [']'], .rectangle⟩,
   ⟨['('], [')'], .rounded⟩, ⟨['{'], ['}'], .rhombus⟩]

/-- A character that can begin the brackets of a shape. -/
def isDelimiter (c : Char) : Bool := c = '[' || c = '(' || c = '{' || c = '>'

/-- A text and the style class behind three colons, if there are any. -/
def splitClass (t : Text) : Text × Option Text :=
  match cut? [':', ':', ':'] t with
  | some (before, name) => (trim before, trimmed? name)
  | none => (t, none)

/-- A label in brackets and the shape that they give. -/
def outline? (t : Text) : Option (Option Text × Shape) :=
  delimiters.findSome? fun d =>
    (between? d.start d.finish t).map fun inner => (trimmed? (unquote (trim inner)), d.shape)

/-- A node: an id, alone or with a label in brackets behind it, and then a style class. -/
def node? (position : Position) (t : Text) : Option Node :=
  let (core, styleClass) := splitClass (trim t)
  match spanWhile (fun c => !isDelimiter c) core with
  | (_, []) => if isIdentifier core then some ⟨core, none, .plain, styleClass, position⟩ else none
  | (before, label) =>
    if isIdentifier (trimEnd before) then
      (outline? label).map fun (label, shape) =>
        ⟨trimEnd before, label, shape, styleClass, position⟩
    else none

/-! ### Arrows -/

/-- The arrows as they are written, of two that begin alike the longer one first. -/
def arrows : List (Text × Arrow) :=
  [("<-->".toList, .bidirectional), ("-.->".toList, .dottedArrow), ("-.-".toList, .dotted),
   ("==>".toList, .thickArrow), ("===".toList, .thick), ("-->".toList, .solidArrow),
   ("---".toList, .solid), ("--o".toList, .circle), ("--x".toList, .cross)]

/-- The arrow that begins a text, and what follows it. -/
def arrowStart? (t : Text) : Option (Arrow × Text) :=
  arrows.findSome? fun (written, arrow) => (dropStart? written t).map fun rest => (arrow, rest)

theorem length_of_arrowStart? {t rest : Text} {arrow : Arrow}
    (found : arrowStart? t = some (arrow, rest)) : rest.length < t.length := by
  obtain ⟨⟨written, a⟩, listed, step⟩ := List.exists_of_findSome?_eq_some found
  obtain ⟨r, start, same⟩ := Option.map_eq_some_iff.1 step
  simp only [Prod.mk.injEq] at same
  obtain ⟨_, rfl⟩ := same
  have filled : ∀ w ∈ arrows, 0 < w.1.length := by decide
  have := filled _ listed
  have whole := congrArg List.length (dropStart?_eq_some_iff.1 start)
  simp only [List.length_append] at whole this
  omega

/-- The text before the first arrow, the arrow, and the text behind it. -/
def cutArrow? (t : Text) : Option (Text × Arrow × Text) :=
  (cutWhere? (fun rest => (arrowStart? rest).isSome) .outermost t).bind fun (before, rest) =>
    (arrowStart? rest).map fun (arrow, rest) => (before, arrow, rest)

theorem length_of_cutArrow? {t before rest : Text} {arrow : Arrow}
    (found : cutArrow? t = some (before, arrow, rest)) : rest.length < t.length := by
  obtain ⟨⟨b, r⟩, place, step⟩ := Option.bind_eq_some_iff.1 found
  obtain ⟨⟨a, s⟩, start, same⟩ := Option.map_eq_some_iff.1 step
  simp only [Prod.mk.injEq] at same
  obtain ⟨rfl, rfl, rfl⟩ := same
  have shorter := length_of_arrowStart? start
  have whole := congrArg List.length (append_of_cutWhere? place)
  simp only [List.length_append] at whole
  omega

/-- What begins the text of an edge that stands before the arrow. -/
def textStarts : List Text := [" -- ".toList, " == ".toList, " -. ".toList]

/-- The node before an arrow and the text of the edge between them. -/
def nodeAndText (t : Text) : Text × Option Text :=
  match textStarts.findSome? fun opener => cutOutside? opener t with
  | some (before, text) => (trim before, trimmed? (unquote (trim text)))
  | none => (trim t, none)

/-- The label between two bars behind an arrow, and what follows it. -/
def splitBarLabel (t : Text) : Option Text × Text :=
  match (dropStart? ['|'] (trim t)).bind (cut? ['|']) with
  | some (label, rest) => (trimmed? (unquote (trim label)), trim rest)
  | none => (none, trim t)

theorem length_splitBarLabel_le (t : Text) : (splitBarLabel t).2.length ≤ t.length := by
  have trimmed := length_trim_le t
  rw [splitBarLabel]
  split
  · next label rest found =>
    obtain ⟨inner, start, close⟩ := Option.bind_eq_some_iff.1 found
    have opened := congrArg List.length (dropStart?_eq_some_iff.1 start)
    have closed := congrArg List.length (append_of_cut? close)
    have := length_trim_le rest
    simp only [List.length_append, List.length_cons, List.length_nil] at opened closed
    dsimp only
    omega
  · exact trimmed

/-! ### Chains -/

/-- An arrow of a chain with its label, and the node behind it. -/
structure Hop where
  arrow : Arrow
  label : Option Text
  node : Node
  deriving DecidableEq, Repr

/-- The hops of a chain whose first arrow, with the text before it, has been read. A label between
bars goes before the text of the edge. -/
def hops? (position : Position) (arrow : Arrow) (text : Option Text) (t : Text) :
    Option (List Hop) :=
  let (bar, rest) := splitBarLabel t
  let label := bar.or text
  match _h : cutArrow? (splitBarLabel t).2 with
  | none => (node? position rest).map fun node => [⟨arrow, label, node⟩]
  | some (before, nextArrow, after) => do
    let (target, nextText) := nodeAndText before
    let node ← node? position target
    let hops ← hops? position nextArrow nextText after
    some (⟨arrow, label, node⟩ :: hops)
termination_by t.length
decreasing_by
  exact Nat.lt_of_lt_of_le (length_of_cutArrow? (by assumption)) (length_splitBarLabel_le t)

/-- The first node of a chain and the hops behind it; a chain has at least one arrow. -/
def chain? (position : Position) (t : Text) : Option (Node × List Hop) := do
  let (before, arrow, rest) ← cutArrow? t
  let (source, text) := nodeAndText before
  let node ← node? position source
  let hops ← hops? position arrow text rest
  some (node, hops)

end DiagramLint.Flowchart
