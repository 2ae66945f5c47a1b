import DiagramLint.C4Diagram.Basic

/-!
Calls: a keyword with arguments between parentheses. Arguments fill the slots of a layout in order,
but one that is written with a key fills the slot of that name; of two that fill one slot the last
one counts.
-/
namespace DiagramLint.C4Diagram

open Text

/-- A call as it is written. -/
structure Call where
  name : Text
  arguments : List Text
  /-- A brace behind it begins a body. -/
  hasBody : Bool
  deriving DecidableEq, Repr

/-- A character of keywords. -/
def isNameChar (c : Char) : Bool := isAlphanumeric c || c = '_'

/-- The name of a call, and what follows its opening parenthesis. -/
def callStart? (t : Text) : Option (Text × Text) :=
  let (name, rest) := spanWhile isNameChar t
  match rest.dropWhile fun c => c = ' ' || c = '\t' with
  | '(' :: rest => if name.isEmpty then none else some (name, rest)
  | _ => none

/-- The call in a line; `braceBelow` says whether the next line is an opening brace. -/
def call (line : Line) (braceBelow : Bool) : Except ParseError Call :=
  let (t, hasBody) := match dropEnd? ['{'] line.text with
    | some before => (trimEnd before, true)
    | none => (line.text, braceBelow)
  match callStart? t with
  | none => .error (line.fail (.callExpected line.text))
  | some (name, rest) =>
    match dropEnd? [')'] (trimEnd rest) with
    | none => .error (line.fail (.callUnclosed name))
    | some inner =>
      match fields inner with
      | .error e => .error (line.fail (.fieldsMalformed e))
      | .ok arguments => .ok ⟨name, arguments, hasBody⟩

/-! ### Slots -/

/-- What an argument can stand for. -/
inductive Slot where
  | id | source | target | label | type | technology | description | sprite | tags | link
  deriving DecidableEq, Repr

/-- The key of a slot. -/
def Slot.key : Slot → String
  | .id => "id"
  | .source => "from"
  | .target => "to"
  | .label => "label"
  | .type => "type"
  | .technology => "techn"
  | .description => "descr"
  | .sprite => "sprite"
  | .tags => "tags"
  | .link => "link"

/-- The slots of a call in order. -/
abbrev Layout := List Slot

/-- The slots of an element. -/
def ElementKind.layout (kind : ElementKind) : Layout :=
  if kind.isNode then [.id, .label, .type, .description, .sprite, .tags, .link]
  else if kind.namesTechnology then [.id, .label, .technology, .description, .sprite, .tags, .link]
  else [.id, .label, .description, .sprite, .tags, .link]

/-- The slots of a boundary. -/
def BoundaryKind.layout : BoundaryKind → Layout
  | .plain => [.id, .label, .type, .tags, .link]
  | .deploymentNode | .node => [.id, .label, .type, .description, .sprite, .tags, .link]
  | .enterprise | .system | .container => [.id, .label, .tags, .link]

/-- The slots of a relationship. -/
def relationshipLayout : Layout :=
  [.source, .target, .label, .technology, .description, .sprite, .tags, .link]

/-- A key behind a dollar sign and the value behind an equals sign. -/
def keyed? (argument : Text) : Option (Text × Text) :=
  (dropStart? ['$'] argument).bind fun rest =>
    (cut? ['='] rest).map fun (key, value) => (trim key, unquote (trim value))

/-- The values of slots in the order of the arguments. -/
abbrev Bindings := List (Slot × Option Text)

/-- The values that the arguments of a call give to the slots of a layout; `free` are the slots that
are left for arguments without a key. -/
def bindings (call : Call) (layout free : Layout) : List Text → Except Fault Bindings
  | [] => .ok []
  | argument :: rest =>
    match keyed? argument with
    | some (key, value) =>
      match layout.find? fun slot => slot.key.toList == key with
      | some slot => (bindings call layout free rest).map ((slot, trimmed? value) :: ·)
      | none => .error (.parameterUnknown call.name key)
    | none =>
      match free with
      | [] => .error (.argumentsExcessive call.name layout.length call.arguments.length)
      | slot :: free => (bindings call layout free rest).map ((slot, trimmed? argument) :: ·)

/-- The values that a call gives to the slots of a layout, or a fault of the line. -/
def Call.bind (call : Call) (line : Line) (layout : Layout) : Except ParseError Bindings :=
  (bindings call layout layout call.arguments).mapError line.fail

namespace Bindings

/-- The last value given to a slot. -/
def value? (b : Bindings) (slot : Slot) : Option Text := (b.reverse.lookup slot).join

/-- The value of a slot that must have one. -/
def require (b : Bindings) (line : Line) (slot : Slot) : Except ParseError Text :=
  match b.value? slot with
  | some t => .ok t
  | none => .error (line.fail (.argumentMissing slot.key))

/-- The details among the values. -/
def details (b : Bindings) : Details :=
  ⟨b.value? .label, b.value? .description, b.value? .sprite, b.value? .tags, b.value? .link⟩

end Bindings

/-! ### What calls make -/

/-- The element that a call makes. -/
def Call.element (call : Call) (line : Line) (kind : ElementKind) : Except ParseError Element := do
  let b ← call.bind line kind.layout
  let id ← b.require line .id
  let technology := if kind.isNode then b.value? .type else b.value? .technology
  .ok ⟨kind, id, technology, b.details, line.position⟩

/-- The frame of the boundary that a call makes. -/
def Call.frame (call : Call) (line : Line) (kind : BoundaryKind) : Except ParseError Frame := do
  let b ← call.bind line kind.layout
  let id ← b.require line .id
  .ok ⟨kind, id, b.value? .type, b.details, line.position⟩

/-- The relationship that a call makes. -/
def Call.relationship (call : Call) (line : Line) (kind : RelationshipKind) :
    Except ParseError Relationship := do
  let b ← call.bind line relationshipLayout
  let source ← b.require line .source
  let target ← b.require line .target
  .ok ⟨kind, source, target, b.value? .technology, b.details, line.position⟩

/-- The property that holds the name of a tag. -/
def tagName : Text := "tagStereo".toList

/-- The style with one more argument. Arguments without a key are targets as long as targets are
missing; the first argument of a tag may be its name. -/
def Style.addArgument (style : Style) (call : Call) (argument : Text) : Except Fault Style :=
  match keyed? argument with
  | some property => .ok { style with properties := style.properties ++ [property] }
  | none =>
    if style.targets.length < style.kind.targetCount then
      .ok { style with targets := style.targets ++ [argument] }
    else if style.kind.isTag && style.properties.isEmpty then
      .ok { style with properties := [(tagName, argument)] }
    else .error (.argumentUnexpected argument call.name)

/-- The style that a call makes. -/
def Call.style (call : Call) (line : Line) (kind : StyleKind) : Except ParseError Style := do
  let style ← (call.arguments.foldlM (fun (s : Style) argument => s.addArgument call argument)
    ⟨kind, [], [], line.position⟩).mapError line.fail
  if style.targets.length < kind.targetCount then
    .error (line.fail (.targetsMissing call.name kind.targetCount style.targets.length))
  else .ok style

end DiagramLint.C4Diagram
