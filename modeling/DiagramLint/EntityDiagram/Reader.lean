import DiagramLint.EntityDiagram.Basic

/-!
Reading entity-relationship diagrams. While the body of an entity is read its lines are attributes;
the entity is put to the others when its body is closed.
-/
namespace DiagramLint.EntityDiagram

open Text

/-- What has been read of an entity-relationship diagram. -/
structure Draft where
  direction : Option Direction := none
  entities : List Entity := []
  relationships : List Relationship := []
  /-- The entity whose body is being read. -/
  body : Option Entity := none
  deriving DecidableEq, Repr

/-! ### Entities -/

/-- The name of an entity and the label in square brackets behind it. -/
def nameAndLabel? (t : Text) : Option (Text × Option Text) :=
  let (name, label) := match cutBracketed? t with
    | some (before, label) => (trimEnd before, trimmed? (unquote (trim label)))
    | none => (t, none)
  if isIdentifier name then some (name, label) else none

/-- The entity with a body that a text names, or a fault of the line. -/
def bodiedEntity (line : Line) (head : Text) : Except ParseError Entity :=
  match nameAndLabel? head with
  | some (name, label) => .ok ⟨name, label, true, [], line.position⟩
  | none => .error (line.fail (.entityNameInvalid head))

/-- An entity with an empty body, or the beginning of a body. -/
def openLine (d : Draft) (line : Line) : Taken Draft :=
  match dropEnd? ['{', '}'] line.text with
  | some head =>
    (bodiedEntity line (trimEnd head)).map fun e => some { d with entities := d.entities ++ [e] }
  | none =>
    match dropEnd? ['{'] line.text with
    | some head => (bodiedEntity line (trimEnd head)).map fun e => some { d with body := some e }
    | none => pass

/-- An entity without a body. -/
def entityLine (d : Draft) (line : Line) : Taken Draft :=
  match nameAndLabel? line.text with
  | some (name, label) =>
    take { d with entities := d.entities ++ [⟨name, label, false, [], line.position⟩] }
  | none => pass

/-- A closing brace, where no body is open. -/
def strayCloseLine (_ : Draft) (line : Line) : Taken Draft :=
  if line.text = ['}'] then .error (line.fail .entityCloseStray) else pass

/-! ### Relationships -/

/-- Two entities with a connector between them, and a label behind a colon. -/
def relationshipLine (d : Draft) (line : Line) : Taken Draft :=
  let (head, label) := headAndLabel line.text
  match tokens head with
  | [left, word, right] =>
    match Connector.ofSymbol? word with
    | none => pass
    | some connector =>
      if isIdentifier left && isIdentifier right then
        let label := label.bind fun t => trimmed? (unquote t)
        take { d with
          relationships := d.relationships ++ [⟨left, right, connector, label, line.position⟩] }
      else .error (line.fail (.endpointsInvalid left right))
  | _ => pass

/-- A direction; the last one counts. -/
def directionLine (d : Draft) (line : Line) : Taken Draft :=
  match afterKeyword? "direction" line.text with
  | none => pass
  | some rest => (line.direction rest).map fun direction => some { d with direction := some direction }

/-- The rules for the lines outside bodies. -/
def outerRules : List (LineRule Draft) :=
  [⟨"entity body", openLine⟩, ⟨"relationship", relationshipLine⟩, ⟨"direction", directionLine⟩,
   ⟨"\x7d", strayCloseLine⟩, ⟨"entity", entityLine⟩]

/-! ### Attributes -/

/-- A text and the comment in double quotes at its end; a quote that ends the text must have another
one before it. -/
def splitComment? (t : Text) : Option (Text × Option Text) :=
  match dropEnd? ['"'] t with
  | none => some (t, none)
  | some rest => (cutLast? '"' rest).map fun (before, comment) => (trimEnd before, some comment)

/-- The name and the keys of an attribute; an asterisk before the name makes it a primary key. -/
def nameAndKeys (name : Text) (keys : List Text) : Text × List Text :=
  match name with
  | '*' :: name => (name, if keys.contains primaryKey then keys else primaryKey :: keys)
  | name => (name, keys)

/-- An attribute: its type, its name, keys with commas or blanks between them, and a comment. -/
def attribute? (line : Line) : Option Attribute :=
  (splitComment? line.text).bind fun (t, comment) =>
    match tokens t with
    | type :: name :: rest =>
      let keys := (rest.flatMap (pieces ',')).filterMap trimmed?
      let (name, keys) := nameAndKeys name keys
      if name.isEmpty then none else some ⟨type, name, keys, comment, line.position⟩
    | _ => none

/-- An attribute of the entity. -/
def attributeLine (d : Draft) (line : Line) : Taken Draft :=
  match attribute? line with
  | some a =>
    take { d with body := d.body.map fun e => { e with attributes := e.attributes ++ [a] } }
  | none => .error (line.fail .attributeMalformed)

/-- The end of the body. -/
def closeLine (d : Draft) (line : Line) : Taken Draft :=
  if line.text = ['}'] then
    take { d with entities := d.entities ++ d.body.toList, body := none }
  else pass

/-- The rules for the lines of a body. -/
def bodyRules : List (LineRule Draft) := [⟨"\x7d", closeLine⟩, ⟨"attribute", attributeLine⟩]

/-! ### Diagrams -/

/-- The rules for the next line. -/
def rules (d : Draft) : List (LineRule Draft) := if d.body.isSome then bodyRules else outerRules

/-- The direction in a header, which is written with "TB" if it goes down. -/
def headerDirection (line : Line) (rest : Text) : Except ParseError (Option Direction) :=
  match rest, Direction.ofName? rest with
  | [], _ => .ok none
  | _, some .topDown | _, none => .error ((Fault.headerModifier "erDiagram" rest).at line.position)
  | _, some d => .ok (some d)

/-- The entity-relationship diagram of a source. -/
def read (s : Source) : Except ParseError EntityDiagram := do
  let (header, _, rest) ← s.headerWith ["erDiagram"]
  let direction ← headerDirection header rest
  let d ← readLines rules { direction := direction } s.body
  match d.body with
  | some e => .error ((Fault.entityUnclosed e.name).at e.position)
  | none => .ok ⟨s.header .er header, d.direction, d.entities, d.relationships⟩

end DiagramLint.EntityDiagram
