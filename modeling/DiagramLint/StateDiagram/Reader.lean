import DiagramLint.StateDiagram.Basic

/-!
Reading state diagrams. A note whose text is not in its own line goes on over the lines behind it;
it is put to the others at its end.
-/
namespace DiagramLint.StateDiagram

open Text

/-- What has been read of a state diagram. -/
structure Draft where
  direction : Option Direction := none
  states : List Declaration := []
  transitions : List Transition := []
  descriptions : List Description := []
  notes : List Note := []
  /-- The indices of the composite states that are not closed, the innermost first. -/
  stack : List Nat := []
  /-- The note whose text is being read. -/
  note : Option Note := none
  deriving DecidableEq, Repr

/-- The innermost composite state that is not closed. -/
def Draft.innermost? (d : Draft) : Option Declaration := d.stack.head?.bind fun i => d.states[i]?

/-- The id of the composite state around the next line. -/
def Draft.parent? (d : Draft) : Option Text := d.innermost?.map Declaration.id

/-! ### States -/

/-- The draft with one more state; a composite state begins. -/
def declare (d : Draft) (line : Line) (id : Text) (kind : StateKind) (description : Option Text) :
    Taken Draft :=
  if isIdentifier id then
    let state : Declaration := ⟨id, kind, description, d.parent?, line.position⟩
    take { d with
      states := d.states ++ [state]
      stack := if kind = .composite then d.states.length :: d.stack else d.stack }
  else .error (line.fail (.stateInvalid id))

/-- An id and the kind that a mark behind it gives. -/
def markedState? (t : Text) : Option (Text × StateKind) :=
  [StateKind.fork, .join, .choice].findSome? fun kind =>
    kind.mark?.bind fun mark => (dropEnd? mark.toList t).map fun id => (trim id, kind)

/-- A state with a mark. -/
def markedLine (d : Draft) (line : Line) : Taken Draft :=
  match (afterKeyword? "state" line.text).bind markedState? with
  | none => pass
  | some (id, kind) => declare d line id kind none

/-- The id of a state and its description, which stands in quotes in front of the word "as". -/
def stateParts (line : Line) (t : Text) : Except ParseError (Text × Option Text) :=
  match t with
  | '"' :: rest =>
    match cut? ['"'] rest with
    | none => .error (line.fail .stateTextUnclosed)
    | some (text, rest) =>
      match afterKeyword? "as" (trimStart rest) with
      | none => .error (line.fail .stateTextUnnamed)
      | some id => .ok (id, trimmed? text)
  | id => .ok (id, none)

/-- A state; an opening brace at the end makes it composite. -/
def stateLine (d : Draft) (line : Line) : Taken Draft :=
  match afterKeyword? "state" line.text with
  | none => pass
  | some rest =>
    let (rest, kind) := match dropEnd? ['{'] rest with
      | some before => (trimEnd before, StateKind.composite)
      | none => (rest, .simple)
    match stateParts line rest with
    | .error e => .error e
    | .ok (id, description) => declare d line id kind description

/-- The end of the innermost composite state. -/
def closeLine (d : Draft) (line : Line) : Taken Draft :=
  if line.text = ['}'] then
    match d.stack with
    | [] => .error (line.fail .compositeCloseStray)
    | _ :: stack => take { d with stack := stack }
  else pass

/-- A separator between the regions of a composite state. -/
def separatorLine (d : Draft) (line : Line) : Taken Draft :=
  if line.text = ['-', '-'] then
    if d.stack.isEmpty then .error (line.fail .separatorStray) else take d
  else pass

/-- A description of a state behind a colon. -/
def descriptionLine (d : Draft) (line : Line) : Taken Draft :=
  match headAndLabel line.text with
  | (_, none) => pass
  | (state, some text) =>
    if isIdentifier state then
      take { d with descriptions := d.descriptions ++ [⟨state, text, line.position⟩] }
    else pass

/-- A state that is only named. -/
def nameLine (d : Draft) (line : Line) : Taken Draft :=
  if isIdentifier line.text then declare d line line.text .simple none else pass

/-! ### Notes -/

/-- The side that a text begins with, and what follows. -/
def side? (t : Text) : Option (Side × Text) :=
  match dropStart? "left of".toList t with
  | some rest => some (.left, rest)
  | none => (dropStart? "right of".toList t).map fun rest => (.right, rest)

/-- A note, with its text behind a colon or on the lines behind it. -/
def noteLine (d : Draft) (line : Line) : Taken Draft :=
  match afterKeyword? "note" line.text with
  | none => pass
  | some rest =>
    match side? rest with
    | none => .error (line.fail .noteSideMissing)
    | some (side, rest) =>
      let (head, text) := headAndLabel rest
      let target := trim head
      if isIdentifier target then
        match text with
        | some text => take { d with notes := d.notes ++ [⟨side, target, text, line.position⟩] }
        | none => take { d with note := some ⟨side, target, [], line.position⟩ }
      else .error (line.fail (.stateNoteTargetInvalid target))

/-- The end of a note. -/
def endNoteLine (d : Draft) (line : Line) : Taken Draft :=
  if line.text = "end note".toList then
    take { d with notes := d.notes ++ d.note.toList, note := none }
  else pass

/-- A note with one more line of text. -/
def Note.addLine (n : Note) (t : Text) : Note :=
  { n with text := if n.text.isEmpty then t else n.text ++ '\n' :: t }

/-- A line of the text of a note. -/
def noteTextLine (d : Draft) (line : Line) : Taken Draft :=
  take { d with note := d.note.map fun n => n.addLine line.text }

/-! ### Transitions -/

/-- The end of a transition that a text names, or a fault of the line. -/
def endpoint (line : Line) (t : Text) : Except ParseError Endpoint :=
  if t = Endpoint.terminalMark then .ok .terminal
  else if isIdentifier t then .ok (.state t)
  else .error (line.fail (.transitionEndpointInvalid t))

/-- The transition between the texts before and after an arrow. -/
def transition (d : Draft) (line : Line) (before after : Text) (label : Option Text) :
    Except ParseError Transition := do
  let source ← endpoint line (trim before)
  let target ← endpoint line (trim after)
  .ok ⟨source, target, label, d.parent?, line.position⟩

/-- A transition, with a label behind a colon. -/
def transitionLine (d : Draft) (line : Line) : Taken Draft :=
  let (head, label) := headAndLabel line.text
  match cut? "-->".toList head with
  | none => pass
  | some (before, after) =>
    (transition d line before after (label.bind trimmed?)).map fun t =>
      some { d with transitions := d.transitions ++ [t] }

/-- A direction; the last one counts. -/
def directionLine (d : Draft) (line : Line) : Taken Draft :=
  match afterKeyword? "direction" line.text with
  | none => pass
  | some rest => (line.direction rest).map fun direction => some { d with direction := some direction }

/-! ### Diagrams -/

/-- The rules for the lines outside notes. -/
def outerRules : List (LineRule Draft) :=
  [⟨"pseudostate", markedLine⟩, ⟨"state", stateLine⟩, ⟨"\x7d", closeLine⟩, ⟨"note", noteLine⟩,
   ⟨"transition", transitionLine⟩, ⟨"direction", directionLine⟩, ⟨"--", separatorLine⟩,
   ⟨"description", descriptionLine⟩, ⟨"state id", nameLine⟩]

/-- The rules for the text of a note. -/
def noteRules : List (LineRule Draft) :=
  [⟨"end note", endNoteLine⟩, ⟨"note text", noteTextLine⟩]

/-- The rules for the next line. -/
def rules (d : Draft) : List (LineRule Draft) := if d.note.isSome then noteRules else outerRules

/-- The state diagram of a source. -/
def read (s : Source) : Except ParseError StateDiagram := do
  let (header, keyword, rest) ← s.headerWith ["stateDiagram-v2", "stateDiagram"]
  if rest.isEmpty then
    let kind := if keyword = "stateDiagram-v2" then Kind.stateV2 else Kind.state
    let d ← readLines rules {} s.body
    match d.note, d.innermost? with
    | some note, _ => .error ((Fault.noteUnclosed note.target).at note.position)
    | none, some composite =>
      .error ((Fault.compositeUnclosed composite.id).at composite.position)
    | none, none =>
      .ok ⟨s.header kind header, d.direction, d.states, d.transitions, d.descriptions, d.notes⟩
  else .error ((Fault.headerModifier keyword rest).at header.position)

end DiagramLint.StateDiagram
