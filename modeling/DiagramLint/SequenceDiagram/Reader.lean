import DiagramLint.SequenceDiagram.Basic

/-!
Reading sequence diagrams.
-/
namespace DiagramLint.SequenceDiagram

open Text

/-- What has been read of a sequence diagram. -/
structure Draft where
  title : Option Text := none
  autonumber : Bool := false
  participants : List Participant := []
  messages : List Message := []
  notes : List Note := []
  activations : List Activation := []
  blocks : List Block := []
  /-- The indices of the blocks that are not closed, the innermost first. -/
  stack : List Nat := []
  deriving DecidableEq, Repr

/-- The innermost block that is not closed. -/
def Draft.innermost? (d : Draft) : Option Block := d.stack.head?.bind fun i => d.blocks[i]?

/-! ### Participants -/

/-- The kind of participant that a line declares, and what follows. -/
def participantKind? (t : Text) : Option (ParticipantKind × Text) :=
  match afterKeyword? "participant" t with
  | some rest => some (.participant, rest)
  | none => (afterKeyword? "actor" t).map fun rest => (.actor, rest)

/-- A declaration of a participant, with a label behind the word "as". -/
def participantLine (d : Draft) (line : Line) : Taken Draft :=
  match participantKind? line.text with
  | none => pass
  | some (kind, rest) =>
    let (id, label) := match cut? " as ".toList rest with
      | some (id, label) => (trim id, trimmed? label)
      | none => (rest, none)
    if isIdentifier id then
      take { d with participants := d.participants ++ [⟨kind, id, label, line.position⟩] }
    else .error (line.fail (.participantInvalid id))

/-- Whether a line activates or deactivates, and what follows. -/
def activity? (t : Text) : Option (Bool × Text) :=
  match afterKeyword? "activate" t with
  | some rest => some (true, rest)
  | none => (afterKeyword? "deactivate" t).map fun rest => (false, rest)

/-- A change of activity that has a line of its own. -/
def activationLine (d : Draft) (line : Line) : Taken Draft :=
  match activity? line.text with
  | none => pass
  | some (active, id) =>
    if isIdentifier id then
      take { d with activations := d.activations ++ [⟨id, active, line.position⟩] }
    else .error (line.fail .activationInvalid)

/-! ### Notes -/

/-- The placement that a text begins with, and what follows. -/
def placement? (t : Text) : Option (Placement × Text) :=
  match dropStart? "left of".toList t with
  | some rest => some (.leftOf, rest)
  | none =>
    match dropStart? "right of".toList t with
    | some rest => some (.rightOf, rest)
    | none => (afterKeyword? "over" t).map fun rest => (.over, rest)

/-- How many participants a note with the placement may have at most. -/
def Placement.limit : Placement → Nat
  | .over => 2
  | .leftOf | .rightOf => 1

/-- What follows the keyword of a note, which may begin with a capital letter. -/
def afterNote? (t : Text) : Option Text :=
  match afterKeyword? "note" t with
  | some rest => some rest
  | none => afterKeyword? "Note" t

/-- A note: its placement, its participants and, behind a colon, its text. -/
def noteLine (d : Draft) (line : Line) : Taken Draft :=
  match afterNote? line.text with
  | none => pass
  | some rest =>
    match placement? rest with
    | none => .error (line.fail .notePlacementMissing)
    | some (placement, rest) =>
      match headAndLabel rest with
      | (_, none) => .error (line.fail .noteTextMissing)
      | (targets, some text) =>
        let ids := (pieces ',' targets).map trim
        if ids.length ≤ placement.limit && ids.all isIdentifier then
          take { d with notes := d.notes ++ [⟨placement, ids, text, line.position⟩] }
        else .error (line.fail (.noteTargetInvalid (trim targets)))

/-! ### Blocks -/

/-- The beginning of a block. -/
def blockLine (d : Draft) (line : Line) : Taken Draft :=
  match BlockKind.all.findSome? fun k =>
      (afterKeyword? k.keyword line.text).map fun rest => (k, rest) with
  | none => pass
  | some (kind, rest) =>
    let block : Block :=
      ⟨kind, trimmed? rest, [], d.stack.length, line.position, line.position⟩
    take { d with blocks := d.blocks ++ [block], stack := d.blocks.length :: d.stack }

/-- The kind of block that a line continues, its keyword and what follows. -/
def continued? (t : Text) : Option (BlockKind × String × Text) :=
  BlockKind.all.findSome? fun kind =>
    kind.sectionKeyword?.bind fun keyword =>
      (afterKeyword? keyword t).map fun rest => (kind, keyword, rest)

/-- A further section of the innermost block, which must be of the kind that has it. -/
def sectionLine (d : Draft) (line : Line) : Taken Draft :=
  match continued? line.text with
  | none => pass
  | some (kind, keyword, rest) =>
    if d.innermost?.any fun b => b.kind = kind then
      let extend (b : Block) : Block :=
        { b with sections := b.sections ++ [⟨trimmed? rest, line.position⟩] }
      take { d with blocks := d.blocks.modify (d.stack.headD 0) extend }
    else .error (line.fail (.blockSectionStray keyword))

/-- The end of the innermost block. -/
def endLine (d : Draft) (line : Line) : Taken Draft :=
  if line.text = "end".toList then
    match d.stack with
    | [] => .error (line.fail .blockEndStray)
    | i :: stack =>
      let finish (b : Block) : Block := { b with finish := line.position }
      take { d with blocks := d.blocks.modify i finish, stack := stack }
  else pass

/-! ### Settings -/

/-- Messages are numbered. -/
def autonumberLine (d : Draft) (line : Line) : Taken Draft :=
  match afterKeyword? "autonumber" line.text with
  | none => pass
  | some _ => take { d with autonumber := true }

/-- A title; the last one counts. -/
def titleLine (d : Draft) (line : Line) : Taken Draft :=
  match afterKeywordColon? "title" line.text with
  | none => pass
  | some rest => take { d with title := trimmed? rest }

/-! ### Messages -/

/-- The arrows as they are written, of two that begin alike the longer one first. -/
def arrows : List (Text × Arrow) :=
  [("<<-->>".toList, ⟨true, .double⟩), ("<<->>".toList, ⟨false, .double⟩),
   ("-->>".toList, ⟨true, .arrow⟩), ("->>".toList, ⟨false, .arrow⟩),
   ("-->".toList, ⟨true, .bare⟩), ("--x".toList, ⟨true, .cross⟩), ("--)".toList, ⟨true, .async⟩),
   ("->".toList, ⟨false, .bare⟩), ("-x".toList, ⟨false, .cross⟩), ("-)".toList, ⟨false, .async⟩)]

/-- A receiver and the marker in front of it. -/
def splitMarker (t : Text) : Text × Option Marker :=
  match trim t with
  | '+' :: rest => (trimStart rest, some .activate)
  | '-' :: rest => (trimStart rest, some .deactivate)
  | rest => (rest, none)

/-- What a line says about a message in front of its text. -/
structure Route where
  sender : Text
  arrow : Arrow
  receiver : Text
  marker : Option Marker
  deriving DecidableEq, Repr

/-- The route made by an arrow with a text on either side, if both name participants. -/
def route? (before : Text) (arrow : Arrow) (after : Text) : Option Route :=
  let (receiver, marker) := splitMarker after
  if isIdentifier (trim before) && isIdentifier receiver then
    some ⟨trim before, arrow, receiver, marker⟩
  else none

/-- The route made by the first arrow that makes one, at one place by the longest; `seen` is the
text in front, last character first. As names may look like arrows, not every arrow makes a
route. -/
def routeFrom? (seen : Text) : Text → Option Route
  | [] => none
  | c :: t =>
    let here := arrows.findSome? fun (written, arrow) =>
      (dropStart? written (c :: t)).bind fun after => route? seen.reverse arrow after
    match here with
    | some route => some route
    | none => routeFrom? (c :: seen) t

/-- The change of activity that a message brings. -/
def Route.activation? (r : Route) (position : Position) : Option Activation :=
  r.marker.map fun
    | .activate => ⟨r.receiver, true, position⟩
    | .deactivate => ⟨r.sender, false, position⟩

/-- A message, with its text behind a colon. -/
def messageLine (d : Draft) (line : Line) : Taken Draft :=
  let (head, text) := headAndLabel line.text
  match routeFrom? [] head with
  | none => pass
  | some r =>
    let message : Message :=
      ⟨r.sender, r.receiver, r.arrow, r.marker, text.bind trimmed?, line.position⟩
    take { d with
      messages := d.messages ++ [message]
      activations := d.activations ++ (r.activation? line.position).toList }

/-! ### Diagrams -/

/-- The rules for the lines of a sequence diagram. -/
def rules : List (LineRule Draft) :=
  [⟨"participant", participantLine⟩, ⟨"activate", activationLine⟩, ⟨"note", noteLine⟩,
   ⟨"block", blockLine⟩, ⟨"block section", sectionLine⟩, ⟨"end", endLine⟩,
   ⟨"autonumber", autonumberLine⟩, ⟨"title", titleLine⟩, ⟨"message", messageLine⟩]

/-- The sequence diagram of a source. -/
def read (s : Source) : Except ParseError SequenceDiagram := do
  let header ← s.bareHeader "sequenceDiagram"
  let d ← readLines (fun _ => rules) {} s.body
  match d.innermost? with
  | some block => .error ((Fault.blockUnclosed block.kind.keyword).at block.position)
  | none =>
    .ok ⟨s.header .sequence header, d.title, d.autonumber, d.participants, d.messages, d.notes,
      d.activations, d.blocks⟩

end DiagramLint.SequenceDiagram
