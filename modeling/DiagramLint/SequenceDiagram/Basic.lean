import DiagramLint.LineRule

/-!
Sequence diagrams: messages between participants, notes beside them, the times at which participants
are active, and blocks around messages.
-/
namespace DiagramLint

namespace SequenceDiagram

/-- How a participant is drawn. -/
inductive ParticipantKind where
  | participant | actor
  deriving DecidableEq, Repr

/-- A participant that is declared. -/
structure Participant where
  kind : ParticipantKind
  id : Text
  label : Option Text
  position : Position
  deriving DecidableEq, Repr

/-- What stands at the end of an arrow; a double arrow has two ends. -/
inductive ArrowHead where
  | bare | arrow | cross | async | double
  deriving DecidableEq, Repr

/-- The arrow of a message. -/
structure Arrow where
  dotted : Bool
  head : ArrowHead
  deriving DecidableEq, Repr

/-- What a message does to the activity of its ends. -/
inductive Marker where
  /-- The receiver becomes active. -/
  | activate
  /-- The sender stops being active. -/
  | deactivate
  deriving DecidableEq, Repr

/-- A message. -/
structure Message where
  sender : Text
  receiver : Text
  arrow : Arrow
  marker : Option Marker
  text : Option Text
  position : Position
  deriving DecidableEq, Repr

/-- Where a note stands. -/
inductive Placement where
  | leftOf | rightOf | over
  deriving DecidableEq, Repr

/-- A note beside a participant, or over one or two. -/
structure Note where
  placement : Placement
  participants : List Text
  text : Text
  position : Position
  deriving DecidableEq, Repr

/-- A participant becomes active or stops being active. -/
structure Activation where
  participant : Text
  active : Bool
  position : Position
  deriving DecidableEq, Repr

/-- What a block says about the messages in it. -/
inductive BlockKind where
  | loop | alternatives | optional | parallel | critical | breaking | rectangle
  deriving DecidableEq, Repr

namespace BlockKind

/-- Every kind of block. -/
def all : List BlockKind :=
  [.loop, .alternatives, .optional, .parallel, .critical, .breaking, .rectangle]

/-- The keyword that begins a block. -/
def keyword : BlockKind → String
  | .loop => "loop"
  | .alternatives => "alt"
  | .optional => "opt"
  | .parallel => "par"
  | .critical => "critical"
  | .breaking => "break"
  | .rectangle => "rect"

/-- The keyword that begins a further section of a block, for the kinds that have sections. -/
def sectionKeyword? : BlockKind → Option String
  | .alternatives => some "else"
  | .parallel => some "and"
  | .critical => some "option"
  | _ => none

end BlockKind

/-- A further section of a block. -/
structure BlockSection where
  label : Option Text
  position : Position
  deriving DecidableEq, Repr

/-- A block around messages. -/
structure Block where
  kind : BlockKind
  label : Option Text
  sections : List BlockSection
  /-- The number of blocks around it. -/
  depth : Nat
  position : Position
  /-- The position of the line that ends it. -/
  finish : Position
  deriving DecidableEq, Repr

end SequenceDiagram

/-- A sequence diagram. -/
structure SequenceDiagram where
  header : Header
  title : Option Text
  autonumber : Bool
  participants : List SequenceDiagram.Participant
  messages : List SequenceDiagram.Message
  notes : List SequenceDiagram.Note
  activations : List SequenceDiagram.Activation
  /-- In the order in which they begin. -/
  blocks : List SequenceDiagram.Block
  deriving DecidableEq, Repr

end DiagramLint
