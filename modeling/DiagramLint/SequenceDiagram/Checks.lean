import DiagramLint.Check.Duplicates
import DiagramLint.Check.References
import DiagramLint.SequenceDiagram.Basic

/-!
What can be wrong with a sequence diagram that was read. Participants need no declaration, but where
one is declared all must be. Activity is counted for each participant by itself: a deactivation
closes the last activation that is still without its deactivation.
-/
namespace DiagramLint.SequenceDiagram

open Text

/-- The declarations of participants. -/
def declarations (diagram : SequenceDiagram) : List (Text × Position) :=
  diagram.participants.map fun p => (p.id, p.position)

/-- Participants that are declared more than once. -/
def duplicateParticipants (diagram : SequenceDiagram) : List Finding :=
  (Duplicates.empty "participant").findings diagram.declarations

/-- The ends of a message, one end only if both are the same. -/
def Message.ends (m : Message) : List Text :=
  if m.receiver = m.sender then [m.sender] else [m.sender, m.receiver]

/-- Participants that are not declared, in a diagram that declares some. -/
def undeclaredParticipants (diagram : SequenceDiagram) : List Finding :=
  let declared := (References.empty "participant").declareAll diagram.declarations
  if declared.isEmpty then []
  else
    (diagram.messages.flatMap fun m =>
      m.ends.filterMap fun id => declared.check id m.position "message") ++
    (diagram.notes.flatMap fun n =>
      n.participants.filterMap fun id => declared.check id n.position "note") ++
    diagram.activations.filterMap fun a =>
      declared.check a.participant a.position
        (if a.active then "`activate`" else "`deactivate`")

/-- The activations that are not closed, participant by participant in the order of their first
change of activity; the last activation of a participant comes first. -/
abbrev Activity := List (Text × List Position)

namespace Activity

/-- The activity with the positions of one participant changed. -/
def update (participant : Text) (f : List Position → List Position) : Activity → Activity
  | [] => [(participant, f [])]
  | (name, positions) :: rest =>
    if name = participant then (name, f positions) :: rest
    else (name, positions) :: update participant f rest

/-- The activity after a change. -/
def step (s : Activity) (a : Activation) : Activity :=
  s.update a.participant fun positions =>
    if a.active then a.position :: positions else positions.tail

/-- A change that closes an activation closes one of its participant. -/
def isPaired (s : Activity) (a : Activation) : Bool :=
  a.active || (s.lookup a.participant).any fun positions => !positions.isEmpty

end Activity

/-- The finding for a deactivation that closes nothing. -/
def strayFinding (a : Activation) : Finding :=
  (((Finding.ofMessage .error s!"{quote a.participant} is deactivated but not active").withCode
    .e303).withLabel a.position "unpaired deactivate").withHelp
    "every deactivate must follow a matching activate"

/-- The finding for an activation that is not closed. -/
def pendingFinding (participant : Text) (position : Position) : Finding :=
  (((Finding.ofMessage .error s!"{quote participant} was activated but never deactivated").withCode
    .e303).withLabel position "unpaired activate").withHelp
    "every activate must have a corresponding deactivate"

/-- The findings about activity after some changes: deactivations that close nothing, and then for
each participant its last activation that is not closed. -/
def activityFindings (s : Activity) : List Activation → List Finding
  | [] => s.filterMap fun (name, positions) => positions.head?.map (pendingFinding name)
  | a :: rest =>
    (if s.isPaired a then [] else [strayFinding a]) ++ activityFindings (s.step a) rest

/-- Changes of activity without their counterparts. -/
def activationPairing (diagram : SequenceDiagram) : List Finding :=
  activityFindings [] diagram.activations

end DiagramLint.SequenceDiagram
