import DiagramLint.Proofs.Offset.Checks
import DiagramLint.Proofs.Offset.LineRule
import DiagramLint.SequenceDiagram.Checks
import DiagramLint.SequenceDiagram.Reader

/-!
Sequence diagrams further down in a document.
-/
namespace DiagramLint.SequenceDiagram

open Text
open Placed (shift)

variable {k : Move}

instance : Placed Participant := ⟨fun k p => { p with position := shift k p.position }⟩

instance : Placed Message := ⟨fun k m => { m with position := shift k m.position }⟩

instance : Placed Note := ⟨fun k n => { n with position := shift k n.position }⟩

instance : Placed Activation := ⟨fun k a => { a with position := shift k a.position }⟩

instance : Placed BlockSection := ⟨fun k s => { s with position := shift k s.position }⟩

instance : Placed Block where
  shift k b :=
    { b with
      sections := shift k b.sections
      position := shift k b.position
      finish := shift k b.finish }

instance : Placed SequenceDiagram where
  shift k diagram :=
    { diagram with
      header := shift k diagram.header
      participants := shift k diagram.participants
      messages := shift k diagram.messages
      notes := shift k diagram.notes
      activations := shift k diagram.activations
      blocks := shift k diagram.blocks }

instance : Placed Draft where
  shift k d :=
    { d with
      participants := shift k d.participants
      messages := shift k d.messages
      notes := shift k d.notes
      activations := shift k d.activations
      blocks := shift k d.blocks }

theorem innermost?_shift (d : Draft) : (shift k d).innermost? = shift k d.innermost? := by
  unfold Draft.innermost?
  show d.stack.head?.bind (fun i => (shift k d.blocks)[i]?) = _
  cases d.stack.head? with
  | none => rfl
  | some i => exact getElem?_shift d.blocks i

/-! ### Lines -/

theorem participantLine_moves : Moves k participantLine := by
  intro d line
  unfold participantLine
  rw [text_shift]
  split
  · rfl
  · dsimp only
    rw [apply_ite (shift k)]
    congr 1
    symm
    exact congrArg (fun participants => take { shift k d with participants := participants })
      (shift_append d.participants _)

theorem activationLine_moves : Moves k activationLine := by
  intro d line
  unfold activationLine
  rw [text_shift]
  split
  · rfl
  · split
    · symm
      exact congrArg (fun activations => take { shift k d with activations := activations })
        (shift_append d.activations _)
    · rfl

theorem noteLine_moves : Moves k noteLine := by
  intro d line
  unfold noteLine
  rw [text_shift]
  split
  · rfl
  · split
    · rfl
    · split
      · rfl
      · dsimp only
        split
        · symm
          exact congrArg (fun notes => take { shift k d with notes := notes }) (shift_append d.notes _)
        · rfl

theorem blockLine_moves : Moves k blockLine := by
  intro d line
  unfold blockLine
  rw [text_shift]
  split
  · rfl
  · have places : (shift k d).blocks.length = d.blocks.length := length_shift d.blocks
    dsimp only
    rw [places]
    symm
    exact congrArg (fun blocks => take { shift k d with blocks := blocks, stack := d.blocks.length :: d.stack })
      (shift_append d.blocks _)

theorem sectionLine_moves : Moves k sectionLine := by
  intro d line
  unfold sectionLine
  rw [text_shift, innermost?_shift]
  split
  · rfl
  · next kind keyword rest _ =>
    have same_kind : ((shift k d.innermost?).any fun b => b.kind = kind) = d.innermost?.any fun b => b.kind = kind := by
      cases d.innermost? with
      | none => rfl
      | some b => rfl
    rw [same_kind]
    split
    · refine congrArg (fun blocks => take { shift k d with blocks := blocks }) (modify_shift ?_ d.blocks _)
      intro b
      symm
      exact congrArg (fun sections => { shift k b with sections := sections }) (shift_append b.sections _)
    · rfl

theorem endLine_moves : Moves k endLine := by
  intro d line
  unfold endLine
  rw [text_shift]
  split
  · have stack : (shift k d).stack = d.stack := rfl
    rw [stack]
    cases d.stack with
    | nil => rfl
    | cons i stack =>
      refine congrArg (fun blocks => take { shift k d with blocks := blocks, stack := stack })
        (modify_shift ?_ d.blocks i)
      intro b
      rfl
  · rfl

theorem autonumberLine_moves : Moves k autonumberLine := by
  intro d line
  unfold autonumberLine
  rw [text_shift]
  split
  · rfl
  · rfl

theorem titleLine_moves : Moves k titleLine := by
  intro d line
  unfold titleLine
  rw [text_shift]
  split
  · rfl
  · rfl

theorem activation?_shift (r : Route) (position : Position) :
    r.activation? (shift k position) = shift k (r.activation? position) := by
  unfold Route.activation?
  cases r.marker with
  | none => rfl
  | some marker =>
    cases marker with
    | activate => rfl
    | deactivate => rfl

theorem messageLine_moves : Moves k messageLine := by
  intro d line
  unfold messageLine
  rw [text_shift]
  dsimp only
  split
  · rfl
  · next r _ =>
    rw [position_shift, activation?_shift, toList_shift]
    have changed : shift k (d.activations ++ (r.activation? line.position).toList) =
        shift k d.activations ++ shift k (r.activation? line.position).toList := shift_append ..
    symm
    exact congrArg₂ (fun messages activations => take { shift k d with messages := messages, activations := activations })
      (shift_append d.messages _) changed

theorem rules_move (_ : Draft) : ∀ rule ∈ rules, Moves k rule.read := by
  simp only [rules, List.forall_mem_cons]
  exact ⟨participantLine_moves, activationLine_moves, noteLine_moves, blockLine_moves, sectionLine_moves,
    endLine_moves, autonumberLine_moves, titleLine_moves, messageLine_moves, nofun⟩

/-- A sequence diagram is read further down as it is read. -/
theorem read_shift (s : Source) : read (shift k s) = shift k (read s) := by
  refine bareRead_shift rules_move (fun _ => rfl) rfl ?_ "sequenceDiagram" s
  intro header d
  rw [innermost?_shift]
  cases d.innermost? with
  | some block => rfl
  | none => rfl

/-! ### Checks -/

theorem declarations_shift (diagram : SequenceDiagram) :
    (shift k diagram).declarations = shift k diagram.declarations := by
  refine map_shift ?_ diagram.participants
  intro p
  rfl

theorem duplicateParticipants_shift (diagram : SequenceDiagram) :
    duplicateParticipants (shift k diagram) = shift k (duplicateParticipants diagram) := by
  unfold duplicateParticipants
  rw [declarations_shift]
  exact Duplicates.findings_shift (.empty "participant") _

theorem undeclaredParticipants_shift (diagram : SequenceDiagram) :
    undeclaredParticipants (shift k diagram) = shift k (undeclaredParticipants diagram) := by
  have declared : (References.empty "participant").declareAll (shift k diagram.declarations) =
      shift k ((References.empty "participant").declareAll diagram.declarations) :=
    References.declareAll_shift (.empty "participant") _
  unfold undeclaredParticipants
  dsimp only
  rw [declarations_shift, declared, References.isEmpty_shift]
  generalize (References.empty "participant").declareAll diagram.declarations = declared
  split
  · rfl
  · rw [shift_append, shift_append]
    congr 1
    · congr 1
      · refine flatMap_shift ?_ diagram.messages
        intro m
        rw [shift_filterMap]
        simp only [← References.check_shift]
        rfl
      · refine flatMap_shift ?_ diagram.notes
        intro n
        rw [shift_filterMap]
        simp only [← References.check_shift]
        rfl
    · refine filterMap_shift ?_ diagram.activations
      intro a
      exact References.check_shift ..

namespace Activity

theorem update_shift {f g : List Position → List Position} (moves : ∀ positions, g (shift k positions) = shift k (f positions))
    (participant : Text) (s : Activity) : update participant g (shift k s) = shift k (update participant f s) := by
  induction s with
  | nil =>
    show [(participant, g (shift k []))] = [(participant, shift k (f []))]
    rw [moves]
  | cons entry rest ih =>
    obtain ⟨name, positions⟩ := entry
    show (if name = participant then (name, g (shift k positions)) :: shift k rest
      else (name, shift k positions) :: update participant g (shift k rest)) =
      shift k (if name = participant then (name, f positions) :: rest
        else (name, positions) :: update participant f rest)
    rw [ih, moves]
    split
    · rfl
    · rfl

theorem step_shift (s : Activity) (a : Activation) : (shift k s).step (shift k a) = shift k (s.step a) := by
  refine update_shift ?_ a.participant s
  intro positions
  show (if a.active then _ else _) = shift k (if a.active then _ else _)
  split
  · rfl
  · exact List.map_tail.symm

theorem isPaired_shift (s : Activity) (a : Activation) : (shift k s).isPaired (shift k a) = s.isPaired a := by
  unfold isPaired
  show (a.active || (List.lookup a.participant (shift k s)).any _) = _
  rw [lookup_shift]
  cases s.lookup a.participant with
  | none => rfl
  | some positions =>
    show (a.active || !(shift k positions).isEmpty) = _
    rw [isEmpty_shift]
    rfl

end Activity

theorem activityFindings_shift (s : Activity) (changes : List Activation) :
    activityFindings (shift k s) (shift k changes) = shift k (activityFindings s changes) := by
  induction changes generalizing s with
  | nil =>
    refine filterMap_shift ?_ s
    rintro ⟨name, positions⟩
    cases positions with
    | nil => rfl
    | cons position positions => rfl
  | cons a rest ih =>
    rw [shift_cons]
    unfold activityFindings
    rw [Activity.isPaired_shift, Activity.step_shift, ih, shift_append]
    congr 1
    split
    · rfl
    · rfl

theorem activationPairing_shift (diagram : SequenceDiagram) :
    activationPairing (shift k diagram) = shift k (activationPairing diagram) :=
  activityFindings_shift [] diagram.activations

end DiagramLint.SequenceDiagram
