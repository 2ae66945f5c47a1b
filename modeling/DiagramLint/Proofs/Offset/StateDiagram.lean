import DiagramLint.Proofs.Offset.Checks
import DiagramLint.Proofs.Offset.LineRule
import DiagramLint.StateDiagram.Checks
import DiagramLint.StateDiagram.Reader

/-!
State diagrams further down in a document.
-/
namespace DiagramLint.StateDiagram

open Text
open Placed (shift)

variable {k : Move}

instance : Placed Declaration := ⟨fun k s => { s with position := shift k s.position }⟩

instance : Placed Transition := ⟨fun k t => { t with position := shift k t.position }⟩

instance : Placed Description := ⟨fun k d => { d with position := shift k d.position }⟩

instance : Placed Note := ⟨fun k n => { n with position := shift k n.position }⟩

instance : Placed StateDiagram where
  shift k diagram :=
    { diagram with
      header := shift k diagram.header
      states := shift k diagram.states
      transitions := shift k diagram.transitions
      descriptions := shift k diagram.descriptions
      notes := shift k diagram.notes }

instance : Placed Draft where
  shift k d :=
    { d with
      states := shift k d.states
      transitions := shift k d.transitions
      descriptions := shift k d.descriptions
      notes := shift k d.notes
      note := shift k d.note }

theorem innermost?_shift (d : Draft) : (shift k d).innermost? = shift k d.innermost? := by
  unfold Draft.innermost?
  show d.stack.head?.bind (fun i => (shift k d.states)[i]?) = _
  cases d.stack.head? with
  | none => rfl
  | some i => exact getElem?_shift d.states i

theorem parent?_shift (d : Draft) : (shift k d).parent? = d.parent? := by
  unfold Draft.parent?
  rw [innermost?_shift]
  cases d.innermost? with
  | none => rfl
  | some state => rfl

/-! ### States -/

theorem declare_shift (d : Draft) (line : Line) (id : Text) (kind : StateKind) (description : Option Text) :
    declare (shift k d) (shift k line) id kind description = shift k (declare d line id kind description) := by
  unfold declare
  dsimp only
  rw [parent?_shift]
  split
  · have longer : shift k (d.states ++ [⟨id, kind, description, d.parent?, line.position⟩]) =
        shift k d.states ++ [⟨id, kind, description, d.parent?, (shift k line).position⟩] := shift_append ..
    have places : (shift k d).states.length = d.states.length := length_shift d.states
    rw [places]
    exact congrArg (fun states => take
      { shift k d with
        states := states
        stack := if kind = StateKind.composite then d.states.length :: d.stack else d.stack }) longer.symm
  · rfl

theorem markedLine_moves : Moves k markedLine := by
  intro d line
  unfold markedLine
  rw [text_shift]
  split
  · rfl
  · exact declare_shift ..

theorem stateParts_shift (line : Line) (t : Text) :
    stateParts (shift k line) t = (stateParts line t).mapError (shift k) := by
  unfold stateParts
  split
  · split
    · rfl
    · split
      · rfl
      · rfl
  · rfl

theorem stateLine_moves : Moves k stateLine := by
  intro d line
  unfold stateLine
  rw [text_shift]
  split
  · rfl
  · dsimp only
    rw [stateParts_shift]
    generalize stateParts line _ = parts
    cases parts with
    | error e => rfl
    | ok parts => exact declare_shift ..

theorem closeLine_moves : Moves k closeLine := by
  intro d line
  unfold closeLine
  rw [text_shift]
  split
  · have stack : (shift k d).stack = d.stack := rfl
    rw [stack]
    cases d.stack with
    | nil => rfl
    | cons i stack => rfl
  · rfl

theorem separatorLine_moves : Moves k separatorLine := by
  intro d line
  unfold separatorLine
  rw [text_shift]
  split
  · show (if d.stack.isEmpty then _ else _) = shift k (if d.stack.isEmpty then _ else _)
    split
    · rfl
    · rfl
  · rfl

theorem descriptionLine_moves : Moves k descriptionLine := by
  intro d line
  unfold descriptionLine
  rw [text_shift]
  split
  · rfl
  · split
    · symm
      exact congrArg (fun descriptions => take { shift k d with descriptions := descriptions })
        (shift_append d.descriptions _)
    · rfl

theorem nameLine_moves : Moves k nameLine := by
  intro d line
  unfold nameLine
  rw [text_shift]
  split
  · exact declare_shift ..
  · rfl

/-! ### Notes -/

theorem noteLine_moves : Moves k noteLine := by
  intro d line
  unfold noteLine
  rw [text_shift]
  split
  · rfl
  · split
    · rfl
    · dsimp only
      split
      · split
        · symm
          exact congrArg (fun notes => take { shift k d with notes := notes }) (shift_append d.notes _)
        · rfl
      · rfl

theorem endNoteLine_moves : Moves k endNoteLine := by
  intro d line
  unfold endNoteLine
  rw [text_shift]
  split
  · have closed : shift k (d.notes ++ d.note.toList) = shift k d.notes ++ (shift k d.note).toList := by
      rw [shift_append, toList_shift]
    exact congrArg (fun notes => take { shift k d with notes := notes, note := none }) closed.symm
  · rfl

theorem noteTextLine_moves : Moves k noteTextLine := by
  intro d line
  unfold noteTextLine
  rw [text_shift]
  have longer : (shift k d.note).map (fun n => n.addLine line.text) = shift k (d.note.map fun n => n.addLine line.text) := by
    cases d.note with
    | none => rfl
    | some n => rfl
  exact congrArg (fun note => take { shift k d with note := note }) longer

/-! ### Transitions -/

theorem endpoint_shift (line : Line) (t : Text) :
    endpoint (shift k line) t = (endpoint line t).mapError (shift k) := by
  unfold endpoint
  split
  · rfl
  · split
    · rfl
    · rfl

theorem transition_shift (d : Draft) (line : Line) (before after : Text) (label : Option Text) :
    transition (shift k d) (shift k line) before after label = shift k (transition d line before after label) := by
  unfold transition
  rw [endpoint_shift, endpoint_shift, parent?_shift]
  cases endpoint line (trim before) with
  | error e => rfl
  | ok source =>
    show ((endpoint line (trim after)).mapError (shift k) >>= _) = shift k (endpoint line (trim after) >>= _)
    cases endpoint line (trim after) with
    | error e => rfl
    | ok target => rfl

theorem transitionLine_moves : Moves k transitionLine := by
  intro d line
  unfold transitionLine
  rw [text_shift]
  dsimp only
  split
  · rfl
  · rw [transition_shift]
    refine result_map_shift ?_ _
    intro t
    exact congrArg (fun transitions => some { shift k d with transitions := transitions })
      (shift_append d.transitions [t]).symm

theorem directionLine_moves : Moves k directionLine := by
  intro d line
  unfold directionLine
  rw [text_shift]
  split
  · rfl
  · next rest _ =>
    rw [direction_shift]
    cases line.direction rest with
    | error e => rfl
    | ok direction => rfl

theorem rules_move (d : Draft) : ∀ rule ∈ rules d, Moves k rule.read := by
  unfold rules
  split
  · simp only [noteRules, List.forall_mem_cons]
    exact ⟨endNoteLine_moves, noteTextLine_moves, nofun⟩
  · simp only [outerRules, List.forall_mem_cons]
    exact ⟨markedLine_moves, stateLine_moves, closeLine_moves, noteLine_moves, transitionLine_moves,
      directionLine_moves, separatorLine_moves, descriptionLine_moves, nameLine_moves, nofun⟩

theorem rules_shift (d : Draft) : rules (shift k d) = rules d := by
  unfold rules
  rw [show (shift k d).note = shift k d.note from rfl, isSome_shift]

/-- A state diagram is read further down as it is read. -/
theorem read_shift (s : Source) : read (shift k s) = shift k (read s) := by
  unfold read
  rw [headerWith_shift]
  refine result_bind_shift ?_ _
  rintro ⟨header, keyword, rest⟩
  show (if rest.isEmpty then _ else _) = shift k (if rest.isEmpty then _ else _)
  split
  · rw [body_shift]
    show (readLines rules (shift k {}) (shift k s.body) >>= _) = shift k (readLines rules {} s.body >>= _)
    rw [readLines_shift rules_move rules_shift]
    refine result_bind_shift ?_ _
    intro d
    rw [innermost?_shift]
    have note : (shift k d).note = shift k d.note := rfl
    rw [note]
    cases d.note with
    | some note => rfl
    | none =>
      cases d.innermost? with
      | some composite => rfl
      | none => rfl
  · rfl

/-! ### Checks -/

theorem declarations_shift (diagram : StateDiagram) : (shift k diagram).declarations = shift k diagram.declarations := by
  refine map_shift ?_ diagram.states
  intro s
  rfl

theorem duplicateStates_shift (diagram : StateDiagram) :
    duplicateStates (shift k diagram) = shift k (duplicateStates diagram) := by
  unfold duplicateStates
  rw [declarations_shift]
  exact Duplicates.findings_shift (.empty "state") _

theorem transitionEnds_shift (diagram : StateDiagram) :
    (shift k diagram).transitionEnds = shift k diagram.transitionEnds := by
  refine flatMap_shift ?_ diagram.transitions
  intro t
  rw [shift_filterMap]
  show [t.source, t.target].filterMap _ = [t.source, t.target].filterMap _
  congr 1
  funext e
  cases e.state? with
  | none => rfl
  | some id => rfl

theorem noteTargets_shift (diagram : StateDiagram) : noteTargets (shift k diagram) = shift k (noteTargets diagram) := by
  have described : (shift k diagram.descriptions).map (fun d => (d.state, d.position)) =
      shift k (diagram.descriptions.map fun d => (d.state, d.position)) := by
    refine map_shift ?_ _
    intro d
    rfl
  unfold noteTargets
  show List.filterMap (fun n => ((References.empty "state").declareAll (declarations (shift k diagram) ++
    transitionEnds (shift k diagram) ++ (shift k diagram.descriptions).map _)).check n.target n.position "note")
    (shift k diagram.notes) = _
  rw [declarations_shift, transitionEnds_shift, described, ← shift_append, ← shift_append]
  show List.filterMap (fun n => ((shift k (References.empty "state")).declareAll _).check _ _ _) _ = _
  rw [References.declareAll_shift]
  refine filterMap_shift ?_ _
  intro n
  exact References.check_shift ..

end DiagramLint.StateDiagram
