import DiagramLint.Proofs.Coverage.StateDiagram
import DiagramLint.Proofs.Indices.Basic

/-!
State diagrams with checked indices. Every state and every transition looks up the composite state around it, and the
lines of a note look up the note. Behind all lines the note that is open is looked up, or else the innermost composite
state. Whatever is on the stack of open composite states is a composite state.
-/
namespace DiagramLint.StateDiagram

open Text Checked

/-! ### Open composite states -/

/-- The indices of composite states that are open one in the other. -/
structure Composites (states : List Declaration) (stack : List Nat) : Prop extends Stacked states stack where
  composite : ∀ i ∈ stack, ∃ s, states[i]? = some s ∧ s.kind = .composite

namespace Composites

variable {states : List Declaration} {stack : List Nat} {s : Declaration} {i : Nat}

theorem nil : Composites [] [] := ⟨.nil, nofun⟩

theorem append (composites : Composites states stack) (more : List Declaration) : Composites (states ++ more) stack := by
  refine ⟨composites.toStacked.append more, ?_⟩
  intro i member
  obtain ⟨s, here, kind⟩ := composites.composite i member
  exact ⟨s, by rw [List.getElem?_append_left (composites.inRange i member), here], kind⟩

/-- A composite state at the end of the list is the innermost. -/
theorem push (composites : Composites states stack) (kind : s.kind = .composite) :
    Composites (states ++ [s]) (states.length :: stack) :=
  ⟨composites.toStacked.push s,
    List.forall_mem_cons.mpr ⟨⟨s, List.getElem?_concat_length, kind⟩, (composites.append [s]).composite⟩⟩

theorem pop (composites : Composites states (i :: stack)) : Composites states stack :=
  ⟨composites.toStacked.pop, (List.forall_mem_cons.mp composites.composite).2⟩

end Composites

/-! ### Lines -/

instance : Keeps Draft Note where
  entries := Draft.notes
  current := Draft.note
  keep notes note d := { d with notes := notes, note := note }
  entries_keep _ _ _ := rfl
  current_keep _ _ _ := rfl
  keep_keep _ _ _ _ _ := rfl
  keep_self _ := rfl

/-- The draft with one more state. The composite state around it is looked up. -/
def declareChecked (d : Draft) (line : Line) (id : Text) (kind : StateKind) (description : Option Text) :
    Checked (Option Draft) :=
  if isIdentifier id then do
    let around ← innermost d.states d.stack
    let state : Declaration := ⟨id, kind, description, around.map Declaration.id, line.position⟩
    pure (some { d with
      states := d.states ++ [state]
      stack := if kind = .composite then d.states.length :: d.stack else d.stack })
  else throw (line.fail (.stateInvalid id))

/-- A state with a mark. -/
def markedChecked (d : Draft) (line : Line) : Checked (Option Draft) :=
  match (afterKeyword? "state" line.text).bind markedState? with
  | none => pure none
  | some (id, kind) => declareChecked d line id kind none

/-- A state; an opening brace at the end makes it composite. -/
def stateChecked (d : Draft) (line : Line) : Checked (Option Draft) :=
  match afterKeyword? "state" line.text with
  | none => pure none
  | some rest =>
    let (rest, kind) := match dropEnd? ['{'] rest with
      | some before => (trimEnd before, StateKind.composite)
      | none => (rest, .simple)
    match stateParts line rest with
    | .error e => throw e
    | .ok (id, description) => declareChecked d line id kind description

/-- A state that is only named. -/
def nameChecked (d : Draft) (line : Line) : Checked (Option Draft) :=
  if isIdentifier line.text then declareChecked d line line.text .simple none else pure none

/-- A transition. The composite state around it is looked up. -/
def transitionChecked (d : Draft) (line : Line) : Checked (Option Draft) :=
  let (head, label) := headAndLabel line.text
  match cut? "-->".toList head with
  | none => pure none
  | some (before, after) => do
    let source ← endpoint line (trim before)
    let target ← endpoint line (trim after)
    let around ← innermost d.states d.stack
    let t : Transition := ⟨source, target, label.bind trimmed?, around.map Declaration.id, line.position⟩
    pure (some { d with transitions := d.transitions ++ [t] })

/-- The checked rules for the lines outside notes. -/
def checkedOuterRules : List (CheckedRule Draft) :=
  [⟨"pseudostate", markedChecked⟩, ⟨"state", stateChecked⟩, LineRule.checked ⟨"\x7d", closeLine⟩,
   LineRule.checked ⟨"note", noteLine⟩, ⟨"transition", transitionChecked⟩,
   LineRule.checked ⟨"direction", directionLine⟩, LineRule.checked ⟨"--", separatorLine⟩,
   LineRule.checked ⟨"description", descriptionLine⟩, ⟨"state id", nameChecked⟩]

/-- The checked rules for the next line. The lines of a note look up the note. -/
def checkedRules (x : Indexed Draft) : List (CheckedRule (Indexed Draft)) :=
  if x.openAt.isSome then
    [Indexed.closing "end note" "end note".toList,
     Indexed.filling "note text" fun note line => take (note.addLine line.text)]
  else checkedOuterRules.map Indexed.outer

variable {d d' : Draft} {line : Line}

theorem declareChecked_eq (stacked : Stacked d.states d.stack) (line : Line) (id : Text) (kind : StateKind)
    (description : Option Text) :
    declareChecked d line id kind description = hit (declare d line id kind description) := by
  unfold declareChecked declare
  by_cases identifier : isIdentifier id
  · rw [if_pos identifier, if_pos identifier, innermost_eq stacked.inRange]
    rfl
  · rw [if_neg identifier, if_neg identifier]
    rfl

theorem markedChecked_eq (stacked : Stacked d.states d.stack) (line : Line) :
    markedChecked d line = hit (markedLine d line) := by
  unfold markedChecked markedLine
  cases (afterKeyword? "state" line.text).bind markedState? with
  | none => rfl
  | some marked => exact declareChecked_eq stacked line _ _ _

theorem stateChecked_eq (stacked : Stacked d.states d.stack) (line : Line) :
    stateChecked d line = hit (stateLine d line) := by
  unfold stateChecked stateLine
  cases afterKeyword? "state" line.text with
  | none => rfl
  | some rest =>
    cases braced : dropEnd? ['{'] rest with
    | none =>
      simp only [braced]
      cases stateParts line rest with
      | error e => rfl
      | ok parts => exact declareChecked_eq stacked line _ _ _
    | some before =>
      simp only [braced]
      cases stateParts line (trimEnd before) with
      | error e => rfl
      | ok parts => exact declareChecked_eq stacked line _ _ _

theorem nameChecked_eq (stacked : Stacked d.states d.stack) (line : Line) :
    nameChecked d line = hit (nameLine d line) := by
  unfold nameChecked nameLine
  by_cases identifier : isIdentifier line.text
  · rw [if_pos identifier, if_pos identifier]
    exact declareChecked_eq stacked line _ _ _
  · rw [if_neg identifier, if_neg identifier]
    rfl

theorem transitionChecked_eq (stacked : Stacked d.states d.stack) (line : Line) :
    transitionChecked d line = hit (transitionLine d line) := by
  unfold transitionChecked transitionLine
  dsimp only
  cases cut? "-->".toList (headAndLabel line.text).1 with
  | none => rfl
  | some parts =>
    obtain ⟨before, after⟩ := parts
    dsimp only
    rw [innermost_eq stacked.inRange]
    unfold transition
    cases endpoint line (trim before) with
    | error e => rfl
    | ok source => cases endpoint line (trim after) <;> rfl

/-- Of the states outside notes, those that are open are composite and stay in the list. -/
theorem composites_step (composites : Composites d.states d.stack) (taken : readLine (rules d) d line = .ok d') :
    Composites d'.states d'.stack := by
  unfold rules at taken
  split at taken
  · obtain rfl := Except.ok.inj ((readLine_noteRules d line).symm.trans taken)
    split <;> exact composites
  · cases outerStep_of_read taken with
    | state s unmarked unopened begins parent placed =>
      unfold Draft.declared
      by_cases kind : s.kind = .composite
      · simp only [if_pos kind]
        exact composites.push kind
      · simp only [if_neg kind]
        exact composites.append [s]
    | close i stack top brace =>
      rw [top] at composites
      exact composites.pop
    | remark n unmarked unopened plain placed => exact composites
    | note n unmarked opened placed => exact composites
    | transition t unmarked unopened plain parent placed => exact composites
    | direction direction names unopened plain => exact composites
    | separator inside hyphens => exact composites
    | description t unmarked unopened plain placed => exact composites

theorem outerRules_mirror (stacked : Stacked d.states d.stack) (line : Line) :
    List.Forall₂ (Mirrors id d line) outerRules checkedOuterRules := by
  have other (rule : LineRule Draft) : Mirrors id d line rule rule.checked := mirrors_checked d line rule
  exact .cons (mirrors_of_eq (markedChecked_eq stacked line)) <| .cons (mirrors_of_eq (stateChecked_eq stacked line)) <|
    .cons (other _) <| .cons (other _) <| .cons (mirrors_of_eq (transitionChecked_eq stacked line)) <|
    .cons (other _) <| .cons (other _) <| .cons (other _) <|
    .cons (mirrors_of_eq (nameChecked_eq stacked line)) .nil

theorem mirroring : Mirroring Indexed.ofDraft rules checkedRules fun d => Composites d.states d.stack where
  mirrors {d} composites line := by
    unfold rules checkedRules
    cases opened : d.note with
    | none =>
      rw [Indexed.ofDraft_of_closed opened]
      exact Indexed.mirrors_outers opened (outerRules_mirror composites.toStacked line)
    | some note =>
      rw [Indexed.ofDraft_of_open opened]
      refine .cons (Indexed.mirrors_closing opened ?_) (.cons (Indexed.mirrors_filling opened ?_) .nil)
      · show endNoteLine d line = _
        rw [endNoteLine, opened]
        rfl
      · show noteTextLine d line = _
        rw [noteTextLine, opened]
        rfl
  keeps := composites_step

/-! ### Sources -/

/-- The state diagram of a source. Behind all lines the note that is open is looked up, or else the innermost composite
state. -/
def readChecked (s : Source) : Checked StateDiagram := do
  let (header, keyword, rest) ← s.headerWith ["stateDiagram-v2", "stateDiagram"]
  if rest.isEmpty then
    let kind := if keyword = "stateDiagram-v2" then Kind.stateV2 else Kind.state
    let x ← readLinesChecked checkedRules ⟨{}, none⟩ s.body
    match ← x.openEntry with
    | some note => throw ((Fault.noteUnclosed note.target).at note.position)
    | none =>
      let d := x.draft
      match ← innermost d.states d.stack with
      | some composite => throw ((Fault.compositeUnclosed composite.id).at composite.position)
      | none => pure ⟨s.header kind header, d.direction, d.states, d.transitions, d.descriptions, d.notes⟩
  else throw ((Fault.headerModifier keyword rest).at header.position)

/-- State diagrams with checked indices. -/
def checkedReader : CheckedReader Draft (Indexed Draft) StateDiagram where
  Starts d := d = {}
  rules := rules
  read := read
  view := Indexed.ofDraft
  checkedRules := checkedRules
  readChecked := readChecked

theorem readChecked_eq (s : Source) : readChecked s = hit (read s) := by
  refine hit_bind ?_
  rintro ⟨header, keyword, rest⟩
  dsimp only
  by_cases bare : rest.isEmpty
  · rw [if_pos bare, if_pos bare]
    refine mirroring.behind_lines (s := {}) .nil ?_ s.body
    intro d composites
    rw [Indexed.openEntry_ofDraft, hit_ok_bind]
    cases opened : d.note with
    | some note =>
      rw [show Keeps.current d = some note from opened]
      rfl
    | none =>
      rw [show Keeps.current d = none from opened, Indexed.ofDraft_of_closed opened]
      dsimp only
      rw [innermost_eq composites.inRange, hit_ok_bind, ← Draft.innermost?]
      cases d.innermost? <;> rfl
  · rw [if_neg bare, if_neg bare]
    rfl

/-- Behind any lines the indices of open composite states are those of composite states in the list, and increase on the
way in, and the index of an open note is one of a note in the list. -/
theorem neverMisses : checkedReader.NeverMisses fun x =>
    Composites x.draft.states x.draft.stack ∧ ∀ i ∈ x.openAt, i < x.draft.notes.length := by
  refine mirroring.neverMisses ?_ ?_ readChecked_eq
  · rintro d rfl
    exact .nil
  · intro d composites
    exact ⟨composites, Indexed.openAt_ofDraft d⟩

end DiagramLint.StateDiagram
