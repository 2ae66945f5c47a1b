import DiagramLint.Proofs.Indices.Basic
import DiagramLint.Proofs.SequenceDiagram.Lines

/-!
Sequence diagrams with checked indices. Further sections and ends look up the innermost block that is open, and so does
the end of the diagram. Blocks stay in the list when they end.
-/
namespace DiagramLint.SequenceDiagram

open Text Checked

/-! ### Lines -/

/-- A further section of the innermost block, which is looked up and must be of the kind that has it. -/
def sectionChecked (d : Draft) (line : Line) : Checked (Option Draft) :=
  match continued? line.text with
  | none => pure none
  | some (kind, keyword, rest) =>
    match d.stack with
    | [] => throw (line.fail (.blockSectionStray keyword))
    | i :: _ => do
      let b ← entry d.blocks i
      if b.kind = kind then
        let extended : Block := { b with sections := b.sections ++ [⟨trimmed? rest, line.position⟩] }
        pure (some { d with blocks := d.blocks.set i extended })
      else throw (line.fail (.blockSectionStray keyword))

/-- The end of the innermost block, which is looked up. -/
def endChecked (d : Draft) (line : Line) : Checked (Option Draft) :=
  if line.text = "end".toList then
    match d.stack with
    | [] => throw (line.fail .blockEndStray)
    | i :: stack => do
      let finished ← change d.blocks i fun b => { b with finish := line.position }
      pure (some { d with blocks := finished, stack := stack })
  else pure none

/-- The checked rules for the lines of a sequence diagram. -/
def checkedRules : List (CheckedRule Draft) :=
  [LineRule.checked ⟨"participant", participantLine⟩, LineRule.checked ⟨"activate", activationLine⟩,
   LineRule.checked ⟨"note", noteLine⟩, LineRule.checked ⟨"block", blockLine⟩, ⟨"block section", sectionChecked⟩,
   ⟨"end", endChecked⟩, LineRule.checked ⟨"autonumber", autonumberLine⟩, LineRule.checked ⟨"title", titleLine⟩,
   LineRule.checked ⟨"message", messageLine⟩]

variable {d d' : Draft} {line : Line}

theorem sectionChecked_eq (stacked : Stacked d.blocks d.stack) (line : Line) :
    sectionChecked d line = hit (sectionLine d line) := by
  have inRange := stacked.inRange
  unfold sectionChecked sectionLine Draft.innermost?
  cases continued? line.text with
  | none => rfl
  | some continued =>
    obtain ⟨kind, keyword, rest⟩ := continued
    cases top : d.stack with
    | nil => rfl
    | cons i stack =>
      rw [top] at inRange
      have inside : i < d.blocks.length := inRange i List.mem_cons_self
      have here := List.getElem?_eq_getElem inside
      dsimp only
      rw [entry_eq here, hit_ok_bind, List.head?_cons, Option.bind_some, here, List.headD_cons,
        List.modify_eq_set_get _ inside]
      by_cases same : d.blocks[i].kind = kind
      · rw [if_pos same, if_pos (by simpa using same)]
        rfl
      · rw [if_neg same, if_neg (by simpa using same)]
        rfl

theorem endChecked_eq (stacked : Stacked d.blocks d.stack) (line : Line) :
    endChecked d line = hit (endLine d line) := by
  have inRange := stacked.inRange
  unfold endChecked endLine
  by_cases finish : line.text = "end".toList
  · rw [if_pos finish, if_pos finish]
    cases top : d.stack with
    | nil => rfl
    | cons i stack =>
      rw [top] at inRange
      dsimp only
      rw [change_eq (inRange i List.mem_cons_self)]
      rfl
  · rw [if_neg finish, if_neg finish]
    rfl

/-- A line leaves the blocks in the list, and only one at its end comes on the stack. -/
theorem stacked_step (stacked : Stacked d.blocks d.stack) (taken : readLine rules d line = .ok d') :
    Stacked d'.blocks d'.stack := by
  cases marked : blockMark? line.text with
  | none =>
    obtain ⟨blocks, stack⟩ := blocks_of_aside (aside_of_unmarked marked taken)
    rw [blocks, stack]
    exact stacked
  | some mark =>
    rw [readLine_of_mark marked] at taken
    cases mark with
    | opening kind label =>
      obtain rfl := Except.ok.inj taken
      exact stacked.push _
    | continuation kind keyword label =>
      simp only [Draft.mark] at taken
      split at taken
      · obtain rfl := Except.ok.inj taken
        exact stacked.modify _ _
      · cases taken
    | ending =>
      simp only [Draft.mark] at taken
      split at taken
      · cases taken
      · next i stack top =>
        obtain rfl := Except.ok.inj taken
        rw [top] at stacked
        exact stacked.pop.modify _ _

theorem mirroring : Mirroring id (fun _ => rules) (fun _ => checkedRules) fun d => Stacked d.blocks d.stack where
  mirrors {d} stacked line := by
    have other (rule : LineRule Draft) : Mirrors id d line rule rule.checked := mirrors_checked d line rule
    exact .cons (other _) <| .cons (other _) <| .cons (other _) <| .cons (other _) <|
      .cons (mirrors_of_eq (sectionChecked_eq stacked line)) <| .cons (mirrors_of_eq (endChecked_eq stacked line)) <|
      .cons (other _) <| .cons (other _) <| .cons (other _) .nil
  keeps := stacked_step

/-! ### Sources -/

/-- The sequence diagram of a source. Behind all lines the innermost block that is open is looked up. -/
def readChecked (s : Source) : Checked SequenceDiagram := do
  let header ← s.bareHeader "sequenceDiagram"
  let d ← readLinesChecked (fun _ => checkedRules) {} s.body
  match ← innermost d.blocks d.stack with
  | some block => throw ((Fault.blockUnclosed block.kind.keyword).at block.position)
  | none =>
    pure ⟨s.header .sequence header, d.title, d.autonumber, d.participants, d.messages, d.notes, d.activations,
      d.blocks⟩

/-- Sequence diagrams with checked indices. -/
def checkedReader : CheckedReader Draft Draft SequenceDiagram where
  Starts d := d = {}
  rules _ := rules
  read := read
  view := id
  checkedRules _ := checkedRules
  readChecked := readChecked

theorem readChecked_eq (s : Source) : readChecked s = hit (read s) := by
  refine hit_bind ?_
  intro header
  refine mirroring.behind_lines .nil ?_ s.body
  intro d stacked
  rw [id_eq, innermost_eq stacked.inRange, hit_ok_bind, ← Draft.innermost?]
  cases d.innermost? <;> rfl

theorem neverMisses : checkedReader.NeverMisses fun d => Stacked d.blocks d.stack := by
  refine mirroring.neverMisses ?_ (fun _ stacked => stacked) readChecked_eq
  rintro d rfl
  exact .nil

end DiagramLint.SequenceDiagram
