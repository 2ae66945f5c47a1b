import DiagramLint.Proofs.Flowchart.Occurrences
import DiagramLint.Proofs.Indices.Basic

/-!
Flowcharts with checked indices. A subgraph looks up the one around it, a direction the one that it is for, and behind
all lines the innermost one that is open is looked up. All of them are on the stack, and no line takes a subgraph from
the list.
-/
namespace DiagramLint.Flowchart

open Text Checked

/-! ### Lines -/

/-- The beginning of a subgraph. The one around it is looked up. -/
def subgraphChecked (d : Draft) (line : Line) : Checked (Option Draft) :=
  match afterKeyword? "subgraph" line.text with
  | none => pure none
  | some [] => throw (line.fail .subgraphUnnamed)
  | some rest => do
    let (id, title) := subgraphName rest
    let around ← innermost d.subgraphs d.stack
    let subgraph : Subgraph := ⟨id, title, around.map Subgraph.id, none, line.position⟩
    pure (some { d with
      subgraphs := d.subgraphs ++ [subgraph]
      stack := d.subgraphs.length :: d.stack })

/-- The direction of the innermost subgraph, which is looked up, or of the whole chart. -/
def directionChecked (d : Draft) (line : Line) : Checked (Option Draft) :=
  match afterKeyword? "direction" line.text with
  | none => pure none
  | some rest => do
    let direction ← line.direction rest
    match d.stack with
    | [] => pure (some { d with direction := some direction })
    | i :: _ =>
      let turned ← change d.subgraphs i fun s => { s with direction := some direction }
      pure (some { d with subgraphs := turned })

/-- The checked rules for the statements of a flowchart. -/
def checkedRules : List (CheckedRule Draft) :=
  [⟨"subgraph", subgraphChecked⟩, LineRule.checked ⟨"end", endLine⟩, ⟨"direction", directionChecked⟩,
   (directiveRule .classDef).checked, (directiveRule .styleClass).checked, (directiveRule .style).checked,
   (directiveRule .linkStyle).checked, (directiveRule .click).checked, LineRule.checked ⟨"edge", edgeLine⟩,
   LineRule.checked ⟨"node", nodeLine⟩]

variable {d d' : Draft} {line : Line}

theorem subgraphChecked_eq (stacked : Stacked d.subgraphs d.stack) (line : Line) :
    subgraphChecked d line = hit (subgraphLine d line) := by
  unfold subgraphChecked subgraphLine
  cases afterKeyword? "subgraph" line.text with
  | none => rfl
  | some rest =>
    cases rest with
    | nil => rfl
    | cons c rest =>
      rw [innermost_eq stacked.inRange]
      rfl

theorem directionChecked_eq (stacked : Stacked d.subgraphs d.stack) (line : Line) :
    directionChecked d line = hit (directionLine d line) := by
  have inRange := stacked.inRange
  unfold directionChecked directionLine
  cases afterKeyword? "direction" line.text with
  | none => rfl
  | some rest =>
    refine hit_bind_map ?_
    intro direction
    cases top : d.stack with
    | nil => rfl
    | cons i stack =>
      rw [top] at inRange
      dsimp only
      rw [change_eq (inRange i List.mem_cons_self)]
      rfl

/-- A statement leaves the subgraphs in the list, and only one at its end comes on the stack. -/
theorem stacked_step (stacked : Stacked d.subgraphs d.stack) (taken : readLine rules d line = .ok d') :
    Stacked d'.subgraphs d'.stack := by
  cases step_of_read taken with
  | begin id title marked => exact stacked.push _
  | finish i stack marked top =>
    rw [top] at stacked
    exact stacked.pop
  | turn direction marked =>
    unfold Draft.turned
    split
    · exact stacked
    · exact stacked.modify _ _
  | directive x commanded unmarked => exact stacked
  | chain source hops spoken found =>
    rw [addChain_subgraphs, addChain_stack]
    exact stacked
  | node n spoken unchained found => exact stacked

theorem mirroring : Mirroring id (fun _ => rules) (fun _ => checkedRules) fun d => Stacked d.subgraphs d.stack where
  mirrors {d} stacked line := by
    have other (rule : LineRule Draft) : Mirrors id d line rule rule.checked := mirrors_checked d line rule
    exact .cons (mirrors_of_eq (subgraphChecked_eq stacked line)) <| .cons (other _) <|
      .cons (mirrors_of_eq (directionChecked_eq stacked line)) <| .cons (other _) <| .cons (other _) <|
      .cons (other _) <| .cons (other _) <| .cons (other _) <| .cons (other _) <| .cons (other _) .nil
  keeps := stacked_step

/-! ### Sources -/

/-- The flowchart of a source. Behind all statements the innermost subgraph that is open is looked up. -/
def readChecked (s : Source) : Checked Flowchart := do
  let (header, keyword, rest) ← s.headerWith ["flowchart", "graph"]
  let direction ← headerDirection header keyword rest
  let d ← readLinesChecked (fun _ => checkedRules) { direction := direction } (s.body.flatMap statementLines)
  match ← innermost d.subgraphs d.stack with
  | some subgraph => throw ((Fault.subgraphUnclosed subgraph.id).at subgraph.position)
  | none =>
    let kind := if keyword = "graph" then Kind.graph else Kind.flowchart
    pure ⟨s.header kind header, d.direction, d.nodes, d.edges, d.subgraphs, d.directives⟩

/-- Flowcharts with checked indices. -/
def checkedReader : CheckedReader Draft Draft Flowchart where
  Starts d := ∃ direction, d = { direction := direction }
  rules _ := rules
  read := read
  view := id
  checkedRules _ := checkedRules
  readChecked := readChecked

theorem readChecked_eq (s : Source) : readChecked s = hit (read s) := by
  refine hit_bind ?_
  rintro ⟨header, keyword, rest⟩
  refine hit_bind ?_
  intro direction
  refine mirroring.behind_lines .nil ?_ (s.body.flatMap statementLines)
  intro d stacked
  rw [id_eq, innermost_eq stacked.inRange, hit_ok_bind, ← Draft.innermost?]
  cases d.innermost? <;> rfl

theorem neverMisses : checkedReader.NeverMisses fun d => Stacked d.subgraphs d.stack := by
  refine mirroring.neverMisses ?_ (fun _ stacked => stacked) readChecked_eq
  rintro d ⟨direction, rfl⟩
  exact .nil

end DiagramLint.Flowchart
