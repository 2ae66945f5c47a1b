import DiagramLint.EntityDiagram.Reader
import DiagramLint.Proofs.Indices.Basic

/-!
Entity-relationship diagrams with checked indices. The attributes in the body of an entity look up the entity, and so
does the end of the diagram if the body is open there.
-/
namespace DiagramLint.EntityDiagram

open Text Checked

/-! ### Lines -/

instance : Keeps Draft Entity where
  entries := Draft.entities
  current := Draft.body
  keep entities body d := { d with entities := entities, body := body }
  entries_keep _ _ _ := rfl
  current_keep _ _ _ := rfl
  keep_keep _ _ _ _ _ := rfl
  keep_self _ := rfl

/-- The entity with the attribute that a line of its body is. -/
def addAttribute (e : Entity) (line : Line) : Taken Entity :=
  match attribute? line with
  | some a => take { e with attributes := e.attributes ++ [a] }
  | none => .error (line.fail .attributeMalformed)

/-- The checked rules for the next line. The lines of a body look up the entity. -/
def checkedRules (x : Indexed Draft) : List (CheckedRule (Indexed Draft)) :=
  if x.openAt.isSome then [Indexed.closing "\x7d" ['}'], Indexed.filling "attribute" addAttribute]
  else (outerRules.map LineRule.checked).map Indexed.outer

variable {d : Draft} {e : Entity}

theorem attributeLine_eq (opened : d.body = some e) (line : Line) : attributeLine d line =
    (addAttribute e line).map (Option.map fun e => { d with body := some e }) := by
  unfold attributeLine addAttribute
  rw [opened]
  cases attribute? line <;> rfl

theorem mirroring : Mirroring Indexed.ofDraft rules checkedRules fun _ => True where
  mirrors {d} _ line := by
    unfold rules checkedRules
    cases opened : d.body with
    | none =>
      rw [Indexed.ofDraft_of_closed opened]
      exact Indexed.mirrors_outers opened (mirrors_all_checked d line outerRules)
    | some e =>
      rw [Indexed.ofDraft_of_open opened]
      refine .cons (Indexed.mirrors_closing opened ?_) (.cons (Indexed.mirrors_filling opened ?_) .nil)
      · show closeLine d line = _
        rw [closeLine, opened]
        rfl
      · exact attributeLine_eq opened line
  keeps _ _ := trivial

/-! ### Sources -/

/-- The entity-relationship diagram of a source. Behind all lines the entity whose body is open is looked up. -/
def readChecked (s : Source) : Checked EntityDiagram := do
  let (header, _, rest) ← s.headerWith ["erDiagram"]
  let direction ← headerDirection header rest
  let x ← readLinesChecked checkedRules ⟨{ direction := direction }, none⟩ s.body
  match ← x.openEntry with
  | some e => throw ((Fault.entityUnclosed e.name).at e.position)
  | none =>
    let d := x.draft
    pure ⟨s.header .er header, d.direction, d.entities, d.relationships⟩

/-- Entity-relationship diagrams with checked indices. -/
def checkedReader : CheckedReader Draft (Indexed Draft) EntityDiagram where
  Starts d := ∃ direction, d = { direction := direction }
  rules := rules
  read := read
  view := Indexed.ofDraft
  checkedRules := checkedRules
  readChecked := readChecked

theorem readChecked_eq (s : Source) : readChecked s = hit (read s) := by
  refine hit_bind ?_
  rintro ⟨header, keyword, rest⟩
  refine hit_bind ?_
  intro direction
  refine mirroring.behind_lines (s := { direction := direction }) trivial ?_ s.body
  intro d _
  rw [Indexed.openEntry_ofDraft, hit_ok_bind]
  cases opened : d.body with
  | some e =>
    rw [show Keeps.current d = some e from opened]
    rfl
  | none =>
    rw [show Keeps.current d = none from opened, Indexed.ofDraft_of_closed opened]
    rfl

theorem neverMisses : checkedReader.NeverMisses fun x => ∀ i ∈ x.openAt, i < x.draft.entities.length := by
  refine mirroring.neverMisses (fun _ _ => trivial) ?_ readChecked_eq
  intro d _
  exact Indexed.openAt_ofDraft d

end DiagramLint.EntityDiagram
