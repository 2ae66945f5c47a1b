import DiagramLint.Proofs.Coverage.EntityDiagram
import DiagramLint.Proofs.Reading.Basic

/-!
How entity-relationship diagrams are read. The entity whose body is open is the last one, so entities and
their attributes are one column, whether the last body is closed or not.
-/
namespace DiagramLint.EntityDiagram

open Text

instance : Stored EntityDiagram where
  header diagram := diagram.header
  withSource text diagram := { diagram with header := diagram.header.withSource text }
  columns diagram := (account diagram).columns

/-- The positions of a draft. -/
def Draft.columns (d : Draft) : List (List Position) := d.account.columns

/-! ### Lines outside bodies -/

theorem bodiedEntity_ofLine (line : Line) (head : Text) :
    OfLine line (bodiedEntity line head) fun e => e.places = [line.position] := by
  unfold bodiedEntity
  split <;> simp [Entity.places, Fault.code]

theorem openLine_marks {d : Draft} (closed : d.body = none) (line : Line) :
    Marks Draft.columns d line (openLine d line) := by
  unfold openLine
  split
  · refine Marks.made (bodiedEntity_ofLine line _) ?_
    intro e places
    simp [Draft.columns, Draft.account, Grows, closed, places]
  · split
    · refine Marks.made (bodiedEntity_ofLine line _) ?_
      intro e places
      simp [Draft.columns, Draft.account, Grows, closed, places]
    · simp

theorem relationshipLine_marks (d : Draft) (line : Line) : Marks Draft.columns d line (relationshipLine d line) := by
  unfold relationshipLine
  dsimp only
  split
  · split
    · simp
    · split <;> simp [Draft.columns, Draft.account, Grows, Fault.code]
  · simp

theorem directionLine_marks (d : Draft) (line : Line) : Marks Draft.columns d line (directionLine d line) := by
  unfold directionLine
  split
  · simp
  · exact Marks.made (direction_ofLine line _) fun _ _ => .refl _ _

theorem strayCloseLine_marks (d : Draft) (line : Line) : Marks Draft.columns d line (strayCloseLine d line) := by
  unfold strayCloseLine
  split <;> simp [Fault.code]

theorem entityLine_marks {d : Draft} (closed : d.body = none) (line : Line) :
    Marks Draft.columns d line (entityLine d line) := by
  unfold entityLine
  split <;> simp [Draft.columns, Draft.account, Entity.places, Grows, closed]

/-! ### Lines of bodies -/

theorem closeLine_marks (d : Draft) (line : Line) : Marks Draft.columns d line (closeLine d line) := by
  unfold closeLine
  split <;> simp [Draft.columns, Draft.account]

theorem attributeLine_marks (d : Draft) (line : Line) : Marks Draft.columns d line (attributeLine d line) := by
  unfold attributeLine
  split
  · next a made =>
    refine Marks.take_iff.mpr ?_
    cases body : d.body with
    | none => simp [Draft.columns, Draft.account, body]
    | some e =>
      simp only [Draft.columns, Draft.account, body, Option.map_some, Option.toList_some, places_of_attribute,
        attribute?_position made]
      exact .first _ _ _
  · simp [Fault.code]

/-! ### Diagrams -/

theorem rules_mark (d : Draft) : ∀ rule ∈ rules d, ∀ line, Marks Draft.columns d line (rule.read d line) := by
  unfold rules
  split
  · simp only [bodyRules, List.forall_mem_cons]
    exact ⟨closeLine_marks d, attributeLine_marks d, List.forall_mem_nil _⟩
  · next outside =>
    have closed : d.body = none := by simpa using outside
    simp only [outerRules, List.forall_mem_cons]
    exact ⟨openLine_marks closed, relationshipLine_marks d, directionLine_marks d, strayCloseLine_marks d,
      entityLine_marks closed, List.forall_mem_nil _⟩

theorem headerDirection_ofLine (line : Line) (rest : Text) :
    OfLine line (headerDirection line rest) fun _ => True := by
  unfold headerDirection
  split <;> simp [Fault.code]

/-- How entity-relationship diagrams are read. -/
abbrev reading : Reading EntityDiagram where
  Head := Line × Option Direction
  State := Draft
  head first := do
    let (header, _, rest) ← first.alone.headerWith ["erDiagram"]
    let direction ← headerDirection header rest
    .ok (header, direction)
  fits := Text.BeginsWith ["erDiagram"]
  line h := h.1
  start h := { direction := h.2 }
  rules := rules
  columns := Draft.columns
  finish text h d :=
    match d.body with
    | some e => .error ((Fault.entityUnclosed e.name).at e.position)
    | none => .ok ⟨⟨.er, text, h.1.position⟩, d.direction, d.entities, d.relationships⟩

theorem reading_describes : reading.Describes read where
  read_eq text offset first body := by
    rw [List.flatMap_singleton', bind_assoc]
    refine bind_congr ?_
    rintro ⟨header, word, rest⟩
    dsimp only
    rw [bind_assoc]
    rfl
  head_ofHeader first := by
    refine (headerWith_ofHeader [] 0 first [] ["erDiagram"]).bind ?_
    rintro ⟨header, word, rest⟩ rfl
    refine (headerDirection_ofLine header rest).bind ?_
    exact fun _ _ => rfl
  start_empty _ := by simp [Draft.columns, Draft.account]
  rules_mark := rules_mark
  finish_error failed := by
    dsimp only at failed
    split at failed
    · next e opened =>
      obtain rfl := Except.error.inj failed
      exact ⟨.inl rfl, .inr ⟨_, List.mem_cons_self, by simp [opened, Entity.places]⟩⟩
    · cases failed
  finish_ok finished := by
    dsimp only at finished
    split at finished
    · cases finished
    · next closed =>
      obtain rfl := Except.ok.inj finished
      refine ⟨rfl, ?_⟩
      simp [Stored.columns, Draft.columns, account, Draft.account, closed]
  finish_text text h d other := by
    dsimp only
    split <;> rfl

end DiagramLint.EntityDiagram
