import DiagramLint.EntityDiagram.Checks
import DiagramLint.EntityDiagram.Reader
import DiagramLint.Proofs.Offset.Checks
import DiagramLint.Proofs.Offset.LineRule

/-!
Entity-relationship diagrams further down in a document.
-/
namespace DiagramLint.EntityDiagram

open Text
open Placed (shift)

variable {k : Move}

instance : Placed Attribute := ⟨fun k a => { a with position := shift k a.position }⟩

instance : Placed Entity where
  shift k e := { e with attributes := shift k e.attributes, position := shift k e.position }

instance : Placed Relationship := ⟨fun k r => { r with position := shift k r.position }⟩

instance : Placed EntityDiagram where
  shift k diagram :=
    { diagram with
      header := shift k diagram.header
      entities := shift k diagram.entities
      relationships := shift k diagram.relationships }

instance : Placed Draft where
  shift k d :=
    { d with
      entities := shift k d.entities
      relationships := shift k d.relationships
      body := shift k d.body }

/-! ### Lines outside bodies -/

theorem bodiedEntity_shift (line : Line) (head : Text) :
    bodiedEntity (shift k line) head = shift k (bodiedEntity line head) := by
  unfold bodiedEntity
  split
  · rfl
  · rfl

theorem openLine_moves : Moves k openLine := by
  intro d line
  unfold openLine
  rw [text_shift]
  split
  · rw [bodiedEntity_shift]
    refine result_map_shift ?_ _
    intro e
    exact congrArg (fun entities => some { shift k d with entities := entities }) (shift_append d.entities [e]).symm
  · split
    · rw [bodiedEntity_shift]
      refine result_map_shift ?_ _
      intro e
      rfl
    · rfl

theorem relationshipLine_moves : Moves k relationshipLine := by
  intro d line
  unfold relationshipLine
  rw [text_shift]
  dsimp only
  split
  · split
    · rfl
    · split
      · symm
        exact congrArg (fun relationships => take { shift k d with relationships := relationships })
          (shift_append d.relationships _)
      · rfl
  · rfl

theorem directionLine_moves : Moves k directionLine := by
  intro d line
  unfold directionLine
  rw [text_shift]
  split
  · rfl
  · next rest _ =>
    rw [direction_shift]
    cases line.direction rest with
    | error e => rfl
    | ok direction => rfl

theorem strayCloseLine_moves : Moves k strayCloseLine := by
  intro d line
  unfold strayCloseLine
  rw [text_shift]
  split
  · rfl
  · rfl

theorem entityLine_moves : Moves k entityLine := by
  intro d line
  unfold entityLine
  rw [text_shift]
  split
  · symm
    exact congrArg (fun entities => take { shift k d with entities := entities }) (shift_append d.entities _)
  · rfl

/-! ### Lines of bodies -/

theorem attribute?_shift (line : Line) : attribute? (shift k line) = shift k (attribute? line) := by
  unfold attribute?
  rw [text_shift]
  cases splitComment? line.text with
  | none => rfl
  | some parts =>
    rw [Option.bind_some, Option.bind_some]
    dsimp only
    split
    · show (if _ then _ else _) = shift k (if _ then _ else _)
      rw [apply_ite (shift k)]
      rfl
    · rfl

theorem attributeLine_moves : Moves k attributeLine := by
  intro d line
  unfold attributeLine
  rw [attribute?_shift]
  cases attribute? line with
  | none => rfl
  | some a =>
    have longer : (shift k d.body).map (fun e => { e with attributes := e.attributes ++ [shift k a] }) =
        shift k (d.body.map fun e => { e with attributes := e.attributes ++ [a] }) := by
      refine option_map_shift ?_ _
      intro e
      exact congrArg (fun attributes => { shift k e with attributes := attributes })
        (shift_append e.attributes [a]).symm
    exact congrArg (fun body => take { shift k d with body := body }) longer

theorem closeLine_moves : Moves k closeLine := by
  intro d line
  unfold closeLine
  rw [text_shift]
  split
  · have closed : shift k (d.entities ++ d.body.toList) = shift k d.entities ++ (shift k d.body).toList := by
      rw [shift_append, toList_shift]
    exact congrArg (fun entities => take { shift k d with entities := entities, body := none }) closed.symm
  · rfl

theorem rules_move (d : Draft) : ∀ rule ∈ rules d, Moves k rule.read := by
  unfold rules
  split
  · simp only [bodyRules, List.forall_mem_cons]
    exact ⟨closeLine_moves, attributeLine_moves, nofun⟩
  · simp only [outerRules, List.forall_mem_cons]
    exact ⟨openLine_moves, relationshipLine_moves, directionLine_moves, strayCloseLine_moves, entityLine_moves, nofun⟩

theorem rules_shift (d : Draft) : rules (shift k d) = rules d := by
  unfold rules
  rw [show (shift k d).body = shift k d.body from rfl, isSome_shift]

theorem headerDirection_shift (line : Line) (rest : Text) :
    headerDirection (shift k line) rest = (headerDirection line rest).mapError (shift k) := by
  unfold headerDirection
  split
  · rfl
  · rfl
  · rfl
  · rfl

/-- An entity-relationship diagram is read further down as it is read. -/
theorem read_shift (s : Source) : read (shift k s) = shift k (read s) := by
  unfold read
  rw [headerWith_shift]
  refine result_bind_shift ?_ _
  rintro ⟨header, keyword, rest⟩
  show (headerDirection (shift k header) rest >>= _) = shift k (headerDirection header rest >>= _)
  rw [headerDirection_shift, body_shift]
  cases headerDirection header rest with
  | error e => rfl
  | ok direction =>
    show (readLines rules (shift k { direction := direction }) (shift k s.body) >>= _) =
      shift k (readLines rules { direction := direction } s.body >>= _)
    rw [readLines_shift rules_move rules_shift]
    refine result_bind_shift ?_ _
    intro d
    have body : (shift k d).body = shift k d.body := rfl
    rw [body]
    cases d.body with
    | some e => rfl
    | none => rfl

/-! ### Checks -/

theorem duplicateBodies_shift (diagram : EntityDiagram) :
    duplicateBodies (shift k diagram) = shift k (duplicateBodies diagram) := by
  unfold duplicateBodies
  show Duplicates.findings _ (((shift k diagram.entities).filter fun e => e.hasBody).map _) = _
  rw [filter_shift (fun _ => rfl)]
  refine Duplicates.findings_map_shift ?_ (.empty "entity") _
  intro e
  rfl

theorem attributeNames_shift (e : Entity) : (shift k e).attributeNames = shift k e.attributeNames := by
  refine map_shift ?_ e.attributes
  intro a
  rfl

theorem duplicateAttributes_shift (diagram : EntityDiagram) :
    duplicateAttributes (shift k diagram) = shift k (duplicateAttributes diagram) := by
  have names : (shift k diagram.entities).flatMap Entity.attributeNames =
      shift k (diagram.entities.flatMap Entity.attributeNames) := flatMap_shift attributeNames_shift _
  unfold duplicateAttributes
  show Duplicates.findings _ ((shift k diagram.entities).flatMap _) = _
  rw [names]
  exact Duplicates.findings_shift (.empty "attribute") _

theorem attributeKeys_shift (diagram : EntityDiagram) :
    attributeKeys (shift k diagram) = shift k (attributeKeys diagram) := by
  have attributes : (shift k diagram.entities).flatMap Entity.attributes =
      shift k (diagram.entities.flatMap Entity.attributes) := by
    refine flatMap_shift ?_ _
    intro e
    rfl
  unfold attributeKeys
  show ((shift k diagram.entities).flatMap Entity.attributes).flatMap _ = _
  rw [attributes]
  refine flatMap_shift ?_ _
  intro a
  rw [shift_filterMap]
  simp only [← Vocabulary.check_shift]
  rfl

end DiagramLint.EntityDiagram
