import DiagramLint.Proofs.Coverage.ClassDiagram
import DiagramLint.Proofs.Reading.Basic

/-!
How class diagrams are read. The class whose body is open is the last one, so classes and the members in
their bodies are one column, whether the last body is closed or not.
-/
namespace DiagramLint.ClassDiagram

open Text

instance : Stored ClassDiagram where
  header diagram := diagram.header
  withSource text diagram := { diagram with header := diagram.header.withSource text }
  columns diagram := (account diagram).columns

/-- The positions of a draft. -/
def Draft.columns (d : Draft) : List (List Position) := d.account.columns

/-! ### Lines outside bodies -/

theorem member_ofLine (line : Line) (t : Text) : OfLine line (member line t) fun m => m.position = line.position := by
  cases made : member line t with
  | ok m => exact member_position made
  | error e =>
    unfold member at made
    split at made
    · cases made
    · obtain rfl := Except.error.inj made
      simp [Fault.code]

theorem classLine_marks {d : Draft} (closed : d.body = none) (line : Line) :
    Marks Draft.columns d line (classLine d line) := by
  unfold classLine
  split
  · simp
  · dsimp only
    split
    · split <;> simp [Draft.columns, Draft.account, Definition.places, Grows, closed]
    · simp [Fault.code]

theorem annotationLine_marks (d : Draft) (line : Line) : Marks Draft.columns d line (annotationLine d line) := by
  unfold annotationLine
  split
  · simp
  · split <;> simp [Draft.columns, Draft.account, Grows, Fault.code]

theorem noteLine_marks (d : Draft) (line : Line) : Marks Draft.columns d line (noteLine d line) := by
  unfold noteLine
  split
  · simp
  · dsimp only
    split <;> simp [Draft.columns, Draft.account, Grows, Fault.code]

theorem directionLine_marks (d : Draft) (line : Line) : Marks Draft.columns d line (directionLine d line) := by
  unfold directionLine
  split
  · simp
  · exact Marks.made (direction_ofLine line _) fun _ _ => .refl _ _

theorem relationship_ofLine (line : Line) (before : List Text) (relation : Relation) (after : List Text)
    (label : Option Text) :
    OfLine line (relationship line before relation after label) fun r => r.position = line.position := by
  unfold relationship
  split
  · simp [Fault.code]
  · simp [Fault.code]
  · split <;> simp [Fault.code]

theorem relationshipLine_marks (d : Draft) (line : Line) : Marks Draft.columns d line (relationshipLine d line) := by
  unfold relationshipLine
  dsimp only
  split
  · simp
  · refine Marks.made (relationship_ofLine line _ _ _ _) ?_
    intro r position
    simp [Draft.columns, Draft.account, Grows, position]

theorem memberLine_marks (d : Draft) (line : Line) : Marks Draft.columns d line (memberLine d line) := by
  unfold memberLine
  split
  · simp
  · split
    · refine Marks.made (member_ofLine line _) ?_
      intro m position
      simp [Draft.columns, Draft.account, Grows, position]
    · simp

/-! ### Lines of bodies -/

theorem closeLine_marks (d : Draft) (line : Line) : Marks Draft.columns d line (closeLine d line) := by
  unfold closeLine
  split <;> simp [Draft.columns, Draft.account]

theorem bodyAnnotationLine_marks (d : Draft) (line : Line) :
    Marks Draft.columns d line (bodyAnnotationLine d line) := by
  unfold bodyAnnotationLine
  split
  · simp
  · cases body : d.body <;> simp [Draft.columns, Draft.account, Definition.places, body]
  · simp [Fault.code]

theorem bodyMemberLine_marks (d : Draft) (line : Line) : Marks Draft.columns d line (bodyMemberLine d line) := by
  unfold bodyMemberLine
  refine Marks.made (member_ofLine line _) ?_
  intro m position
  cases body : d.body with
  | none => simp [Draft.columns, Draft.account, body]
  | some c =>
    simp only [Draft.columns, Draft.account, body, Option.map_some, Option.toList_some, places_of_member, position]
    exact .first _ _ _

/-! ### Diagrams -/

theorem rules_mark (d : Draft) : ∀ rule ∈ rules d, ∀ line, Marks Draft.columns d line (rule.read d line) := by
  unfold rules
  split
  · simp only [bodyRules, List.forall_mem_cons]
    exact ⟨closeLine_marks d, bodyAnnotationLine_marks d, bodyMemberLine_marks d, List.forall_mem_nil _⟩
  · next outside =>
    have closed : d.body = none := by simpa using outside
    simp only [outerRules, List.forall_mem_cons]
    exact ⟨classLine_marks closed, annotationLine_marks d, noteLine_marks d, directionLine_marks d,
      relationshipLine_marks d, memberLine_marks d, List.forall_mem_nil _⟩

/-- How class diagrams are read. -/
abbrev reading : Reading ClassDiagram where
  Head := Line
  State := Draft
  head first := first.alone.bareHeader "classDiagram"
  fits := Text.BeginsWith ["classDiagram"]
  line header := header
  start _ := {}
  rules := rules
  columns := Draft.columns
  finish text header d :=
    match d.body with
    | some c => .error ((Fault.classUnclosed c.id).at c.position)
    | none =>
      .ok ⟨⟨.classDiagram, text, header.position⟩, d.direction, d.classes, d.members, d.relationships,
        d.annotations, d.notes⟩

theorem reading_describes : reading.Describes read where
  read_eq text offset first body := by
    rw [List.flatMap_singleton']
    rfl
  head_ofHeader first := bareHeader_ofHeader [] 0 first [] "classDiagram"
  start_empty _ := by simp [Draft.columns, Draft.account]
  rules_mark := rules_mark
  finish_error failed := by
    dsimp only at failed
    split at failed
    · next c opened =>
      obtain rfl := Except.error.inj failed
      exact ⟨.inl rfl, .inr ⟨_, List.mem_cons_self, by simp [opened, Definition.places]⟩⟩
    · cases failed
  finish_ok finished := by
    dsimp only at finished
    split at finished
    · cases finished
    · next closed =>
      obtain rfl := Except.ok.inj finished
      refine ⟨rfl, ?_⟩
      simp [Stored.columns, Draft.columns, account, Draft.account, closed]
  finish_text text header d other := by
    dsimp only
    split <;> rfl

end DiagramLint.ClassDiagram
