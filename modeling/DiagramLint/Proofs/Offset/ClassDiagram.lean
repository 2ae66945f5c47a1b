import DiagramLint.ClassDiagram.Checks
import DiagramLint.ClassDiagram.Reader
import DiagramLint.Proofs.Offset.Checks
import DiagramLint.Proofs.Offset.LineRule

/-!
Class diagrams further down in a document.
-/
namespace DiagramLint.ClassDiagram

open Text
open Placed (shift)

variable {k : Move}

instance : Placed Member := ⟨fun k m => { m with position := shift k m.position }⟩

instance : Placed Definition where
  shift k c := { c with members := shift k c.members, position := shift k c.position }

instance : Placed OuterMember := ⟨fun k m => { m with member := shift k m.member }⟩

instance : Placed OuterAnnotation := ⟨fun k a => { a with position := shift k a.position }⟩

instance : Placed Note := ⟨fun k n => { n with position := shift k n.position }⟩

instance : Placed Relationship := ⟨fun k r => { r with position := shift k r.position }⟩

instance : Placed ClassDiagram where
  shift k diagram :=
    { diagram with
      header := shift k diagram.header
      classes := shift k diagram.classes
      members := shift k diagram.members
      relationships := shift k diagram.relationships
      annotations := shift k diagram.annotations
      notes := shift k diagram.notes }

instance : Placed Draft where
  shift k d :=
    { d with
      classes := shift k d.classes
      members := shift k d.members
      relationships := shift k d.relationships
      annotations := shift k d.annotations
      notes := shift k d.notes
      body := shift k d.body }

/-! ### Members -/

theorem method?_shift (position : Position) (visibility : Option Visibility) (before after : Text) :
    method? (shift k position) visibility before after = shift k (method? position visibility before after) := by
  unfold method?
  cases cutLast? ')' after with
  | none => rfl
  | some parts =>
    show (if isMemberName (trim before) then _ else _) = shift k (if isMemberName (trim before) then _ else _)
    split
    · rfl
    · rfl

theorem field?_shift (position : Position) (visibility : Option Visibility) (t : Text) :
    field? (shift k position) visibility t = shift k (field? position visibility t) := by
  unfold field?
  dsimp only
  rw [apply_ite (shift k)]
  rfl

theorem member?_shift (position : Position) (t : Text) :
    member? (shift k position) t = shift k (member? position t) := by
  unfold member?
  dsimp only
  split
  · exact method?_shift ..
  · exact field?_shift ..

theorem member_shift (line : Line) (t : Text) : member (shift k line) t = shift k (member line t) := by
  unfold member
  rw [position_shift, member?_shift]
  cases member? line.position t with
  | none => rfl
  | some m => rfl

/-! ### Lines outside bodies -/

theorem classLine_moves : Moves k classLine := by
  intro d line
  unfold classLine
  rw [text_shift]
  split
  · rfl
  · dsimp only
    split
    · split
      · rfl
      · symm
        exact congrArg (fun classes => take { shift k d with classes := classes }) (shift_append d.classes _)
    · rfl

theorem annotationLine_moves : Moves k annotationLine := by
  intro d line
  unfold annotationLine
  rw [text_shift]
  split
  · rfl
  · split
    · symm
      exact congrArg (fun annotations => take { shift k d with annotations := annotations })
        (shift_append d.annotations _)
    · rfl

theorem noteLine_moves : Moves k noteLine := by
  intro d line
  unfold noteLine
  rw [text_shift]
  split
  · rfl
  · dsimp only
    split
    · rfl
    · symm
      exact congrArg (fun notes => take { shift k d with notes := notes }) (shift_append d.notes _)

theorem directionLine_moves : Moves k directionLine := by
  intro d line
  unfold directionLine
  rw [text_shift]
  split
  · rfl
  · next rest _ =>
    rw [direction_shift]
    cases line.direction rest with
    | error e => rfl
    | ok direction => rfl

theorem relationship_shift (line : Line) (before : List Text) (relation : Relation) (after : List Text)
    (label : Option Text) : relationship (shift k line) before relation after label =
      shift k (relationship line before relation after label) := by
  unfold relationship
  split
  · rfl
  · rfl
  · split
    · rfl
    · rfl

theorem relationshipLine_moves : Moves k relationshipLine := by
  intro d line
  unfold relationshipLine
  rw [text_shift]
  dsimp only
  split
  · rfl
  · rw [relationship_shift]
    refine result_map_shift ?_ _
    intro r
    exact congrArg (fun relationships => some { shift k d with relationships := relationships })
      (shift_append d.relationships [r]).symm

theorem memberLine_moves : Moves k memberLine := by
  intro d line
  unfold memberLine
  rw [text_shift]
  split
  · rfl
  · next owner text _ =>
    split
    · rw [member_shift]
      refine result_map_shift ?_ _
      intro m
      exact congrArg (fun members => some { shift k d with members := members })
        (shift_append d.members [⟨owner, m⟩]).symm
    · rfl

/-! ### Lines of bodies -/

theorem closeLine_moves : Moves k closeLine := by
  intro d line
  unfold closeLine
  rw [text_shift]
  split
  · have closed : shift k (d.classes ++ d.body.toList) = shift k d.classes ++ (shift k d.body).toList := by
      rw [shift_append, toList_shift]
    exact congrArg (fun classes => take { shift k d with classes := classes, body := none }) closed.symm
  · rfl

theorem bodyAnnotationLine_moves : Moves k bodyAnnotationLine := by
  intro d line
  unfold bodyAnnotationLine
  rw [text_shift]
  split
  · rfl
  · next stereotype _ =>
    have annotated : (shift k d.body).map (fun c => { c with stereotype := some stereotype }) =
        shift k (d.body.map fun c => { c with stereotype := some stereotype }) := by
      refine option_map_shift ?_ _
      intro c
      rfl
    exact congrArg (fun body => take { shift k d with body := body }) annotated
  · rfl

theorem bodyMemberLine_moves : Moves k bodyMemberLine := by
  intro d line
  unfold bodyMemberLine
  rw [text_shift, member_shift]
  refine result_map_shift ?_ _
  intro m
  have longer : (shift k d.body).map (fun c => { c with members := c.members ++ [shift k m] }) =
      shift k (d.body.map fun c => { c with members := c.members ++ [m] }) := by
    refine option_map_shift ?_ _
    intro c
    exact congrArg (fun members => { shift k c with members := members }) (shift_append c.members [m]).symm
  exact congrArg (fun body => some { shift k d with body := body }) longer

theorem rules_move (d : Draft) : ∀ rule ∈ rules d, Moves k rule.read := by
  unfold rules
  split
  · simp only [bodyRules, List.forall_mem_cons]
    exact ⟨closeLine_moves, bodyAnnotationLine_moves, bodyMemberLine_moves, nofun⟩
  · simp only [outerRules, List.forall_mem_cons]
    exact ⟨classLine_moves, annotationLine_moves, noteLine_moves, directionLine_moves, relationshipLine_moves,
      memberLine_moves, nofun⟩

theorem rules_shift (d : Draft) : rules (shift k d) = rules d := by
  unfold rules
  rw [show (shift k d).body = shift k d.body from rfl, isSome_shift]

/-- A class diagram is read further down as it is read. -/
theorem read_shift (s : Source) : read (shift k s) = shift k (read s) := by
  refine bareRead_shift rules_move rules_shift rfl ?_ "classDiagram" s
  intro header d
  have body : (shift k d).body = shift k d.body := rfl
  rw [body]
  cases d.body with
  | some c => rfl
  | none => rfl

/-! ### Checks -/

theorem declarations_shift (diagram : ClassDiagram) : (shift k diagram).declarations = shift k diagram.declarations := by
  refine map_shift ?_ diagram.classes
  intro c
  rfl

theorem duplicateClasses_shift (diagram : ClassDiagram) :
    duplicateClasses (shift k diagram) = shift k (duplicateClasses diagram) := by
  unfold duplicateClasses
  rw [declarations_shift]
  exact Duplicates.findings_shift (.empty "class") _

theorem allMembers_shift (diagram : ClassDiagram) : (shift k diagram).allMembers = shift k diagram.allMembers := by
  have inner : (shift k diagram.classes).flatMap (fun c => c.members.map (OuterMember.mk c.id)) =
      shift k (diagram.classes.flatMap fun c => c.members.map (OuterMember.mk c.id)) := by
    refine flatMap_shift ?_ diagram.classes
    intro c
    refine map_shift ?_ c.members
    intro m
    rfl
  unfold allMembers
  show List.mergeSort ((shift k diagram.classes).flatMap _ ++ shift k diagram.members) _ = _
  rw [inner, ← shift_append]
  refine mergeSort_shift ?_ _
  intro m
  rfl

theorem duplicateMembers_shift (diagram : ClassDiagram) :
    duplicateMembers (shift k diagram) = shift k (duplicateMembers diagram) := by
  unfold duplicateMembers
  rw [allMembers_shift]
  refine Duplicates.findings_map_shift ?_ (.empty "member") diagram.allMembers
  intro m
  rfl

theorem relationEnds_shift (diagram : ClassDiagram) : (shift k diagram).relationEnds = shift k diagram.relationEnds := by
  refine flatMap_shift ?_ diagram.relationships
  intro r
  rfl

theorem undefinedClasses_shift (diagram : ClassDiagram) :
    undefinedClasses (shift k diagram) = shift k (undefinedClasses diagram) := by
  have declared : (References.empty "class").declareAll (shift k diagram.declarations) =
      shift k ((References.empty "class").declareAll diagram.declarations) :=
    References.declareAll_shift (.empty "class") _
  unfold undefinedClasses
  dsimp only
  rw [declarations_shift, relationEnds_shift, declared, References.declareAll_shift, References.isEmpty_shift]
  rw [shift_append, shift_append, shift_append]
  generalize (References.empty "class").declareAll diagram.declarations = declared
  congr 1
  · congr 1
    · congr 1
      · split
        · rfl
        · refine filterMap_shift ?_ _
          rintro ⟨id, position⟩
          exact References.check_shift ..
      · refine filterMap_shift ?_ diagram.notes
        intro n
        show n.target.bind _ = shift k (n.target.bind _)
        cases n.target with
        | none => rfl
        | some id => exact References.check_shift ..
    · refine filterMap_shift ?_ diagram.annotations
      intro a
      exact References.check_shift ..
  · refine filterMap_shift ?_ diagram.members
    intro m
    exact References.check_shift ..

end DiagramLint.ClassDiagram
