import DiagramLint.Proofs.ClassDiagram.Parts
import DiagramLint.Proofs.Names
import Mathlib.Data.List.Perm.Basic

/-!
Classes that are named but not known. Relations make classes known to notes, annotations and members, but a relation is
held to the declarations, if there are any. The order of the lines does not matter, so what is found stays the same
but for its places when the parts of a diagram are moved (`findings_about_uses`).
-/
namespace DiagramLint.ClassDiagram

open Text

/-- The word for what an id is there for. -/
def Role.name : Role → String
  | .declaration => "class"
  | .relationship => "relationship"
  | .note => "note"
  | .stereotype => "annotation"
  | .member => "member"

/-- An id in a diagram. -/
structure Mention where
  role : Role
  id : Text
  position : Position
  deriving DecidableEq, Repr

/-- The ids of a diagram that are there for one thing, with their places: of a relation both ends, the source first. -/
def mentionsOf (diagram : ClassDiagram) : Role → List Mention
  | .declaration => diagram.classes.map fun c => ⟨.declaration, c.id, c.position⟩
  | .relationship => diagram.relationships.flatMap fun r =>
    [⟨.relationship, r.source, r.position⟩, ⟨.relationship, r.target, r.position⟩]
  | .note => diagram.notes.filterMap fun n => n.target.map fun id => ⟨.note, id, n.position⟩
  | .stereotype => diagram.annotations.map fun a => ⟨.stereotype, a.owner, a.position⟩
  | .member => diagram.members.map fun m => ⟨.member, m.owner, m.member.position⟩

/-- The ids in a diagram. -/
def mentions (diagram : ClassDiagram) : List Mention :=
  [.declaration, .relationship, .note, .stereotype, .member].flatMap diagram.mentionsOf

/-- The id is that of a declared class, or a relation makes it known: a relation itself where no class is declared, and
any relation where something else has the id. -/
abbrev Known (diagram : ClassDiagram) (m : Mention) : Prop :=
  m.id ∈ diagram.ids .declaration ∨
    if m.role = .relationship then diagram.ids .declaration = [] else m.id ∈ diagram.ids .relationship

/-- What is found about an id that is not known. -/
def Mention.finding (m : Mention) : Finding := References.finding "class" m.id m.position m.role.name

variable {diagram diagram' : ClassDiagram} {s s' : Source} {m : Mention} {ms : List Mention}
  {role : Role}

/-! ### What is found -/

theorem role_of_mentionsOf (member : m ∈ diagram.mentionsOf role) : m.role = role := by
  cases role with
  | declaration =>
    obtain ⟨c, -, rfl⟩ := List.mem_map.mp member
    rfl
  | relationship =>
    obtain ⟨r, -, inside⟩ := List.mem_flatMap.mp member
    simp only [List.mem_cons, List.not_mem_nil, or_false] at inside
    rcases inside with rfl | rfl <;> rfl
  | note =>
    obtain ⟨n, -, made⟩ := List.mem_filterMap.mp member
    obtain ⟨id, -, rfl⟩ := Option.map_eq_some_iff.mp made
    rfl
  | stereotype =>
    obtain ⟨a, -, rfl⟩ := List.mem_map.mp member
    rfl
  | member =>
    obtain ⟨o, -, rfl⟩ := List.mem_map.mp member
    rfl

theorem id_mentionsOf (diagram : ClassDiagram) (role : Role) :
    (diagram.mentionsOf role).map Mention.id = diagram.ids role := by
  cases role with
  | relationship => simp [mentionsOf, ids, List.map_flatMap]
  | note => simp [mentionsOf, ids, List.map_filterMap, Option.map_map, Function.comp_def]
  | declaration | stereotype | member => simp [mentionsOf, ids, Function.comp_def]

theorem declarations_ids (diagram : ClassDiagram) : diagram.declarations.map Prod.fst = diagram.ids .declaration := by
  simp [declarations, ids, Function.comp_def]

theorem relationEnds_ids (diagram : ClassDiagram) : diagram.relationEnds.map Prod.fst = diagram.ids .relationship := by
  simp [relationEnds, ids, List.map_flatMap]

/-- Names that are declared tell which ids are known. -/
theorem found_of_names (names : List (Text × Position)) (told : ∀ m ∈ ms, diagram.Known m ↔ m.id ∈ names.map Prod.fst) :
    (ms.filterMap fun m => ((References.empty "class").declareAll names).check m.id m.position m.role.name) =
      (ms.filter fun m => ¬ diagram.Known m).map Mention.finding := by
  rw [References.checks_declareAll]
  refine congrArg (List.map Mention.finding) (List.filter_congr fun m member => ?_)
  exact decide_eq_decide.mpr (not_congr (told m member).symm)

/-- Relations are held to the declarations, if there are any. -/
theorem found_of_relations (diagram : ClassDiagram) :
    (if ((References.empty "class").declareAll diagram.declarations).isEmpty then []
      else diagram.relationEnds.filterMap fun (id, position) =>
        ((References.empty "class").declareAll diagram.declarations).check id position "relationship") =
      ((diagram.mentionsOf .relationship).filter fun m => ¬ diagram.Known m).map Mention.finding := by
  have empty_iff : ((References.empty "class").declareAll diagram.declarations).isEmpty = true ↔
      diagram.ids .declaration = [] := by
    rw [References.isEmpty_declareAll, ← declarations_ids, List.map_eq_nil_iff]
  have known {m : Mention} (member : m ∈ diagram.mentionsOf .relationship) :
      diagram.Known m ↔ m.id ∈ diagram.ids .declaration ∨ diagram.ids .declaration = [] := by
    rw [Known, if_pos (role_of_mentionsOf member)]
  by_cases undeclared : diagram.ids .declaration = []
  · have all_known : (diagram.mentionsOf .relationship).filter (fun m => ¬ diagram.Known m) = [] :=
      List.filter_eq_nil_iff.mpr fun m member => by simp [(known member).mpr (.inr undeclared)]
    rw [if_pos (empty_iff.mpr undeclared), all_known, List.map_nil]
  · rw [if_neg (mt empty_iff.mp undeclared), ← found_of_names diagram.declarations]
    · have ends : diagram.relationEnds = (diagram.mentionsOf .relationship).map fun m => (m.id, m.position) := by
        simp [relationEnds, mentionsOf, List.map_flatMap]
      rw [ends, List.filterMap_map]
      refine List.filterMap_congr fun m member => ?_
      rw [role_of_mentionsOf member]
      rfl
    · intro m member
      rw [known member, declarations_ids]
      simp [undeclared]

/-- Other ids are held to the declarations and the relations. -/
theorem found_of_others (diagram : ClassDiagram) (role : Role) (other : role ≠ .relationship) :
    ((diagram.mentionsOf role).filterMap fun m =>
      (((References.empty "class").declareAll diagram.declarations).declareAll diagram.relationEnds).check
        m.id m.position m.role.name) =
      ((diagram.mentionsOf role).filter fun m => ¬ diagram.Known m).map Mention.finding := by
  rw [← References.declareAll_append]
  refine found_of_names _ fun m member => ?_
  rw [Known, if_neg (by rwa [role_of_mentionsOf member]), List.map_append, List.mem_append, declarations_ids,
    relationEnds_ids]

theorem undefinedClasses_eq (diagram : ClassDiagram) :
    diagram.undefinedClasses = (diagram.mentions.filter fun m => ¬ diagram.Known m).map Mention.finding := by
  have declared : (diagram.mentionsOf .declaration).filter (fun m => ¬ diagram.Known m) = [] := by
    refine List.filter_eq_nil_iff.mpr fun m member => ?_
    have listed : m.id ∈ diagram.ids .declaration := id_mentionsOf diagram .declaration ▸ List.mem_map_of_mem member
    simp [Known, listed]
  have notes := found_of_others diagram .note (by decide)
  have annotations := found_of_others diagram .stereotype (by decide)
  have members := found_of_others diagram .member (by decide)
  simp only [mentions, List.flatMap_cons, List.flatMap_nil, List.filter_append, List.map_append, declared,
    ← found_of_relations, ← notes, ← annotations, ← members]
  simp [undefinedClasses, mentionsOf, Role.name, List.filterMap_filterMap, List.filterMap_map, Option.bind_map]

theorem foundBy_uses (accepted : read s = .ok diagram) : (Diagram.classes diagram).foundBy "class-undefined-class" =
    (diagram.mentions.filter fun m => ¬ diagram.Known m).map Mention.finding := by
  have family : (Diagram.classes diagram).kind.family? = some .classes :=
    congrArg Kind.family? (kind_of_read accepted)
  rw [Diagram.foundBy_of_family family, ← undefinedClasses_eq]
  simp [Family.rules, Rule.classes, Rule.on]

/-! ### Other orders -/

/-- The id without its place. -/
def Mention.unplaced (m : Mention) : Mention := { m with position := .origin }

theorem unplaced_mentions (diagram : ClassDiagram) : diagram.mentions.map Mention.unplaced =
    [Role.declaration, .relationship, .note, .stereotype, .member].flatMap fun role =>
      (diagram.ids role).map fun id => ⟨role, id, .origin⟩ := by
  rw [mentions, List.map_flatMap]
  refine List.flatMap_congr fun role _ => ?_
  rw [← id_mentionsOf, List.map_map]
  refine List.map_congr_left fun m member => ?_
  rw [Mention.unplaced, role_of_mentionsOf member]
  rfl

theorem known_congr (same : ∀ role, (diagram'.ids role).Perm (diagram.ids role)) (m : Mention) :
    diagram'.Known m ↔ diagram.Known m := by
  have none_declared : diagram'.ids .declaration = [] ↔ diagram.ids .declaration = [] := by
    constructor
    · intro empty
      exact List.perm_nil.mp (empty ▸ (same .declaration).symm)
    · intro empty
      exact List.perm_nil.mp (empty ▸ same .declaration)
  unfold Known
  rw [(same .declaration).mem_iff, (same .relationship).mem_iff, none_declared]

/-- The same ids in another order make the same findings in another order. -/
theorem undefinedClasses_perm (same : ∀ role, (diagram'.ids role).Perm (diagram.ids role)) :
    (diagram'.undefinedClasses.map Finding.unplaced).Perm (diagram.undefinedClasses.map Finding.unplaced) := by
  have unplaced (diagram : ClassDiagram) : diagram.undefinedClasses.map Finding.unplaced =
      ((diagram.mentions.map Mention.unplaced).filter fun m => ¬ diagram.Known m).map Mention.finding := by
    rw [undefinedClasses_eq, List.map_map, List.filter_map, List.map_map]
    rfl
  rw [unplaced, unplaced, unplaced_mentions, unplaced_mentions]
  simp only [known_congr same]
  refine List.Perm.map _ (List.Perm.filter _ (List.Perm.flatMap_left _ fun role _ => ?_))
  exact (same role).map _

/-- Just the ids that are not known are found, and if the parts of the diagram are moved, the same is found
elsewhere. -/
theorem findings_about_uses (accepted : read s = .ok diagram) :
    (Diagram.classes diagram).foundBy "class-undefined-class" =
      (diagram.mentions.filter fun m => ¬ diagram.Known m).map Mention.finding ∧
    ∀ s', (∃ header, s'.bareHeader "classDiagram" = .ok header) → Moved s s' → ∃ diagram', read s' = .ok diagram' ∧
      (((Diagram.classes diagram').foundBy "class-undefined-class").map Finding.unplaced).Perm
        (((Diagram.classes diagram).foundBy "class-undefined-class").map Finding.unplaced) := by
  refine ⟨foundBy_uses accepted, fun s' headed moved => ?_⟩
  obtain ⟨diagram', accepted', same⟩ := ids_of_moved accepted headed moved
  refine ⟨diagram', accepted', ?_⟩
  rw [foundBy_uses accepted', foundBy_uses accepted, ← undefinedClasses_eq, ← undefinedClasses_eq]
  exact undefinedClasses_perm same

/-- Classes that are declared behind their uses, one that only a relation introduces, and one that nothing does. -/
def declaredLast : Text :=
  "classDiagram
A --> B : uses
note for C text
B : f
<<i>> D
class A {
<<j>>
g
}
class C".toList

/-- The same lines with the declarations in front. -/
def declaredFirst : Text :=
  "classDiagram
class C
 class A {
 <<j>>
 g
}

B : f
A --> B : uses
<<i>> D
note for C text".toList

theorem findings_about_uses_declaredLast : ∃ diagram, read (Source.ofText declaredLast 0) = .ok diagram ∧
    (Diagram.classes diagram).foundBy "class-undefined-class" =
      (diagram.mentions.filter fun m => ¬ diagram.Known m).map Mention.finding ∧
    ∃ diagram', read (Source.ofText declaredFirst 0) = .ok diagram' ∧
      (((Diagram.classes diagram').foundBy "class-undefined-class").map Finding.unplaced).Perm
        (((Diagram.classes diagram).foundBy "class-undefined-class").map Finding.unplaced) := by
  obtain ⟨diagram, accepted⟩ := exists_of_isOk (x := read (Source.ofText declaredLast 0)) (by decide +kernel)
  have headed := exists_of_isOk (x := (Source.ofText declaredFirst 0).bareHeader "classDiagram") (by decide +kernel)
  have moved : Moved (Source.ofText declaredLast 0) (Source.ofText declaredFirst 0) := by
    unfold Moved
    decide +kernel
  obtain ⟨found, elsewhere⟩ := findings_about_uses accepted
  exact ⟨diagram, accepted, found, elsewhere _ headed moved⟩

end DiagramLint.ClassDiagram
