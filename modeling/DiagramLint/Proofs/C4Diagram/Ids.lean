import DiagramLint.Proofs.Coverage.C4Diagram
import DiagramLint.Proofs.LineOrder
import DiagramLint.Proofs.Names
import DiagramLint.RuleSet
import Mathlib.Data.List.Perm.Subperm

/-!
The ids of C4 diagrams. Elements and boundaries of all depths share their ids. A boundary's elements are kept in front
of its boundaries, whatever their order in the text, but no two of them are in one line, so sorting finds the order of
the text again. An id is found if an earlier element or boundary has it, and its use is found if none has it, be it
earlier or later (`findings_about_ids`).
-/
namespace DiagramLint.C4Diagram

open Text

/-! ### Ids and their uses -/

/-- The id of an element or a boundary, and where it stands. -/
def Entity.named? : Entity → Option (Text × Position)
  | .element e => some (e.id, e.position)
  | .boundary f => some (f.id, f.position)
  | .relationship _ | .style _ => none

/-- A use of an id, and what uses it. -/
structure Use where
  id : Text
  position : Position
  context : String
  deriving DecidableEq, Repr

/-- The ids at the ends of relationships, and then those of styles. -/
def uses (d : C4Diagram) : List Use :=
  (d.relationships.flatMap fun r => [⟨r.source, r.position, "relationship"⟩, ⟨r.target, r.position, "relationship"⟩]) ++
    d.styles.flatMap fun s => s.targets.map fun id => ⟨id, s.position, s!"`{s.kind.keyword}`"⟩

/-- What is found about some ids and their uses. -/
structure AboutIds (ids : List (Text × Position)) (uses : List Use) (found : List Finding) : Prop where
  duplicates : (found.filter fun f => f.code = some .e300) =
    (repeats Prod.fst ids).map fun (named, first) => Duplicates.finding "element" named.1 named.2 first.2
  undefined : (found.filter fun f => f.code = some .e301) =
    (uses.filter fun use => use.id ∉ ids.map Prod.fst).map fun use =>
      References.finding "element" use.id use.position use.context

variable {d : C4Diagram} {text : Text} {offset : Nat}

/-! ### All ids -/

namespace Boundary

theorem elementIds_eq (elements : List Element) :
    elementIds elements = (elements.map Entity.element).filterMap Entity.named? := by
  simp [elementIds, List.filterMap_map, Function.comp_def, Entity.named?]

mutual

theorem ids_eq : (b : Boundary) → ids b = (entities b).filterMap Entity.named?
  | .around frame elements boundaries => by
    rw [ids, entities, List.filterMap_cons, List.filterMap_append, ← elementIds_eq, ← idsOfAll_eq]
    rfl

theorem idsOfAll_eq : (bs : List Boundary) → idsOfAll bs = (entitiesOfAll bs).filterMap Entity.named?
  | [] => rfl
  | b :: rest => by rw [idsOfAll, entitiesOfAll, List.filterMap_append, ids_eq, idsOfAll_eq]

end

end Boundary

/-- The ids are those of the elements and boundaries of every depth. -/
theorem ids_of_entities (d : C4Diagram) :
    Boundary.elementIds d.elements ++ Boundary.idsOfAll d.boundaries = d.entities.filterMap Entity.named? := by
  have relationships : (d.relationships.map Entity.relationship).filterMap Entity.named? = [] := by
    simp [List.filterMap_eq_nil_iff, Entity.named?]
  have styles : (d.styles.map Entity.style).filterMap Entity.named? = [] := by
    simp [List.filterMap_eq_nil_iff, Entity.named?]
  rw [Boundary.elementIds_eq, Boundary.idsOfAll_eq]
  simp only [entities, Draft.entities, List.filterMap_append, relationships, styles, List.append_nil]

theorem identifiers_perm (d : C4Diagram) : d.identifiers.Perm (d.entities.filterMap Entity.named?) := by
  rw [← ids_of_entities]
  exact List.mergeSort_perm _ _

theorem places_of_ids (es : List Entity) :
    ((es.filterMap Entity.named?).map Prod.snd).Sublist (es.map Entity.position) := by
  induction es with
  | nil => exact .slnil
  | cons e es ih =>
    cases e with
    | element | boundary => exact ih.cons_cons _
    | relationship | style => exact ih.cons _

/-! ### Diagrams that are read -/

theorem exists_of_read {s : Source} (accepted : read s = .ok d) :
    d.header.kind.isC4 = true ∧ ∃ draft, readScope {} s.body = .ok draft ∧ draft.entities = d.entities := by
  obtain ⟨⟨header, keyword, rest⟩, -, behind⟩ := exists_of_bind_ok accepted
  dsimp only at behind
  split at behind
  · next kind found =>
    obtain ⟨draft, scope, made⟩ := exists_of_bind_ok behind
    obtain rfl := Except.ok.inj made
    exact ⟨(List.mem_filter.mp (List.mem_of_find?_eq_some found)).2, draft, scope, rfl⟩
  · cases behind

/-- The entities of a diagram are called in different lines. -/
theorem entities_in_lines (accepted : read (Source.ofText text offset) = .ok d) :
    (d.entities.map Entity.position).Subperm ((Source.ofText text offset).body.map Line.position) := by
  obtain ⟨-, draft, scope, held⟩ := exists_of_read accepted
  obtain ⟨visits, es, records⟩ := records_of_reads (reads_of_readScope scope) []
  have called : (es.map Entity.position).Sublist ((Source.ofText text offset).body.map Line.position) := by
    have inside := (records.recorded none).positions
    rw [← lines_of_visits? records.run, List.map_map]
    exact inside
  have same : d.entities.Perm es := by
    rw [← held]
    exact records.entities
  exact (same.map Entity.position).subperm.trans called.subperm

theorem identifiers_lineByLine (accepted : read (Source.ofText text offset) = .ok d) :
    LineByLine (d.identifiers.map Prod.snd) := by
  refine lineByLine_mergeSort (body_lineByLine text offset) ?_
  rw [ids_of_entities]
  exact (places_of_ids d.entities).subperm.trans (entities_in_lines accepted)

theorem findings_eq (accepted : read (Source.ofText text offset) = .ok d) :
    (Diagram.c4 d).findings = d.duplicateIds ++ (d.relationshipReferences ++ d.styleReferences) := by
  have c4 : d.header.kind.family? = some .c4 := by
    have kind := (exists_of_read accepted).1
    cases same : d.header.kind <;> simp [same, Kind.isC4] at kind <;> rfl
  unfold Diagram.findings RuleSet.findings RuleSet.ofKind Diagram.kind Diagram.header
  simp [c4, Family.rules, Rule.c4, Rule.on]

/-! ### Findings -/

theorem references_eq (d : C4Diagram) : d.relationshipReferences ++ d.styleReferences =
    d.uses.filterMap fun use => d.known.check use.id use.position use.context := by
  rw [uses, List.filterMap_append, List.filterMap_flatMap, List.filterMap_flatMap]
  simp only [relationshipReferences, styleReferences, List.filterMap_map]
  rfl

/-- What is found about ids: each of an element or a boundary that an earlier one has, with the first that has it,
and each in a relationship or a style that no element or boundary has. -/
theorem findings_about_ids (accepted : read (Source.ofText text offset) = .ok d) :
    ∃ ids, ids.Perm (d.entities.filterMap Entity.named?) ∧ LineByLine (ids.map Prod.snd) ∧
      AboutIds ids d.uses (Diagram.c4 d).findings := by
  have coded_duplicate : ∀ f ∈ d.duplicateIds, f.code = some .e300 := fun f found => code_of_duplicates found
  have coded_reference : ∀ f ∈ d.relationshipReferences ++ d.styleReferences, f.code = some .e301 := by
    intro f found
    rw [references_eq] at found
    obtain ⟨use, -, found⟩ := List.mem_filterMap.mp found
    exact code_of_reference found
  refine ⟨d.identifiers, identifiers_perm d, identifiers_lineByLine accepted, ?_, ?_⟩
  · rw [findings_eq accepted, List.filter_append, filter_code_eq_self coded_duplicate,
      filter_code_eq_nil coded_reference (by decide), List.append_nil]
    have found := Duplicates.findings_empty "element" Prod.fst Prod.snd d.identifiers
    rwa [List.map_id''] at found
    exact fun _ => rfl
  · rw [findings_eq accepted, List.filter_append, filter_code_eq_nil coded_duplicate (by decide),
      filter_code_eq_self coded_reference, List.nil_append, references_eq]
    exact References.checks_declareAll "element" d.identifiers Use.id Use.position Use.context d.uses

/-- Ids that are used before they are given, given again in another boundary, and used but not given. -/
def sharedIds : Text :=
  ("C4Context\nRel(a, z)\nBoundary(b, \"B\") \x7b\nBoundary(a, \"A\") \x7b\nPerson(b, \"P\")\n\x7d\n" ++
    "Person(a, \"Q\")\n\x7d\nUpdateElementStyle(q)").toList

theorem findings_about_ids_sharedIds : ∃ d, read (Source.ofText sharedIds 0) = .ok d ∧
    ∃ ids, ids.Perm (d.entities.filterMap Entity.named?) ∧ LineByLine (ids.map Prod.snd) ∧
      AboutIds ids d.uses (Diagram.c4 d).findings := by
  obtain ⟨d, accepted⟩ := exists_of_isOk (x := read (Source.ofText sharedIds 0)) (by decide +kernel)
  exact ⟨d, accepted, findings_about_ids accepted⟩

end DiagramLint.C4Diagram
