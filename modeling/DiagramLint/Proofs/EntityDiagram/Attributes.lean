import DiagramLint.Proofs.Coverage.EntityDiagram
import DiagramLint.Proofs.LineOrder
import DiagramLint.Proofs.Names

/-!
Attributes that entities have more than once. The bodies of entities of one name count as one, and the attributes of all
bodies are in the order of their lines. Each is told by one text, the name of its entity and its own name with a full
stop between the two. Both may hold full stops, so the text tells the two only where no name of an entity goes on behind
another one and a full stop (`findings_about_attributes`).
-/
namespace DiagramLint.EntityDiagram

open Text

/-- An attribute with the name of its entity. -/
structure OwnedAttribute where
  owner : Text
  held : Attribute
  deriving DecidableEq, Repr

namespace OwnedAttribute

/-- Where an attribute stands. -/
def position (a : OwnedAttribute) : Position := a.held.position

/-- The name of the entity and that of the attribute. -/
def key (a : OwnedAttribute) : Text × Text := (a.owner, a.held.name)

/-- The name of the entity and that of the attribute in one text. -/
def joined (a : OwnedAttribute) : Text := a.owner ++ '.' :: a.held.name

end OwnedAttribute

/-- The attributes of all bodies, body by body. -/
def owned (d : EntityDiagram) : List OwnedAttribute :=
  d.entities.flatMap fun e => e.attributes.map (OwnedAttribute.mk e.name)

/-- What is found about attributes in the order of their lines. -/
structure AboutAttributes (attributes : List OwnedAttribute) (found : List Finding) : Prop where
  joined : found = (repeats OwnedAttribute.joined attributes).map fun (a, first) =>
    Duplicates.finding "attribute" a.joined a.position first.position
  /-- Where the two names are told by their text, attributes of entities with different names are not found. -/
  apart : (∀ a ∈ attributes, ∀ b ∈ attributes, ¬ Continues a.owner b.owner) →
    found = (repeats OwnedAttribute.key attributes).map fun (a, first) =>
      Duplicates.finding "attribute" a.joined a.position first.position

variable {diagram : EntityDiagram} {text : Text} {offset : Nat}

/-- The attributes are in the order of their lines. -/
theorem owned_lineByLine (accepted : read (Source.ofText text offset) = .ok diagram) :
    LineByLine (diagram.owned.map OwnedAttribute.position) := by
  have recorded := (read_covers accepted).ordered _ List.mem_cons_self
  have lines := (plan.recorded_sublist false (Source.ofText text offset).body).map Line.position
  have inside : (diagram.owned.map OwnedAttribute.position).Sublist (diagram.entities.flatMap Entity.places) := by
    rw [owned, List.map_flatMap]
    refine List.Sublist.flatMap_right _ fun e _ => ?_
    rw [List.map_map]
    exact List.sublist_cons_self _ _
  exact (body_lineByLine text offset).sublist (inside.trans (recorded.trans lines))

theorem kind_of_read {s : Source} (accepted : read s = .ok diagram) : diagram.header.kind = .er := by
  obtain ⟨⟨header, keyword, rest⟩, -, accepted⟩ := exists_of_bind_ok accepted
  dsimp only at accepted
  obtain ⟨direction, -, accepted⟩ := exists_of_bind_ok accepted
  obtain ⟨d, -, accepted⟩ := exists_of_bind_ok accepted
  split at accepted
  · cases accepted
  · obtain rfl := Except.ok.inj accepted
    rfl

theorem foundBy_attributes {s : Source} (accepted : read s = .ok diagram) :
    (Diagram.entities diagram).foundBy "er-duplicate-attribute" = diagram.duplicateAttributes := by
  have family : (Diagram.entities diagram).kind.family? = some .entities :=
    congrArg Kind.family? (kind_of_read accepted)
  rw [Diagram.foundBy_of_family family]
  simp [Family.rules, Rule.entities, Rule.on]

theorem about_attributes (diagram : EntityDiagram) : AboutAttributes diagram.owned diagram.duplicateAttributes := by
  have names : diagram.entities.flatMap Entity.attributeNames = diagram.owned.map fun a => (a.joined, a.position) := by
    rw [owned, List.map_flatMap]
    simp only [List.map_map]
    rfl
  rw [duplicateAttributes, names, Duplicates.findings_empty]
  refine ⟨rfl, fun apart => ?_⟩
  have keys : repeats OwnedAttribute.joined diagram.owned = repeats OwnedAttribute.key diagram.owned := by
    refine repeatsBehind_congr fun a member b member' => ?_
    rw [OwnedAttribute.key, OwnedAttribute.key, Prod.mk.injEq]
    exact joined_inj (apart a member b member') (apart b member' a member)
  rw [keys]

/-- Attributes are found if the name of an earlier one is the same text, joined with that of its entity. -/
theorem findings_about_attributes (accepted : read (Source.ofText text offset) = .ok diagram) :
    LineByLine (diagram.owned.map OwnedAttribute.position) ∧
      AboutAttributes diagram.owned ((Diagram.entities diagram).foundBy "er-duplicate-attribute") := by
  rw [foundBy_attributes accepted]
  exact ⟨owned_lineByLine accepted, about_attributes diagram⟩

/-- Two bodies of one entity with one attribute in both, and an entity between them that has it, too. -/
def sharedAttribute : Text :=
  "erDiagram\nA \x7b\n int c\n\x7d\nB \x7b\n int c\n\x7d\nA \x7b\n int d\n string *c\n\x7d".toList

theorem findings_about_attributes_sharedAttribute :
    ∃ diagram, read (Source.ofText sharedAttribute 0) = .ok diagram ∧
      LineByLine (diagram.owned.map OwnedAttribute.position) ∧
        AboutAttributes diagram.owned ((Diagram.entities diagram).foundBy "er-duplicate-attribute") := by
  obtain ⟨diagram, accepted⟩ := exists_of_isOk (x := read (Source.ofText sharedAttribute 0)) (by decide +kernel)
  exact ⟨diagram, accepted, findings_about_attributes accepted⟩

/-- An attribute of one entity, and one of another that goes on with its name. -/
def dottedEntity : Text := "erDiagram\nA.B \x7b\n int c\n\x7d\nA \x7b\n int B.c\n\x7d".toList

/-- The two entities have different names, and so have the attributes, and the second attribute is found. -/
theorem dottedEntity_found : ∃ diagram, read (Source.ofText dottedEntity 0) = .ok diagram ∧
    diagram.owned.map OwnedAttribute.key = [("A.B".toList, "c".toList), ("A".toList, "B.c".toList)] ∧
    (Diagram.entities diagram).foundBy "er-duplicate-attribute" =
      [Duplicates.finding "attribute" "A.B.c".toList ⟨6, 2⟩ ⟨3, 2⟩] := by
  let diagram : EntityDiagram :=
    ⟨⟨.er, dottedEntity, ⟨1, 1⟩⟩, none,
      [⟨"A.B".toList, none, true, [⟨"int".toList, "c".toList, [], none, ⟨3, 2⟩⟩], ⟨2, 1⟩⟩,
       ⟨"A".toList, none, true, [⟨"int".toList, "B.c".toList, [], none, ⟨6, 2⟩⟩], ⟨5, 1⟩⟩], []⟩
  refine ⟨diagram, ?_, ?_, ?_⟩
  · decide +kernel
  · rfl
  · decide +kernel

end DiagramLint.EntityDiagram
