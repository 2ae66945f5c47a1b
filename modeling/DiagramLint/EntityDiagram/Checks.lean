import DiagramLint.Check.Duplicates
import DiagramLint.Check.Vocabulary
import DiagramLint.EntityDiagram.Basic

/-!
What can be wrong with an entity-relationship diagram that was read. An entity may be named many
times, but only once with a body.
-/
namespace DiagramLint.EntityDiagram

/-- Entities with more than one body. -/
def duplicateBodies (diagram : EntityDiagram) : List Finding :=
  (Duplicates.empty "entity").findings
    ((diagram.entities.filter fun e => e.hasBody).map fun e => (e.name, e.position))

/-- The attributes of an entity, each named with its entity. -/
def Entity.attributeNames (e : Entity) : List (Text × Position) :=
  e.attributes.map fun a => (e.name ++ '.' :: a.name, a.position)

/-- Attributes that an entity has more than once, counting all its bodies. -/
def duplicateAttributes (diagram : EntityDiagram) : List Finding :=
  (Duplicates.empty "attribute").findings (diagram.entities.flatMap Entity.attributeNames)

/-- The keys of attributes. -/
def attributeKey : Vocabulary := ⟨"attribute key", ["PK", "FK", "UK"]⟩

/-- Attributes with an unknown key. -/
def attributeKeys (diagram : EntityDiagram) : List Finding :=
  (diagram.entities.flatMap Entity.attributes).flatMap fun a =>
    a.keys.filterMap fun key => attributeKey.check key a.position

end DiagramLint.EntityDiagram
