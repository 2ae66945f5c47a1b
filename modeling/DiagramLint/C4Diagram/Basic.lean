import DiagramLint.LineRule

/-!
C4 diagrams: elements of a software system, boundaries around them that may hold further boundaries,
relationships, and changes of style. Relationships and styles belong to the whole diagram wherever
they are written.
-/
namespace DiagramLint

namespace C4Diagram

/-- What an element is. -/
inductive ElementKind where
  | person | personExt
  | system | systemExt | systemDb | systemDbExt | systemQueue | systemQueueExt
  | container | containerExt | containerDb | containerQueue
  | component | componentExt | componentDb | componentQueue
  | node | deploymentNode
  deriving DecidableEq, Repr

namespace ElementKind

/-- Every kind of element. -/
def all : List ElementKind :=
  [.person, .personExt, .system, .systemExt, .systemDb, .systemDbExt, .systemQueue,
   .systemQueueExt, .container, .containerExt, .containerDb, .containerQueue, .component,
   .componentExt, .componentDb, .componentQueue, .node, .deploymentNode]

/-- The keyword of an element. -/
def keyword : ElementKind → String
  | .person => "Person"
  | .personExt => "Person_Ext"
  | .system => "System"
  | .systemExt => "System_Ext"
  | .systemDb => "SystemDb"
  | .systemDbExt => "SystemDb_Ext"
  | .systemQueue => "SystemQueue"
  | .systemQueueExt => "SystemQueue_Ext"
  | .container => "Container"
  | .containerExt => "Container_Ext"
  | .containerDb => "ContainerDb"
  | .containerQueue => "ContainerQueue"
  | .component => "Component"
  | .componentExt => "Component_Ext"
  | .componentDb => "ComponentDb"
  | .componentQueue => "ComponentQueue"
  | .node => "Node"
  | .deploymentNode => "Deployment_Node"

/-- The kind with a keyword. -/
def ofKeyword? (t : Text) : Option ElementKind := all.find? fun kind => kind.keyword.toList == t

/-- Containers and components name their technology. -/
def namesTechnology : ElementKind → Bool
  | .container | .containerExt | .containerDb | .containerQueue
  | .component | .componentExt | .componentDb | .componentQueue => true
  | _ => false

/-- Nodes have a type, which counts as their technology. -/
def isNode : ElementKind → Bool
  | .node | .deploymentNode => true
  | _ => false

end ElementKind

/-- What a boundary is. -/
inductive BoundaryKind where
  | plain | enterprise | system | container | deploymentNode | node
  deriving DecidableEq, Repr

namespace BoundaryKind

/-- Every kind of boundary. -/
def all : List BoundaryKind :=
  [.plain, .enterprise, .system, .container, .deploymentNode, .node]

/-- The keyword of a boundary. -/
def keyword : BoundaryKind → String
  | .plain => "Boundary"
  | .enterprise => "Enterprise_Boundary"
  | .system => "System_Boundary"
  | .container => "Container_Boundary"
  | .deploymentNode => "Deployment_Node"
  | .node => "Node"

/-- The kind with a keyword. -/
def ofKeyword? (t : Text) : Option BoundaryKind := all.find? fun kind => kind.keyword.toList == t

end BoundaryKind

/-- What a relationship asks of the layout. -/
inductive RelationshipKind where
  | plain | back | neighbor | down | up | left | right | both
  deriving DecidableEq, Repr

namespace RelationshipKind

/-- Every kind of relationship. -/
def all : List RelationshipKind := [.plain, .back, .neighbor, .down, .up, .left, .right, .both]

/-- The keywords of a relationship; the four directions have a short one too. -/
def keywords : RelationshipKind → List String
  | .plain => ["Rel"]
  | .back => ["Rel_Back"]
  | .neighbor => ["Rel_Neighbor"]
  | .down => ["Rel_Down", "Rel_D"]
  | .up => ["Rel_Up", "Rel_U"]
  | .left => ["Rel_Left", "Rel_L"]
  | .right => ["Rel_Right", "Rel_R"]
  | .both => ["BiRel"]

/-- The kind with a keyword. -/
def ofKeyword? (t : Text) : Option RelationshipKind :=
  all.find? fun kind => kind.keywords.any fun keyword => keyword.toList == t

end RelationshipKind

/-- What a style changes. -/
inductive StyleKind where
  | elementStyle | relationshipStyle | boundaryStyle | layout | elementTag | relationshipTag
  deriving DecidableEq, Repr

namespace StyleKind

/-- Every kind of style. -/
def all : List StyleKind :=
  [.elementStyle, .relationshipStyle, .boundaryStyle, .layout, .elementTag, .relationshipTag]

/-- The keyword of a style. -/
def keyword : StyleKind → String
  | .elementStyle => "UpdateElementStyle"
  | .relationshipStyle => "UpdateRelStyle"
  | .boundaryStyle => "UpdateBoundaryStyle"
  | .layout => "UpdateLayoutConfig"
  | .elementTag => "AddElementTag"
  | .relationshipTag => "AddRelTag"

/-- The kind with a keyword. -/
def ofKeyword? (t : Text) : Option StyleKind := all.find? fun kind => kind.keyword.toList == t

/-- How many ids a style begins with. -/
def targetCount : StyleKind → Nat
  | .elementStyle | .boundaryStyle => 1
  | .relationshipStyle => 2
  | .layout | .elementTag | .relationshipTag => 0

/-- Tags may begin with their name. -/
def isTag : StyleKind → Bool
  | .elementTag | .relationshipTag => true
  | _ => false

end StyleKind

/-- What elements, boundaries and relationships alike may say about themselves. -/
structure Details where
  label : Option Text
  description : Option Text
  sprite : Option Text
  tags : Option Text
  link : Option Text
  deriving DecidableEq, Repr

/-- An element. -/
structure Element where
  kind : ElementKind
  id : Text
  technology : Option Text
  details : Details
  position : Position
  deriving DecidableEq, Repr

/-- A boundary without what it holds. -/
structure Frame where
  kind : BoundaryKind
  id : Text
  type : Option Text
  details : Details
  position : Position
  deriving DecidableEq, Repr

/-- A boundary with the elements and boundaries in it. -/
inductive Boundary where
  | around (frame : Frame) (elements : List Element) (boundaries : List Boundary)
  deriving Repr

/-- A relationship between two elements. -/
structure Relationship where
  kind : RelationshipKind
  source : Text
  target : Text
  technology : Option Text
  details : Details
  position : Position
  deriving DecidableEq, Repr

/-- A change of style. -/
structure Style where
  kind : StyleKind
  targets : List Text
  properties : List (Text × Text)
  position : Position
  deriving DecidableEq, Repr

namespace Boundary

/-- The boundary without what it holds. -/
def frame : Boundary → Frame
  | .around frame _ _ => frame

mutual

/-- How many boundaries are nested, this one included. -/
def depth : Boundary → Nat
  | .around _ _ boundaries => 1 + deepest boundaries

/-- How deep the deepest of some boundaries is. -/
def deepest : List Boundary → Nat
  | [] => 0
  | b :: rest => max (depth b) (deepest rest)

end

end Boundary

end C4Diagram

/-- A C4 diagram. -/
structure C4Diagram where
  header : Header
  title : Option Text
  /-- The elements outside all boundaries. -/
  elements : List C4Diagram.Element
  boundaries : List C4Diagram.Boundary
  relationships : List C4Diagram.Relationship
  styles : List C4Diagram.Style
  deriving Repr

namespace C4Diagram

/-- How deep boundaries are nested. -/
def depth (diagram : C4Diagram) : Nat := Boundary.deepest diagram.boundaries

end C4Diagram
end DiagramLint
