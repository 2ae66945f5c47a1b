import DiagramLint.LineRule

/-!
Class diagrams: classes with their members, and relations between classes. A relation is drawn as a
line with a mark at either end; the line and the marks give its kind.
-/
namespace DiagramLint

namespace ClassDiagram

/-- Who may use a member. -/
inductive Visibility where
  | publicMember | privateMember | protectedMember | packageMember
  deriving DecidableEq, Repr

/-- The visibility that a mark in front of a member gives. -/
def Visibility.ofMark? : Char → Option Visibility
  | '+' => some .publicMember
  | '-' => some .privateMember
  | '#' => some .protectedMember
  | '~' => some .packageMember
  | _ => none

/-- A property that a mark behind a member gives. -/
inductive Classifier where
  | static | abstract
  deriving DecidableEq, Repr

/-- The classifier that a mark behind a member gives. -/
def Classifier.ofMark? : Char → Option Classifier
  | '$' => some .static
  | '*' => some .abstract
  | _ => none

/-- A member of a class: a method if it has parameters, and else a field. -/
structure Member where
  visibility : Option Visibility
  name : Text
  parameters : Option Text
  type : Option Text
  classifier : Option Classifier
  position : Position
  deriving DecidableEq, Repr

/-- A class. -/
structure Definition where
  id : Text
  generic : Option Text
  label : Option Text
  stereotype : Option Text
  members : List Member
  position : Position
  deriving DecidableEq, Repr

/-- A member that is written outside the body of its class. -/
structure OuterMember where
  owner : Text
  member : Member
  deriving DecidableEq, Repr

/-- An annotation that is written outside the body of its class. -/
structure OuterAnnotation where
  owner : Text
  stereotype : Text
  position : Position
  deriving DecidableEq, Repr

/-- A note, for a class or for the whole diagram. -/
structure Note where
  target : Option Text
  text : Text
  position : Position
  deriving DecidableEq, Repr

/-- The mark at the end of a relation. -/
inductive RelationEnd where
  | triangle | filledDiamond | hollowDiamond | arrow
  deriving DecidableEq, Repr

namespace RelationEnd

/-- Every mark. -/
def all : List RelationEnd := [.triangle, .filledDiamond, .hollowDiamond, .arrow]

/-- The mark as it is written at the left end. -/
def left : RelationEnd → String
  | .triangle => "<|"
  | .filledDiamond => "*"
  | .hollowDiamond => "o"
  | .arrow => "<"

/-- The mark as it is written at the right end. -/
def right : RelationEnd → String
  | .triangle => "|>"
  | .filledDiamond => "*"
  | .hollowDiamond => "o"
  | .arrow => ">"

end RelationEnd

/-- A relation as it is drawn. -/
structure Relation where
  left : Option RelationEnd
  dashed : Bool
  right : Option RelationEnd
  deriving DecidableEq, Repr

/-- What a relation means. -/
inductive RelationKind where
  | inheritance | realization | composition | aggregation | dependency | association
  deriving DecidableEq, Repr

/-- The word for a kind of relation. -/
def RelationKind.name : RelationKind → String
  | .inheritance => "inheritance"
  | .realization => "realization"
  | .composition => "composition"
  | .aggregation => "aggregation"
  | .dependency => "dependency"
  | .association => "association"

namespace Relation

/-- The mark stands at one end or at both. -/
def has (r : Relation) (mark : RelationEnd) : Bool := r.left = some mark || r.right = some mark

/-- What a relation means. A triangle goes before a filled diamond and that before a hollow one;
arrows do not count, and a line without any of the three is told by its dashes. -/
def kind (r : Relation) : RelationKind :=
  if r.has .triangle then if r.dashed then .realization else .inheritance
  else if r.has .filledDiamond then .composition
  else if r.has .hollowDiamond then .aggregation
  else if r.dashed then .dependency
  else .association

/-- The relation as it is written. -/
def symbol (r : Relation) : String :=
  (r.left.elim "" RelationEnd.left) ++ (if r.dashed then ".." else "--") ++
    (r.right.elim "" RelationEnd.right)

/-- Every relation. -/
def all : List Relation :=
  let ends := none :: RelationEnd.all.map some
  ends.flatMap fun left =>
    [false, true].flatMap fun dashed => ends.map fun right => ⟨left, dashed, right⟩

/-- The relation that a word is. -/
def ofSymbol? (t : Text) : Option Relation := all.find? fun r => r.symbol.toList == t

end Relation

/-- A relation between two classes. -/
structure Relationship where
  source : Text
  target : Text
  relation : Relation
  sourceCardinality : Option Text
  targetCardinality : Option Text
  label : Option Text
  position : Position
  deriving DecidableEq, Repr

end ClassDiagram

/-- A class diagram. -/
structure ClassDiagram where
  header : Header
  direction : Option Direction
  classes : List ClassDiagram.Definition
  /-- The members written outside bodies. -/
  members : List ClassDiagram.OuterMember
  relationships : List ClassDiagram.Relationship
  /-- The annotations written outside bodies. -/
  annotations : List ClassDiagram.OuterAnnotation
  notes : List ClassDiagram.Note
  deriving DecidableEq, Repr

end DiagramLint
