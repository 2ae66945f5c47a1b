import DiagramLint.LineRule

/-!
Entity-relationship diagrams: entities with attributes, and relationships that say how many of one
entity go with how many of another.
-/
namespace DiagramLint

namespace EntityDiagram

/-- An attribute of an entity. -/
structure Attribute where
  type : Text
  name : Text
  keys : List Text
  comment : Option Text
  position : Position
  deriving DecidableEq, Repr

/-- The key that marks the primary key. -/
def primaryKey : Text := ['P', 'K']

/-- The attribute belongs to the primary key. -/
def Attribute.isPrimaryKey (a : Attribute) : Bool := a.keys.contains primaryKey

/-- An entity, with or without a body. -/
structure Entity where
  name : Text
  label : Option Text
  hasBody : Bool
  attributes : List Attribute
  position : Position
  deriving DecidableEq, Repr

/-- How many of an entity take part. -/
inductive Cardinality where
  | zeroOrOne | exactlyOne | zeroOrMore | oneOrMore
  deriving DecidableEq, Repr

namespace Cardinality

/-- Every cardinality. -/
def all : List Cardinality := [.zeroOrOne, .exactlyOne, .zeroOrMore, .oneOrMore]

/-- The cardinality as it is written at the left end. -/
def left : Cardinality → String
  | .zeroOrOne => "|o"
  | .exactlyOne => "||"
  | .zeroOrMore => "\x7do"
  | .oneOrMore => "\x7d|"

/-- The cardinality as it is written at the right end. -/
def right : Cardinality → String
  | .zeroOrOne => "o|"
  | .exactlyOne => "||"
  | .zeroOrMore => "o\x7b"
  | .oneOrMore => "|\x7b"

end Cardinality

/-- What a relationship says about its ends. -/
structure Connector where
  left : Cardinality
  /-- The entities depend on each other; written with hyphens, and else with full stops. -/
  identifying : Bool
  right : Cardinality
  deriving DecidableEq, Repr

namespace Connector

/-- The connector as it is written. -/
def symbol (c : Connector) : String :=
  c.left.left ++ (if c.identifying then "--" else "..") ++ c.right.right

/-- Every connector. -/
def all : List Connector :=
  Cardinality.all.flatMap fun left =>
    [true, false].flatMap fun identifying =>
      Cardinality.all.map fun right => ⟨left, identifying, right⟩

/-- The connector that a word is. -/
def ofSymbol? (t : Text) : Option Connector := all.find? fun c => c.symbol.toList == t

end Connector

/-- A relationship between two entities. -/
structure Relationship where
  left : Text
  right : Text
  connector : Connector
  label : Option Text
  position : Position
  deriving DecidableEq, Repr

end EntityDiagram

/-- An entity-relationship diagram. -/
structure EntityDiagram where
  header : Header
  direction : Option Direction
  entities : List EntityDiagram.Entity
  relationships : List EntityDiagram.Relationship
  deriving DecidableEq, Repr

end DiagramLint
