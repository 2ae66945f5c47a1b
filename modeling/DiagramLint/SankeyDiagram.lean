import DiagramLint.Check.Duplicates
import DiagramLint.LineRule

/-!
Sankey diagrams: links from a source to another target with a positive value, at least one.
-/
namespace DiagramLint

open Text

namespace SankeyDiagram

/-- A link of a sankey diagram. -/
structure Link where
  source : Text
  target : Text
  value : Binary64
  position : Position
  deriving DecidableEq, Repr

end SankeyDiagram

/-- A sankey diagram. -/
structure SankeyDiagram where
  header : Header
  links : List SankeyDiagram.Link
  deriving DecidableEq, Repr

namespace SankeyDiagram

/-- The link of three fields: the ends are not empty and differ, and the value is positive. -/
def link (line : Line) (source target value : Text) : Except ParseError Link :=
  if source.isEmpty || target.isEmpty then .error (line.fail .linkEndEmpty)
  else if source = target then .error (line.fail (.linkToItself source))
  else match Binary64.read? value with
    | none => .error (line.fail (.linkValueInvalid value))
    | some x =>
      if x.isPositive then .ok ⟨source, target, x, line.position⟩
      else .error (line.fail (.linkValueInvalid value))

/-- A row of three fields; every line is taken for one. -/
def linkLine (links : List Link) (line : Line) : Taken (List Link) :=
  match fields line.text with
  | .error e => .error (line.fail (.fieldsMalformed e))
  | .ok [source, target, value] => (link line source target value).map fun l => some (links ++ [l])
  | .ok row => .error (line.fail (.linkFieldCount row.length))

/-- The rules for the lines of a sankey diagram. -/
def rules : List (LineRule (List Link)) := [⟨"link", linkLine⟩]

/-- The sankey diagram of a source. -/
def read (s : Source) : Except ParseError SankeyDiagram := do
  let header ← s.bareHeader "sankey-beta"
  let links ← readLines (fun _ => rules) [] s.body
  if links.isEmpty then .error (Fault.linksMissing.at header.position)
  else .ok ⟨s.header .sankey header, links⟩

/-- The name under which a link is compared with others. -/
def linkName (l : Link) : Text := l.source ++ " -> ".toList ++ l.target

/-- Links with a name that an earlier link has. -/
def duplicateLinks (d : SankeyDiagram) : List Finding :=
  (Duplicates.empty "link").findings (d.links.map fun l => (linkName l, l.position))

end SankeyDiagram
end DiagramLint
