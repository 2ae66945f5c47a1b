import DiagramLint.Check.Duplicates
import DiagramLint.LineRule

/-!
Quadrant charts: two labelled axes, labels for the four quadrants, and points with two coordinates.
-/
namespace DiagramLint

open Text

namespace QuadrantChart

/-- The labels at the ends of an axis. -/
structure Axis where
  low : Text
  high : Option Text
  position : Position
  deriving DecidableEq, Repr

/-- A point of a quadrant chart. -/
structure Point where
  name : Text
  x : Binary64
  y : Binary64
  styleClass : Option Text
  /-- What is written behind the coordinates. -/
  style : Option Text
  position : Position
  deriving DecidableEq, Repr

/-- A style that points can name. -/
structure Style where
  name : Text
  style : Text
  position : Position
  deriving DecidableEq, Repr

/-- The labels of the four quadrants. -/
structure Labels where
  first : Option Text
  second : Option Text
  third : Option Text
  fourth : Option Text
  deriving DecidableEq, Repr

/-- A quadrant of the chart. -/
inductive Quadrant where
  | first | second | third | fourth
  deriving DecidableEq, Repr

namespace Quadrant

/-- Every quadrant. -/
def all : List Quadrant := [.first, .second, .third, .fourth]

/-- The keyword of a line that labels the quadrant. -/
def keyword : Quadrant → String
  | .first => "quadrant-1"
  | .second => "quadrant-2"
  | .third => "quadrant-3"
  | .fourth => "quadrant-4"

end Quadrant

namespace Labels

/-- No quadrant is labelled. -/
def none : Labels := ⟨.none, .none, .none, .none⟩

/-- The label of a quadrant. -/
def get (labels : Labels) : Quadrant → Option Text
  | .first => labels.first
  | .second => labels.second
  | .third => labels.third
  | .fourth => labels.fourth

/-- The labels with another label for a quadrant. -/
def set (labels : Labels) (label : Option Text) : Quadrant → Labels
  | .first => { labels with first := label }
  | .second => { labels with second := label }
  | .third => { labels with third := label }
  | .fourth => { labels with fourth := label }

/-- The labels in the order of the quadrants. -/
def toList (labels : Labels) : List (Option Text) := Quadrant.all.map labels.get

end Labels

end QuadrantChart

/-- A quadrant chart. -/
structure QuadrantChart where
  header : Header
  title : Option Text
  xAxis : Option QuadrantChart.Axis
  yAxis : Option QuadrantChart.Axis
  quadrants : QuadrantChart.Labels
  points : List QuadrantChart.Point
  styles : List QuadrantChart.Style
  deriving DecidableEq, Repr

namespace QuadrantChart

/-- What has been read of a quadrant chart. -/
structure Draft where
  title : Option Text := none
  xAxis : Option Axis := none
  yAxis : Option Axis := none
  quadrants : Labels := .none
  points : List Point := []
  styles : List Style := []
  deriving DecidableEq, Repr

/-- A title; the last one counts. -/
def titleLine (d : Draft) (line : Line) : Taken Draft :=
  match afterKeywordColon? "title" line.text with
  | none => pass
  | some rest => take { d with title := trimmed? rest }

/-- A label without the quotes around it, if anything is left of it. -/
def axisLabel? (t : Text) : Option Text := trimmed? (unquote (trim t))

/-- A low label, and a high label behind an arrow. -/
def axis (line : Line) (t : Text) : Except ParseError Axis :=
  let (low, high) := match cut? "-->".toList t with
    | some (low, high) => (low, axisLabel? high)
    | none => (t, none)
  match axisLabel? low with
  | some low => .ok ⟨low, high, line.position⟩
  | none => .error (line.fail .axisUnlabelled)

/-- The x-axis, which is given once. -/
def xAxisLine (d : Draft) (line : Line) : Taken Draft :=
  match afterKeyword? "x-axis" line.text with
  | none => pass
  | some rest =>
    if d.xAxis.isSome then .error (line.fail (.axisRepeated "x-axis"))
    else (axis line rest).map fun a => some { d with xAxis := some a }

/-- The y-axis, which is given once. -/
def yAxisLine (d : Draft) (line : Line) : Taken Draft :=
  match afterKeyword? "y-axis" line.text with
  | none => pass
  | some rest =>
    if d.yAxis.isSome then .error (line.fail (.axisRepeated "y-axis"))
    else (axis line rest).map fun a => some { d with yAxis := some a }

/-- The quadrant that a line labels, and its label. -/
def quadrantLabel? (t : Text) : Option (Quadrant × Text) :=
  Quadrant.all.findSome? fun i => (afterKeyword? i.keyword t).map fun rest => (i, rest)

/-- The label of a quadrant that has none. -/
def quadrantLine (d : Draft) (line : Line) : Taken Draft :=
  match quadrantLabel? line.text with
  | none => pass
  | some (i, rest) =>
    if (d.quadrants.get i).isSome then .error (line.fail (.quadrantRepeated i.keyword))
    else take { d with quadrants := d.quadrants.set (trimmed? (unquote rest)) i }

/-- A named style. -/
def styleLine (d : Draft) (line : Line) : Taken Draft :=
  match afterKeyword? "classDef" line.text with
  | none => pass
  | some rest =>
    match cutBlank? rest with
    | none => .error (line.fail .classDefIncomplete)
    | some (name, style) =>
      take { d with styles := d.styles ++ [⟨name, trim style, line.position⟩] }

/-- The numbers of a list with commas, if all of them are numbers. -/
def coordinates? (t : Text) : Option (List Binary64) := (pieces ',' t).mapM Binary64.read?

/-- The point with a head, coordinates and a style. -/
def point (line : Line) (head coordinates style : Text) : Except ParseError Point :=
  let (name, styleClass) := match cut? ":::".toList head with
    | some (name, styleClass) => (name, trimmed? styleClass)
    | none => (head, none)
  let name := unquote (trim name)
  if name.isEmpty then .error (line.fail .pointUnnamed)
  else match coordinates? coordinates with
    | none => .error (line.fail (.pointMalformed coordinates))
    | some [x, y] => .ok ⟨name, x, y, styleClass, trimmed? style, line.position⟩
    | some values => .error (line.fail (.pointCoordinateCount values.length))

/-- A name, a colon, and coordinates in square brackets. -/
def pointLine (d : Draft) (line : Line) : Taken Draft :=
  match cut? ['['] line.text with
  | none => pass
  | some (before, after) =>
    match dropEnd? [':'] (trimEnd before) with
    | none => pass
    | some head =>
      match cut? [']'] after with
      | none => .error (line.fail .pointUnclosed)
      | some (coordinates, style) =>
        (point line head coordinates style).map fun p => some { d with points := d.points ++ [p] }

/-- The rules for the lines of a quadrant chart. -/
def rules : List (LineRule Draft) :=
  [⟨"title", titleLine⟩, ⟨"x-axis", xAxisLine⟩, ⟨"y-axis", yAxisLine⟩,
   ⟨"quadrant", quadrantLine⟩, ⟨"classDef", styleLine⟩, ⟨"point", pointLine⟩]

/-- The quadrant chart of a source. -/
def read (s : Source) : Except ParseError QuadrantChart := do
  let header ← s.bareHeader "quadrantChart"
  let d ← readLines (fun _ => rules) {} s.body
  .ok ⟨s.header .quadrant header, d.title, d.xAxis, d.yAxis, d.quadrants, d.points, d.styles⟩

/-- The finding for a coordinate of a point that lies outside the chart. -/
def coordinateFinding? (p : Point) (axis : String) (value : Binary64) : Option Finding :=
  if value.inUnitInterval then none
  else some ((((Finding.ofMessage .error
    s!"point {quote p.name} has {axis} = {str value.write}, outside [0, 1]").withCode
    .e303).withLabel p.position "coordinate out of range").withHelp
    "quadrant coordinates are fractions of the chart")

/-- Coordinates that lie outside the chart. -/
def pointRanges (chart : QuadrantChart) : List Finding :=
  chart.points.flatMap fun p =>
    (coordinateFinding? p "x" p.x).toList ++ (coordinateFinding? p "y" p.y).toList

/-- Points with a name that an earlier point has. -/
def duplicatePoints (chart : QuadrantChart) : List Finding :=
  (Duplicates.empty "point").findings (chart.points.map fun p => (p.name, p.position))

end QuadrantChart
end DiagramLint
