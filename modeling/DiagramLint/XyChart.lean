import DiagramLint.Finding
import DiagramLint.LineRule

/-!
Charts with two axes and series of values. The axes are given once each, and there is at least one
series.
-/
namespace DiagramLint

open Text

namespace XyChart

/-- Whether the values stand upright or lie flat. -/
inductive Orientation where
  | vertical | horizontal
  deriving DecidableEq, Repr

/-- What an axis shows. -/
inductive Range where
  | categories (names : List Text)
  | numeric (min max : Binary64)
  deriving DecidableEq, Repr

/-- An axis. -/
structure Axis where
  title : Option Text
  range : Range
  position : Position
  deriving DecidableEq, Repr

/-- How a series is drawn. -/
inductive SeriesKind where
  | bar | line
  deriving DecidableEq, Repr

/-- A series of values. -/
structure Series where
  kind : SeriesKind
  name : Option Text
  values : List Binary64
  position : Position
  deriving DecidableEq, Repr

end XyChart

/-- A chart with two axes. -/
structure XyChart where
  header : Header
  orientation : XyChart.Orientation
  title : Option Text
  xAxis : XyChart.Axis
  yAxis : XyChart.Axis
  series : List XyChart.Series
  deriving DecidableEq, Repr

namespace XyChart

/-- What has been read of a chart. -/
structure Draft where
  title : Option Text := none
  xAxis : Option Axis := none
  yAxis : Option Axis := none
  series : List Series := []
  deriving DecidableEq, Repr

/-- A title, without the quotes around it; the last one counts. -/
def titleLine (d : Draft) (line : Line) : Taken Draft :=
  match afterKeywordColon? "title" line.text with
  | none => pass
  | some rest => take { d with title := trimmed? (unquote rest) }

/-- The number that a text is, or a fault of the line. -/
def number (line : Line) (t : Text) : Except ParseError Binary64 :=
  match Binary64.read? t with
  | some x => .ok x
  | none => .error (line.fail (.numberMalformed (trim t)))

/-- An optional title and either categories in square brackets or two numbers with an arrow between
them. -/
def axis (line : Line) (t : Text) : Except ParseError Axis :=
  match cutBracketed? t with
  | some (title, inner) =>
    match fields inner with
    | .error e => .error (line.fail (.fieldsMalformed e))
    | .ok names => .ok ⟨trimmed? (unquote (trim title)), .categories names, line.position⟩
  | none =>
    match cut? "-->".toList t with
    | none => .error (line.fail .axisMalformed)
    | some (head, max) => do
      let (title, min) := match cutLastBlank? (trim head) with
        | some (title, min) => (trimmed? (unquote (trim title)), min)
        | none => (none, trim head)
      let min ← number line min
      let max ← number line max
      .ok ⟨title, .numeric min max, line.position⟩

/-- The x-axis, which is given once. -/
def xAxisLine (d : Draft) (line : Line) : Taken Draft :=
  match afterKeyword? "x-axis" line.text with
  | none => pass
  | some rest =>
    if d.xAxis.isSome then .error (line.fail (.axisRepeated "x-axis"))
    else (axis line rest).map fun a => some { d with xAxis := some a }

/-- The y-axis, which is given once. -/
def yAxisLine (d : Draft) (line : Line) : Taken Draft :=
  match afterKeyword? "y-axis" line.text with
  | none => pass
  | some rest =>
    if d.yAxis.isSome then .error (line.fail (.axisRepeated "y-axis"))
    else (axis line rest).map fun a => some { d with yAxis := some a }

/-- The kind of series that a line gives, and what follows. -/
def seriesKind? (t : Text) : Option (SeriesKind × Text) :=
  match afterKeyword? "bar" t with
  | some rest => some (.bar, rest)
  | none => (afterKeyword? "line" t).map fun rest => (.line, rest)

/-- An optional name and values in square brackets. -/
def seriesLine (d : Draft) (line : Line) : Taken Draft :=
  match seriesKind? line.text with
  | none => pass
  | some (kind, rest) =>
    match cutBracketed? rest with
    | none => .error (line.fail .seriesMalformed)
    | some (name, inner) =>
      ((pieces ',' inner).mapM (number line)).map fun values =>
        let series : Series := ⟨kind, trimmed? (unquote (trim name)), values, line.position⟩
        some { d with series := d.series ++ [series] }

/-- The rules for the lines of a chart. -/
def rules : List (LineRule Draft) :=
  [⟨"title", titleLine⟩, ⟨"x-axis", xAxisLine⟩, ⟨"y-axis", yAxisLine⟩, ⟨"series", seriesLine⟩]

/-- The orientation that a header asks for. -/
def orientation? (rest : Text) : Option Orientation :=
  if rest.isEmpty || rest = "vertical".toList then some .vertical
  else if rest = "horizontal".toList then some .horizontal
  else none

/-- What a chart still lacks. -/
def missing (d : Draft) : List String :=
  (if d.xAxis.isNone then ["x-axis"] else []) ++ (if d.yAxis.isNone then ["y-axis"] else []) ++
    (if d.series.isEmpty then ["a bar or line series"] else [])

/-- The chart of a source. -/
def read (s : Source) : Except ParseError XyChart := do
  let (header, _, rest) ← s.headerWith ["xychart-beta"]
  match orientation? rest with
  | none => .error ((Fault.headerModifier "xychart-beta" rest).at header.position)
  | some orientation => do
    let d ← readLines (fun _ => rules) {} s.body
    match d.xAxis, d.yAxis, d.series with
    | some x, some y, first :: more =>
      .ok ⟨s.header .xyChart header, orientation, d.title, x, y, first :: more⟩
    | _, _, _ => .error ((Fault.chartIncomplete (missing d)).at header.position)

/-- The finding for a series whose number of values is not that of the categories. -/
def lengthFinding (series : Series) (axis : Axis) (categories : Nat) : Finding :=
  let name := match series.name with
    | some name => s!" {quote name}"
    | none => ""
  let values := series.values.length
  (((Finding.ofMessage .error
    s!"series{name} has {values} values but the x-axis has {categories} categories").withCode
    .e303).withLabel series.position "length mismatch").withSecondary axis.position
    "categories declared here"

/-- Series that do not give one value for each category of the x-axis. -/
def seriesLengths (chart : XyChart) : List Finding :=
  match chart.xAxis.range with
  | .numeric _ _ => []
  | .categories names =>
    (chart.series.filter fun s => s.values.length != names.length).map fun s =>
      lengthFinding s chart.xAxis names.length

end XyChart
end DiagramLint
