import DiagramLint.Check.Duplicates
import DiagramLint.LineRule

/-!
Pie charts: labelled slices with positive values, at least one, and a title that is given once.
-/
namespace DiagramLint

open Text

namespace PieChart

/-- A slice of a pie chart. -/
structure Slice where
  label : Text
  value : Binary64
  position : Position
  deriving DecidableEq, Repr

end PieChart

/-- A pie chart. -/
structure PieChart where
  header : Header
  showData : Bool
  title : Option Text
  slices : List PieChart.Slice
  deriving DecidableEq, Repr

namespace PieChart

/-- What has been read of a pie chart. -/
structure Draft where
  title : Option Text
  slices : List Slice
  deriving DecidableEq, Repr

/-- A title, which a chart that has one already may not be given. -/
def titleLine (d : Draft) (line : Line) : Taken Draft :=
  match afterKeywordColon? "title" line.text with
  | none => pass
  | some rest =>
    if d.title.isSome then .error (line.fail .pieTitleRepeated)
    else take { d with title := trimmed? rest }

/-- A label in double quotes, a colon and a positive number. -/
def sliceLine (d : Draft) (line : Line) : Taken Draft :=
  match headAndLabel line.text with
  | (_, none) => pass
  | (head, some value) =>
    match between? ['"'] ['"'] head with
    | none => pass
    | some label =>
      match Binary64.read? value with
      | none => .error (line.fail (.numberMalformed value))
      | some x =>
        if x.isPositive then take { d with slices := d.slices ++ [⟨label, x, line.position⟩] }
        else .error (line.fail (.sliceNotPositive label x))

/-- The rules for the lines of a pie chart. -/
def rules : List (LineRule Draft) := [⟨"title", titleLine⟩, ⟨"slice", sliceLine⟩]

/-- The title given on the header line. -/
def headerTitle (header : Line) (rest : Text) : Except ParseError (Option Text) :=
  if rest.isEmpty then .ok none
  else match afterKeywordColon? "title" rest with
    | some title => .ok (trimmed? title)
    | none => .error ((Fault.headerModifier "pie" rest).at header.position)

/-- The pie chart of a source. The header may ask for the values to be shown and give the title. -/
def read (s : Source) : Except ParseError PieChart := do
  let (header, _, rest) ← s.headerWith ["pie"]
  let shown := afterKeyword? "showData" rest
  let title ← headerTitle header (shown.getD rest)
  let draft ← readLines (fun _ => rules) ⟨title, []⟩ s.body
  if draft.slices.isEmpty then .error (Fault.slicesMissing.at header.position)
  else .ok ⟨s.header .pie header, shown.isSome, draft.title, draft.slices⟩

/-- Slices with a label that an earlier slice has. -/
def duplicateLabels (chart : PieChart) : List Finding :=
  (Duplicates.empty "slice").findings (chart.slices.map fun s => (s.label, s.position))

end PieChart
end DiagramLint
