import DiagramLint.PieChart
import DiagramLint.Proofs.Offset.Checks
import DiagramLint.Proofs.Offset.LineRule
import DiagramLint.QuadrantChart
import DiagramLint.SankeyDiagram
import DiagramLint.XyChart

/-!
Pie charts, sankey diagrams, quadrant charts and xy charts further down in a document.
-/
namespace DiagramLint

open Text
open Placed (shift)

variable {k : Move}

/-! ### Pie charts -/

namespace PieChart

instance : Placed Slice := ⟨fun k s => { s with position := shift k s.position }⟩

instance : Placed PieChart where
  shift k chart := { chart with header := shift k chart.header, slices := shift k chart.slices }

instance : Placed Draft := ⟨fun k d => { d with slices := shift k d.slices }⟩

theorem titleLine_moves : Moves k titleLine := by
  intro d line
  unfold titleLine
  rw [text_shift]
  split
  · rfl
  · show (if d.title.isSome then _ else _) = shift k (if d.title.isSome then _ else _)
    split
    · rfl
    · rfl

theorem sliceLine_moves : Moves k sliceLine := by
  intro d line
  unfold sliceLine
  rw [text_shift]
  split
  · rfl
  · split
    · rfl
    · split
      · rfl
      · split
        · symm
          exact congrArg (fun slices => take { shift k d with slices := slices }) (shift_append d.slices _)
        · rfl

theorem rules_move (_ : Draft) : ∀ rule ∈ rules, Moves k rule.read := by
  simp only [rules, List.forall_mem_cons]
  exact ⟨titleLine_moves, sliceLine_moves, nofun⟩

theorem headerTitle_shift (header : Line) (rest : Text) :
    headerTitle (shift k header) rest = (headerTitle header rest).mapError (shift k) := by
  unfold headerTitle
  split
  · rfl
  · split
    · rfl
    · rfl

/-- A pie chart is read further down as it is read. -/
theorem read_shift (s : Source) : read (shift k s) = shift k (read s) := by
  unfold read
  rw [headerWith_shift]
  refine result_bind_shift ?_ _
  rintro ⟨header, keyword, rest⟩
  show (headerTitle (shift k header) _ >>= _) =
    shift k (headerTitle header ((afterKeyword? "showData" rest).getD rest) >>= _)
  rw [headerTitle_shift, body_shift]
  cases headerTitle header ((afterKeyword? "showData" rest).getD rest) with
  | error e => rfl
  | ok title =>
    show (readLines (fun _ => rules) (shift k ⟨title, []⟩) (shift k s.body) >>= _) =
      shift k (readLines (fun _ => rules) ⟨title, []⟩ s.body >>= _)
    rw [readLines_shift rules_move fun _ => rfl]
    refine result_bind_shift ?_ _
    intro d
    show (if (shift k d.slices).isEmpty then _ else _) = shift k (if d.slices.isEmpty then _ else _)
    rw [isEmpty_shift]
    split
    · rfl
    · rfl

theorem duplicateLabels_shift (chart : PieChart) : duplicateLabels (shift k chart) = shift k (duplicateLabels chart) := by
  refine Duplicates.findings_map_shift ?_ (.empty "slice") chart.slices
  intro s
  rfl

end PieChart

/-! ### Sankey diagrams -/

namespace SankeyDiagram

instance : Placed Link := ⟨fun k l => { l with position := shift k l.position }⟩

instance : Placed SankeyDiagram where
  shift k d := { d with header := shift k d.header, links := shift k d.links }

theorem link_shift (line : Line) (source target value : Text) :
    link (shift k line) source target value = shift k (link line source target value) := by
  unfold link
  split
  · rfl
  · split
    · rfl
    · split
      · rfl
      · split
        · rfl
        · rfl

theorem linkLine_moves : Moves k linkLine := by
  intro links line
  unfold linkLine
  rw [text_shift]
  split
  · rfl
  · rw [link_shift]
    refine result_map_shift ?_ _
    intro l
    exact congrArg some (shift_append links [l]).symm
  · rfl

theorem rules_move (_ : List Link) : ∀ rule ∈ rules, Moves k rule.read := by
  simp only [rules, List.forall_mem_cons]
  exact ⟨linkLine_moves, nofun⟩

/-- A sankey diagram is read further down as it is read. -/
theorem read_shift (s : Source) : read (shift k s) = shift k (read s) := by
  refine bareRead_shift rules_move (fun _ => rfl) rfl ?_ "sankey-beta" s
  intro header links
  rw [isEmpty_shift]
  split
  · rfl
  · rfl

theorem duplicateLinks_shift (d : SankeyDiagram) : duplicateLinks (shift k d) = shift k (duplicateLinks d) := by
  refine Duplicates.findings_map_shift ?_ (.empty "link") d.links
  intro l
  rfl

end SankeyDiagram

/-! ### Quadrant charts -/

namespace QuadrantChart

instance : Placed Axis := ⟨fun k a => { a with position := shift k a.position }⟩

instance : Placed Point := ⟨fun k p => { p with position := shift k p.position }⟩

instance : Placed Style := ⟨fun k s => { s with position := shift k s.position }⟩

instance : Placed QuadrantChart where
  shift k chart :=
    { chart with
      header := shift k chart.header
      xAxis := shift k chart.xAxis
      yAxis := shift k chart.yAxis
      points := shift k chart.points
      styles := shift k chart.styles }

instance : Placed Draft where
  shift k d :=
    { d with
      xAxis := shift k d.xAxis
      yAxis := shift k d.yAxis
      points := shift k d.points
      styles := shift k d.styles }

theorem titleLine_moves : Moves k titleLine := by
  intro d line
  unfold titleLine
  rw [text_shift]
  split
  · rfl
  · rfl

theorem axis_shift (line : Line) (t : Text) : axis (shift k line) t = shift k (axis line t) := by
  unfold axis
  dsimp only
  split
  · rfl
  · rfl

theorem xAxisLine_moves : Moves k xAxisLine := by
  intro d line
  unfold xAxisLine
  rw [text_shift]
  split
  · rfl
  · show (if (shift k d.xAxis).isSome then _ else _) = shift k (if d.xAxis.isSome then _ else _)
    rw [isSome_shift, axis_shift]
    split
    · rfl
    · refine result_map_shift ?_ _
      intro a
      rfl

theorem yAxisLine_moves : Moves k yAxisLine := by
  intro d line
  unfold yAxisLine
  rw [text_shift]
  split
  · rfl
  · show (if (shift k d.yAxis).isSome then _ else _) = shift k (if d.yAxis.isSome then _ else _)
    rw [isSome_shift, axis_shift]
    split
    · rfl
    · refine result_map_shift ?_ _
      intro a
      rfl

theorem quadrantLine_moves : Moves k quadrantLine := by
  intro d line
  unfold quadrantLine
  rw [text_shift]
  split
  · rfl
  · next i rest _ =>
    show (if (d.quadrants.get i).isSome then _ else _) = shift k (if (d.quadrants.get i).isSome then _ else _)
    split
    · rfl
    · rfl

theorem styleLine_moves : Moves k styleLine := by
  intro d line
  unfold styleLine
  rw [text_shift]
  split
  · rfl
  · split
    · rfl
    · symm
      exact congrArg (fun styles => take { shift k d with styles := styles }) (shift_append d.styles _)

theorem point_shift (line : Line) (head coordinates style : Text) :
    point (shift k line) head coordinates style = shift k (point line head coordinates style) := by
  unfold point
  dsimp only
  rw [apply_ite (shift k)]
  congr 1
  split
  · rfl
  · rfl
  · rfl

theorem pointLine_moves : Moves k pointLine := by
  intro d line
  unfold pointLine
  rw [text_shift]
  split
  · rfl
  · split
    · rfl
    · split
      · rfl
      · rw [point_shift]
        refine result_map_shift ?_ _
        intro p
        exact congrArg (fun points => some { shift k d with points := points }) (shift_append d.points [p]).symm

theorem rules_move (_ : Draft) : ∀ rule ∈ rules, Moves k rule.read := by
  simp only [rules, List.forall_mem_cons]
  exact ⟨titleLine_moves, xAxisLine_moves, yAxisLine_moves, quadrantLine_moves, styleLine_moves, pointLine_moves, nofun⟩

/-- A quadrant chart is read further down as it is read. -/
theorem read_shift (s : Source) : read (shift k s) = shift k (read s) := by
  refine bareRead_shift rules_move (fun _ => rfl) rfl ?_ "quadrantChart" s
  intro header d
  rfl

theorem coordinateFinding?_shift (p : Point) (axis : String) (value : Binary64) :
    coordinateFinding? (shift k p) axis value = shift k (coordinateFinding? p axis value) := by
  unfold coordinateFinding?
  split
  · rfl
  · rfl

theorem pointRanges_shift (chart : QuadrantChart) : pointRanges (shift k chart) = shift k (pointRanges chart) := by
  refine flatMap_shift ?_ chart.points
  intro p
  rw [coordinateFinding?_shift, coordinateFinding?_shift, toList_shift, toList_shift, ← shift_append]
  rfl

theorem duplicatePoints_shift (chart : QuadrantChart) :
    duplicatePoints (shift k chart) = shift k (duplicatePoints chart) := by
  refine Duplicates.findings_map_shift ?_ (.empty "point") chart.points
  intro p
  rfl

end QuadrantChart

/-! ### Xy charts -/

namespace XyChart

instance : Placed Axis := ⟨fun k a => { a with position := shift k a.position }⟩

instance : Placed Series := ⟨fun k s => { s with position := shift k s.position }⟩

instance : Placed XyChart where
  shift k chart :=
    { chart with
      header := shift k chart.header
      xAxis := shift k chart.xAxis
      yAxis := shift k chart.yAxis
      series := shift k chart.series }

instance : Placed Draft where
  shift k d := { d with xAxis := shift k d.xAxis, yAxis := shift k d.yAxis, series := shift k d.series }

theorem titleLine_moves : Moves k titleLine := by
  intro d line
  unfold titleLine
  rw [text_shift]
  split
  · rfl
  · rfl

theorem number_shift (line : Line) (t : Text) : number (shift k line) t = (number line t).mapError (shift k) := by
  unfold number
  split
  · rfl
  · rfl

theorem numbers_shift (line : Line) (ts : List Text) :
    ts.mapM (number (shift k line)) = (ts.mapM (number line)).mapError (shift k) := by
  induction ts with
  | nil => rfl
  | cons t ts ih =>
    rw [List.mapM_cons, List.mapM_cons, number_shift, ih]
    cases number line t with
    | error e => rfl
    | ok x =>
      cases ts.mapM (number line) with
      | error e => rfl
      | ok xs => rfl

theorem axis_shift (line : Line) (t : Text) : axis (shift k line) t = shift k (axis line t) := by
  unfold axis
  split
  · split
    · rfl
    · rfl
  · split
    · rfl
    · next head max _ =>
      dsimp only
      rw [number_shift, number_shift]
      generalize number line _ = low
      cases low with
      | error e => rfl
      | ok min =>
        cases number line max with
        | error e => rfl
        | ok max => rfl

theorem xAxisLine_moves : Moves k xAxisLine := by
  intro d line
  unfold xAxisLine
  rw [text_shift]
  split
  · rfl
  · show (if (shift k d.xAxis).isSome then _ else _) = shift k (if d.xAxis.isSome then _ else _)
    rw [isSome_shift, axis_shift]
    split
    · rfl
    · refine result_map_shift ?_ _
      intro a
      rfl

theorem yAxisLine_moves : Moves k yAxisLine := by
  intro d line
  unfold yAxisLine
  rw [text_shift]
  split
  · rfl
  · show (if (shift k d.yAxis).isSome then _ else _) = shift k (if d.yAxis.isSome then _ else _)
    rw [isSome_shift, axis_shift]
    split
    · rfl
    · refine result_map_shift ?_ _
      intro a
      rfl

theorem seriesLine_moves : Moves k seriesLine := by
  intro d line
  unfold seriesLine
  rw [text_shift]
  split
  · rfl
  · split
    · rfl
    · next name inner _ =>
      rw [numbers_shift]
      cases (pieces ',' inner).mapM (number line) with
      | error e => rfl
      | ok values =>
        symm
        exact congrArg (fun series => Except.ok (some { shift k d with series := series })) (shift_append d.series _)

theorem rules_move (_ : Draft) : ∀ rule ∈ rules, Moves k rule.read := by
  simp only [rules, List.forall_mem_cons]
  exact ⟨titleLine_moves, xAxisLine_moves, yAxisLine_moves, seriesLine_moves, nofun⟩

theorem missing_shift (d : Draft) : missing (shift k d) = missing d := by
  unfold missing
  have x_axis : (shift k d).xAxis.isNone = d.xAxis.isNone := isNone_shift d.xAxis
  have y_axis : (shift k d).yAxis.isNone = d.yAxis.isNone := isNone_shift d.yAxis
  have series : (shift k d).series.isEmpty = d.series.isEmpty := isEmpty_shift d.series
  rw [x_axis, y_axis, series]

/-- A chart is read further down as it is read. -/
theorem read_shift (s : Source) : read (shift k s) = shift k (read s) := by
  unfold read
  rw [headerWith_shift]
  refine result_bind_shift ?_ _
  rintro ⟨header, keyword, rest⟩
  have parts : shift k (header, keyword, rest) = (shift k header, keyword, rest) := rfl
  rw [parts]
  dsimp only
  split
  · rfl
  · rw [body_shift]
    show (readLines (fun _ => rules) (shift k {}) (shift k s.body) >>= _) =
      shift k (readLines (fun _ => rules) {} s.body >>= _)
    rw [readLines_shift rules_move fun _ => rfl]
    refine result_bind_shift ?_ _
    intro d
    rw [missing_shift]
    have x_axis : (shift k d).xAxis = shift k d.xAxis := rfl
    have y_axis : (shift k d).yAxis = shift k d.yAxis := rfl
    have series : (shift k d).series = shift k d.series := rfl
    rw [x_axis, y_axis, series]
    cases d.xAxis with
    | none => rfl
    | some x =>
      cases d.yAxis with
      | none => rfl
      | some y =>
        cases d.series with
        | nil => rfl
        | cons first more => rfl

theorem lengthFinding_shift (series : Series) (axis : Axis) (categories : Nat) :
    lengthFinding (shift k series) (shift k axis) categories = shift k (lengthFinding series axis categories) := rfl

theorem seriesLengths_shift (chart : XyChart) : seriesLengths (shift k chart) = shift k (seriesLengths chart) := by
  unfold seriesLengths
  have range : (shift k chart).xAxis.range = chart.xAxis.range := rfl
  rw [range]
  split
  · rfl
  · next names _ =>
    have uneven : ((shift k chart.series).filter fun s => s.values.length != names.length) =
        shift k (chart.series.filter fun s => s.values.length != names.length) := by
      refine filter_shift ?_ _
      intro s
      rfl
    show ((shift k chart.series).filter fun s => s.values.length != names.length).map _ = _
    rw [uneven]
    refine map_shift ?_ _
    intro s
    exact lengthFinding_shift s chart.xAxis names.length

end XyChart
end DiagramLint
