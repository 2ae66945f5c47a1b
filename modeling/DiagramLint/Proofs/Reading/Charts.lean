import DiagramLint.PieChart
import DiagramLint.Proofs.Reading.Basic
import DiagramLint.QuadrantChart
import DiagramLint.SankeyDiagram
import DiagramLint.XyChart

/-!
How charts are read: pie charts, sankey diagrams, quadrant charts and charts with two axes.
-/
namespace DiagramLint

open Text

/-! ### Pie charts -/

namespace PieChart

instance : Stored PieChart where
  header chart := chart.header
  withSource text chart := { chart with header := chart.header.withSource text }
  columns chart := [chart.slices.map Slice.position]

/-- The positions of a draft. -/
def Draft.columns (d : Draft) : List (List Position) := [d.slices.map Slice.position]

theorem titleLine_marks (d : Draft) (line : Line) : Marks Draft.columns d line (titleLine d line) := by
  unfold titleLine
  split
  · simp
  · split <;> simp [Draft.columns, Fault.code]

theorem sliceLine_marks (d : Draft) (line : Line) : Marks Draft.columns d line (sliceLine d line) := by
  unfold sliceLine
  split
  · simp
  · split
    · simp
    · split
      · simp [Fault.code]
      · split <;> simp [Draft.columns, Grows, Fault.code]

theorem headerTitle_ofLine (header : Line) (rest : Text) :
    OfLine header (headerTitle header rest) fun _ => True := by
  unfold headerTitle
  split
  · trivial
  · split <;> simp [Fault.code]

theorem rules_mark (d : Draft) : ∀ rule ∈ rules, ∀ line, Marks Draft.columns d line (rule.read d line) := by
  simp only [rules, List.forall_mem_cons]
  exact ⟨titleLine_marks d, sliceLine_marks d, List.forall_mem_nil _⟩

/-- How pie charts are read. -/
abbrev reading : Reading PieChart where
  Head := Line × Bool × Option Text
  State := Draft
  head first := do
    let (header, _, rest) ← first.alone.headerWith ["pie"]
    let shown := afterKeyword? "showData" rest
    let title ← headerTitle header (shown.getD rest)
    .ok (header, shown.isSome, title)
  fits := Text.BeginsWith ["pie"]
  line h := h.1
  start h := ⟨h.2.2, []⟩
  rules _ := rules
  columns := Draft.columns
  finish text h d :=
    if d.slices.isEmpty then .error (Fault.slicesMissing.at h.1.position)
    else .ok ⟨⟨.pie, text, h.1.position⟩, h.2.1, d.title, d.slices⟩

theorem reading_describes : reading.Describes read where
  read_eq text offset first body := by
    rw [List.flatMap_singleton', bind_assoc]
    refine bind_congr ?_
    rintro ⟨header, word, rest⟩
    dsimp only
    rw [bind_assoc]
    rfl
  head_ofHeader first := by
    refine (headerWith_ofHeader [] 0 first [] ["pie"]).bind ?_
    rintro ⟨header, word, rest⟩ rfl
    refine (headerTitle_ofLine header _).bind ?_
    exact fun _ _ => rfl
  start_empty h := by simp [Draft.columns]
  rules_mark := rules_mark
  finish_error failed := by
    dsimp only at failed
    split at failed
    · obtain rfl := Except.error.inj failed
      exact ⟨.inr rfl, .inl rfl⟩
    · cases failed
  finish_ok finished := by
    dsimp only at finished
    split at finished
    · cases finished
    · obtain rfl := Except.ok.inj finished
      exact ⟨rfl, fun _ => id⟩
  finish_text text h d other := by
    dsimp only
    split <;> rfl

end PieChart

/-! ### Sankey diagrams -/

namespace SankeyDiagram

instance : Stored SankeyDiagram where
  header diagram := diagram.header
  withSource text diagram := { diagram with header := diagram.header.withSource text }
  columns diagram := [diagram.links.map Link.position]

/-- The positions of the links read so far. -/
def columns (links : List Link) : List (List Position) := [links.map Link.position]

theorem link_ofLine (line : Line) (source target value : Text) :
    OfLine line (link line source target value) fun l => l.position = line.position := by
  unfold link
  split
  · simp [Fault.code]
  · split
    · simp [Fault.code]
    · split
      · simp [Fault.code]
      · split <;> simp [Fault.code]

theorem linkLine_marks (links : List Link) (line : Line) : Marks columns links line (linkLine links line) := by
  unfold linkLine
  split
  · simp [Fault.code]
  · refine Marks.made (link_ofLine line _ _ _) ?_
    intro l position
    simp [columns, Grows, position]
  · simp [Fault.code]

theorem rules_mark (links : List Link) :
    ∀ rule ∈ rules, ∀ line, Marks columns links line (rule.read links line) := by
  simp only [rules, List.forall_mem_cons]
  exact ⟨linkLine_marks links, List.forall_mem_nil _⟩

/-- How sankey diagrams are read. -/
abbrev reading : Reading SankeyDiagram where
  Head := Line
  State := List Link
  head first := first.alone.bareHeader "sankey-beta"
  fits := Text.BeginsWith ["sankey-beta"]
  line header := header
  start _ := []
  rules _ := rules
  columns := columns
  finish text header links :=
    if links.isEmpty then .error (Fault.linksMissing.at header.position)
    else .ok ⟨⟨.sankey, text, header.position⟩, links⟩

theorem reading_describes : reading.Describes read where
  read_eq text offset first body := by
    rw [List.flatMap_singleton']
    rfl
  head_ofHeader first := bareHeader_ofHeader [] 0 first [] "sankey-beta"
  start_empty _ := by simp [columns]
  rules_mark := rules_mark
  finish_error failed := by
    dsimp only at failed
    split at failed
    · obtain rfl := Except.error.inj failed
      exact ⟨.inr rfl, .inl rfl⟩
    · cases failed
  finish_ok finished := by
    dsimp only at finished
    split at finished
    · cases finished
    · obtain rfl := Except.ok.inj finished
      exact ⟨rfl, fun _ => id⟩
  finish_text text header links other := by
    dsimp only
    split <;> rfl

end SankeyDiagram

/-! ### Quadrant charts -/

namespace QuadrantChart

instance : Stored QuadrantChart where
  header chart := chart.header
  withSource text chart := { chart with header := chart.header.withSource text }
  columns chart :=
    [chart.xAxis.toList.map Axis.position, chart.yAxis.toList.map Axis.position,
      chart.points.map Point.position, chart.styles.map Style.position]

/-- The positions of a draft. -/
def Draft.columns (d : Draft) : List (List Position) :=
  [d.xAxis.toList.map Axis.position, d.yAxis.toList.map Axis.position,
    d.points.map Point.position, d.styles.map Style.position]

theorem titleLine_marks (d : Draft) (line : Line) : Marks Draft.columns d line (titleLine d line) := by
  unfold titleLine
  split <;> simp [Draft.columns]

theorem axis_ofLine (line : Line) (t : Text) : OfLine line (axis line t) fun a => a.position = line.position := by
  unfold axis
  dsimp only
  split <;> simp [Fault.code]

theorem xAxisLine_marks (d : Draft) (line : Line) : Marks Draft.columns d line (xAxisLine d line) := by
  unfold xAxisLine
  split
  · simp
  · split
    · simp [Fault.code]
    · refine Marks.made (axis_ofLine line _) ?_
      intro a position
      simp [Draft.columns, Grows, position]

theorem yAxisLine_marks (d : Draft) (line : Line) : Marks Draft.columns d line (yAxisLine d line) := by
  unfold yAxisLine
  split
  · simp
  · split
    · simp [Fault.code]
    · refine Marks.made (axis_ofLine line _) ?_
      intro a position
      simp [Draft.columns, Grows, position]

theorem quadrantLine_marks (d : Draft) (line : Line) : Marks Draft.columns d line (quadrantLine d line) := by
  unfold quadrantLine
  split
  · simp
  · split <;> simp [Draft.columns, Fault.code]

theorem styleLine_marks (d : Draft) (line : Line) : Marks Draft.columns d line (styleLine d line) := by
  unfold styleLine
  split
  · simp
  · split <;> simp [Draft.columns, Grows, Fault.code]

theorem point_ofLine (line : Line) (head coordinates style : Text) :
    OfLine line (point line head coordinates style) fun p => p.position = line.position := by
  unfold point
  dsimp only
  split
  all_goals
    split
    · simp [Fault.code]
    · split <;> simp [Fault.code]

theorem pointLine_marks (d : Draft) (line : Line) : Marks Draft.columns d line (pointLine d line) := by
  unfold pointLine
  split
  · simp
  · split
    · simp
    · split
      · simp [Fault.code]
      · refine Marks.made (point_ofLine line _ _ _) ?_
        intro p position
        simp [Draft.columns, Grows, position]

theorem rules_mark (d : Draft) : ∀ rule ∈ rules, ∀ line, Marks Draft.columns d line (rule.read d line) := by
  simp only [rules, List.forall_mem_cons]
  exact ⟨titleLine_marks d, xAxisLine_marks d, yAxisLine_marks d, quadrantLine_marks d, styleLine_marks d,
    pointLine_marks d, List.forall_mem_nil _⟩

/-- How quadrant charts are read. -/
abbrev reading : Reading QuadrantChart where
  Head := Line
  State := Draft
  head first := first.alone.bareHeader "quadrantChart"
  fits := Text.BeginsWith ["quadrantChart"]
  line header := header
  start _ := {}
  rules _ := rules
  columns := Draft.columns
  finish text header d :=
    .ok ⟨⟨.quadrant, text, header.position⟩, d.title, d.xAxis, d.yAxis, d.quadrants, d.points, d.styles⟩

theorem reading_describes : reading.Describes read where
  read_eq text offset first body := by
    rw [List.flatMap_singleton']
    rfl
  head_ofHeader first := bareHeader_ofHeader [] 0 first [] "quadrantChart"
  start_empty _ := by simp [Draft.columns]
  rules_mark := rules_mark
  finish_error := nofun
  finish_ok finished := by
    obtain rfl := Except.ok.inj finished
    exact ⟨rfl, fun _ => id⟩
  finish_text _ _ _ _ := rfl

end QuadrantChart

/-! ### Charts with two axes -/

namespace XyChart

instance : Stored XyChart where
  header chart := chart.header
  withSource text chart := { chart with header := chart.header.withSource text }
  columns chart := [[chart.xAxis.position], [chart.yAxis.position], chart.series.map Series.position]

/-- The positions of a draft. -/
def Draft.columns (d : Draft) : List (List Position) :=
  [d.xAxis.toList.map Axis.position, d.yAxis.toList.map Axis.position, d.series.map Series.position]

theorem titleLine_marks (d : Draft) (line : Line) : Marks Draft.columns d line (titleLine d line) := by
  unfold titleLine
  split <;> simp [Draft.columns]

theorem number_ofLine (line : Line) (t : Text) : OfLine line (number line t) fun _ => True := by
  unfold number
  split <;> simp [Fault.code]

theorem axis_ofLine (line : Line) (t : Text) : OfLine line (axis line t) fun a => a.position = line.position := by
  unfold axis
  split
  · split <;> simp [Fault.code]
  · split
    · simp [Fault.code]
    · refine (number_ofLine line _).bind ?_
      intro low _
      refine (number_ofLine line _).bind ?_
      exact fun _ _ => rfl

theorem xAxisLine_marks (d : Draft) (line : Line) : Marks Draft.columns d line (xAxisLine d line) := by
  unfold xAxisLine
  split
  · simp
  · split
    · simp [Fault.code]
    · refine Marks.made (axis_ofLine line _) ?_
      intro a position
      simp [Draft.columns, Grows, position]

theorem yAxisLine_marks (d : Draft) (line : Line) : Marks Draft.columns d line (yAxisLine d line) := by
  unfold yAxisLine
  split
  · simp
  · split
    · simp [Fault.code]
    · refine Marks.made (axis_ofLine line _) ?_
      intro a position
      simp [Draft.columns, Grows, position]

theorem seriesLine_marks (d : Draft) (line : Line) : Marks Draft.columns d line (seriesLine d line) := by
  unfold seriesLine
  split
  · simp
  · split
    · simp [Fault.code]
    · refine Marks.made (OfLine.mapM fun t _ => number_ofLine line t) ?_
      intro values _
      simp [Draft.columns, Grows]

theorem rules_mark (d : Draft) : ∀ rule ∈ rules, ∀ line, Marks Draft.columns d line (rule.read d line) := by
  simp only [rules, List.forall_mem_cons]
  exact ⟨titleLine_marks d, xAxisLine_marks d, yAxisLine_marks d, seriesLine_marks d, List.forall_mem_nil _⟩

/-- How charts with two axes are read. -/
abbrev reading : Reading XyChart where
  Head := Line × Orientation
  State := Draft
  head first := do
    let (header, _, rest) ← first.alone.headerWith ["xychart-beta"]
    match orientation? rest with
    | none => .error ((Fault.headerModifier "xychart-beta" rest).at header.position)
    | some orientation => .ok (header, orientation)
  fits := Text.BeginsWith ["xychart-beta"]
  line h := h.1
  start _ := {}
  rules _ := rules
  columns := Draft.columns
  finish text h d :=
    match d.xAxis, d.yAxis, d.series with
    | some x, some y, first :: more =>
      .ok ⟨⟨.xyChart, text, h.1.position⟩, h.2, d.title, x, y, first :: more⟩
    | _, _, _ => .error ((Fault.chartIncomplete (missing d)).at h.1.position)

theorem reading_describes : reading.Describes read where
  read_eq text offset first body := by
    rw [List.flatMap_singleton', bind_assoc]
    refine bind_congr ?_
    rintro ⟨header, word, rest⟩
    dsimp only
    cases orientation? rest <;> rfl
  head_ofHeader first := by
    refine (headerWith_ofHeader [] 0 first [] ["xychart-beta"]).bind ?_
    rintro ⟨header, word, rest⟩ rfl
    dsimp only
    split <;> simp [Fault.code]
  start_empty _ := by simp [Draft.columns]
  rules_mark := rules_mark
  finish_error failed := by
    dsimp only at failed
    split at failed
    · cases failed
    · obtain rfl := Except.error.inj failed
      exact ⟨.inr rfl, .inl rfl⟩
  finish_ok {text h d chart} finished := by
    dsimp only at finished
    split at finished
    · next x y first more xAxis yAxis series =>
      obtain rfl := Except.ok.inj finished
      refine ⟨rfl, ?_⟩
      simp [Stored.columns, Draft.columns, xAxis, yAxis, series]
    · cases finished
  finish_text text h d other := by
    dsimp only
    split <;> rfl

end XyChart

end DiagramLint
