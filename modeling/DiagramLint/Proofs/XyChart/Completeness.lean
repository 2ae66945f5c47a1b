import DiagramLint.Proofs.Names
import DiagramLint.Proofs.XyChart.Lines

/-!
Which lines make up a chart with two axes. The lines may come in any order: a second axis on one side is at fault where it
stands (`readLines_repeated`), and what no line has given is missed behind the last one. So a chart is read just where its
lines give each axis once and a series, and the lengths of the series are compared with the categories that they give
(`judged_of_lines`).
-/
namespace DiagramLint.XyChart

open Text

/-- What a line of a chart gives. -/
inductive Entry where
  | title (t : Option Text)
  | axis (side : Side) (a : Axis)
  | series (s : Series)

namespace Entry

/-- The title, if this is one. -/
def title? : Entry → Option (Option Text)
  | title t => some t
  | _ => none

/-- The axis, if this is one on the side. -/
def axisOn? (side : Side) : Entry → Option Axis
  | axis other a => if other = side then some a else none
  | _ => none

/-- The series, if this is one. -/
def series? : Entry → Option Series
  | series s => some s
  | _ => none

end Entry

/-- The entry is written on the line behind its keyword. -/
inductive Gives (line : Line) : Entry → Prop where
  | title {rest : Text} (keyword : afterKeywordColon? "title" line.text = some rest) :
      Gives line (.title (trimmed? (unquote rest)))
  | axis {side : Side} {rest : Text} {title : Option Text} {range : Range}
      (keyword : afterKeyword? side.keyword line.text = some rest) (written : AxisText rest title range) :
      Gives line (.axis side ⟨title, range, line.position⟩)
  | series {kind : SeriesKind} {rest : Text} {name : Option Text} {values : List Binary64}
      (keyword : afterKeyword? kind.keyword line.text = some rest) (written : SeriesText rest name values) :
      Gives line (.series ⟨kind, name, values, line.position⟩)

/-- A line of a chart, with what it gives. -/
structure EntryLine where
  line : Line
  entry : Entry
  written : Gives line entry

/-- The axes that some lines give for a side. -/
def axesOn (side : Side) (lines : List EntryLine) : List Axis := lines.filterMap fun l => l.entry.axisOn? side

/-- The series that some lines give. -/
def seriesOf (lines : List EntryLine) : List Series := lines.filterMap fun l => l.entry.series?

/-- The title that the last of some lines with a title gives. -/
def titleOf (lines : List EntryLine) : Option Text := (lines.filterMap fun l => l.entry.title?).getLast?.join

/-- What no line gives, by the names that it is missed by. -/
def lacking (lines : List EntryLine) : List String :=
  ([Side.x, Side.y].filter fun side => (axesOn side lines).isEmpty).map Side.keyword ++
    if (seriesOf lines).isEmpty then ["a bar or line series"] else []

/-- The line `again` is the first that gives an axis for a side that has one from the lines before it. -/
structure FirstRepeat (lines before : List EntryLine) (side : Side) (again : EntryLine) : Prop where
  split : ∃ after, lines = before ++ again :: after
  once : ∀ side, (axesOn side before).length ≤ 1
  given : axesOn side before ≠ []
  repeated : ∃ a, again.entry = .axis side a

/-- What becomes of a chart whose lines behind the header are these. -/
structure Judged (s : Source) (header : Line) (lines : List EntryLine) : Prop where
  /-- It is read if there is one axis on each side and at least one series. -/
  accepted : (∃ chart, read s = .ok chart) ↔ (∀ side, (axesOn side lines).length = 1) ∧ seriesOf lines ≠ []
  /-- The axes are those of the lines, and so are the series in their order and the title. -/
  recorded : ∀ chart, read s = .ok chart →
    (∀ side, axesOn side lines = [chart.axisOn side]) ∧ chart.series = seriesOf lines ∧ chart.title = titleOf lines
  /-- A second axis on a side is at fault where it stands. -/
  repeated : ∀ before side again, FirstRepeat lines before side again →
    read s = .error (again.line.fail (.axisRepeated side.keyword)) ∧ (Fault.axisRepeated side.keyword).code = .e203
  exists_repeat : ∀ side, 2 ≤ (axesOn side lines).length → ∃ before side again, FirstRepeat lines before side again
  /-- Otherwise the header is at fault for all that is lacking. -/
  incomplete : (∀ side, (axesOn side lines).length ≤ 1) → lacking lines ≠ [] →
    read s = .error ((Fault.chartIncomplete (lacking lines)).at header.position) ∧
      (Fault.chartIncomplete (lacking lines)).code = .e204
  /-- With categories on the x-axis the series of another length are found. -/
  mismatched : ∀ chart names, read s = .ok chart → chart.xAxis.range = .categories names →
    (Diagram.xyChart chart).foundBy "xychart-series-length" =
      ((seriesOf lines).filter fun series => series.values.length ≠ names.length).map fun series =>
        lengthFinding series chart.xAxis names.length
  /-- With numbers on it there is nothing to compare. -/
  unmatched : ∀ chart min max, read s = .ok chart → chart.xAxis.range = .numeric min max →
    (Diagram.xyChart chart).foundBy "xychart-series-length" = []

variable {s : Source} {header : Line} {word : String} {rest : Text} {orientation : Orientation} {side : Side}
  {lines before : List EntryLine} {l again : EntryLine} {chart : XyChart}

theorem Entry.eq_axis_of_axisOn? {e : Entry} {a : Axis} (given : e.axisOn? side = some a) : e = .axis side a := by
  unfold axisOn? at given
  split at given
  · next other b =>
    split at given
    · next same => rw [same, Option.some.inj given]
    · cases given
  · cases given

/-! ### What a line gives -/

theorem gives_of_axisLine (side : Side) {d d' : Draft} {line : Line} (taken : axisLine side d line = .ok (some d')) :
    ∃ entry, Gives line entry := by
  unfold axisLine at taken
  split at taken
  · cases taken
  · next rest keyword =>
    split at taken
    · cases taken
    · obtain ⟨a, read, -⟩ := exists_of_map_ok taken
      obtain ⟨title, range, written, rfl⟩ := axis_eq_ok_iff.mp read
      exact ⟨_, .axis keyword written⟩

/-- Every line that is ever read gives something. -/
theorem gives_of_readLine {d d' : Draft} {line : Line} (read : readLine rules d line = .ok d') :
    ∃ entry, Gives line entry := by
  obtain ⟨rule, member, taken⟩ := taken_by read
  simp only [rules, List.mem_cons, List.not_mem_nil, or_false] at member
  rcases member with rfl | rfl | rfl | rfl
  · dsimp only [titleLine] at taken
    split at taken
    · cases taken
    · next rest keyword => exact ⟨_, .title keyword⟩
  · exact gives_of_axisLine .x taken
  · exact gives_of_axisLine .y taken
  · dsimp only [seriesLine] at taken
    split at taken
    · cases taken
    · next kind rest keyword =>
      split at taken
      · cases taken
      · next front inner found =>
        obtain ⟨values, numbers, -⟩ := exists_of_map_ok taken
        obtain ⟨first, rfl⟩ := cutBracketed?_eq_some_iff.mp found
        exact ⟨_, .series (seriesKind?_eq_some_iff.mp keyword) (.values first (mapM_number_eq_ok_iff.mp numbers))⟩

/-- Lines that can each be read alone give something each. -/
theorem exists_entryLines (lines : List Line) (each : ∀ line ∈ lines, (readLine rules {} line).isOk = true) :
    ∃ entries : List EntryLine, lines = entries.map EntryLine.line := by
  induction lines with
  | nil => exact ⟨[], rfl⟩
  | cons line lines ih =>
    obtain ⟨alone, others⟩ := List.forall_mem_cons.mp each
    obtain ⟨d, read⟩ := exists_of_isOk alone
    obtain ⟨entry, written⟩ := gives_of_readLine read
    obtain ⟨entries, rfl⟩ := ih others
    exact ⟨⟨line, entry, written⟩ :: entries, rfl⟩

/-! ### Lines so far -/

/-- What has been read behind some lines. -/
def draftOf (lines : List EntryLine) : Draft :=
  ⟨titleOf lines, (axesOn .x lines).head?, (axesOn .y lines).head?, seriesOf lines⟩

theorem axisOn_draftOf (side : Side) (lines : List EntryLine) : (draftOf lines).axisOn side = (axesOn side lines).head? := by
  cases side <;> rfl

theorem axesOn_concat (side : Side) (lines : List EntryLine) (l : EntryLine) :
    axesOn side (lines ++ [l]) = axesOn side lines ++ (l.entry.axisOn? side).toList := by
  cases given : l.entry.axisOn? side <;> simp [axesOn, given]

theorem length_axesOn_le (side : Side) (lines : List EntryLine) (l : EntryLine) :
    (axesOn side lines).length ≤ (axesOn side (lines ++ [l])).length := by
  rw [axesOn_concat, List.length_append]
  exact Nat.le_add_right _ _

/-- A line is read if it gives no second axis. -/
theorem readLine_entry (once : ∀ side, (axesOn side (lines ++ [l])).length ≤ 1) :
    readLine rules (draftOf lines) l.line = .ok (draftOf (lines ++ [l])) := by
  obtain ⟨line, entry, written⟩ := l
  cases written with
  | title keyword =>
    rw [readLine_title keyword]
    simp [draftOf, axesOn, seriesOf, titleOf, Entry.title?, Entry.axisOn?, Entry.series?]
  | @axis side rest title range keyword written =>
    have first : axesOn side lines = [] := by
      have count := once side
      simpa [axesOn_concat, Entry.axisOn?] using count
    have free : (draftOf lines).axisOn side = none := by rw [axisOn_draftOf, first, List.head?_nil]
    rw [readLine_axis_written keyword written free]
    cases side <;>
      simp [draftOf, axesOn_concat, first, Draft.withAxis, seriesOf, titleOf, Entry.title?, Entry.axisOn?, Entry.series?]
  | series keyword written =>
    rw [readLine_series_written keyword written]
    simp [draftOf, axesOn, seriesOf, titleOf, Entry.title?, Entry.axisOn?, Entry.series?]

/-- Lines are read one behind the other if they give no second axis. -/
theorem readLines_entries (once : ∀ side, (axesOn side lines).length ≤ 1) :
    readLines (fun _ => rules) {} (lines.map EntryLine.line) = .ok (draftOf lines) := by
  induction lines using List.reverseRecOn with
  | nil => rfl
  | append_singleton lines l ih =>
    have front := ih fun side => (length_axesOn_le side lines l).trans (once side)
    rw [List.map_append, readLines_append front]
    exact readLines_cons_ok (readLine_entry once)

/-- The first second axis on a side is where reading stops. -/
theorem readLines_repeated (first : FirstRepeat lines before side again) :
    readLines (fun _ => rules) {} (lines.map EntryLine.line) = .error (again.line.fail (.axisRepeated side.keyword)) := by
  obtain ⟨after, rfl⟩ := first.split
  obtain ⟨a, same⟩ := first.repeated
  have given : ((draftOf before).axisOn side).isSome = true := by
    rw [axisOn_draftOf, List.isSome_head?]
    simpa using first.given
  rw [List.map_append, readLines_append (readLines_entries first.once), List.map_cons]
  refine readLines_cons_error ?_
  obtain ⟨line, entry, written⟩ := again
  obtain rfl : entry = .axis side a := same
  cases written with
  | axis keyword _ => rw [readLine_axis keyword, if_pos given]

/-- Where a side has two axes, there is a first line with a second one. -/
theorem exists_firstRepeat (twice : 2 ≤ (axesOn side lines).length) :
    ∃ before side again, FirstRepeat lines before side again := by
  induction lines using List.reverseRecOn generalizing side with
  | nil => simp [axesOn] at twice
  | append_singleton lines l ih =>
    by_cases once : ∀ side, (axesOn side lines).length ≤ 1
    · -- The last line gives the second axis.
      cases given : l.entry.axisOn? side with
      | none =>
        rw [axesOn_concat, given, Option.toList_none, List.append_nil] at twice
        exact absurd (once side) (Nat.not_le_of_lt twice)
      | some a =>
        have earlier : axesOn side lines ≠ [] := by
          intro none_given
          simp [axesOn_concat, given, none_given] at twice
        exact ⟨lines, side, l, ⟨[], rfl⟩, once, earlier, a, Entry.eq_axis_of_axisOn? given⟩
    · obtain ⟨other, more⟩ := not_forall.mp once
      obtain ⟨before, side, again, first⟩ := ih (Nat.lt_of_not_le more)
      obtain ⟨after, split⟩ := first.split
      exact ⟨before, side, again, ⟨after ++ [l], by simp [split]⟩, first.once, first.given, first.repeated⟩

/-! ### Charts -/

theorem missing_draftOf (lines : List EntryLine) : missing (draftOf lines) = lacking lines := by
  cases xs : axesOn .x lines <;> cases ys : axesOn .y lines <;> cases given : seriesOf lines <;>
    simp [missing, lacking, draftOf, xs, ys, given, Side.keyword]

theorem lacking_eq_nil_iff : lacking lines = [] ↔ (∀ side, axesOn side lines ≠ []) ∧ seriesOf lines ≠ [] := by
  have sides : (∀ side, axesOn side lines ≠ []) ↔ axesOn .x lines ≠ [] ∧ axesOn .y lines ≠ [] :=
    ⟨fun all => ⟨all .x, all .y⟩, fun both side => by cases side <;> simp [both]⟩
  rw [sides, lacking]
  simp [List.filter_eq_nil_iff]

section

variable (headed : s.headerWith ["xychart-beta"] = .ok (header, word, rest))
  (oriented : orientation? rest = some orientation) (given : s.body = lines.map EntryLine.line)

include headed oriented given

theorem read_of_repeated (first : FirstRepeat lines before side again) :
    read s = .error (again.line.fail (.axisRepeated side.keyword)) := by
  simp only [read, headed, bind, Except.bind, oriented, given, readLines_repeated first]

theorem read_of_lacking (once : ∀ side, (axesOn side lines).length ≤ 1) (lacks : lacking lines ≠ []) :
    read s = .error ((Fault.chartIncomplete (lacking lines)).at header.position) := by
  simp only [read, headed, bind, Except.bind, oriented, given, readLines_entries once]
  split
  · next x y first more xs ys series => exact absurd (by simp [← missing_draftOf, missing, xs, ys, series]) lacks
  · rw [missing_draftOf]

theorem read_of_complete {x y : Axis} (xs : axesOn .x lines = [x]) (ys : axesOn .y lines = [y])
    (filled : seriesOf lines ≠ []) : read s = .ok ⟨s.header .xyChart header, orientation, titleOf lines, x, y, seriesOf lines⟩ := by
  have once (side : Side) : (axesOn side lines).length ≤ 1 := by cases side <;> simp [xs, ys]
  obtain ⟨first, more, same⟩ := List.exists_cons_of_ne_nil filled
  simp only [read, headed, bind, Except.bind, oriented, given, readLines_entries once]
  simp only [draftOf, xs, ys, same, List.head?_cons]

/-- Only what gives each axis once and a series is read. -/
theorem complete_of_read (accepted : read s = .ok chart) : ∃ x y, axesOn .x lines = [x] ∧ axesOn .y lines = [y] ∧
    seriesOf lines ≠ [] ∧ chart = ⟨s.header .xyChart header, orientation, titleOf lines, x, y, seriesOf lines⟩ := by
  have once (side : Side) : (axesOn side lines).length ≤ 1 := by
    by_contra more
    obtain ⟨before, other, again, first⟩ := exists_firstRepeat (Nat.lt_of_not_le more)
    rw [read_of_repeated headed oriented given first] at accepted
    cases accepted
  have all_given : lacking lines = [] := by
    by_contra lacks
    rw [read_of_lacking headed oriented given once lacks] at accepted
    cases accepted
  obtain ⟨axes, filled⟩ := lacking_eq_nil_iff.mp all_given
  have single (side : Side) : ∃ a, axesOn side lines = [a] :=
    List.length_eq_one_iff.mp (Nat.le_antisymm (once side) (List.length_pos_iff.mpr (axes side)))
  obtain ⟨x, xs⟩ := single .x
  obtain ⟨y, ys⟩ := single .y
  rw [read_of_complete headed oriented given xs ys filled] at accepted
  exact ⟨x, y, xs, ys, filled, (Except.ok.inj accepted).symm⟩

end

theorem foundBy_lengths (known : chart.header.kind = .xyChart) :
    (Diagram.xyChart chart).foundBy "xychart-series-length" = chart.seriesLengths := by
  have family : (Diagram.xyChart chart).kind.family? = some .xyChart := congrArg Kind.family? known
  rw [Diagram.foundBy_of_family family]
  simp [Family.rules, Rule.xyChart, Rule.on]

/-- A chart is read if its lines give each axis once and a series, in whatever order they stand; the first line with a second
axis on a side is at fault, and otherwise the header is at fault for what is lacking. The series of the chart are compared
with its categories. -/
theorem judged_of_lines (headed : s.headerWith ["xychart-beta"] = .ok (header, word, rest))
    (oriented : orientation? rest = some orientation) (given : s.body = lines.map EntryLine.line) :
    Judged s header lines where
  accepted := by
    constructor
    · rintro ⟨chart, accepted⟩
      obtain ⟨x, y, xs, ys, filled, -⟩ := complete_of_read headed oriented given accepted
      exact ⟨fun side => by cases side <;> simp [xs, ys], filled⟩
    · rintro ⟨single, filled⟩
      obtain ⟨x, xs⟩ := List.length_eq_one_iff.mp (single .x)
      obtain ⟨y, ys⟩ := List.length_eq_one_iff.mp (single .y)
      exact ⟨_, read_of_complete headed oriented given xs ys filled⟩
  recorded chart accepted := by
    obtain ⟨x, y, xs, ys, -, rfl⟩ := complete_of_read headed oriented given accepted
    exact ⟨fun side => by cases side; exacts [xs, ys], rfl, rfl⟩
  repeated before side again first := ⟨read_of_repeated headed oriented given first, rfl⟩
  exists_repeat side twice := exists_firstRepeat twice
  incomplete once lacks := ⟨read_of_lacking headed oriented given once lacks, rfl⟩
  mismatched chart names accepted listed := by
    obtain ⟨x, y, -, -, -, rfl⟩ := complete_of_read headed oriented given accepted
    rw [foundBy_lengths rfl, seriesLengths, listed]
    simp only [bne, beq_eq_decide, decide_not]
  unmatched chart min max accepted numeric := by
    obtain ⟨x, y, -, -, -, rfl⟩ := complete_of_read headed oriented given accepted
    rw [foundBy_lengths rfl, seriesLengths, numeric]

/-- A category with a comma in it, a series with a value too many, and the axes behind it. -/
def quotedCategories : Text :=
  "xychart-beta horizontal\nbar \"Net\" [1, 2, 3]\ny-axis Total 0 --> 10\nx-axis [\"a, b\", c]\ntitle T\nline [2.5, -1]".toList

theorem judged_of_lines_quotedCategories :
    let s := Source.ofText quotedCategories 0
    let header := Line.ofRaw 1 "xychart-beta horizontal".toList
    let rest := "horizontal".toList
    s.headerWith ["xychart-beta"] = .ok (header, "xychart-beta", rest) ∧ orientation? rest = some .horizontal ∧
      ∃ lines, s.body = lines.map EntryLine.line ∧ Judged s header lines := by
  intro s header rest
  have headed : s.headerWith ["xychart-beta"] = .ok (header, "xychart-beta", rest) := eq_ok_of_toOption (by decide +kernel)
  have oriented : orientation? rest = some .horizontal := by decide
  obtain ⟨lines, given⟩ := exists_entryLines s.body (by decide +kernel)
  exact ⟨headed, oriented, lines, given, judged_of_lines headed oriented given⟩

end DiagramLint.XyChart
