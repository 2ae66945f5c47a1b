import DiagramLint.Proofs.LineRule
import DiagramLint.Proofs.Number.Literals
import DiagramLint.Proofs.Results
import DiagramLint.Proofs.Text.Cuts
import DiagramLint.Proofs.Text.Lines
import DiagramLint.XyChart

/-!
How the lines of charts with two axes are written. An axis has categories in square brackets, or two numbers with an arrow
between them; a series has numbers in square brackets; a title may stand in front of all of them. What is read from such a
line is what is written on it (`axis_eq_ok_iff`, `mapM_number_eq_ok_iff`), and the keyword alone decides which rule reads it.
-/
namespace DiagramLint.XyChart

open Text

/-! ### Forms -/

/-- The title in front of what is shown: without quotes around it and blanks at its ends, if anything is left of it. -/
def titleIn (front : Text) : Option Text := trimmed? (unquote (trim front))

/-- Nothing is written, or a blank ends it. -/
def SetApart (front : Text) : Prop := front = [] ∨ ∃ t b, front = t ++ [b] ∧ isBlank b = true

/-- The text of an axis behind its keyword, with the title and the range that it gives. -/
inductive AxisText : Text → Option Text → Range → Prop where
  /-- Categories in square brackets: the first bracket opens them, and the last one ends the text. -/
  | categories {front inner : Text} {names : List Text} (first : '[' ∉ front) (listed : fields inner = .ok names) :
      AxisText (front ++ '[' :: (inner ++ [']'])) (titleIn front) (.categories names)
  /-- Two numbers around the first arrow; a blank stands between the title and the lower one. -/
  | numeric {t front low high : Text} {min max : Binary64} (first : cut? "-->".toList t = some (front ++ low, high))
      (apart : SetApart front) (lowest : Binary64.read? low = some min) (highest : Binary64.read? high = some max) :
      AxisText t (titleIn front) (.numeric min max)

/-- The text of a series behind its keyword, with the name and the values that it gives: numbers with commas between them in
square brackets. -/
inductive SeriesText : Text → Option Text → List Binary64 → Prop where
  | values {front inner : Text} {values : List Binary64} (first : '[' ∉ front)
      (numbers : List.Forall₂ (fun t x => Binary64.read? t = some x) (pieces ',' inner) values) :
      SeriesText (front ++ '[' :: (inner ++ [']'])) (titleIn front) values

variable {line : Line} {t u front inner low high head : Text} {title : Option Text} {range : Range} {a : Axis} {x : Binary64}
  {values : List Binary64}

/-! ### Brackets -/

/-- What a number ends is not in brackets. -/
theorem cutBracketed?_of_number (read : Binary64.read? high = some x) (u : Text) : cutBracketed? (u ++ high) = none := by
  have filled : high ≠ [] := by
    rintro rfl
    cases read
  have absent : ']' ∉ high := Binary64.not_mem_of_read read (by decide) (by decide)
  refine Option.eq_none_iff_forall_ne_some.mpr fun (front, inner) found => ?_
  have last := congrArg List.getLast? (cutBracketed?_eq_some_iff.mp found).2
  rw [List.getLast?_append_of_ne_nil _ filled, ← List.cons_append, ← List.append_assoc, List.getLast?_concat] at last
  exact absent (List.mem_of_getLast? last)

/-! ### Numbers -/

theorem number_eq_ok_iff : number line t = .ok x ↔ Binary64.read? t = some x := by
  unfold number
  cases Binary64.read? t <;> simp

theorem mapM_number_eq_ok_iff {ts : List Text} : ts.mapM (number line) = .ok values ↔
    List.Forall₂ (fun t x => Binary64.read? t = some x) ts values := by
  simp only [mapM_eq_ok_iff, number_eq_ok_iff]

/-! ### Titles in front of numbers -/

theorem exists_cutLastBlank? (found : cutLastBlank? t = some (u, head)) : ∃ b, isBlank b = true ∧ t = u ++ b :: head := by
  obtain ⟨⟨after, before⟩, cut, same⟩ := Option.map_eq_some_iff.mp found
  obtain ⟨rfl, rfl⟩ := Prod.mk.inj same
  obtain ⟨-, b, blank, whole⟩ := cutBlank?_spec cut
  refine ⟨b, blank, ?_⟩
  rw [← List.reverse_reverse t, whole]
  simp

theorem titleIn_of_trim (same : trim front = trim t) : titleIn front = titleIn t := by rw [titleIn, titleIn, same]

/-- The title and the lower number of an axis, in front of the arrow. -/
def titleAndLow (head : Text) : Option Text × Text :=
  match cutLastBlank? (trim head) with
  | some (title, min) => (titleIn title, min)
  | none => (none, trim head)

/-- Blanks stand between a title and what it is set apart from. -/
theorem trim_titled (apart : SetApart front) (titled : trim front ≠ []) (filled : trim low ≠ []) :
    ∃ gap c, allBlank gap = true ∧ isBlank c = true ∧ trim (front ++ low) = trim front ++ gap ++ c :: trim low := by
  obtain ⟨b, b', whole, before, after⟩ := exists_trim low
  obtain ⟨p, q, parts, ahead, behind⟩ := exists_trim front
  have trimmed : trim (front ++ low) = trim front ++ (q ++ b) ++ trim low := by
    have begins : BeginsVisible (trim front ++ (q ++ b) ++ trim low) := by
      simpa using (begins_of_trim titled (trim_trim front)).append (q ++ b ++ trim low)
    have ends := (ends_of_trim filled (trim_trim low)).append (trim front ++ (q ++ b))
    have shape : front ++ low = p ++ ((trim front ++ (q ++ b) ++ trim low) ++ b') := by
      conv_lhs => rw [parts, whole]
      simp
    rw [shape, trim_between ahead begins ends after]
  have blanks : allBlank (q ++ b) = true := by rw [allBlank_append, behind, before, Bool.and_self]
  rcases List.eq_nil_or_concat' (q ++ b) with nothing | ⟨gap, c, split⟩
  · -- The title ends visibly, so the blank that sets it apart would stand behind it.
    obtain ⟨rfl, -⟩ := List.append_eq_nil_iff.mp nothing
    obtain ⟨t, a, visibly, visible⟩ := ends_of_trim titled (trim_trim front)
    rcases apart with rfl | ⟨t', a', ended, blank⟩
    · exact absurd rfl titled
    · rw [parts, visibly] at ended
      obtain ⟨-, rfl⟩ : _ ∧ a = a' := by simpa [← List.append_assoc] using ended
      exact absurd blank (by simp [visible])
  · rw [split, allBlank_append, Bool.and_eq_true] at blanks
    refine ⟨gap, c, blanks.1, List.all_eq_true.mp blanks.2 c (List.mem_singleton_self c), ?_⟩
    rw [trimmed, split, ← List.append_assoc, List.append_assoc _ [c], List.singleton_append]

/-- The last word is the number, and the title stands in front of it. -/
theorem titleAndLow_written (apart : SetApart front) (read : Binary64.read? low = some x) :
    titleAndLow (front ++ low) = (titleIn front, trim low) := by
  obtain ⟨filled, numeral⟩ := Binary64.numeral_of_read read
  have visible : ∀ c ∈ trim low, isBlank c = false := fun c member => Binary64.visible_of_numeral (numeral c member)
  by_cases titled : trim front = []
  · obtain ⟨p, q, parts, ahead, behind⟩ := exists_trim front
    have blank : allBlank front = true := by
      rw [parts, titled]
      simp [allBlank_append, ahead, behind]
    rw [titleAndLow, trim_blank_append blank, cutLastBlank?_of_visible visible, titleIn, titled]
    rfl
  · obtain ⟨gap, c, gap_blank, blank, trimmed⟩ := trim_titled apart titled filled
    rw [titleAndLow, trimmed, cutLastBlank?_written visible blank]
    exact Prod.ext (titleIn_of_trim (by rw [trim_append_blank gap_blank, trim_trim])) rfl

/-- The number in front of the arrow is set apart from what stands in front of it. -/
theorem exists_titleAndLow (read : Binary64.read? (titleAndLow head).2 = some x) :
    ∃ front low, head = front ++ low ∧ SetApart front ∧ Binary64.read? low = some x := by
  obtain ⟨p, q, whole, -, behind⟩ := exists_trim head
  unfold titleAndLow at read
  cases cut : cutLastBlank? (trim head) with
  | none =>
    rw [cut] at read
    exact ⟨[], head, rfl, .inl rfl, by rwa [← Binary64.read?_trim]⟩
  | some parts =>
    obtain ⟨before, low⟩ := parts
    rw [cut] at read
    obtain ⟨b, blank, split⟩ := exists_cutLastBlank? cut
    refine ⟨p ++ before ++ [b], low ++ q, ?_, .inr ⟨p ++ before, b, rfl, blank⟩, ?_⟩
    · conv_lhs => rw [whole, split]
      simp
    · rwa [← Binary64.read?_trim, trim_append_blank behind, Binary64.read?_trim]

/-! ### Axes -/

theorem axis_of_arrow (unlisted : cutBracketed? t = none) (arrow : cut? "-->".toList t = some (head, high)) :
    axis line t = number line (titleAndLow head).2 >>= fun min => number line high >>= fun max =>
      .ok ⟨(titleAndLow head).1, .numeric min max, line.position⟩ := by
  rw [axis, unlisted]
  simp only [arrow]
  rfl

/-- An axis is read as what is written on it, and only so. -/
theorem axis_eq_ok_iff :
    axis line t = .ok a ↔ ∃ title range, AxisText t title range ∧ a = ⟨title, range, line.position⟩ := by
  constructor
  · intro made
    cases listed : cutBracketed? t with
    | some parts =>
      obtain ⟨front, inner⟩ := parts
      obtain ⟨first, rfl⟩ := cutBracketed?_eq_some_iff.mp listed
      rw [axis, listed] at made
      dsimp only at made
      split at made
      · cases made
      · next names given => exact ⟨_, _, .categories first given, (Except.ok.inj made).symm⟩
    | none =>
      cases arrow : cut? "-->".toList t with
      | none =>
        rw [axis, listed] at made
        simp only [arrow] at made
        cases made
      | some parts =>
        obtain ⟨head, high⟩ := parts
        rw [axis_of_arrow listed arrow] at made
        obtain ⟨min, lowest, made⟩ := exists_of_bind_ok made
        obtain ⟨max, highest, made⟩ := exists_of_bind_ok made
        obtain ⟨front, low, rfl, apart, read⟩ := exists_titleAndLow (number_eq_ok_iff.mp lowest)
        rw [titleAndLow_written apart read] at made
        exact ⟨_, _, .numeric arrow apart read (number_eq_ok_iff.mp highest), (Except.ok.inj made).symm⟩
  · rintro ⟨title, range, written, rfl⟩
    cases written with
    | categories first given =>
      rw [axis, cutBracketed?_eq_some_iff.mpr ⟨first, rfl⟩]
      simp only [given]
      rfl
    | @numeric _ front low high min max arrow apart lowest highest =>
      have unlisted : cutBracketed? t = none := by
        rw [← append_of_cut? arrow, ← List.append_assoc]
        exact cutBracketed?_of_number highest _
      have first : number line (trim low) = .ok min := number_eq_ok_iff.mpr (by rw [Binary64.read?_trim, lowest])
      rw [axis_of_arrow unlisted arrow, titleAndLow_written apart lowest, first, number_eq_ok_iff.mpr highest]
      rfl

/-! ### Keywords -/

/-- The side of a chart that an axis is on. -/
inductive Side where
  | x | y
  deriving DecidableEq

/-- The keyword of the axis on a side. -/
def Side.keyword : Side → String
  | .x => "x-axis"
  | .y => "y-axis"

/-- The keyword of a series. -/
def SeriesKind.keyword : SeriesKind → String
  | .bar => "bar"
  | .line => "line"

/-- The axis of a chart on a side. -/
def axisOn (chart : XyChart) : Side → Axis
  | .x => chart.xAxis
  | .y => chart.yAxis

namespace Draft

/-- The axis on a side, if it has been given. -/
def axisOn (d : Draft) : Side → Option Axis
  | .x => d.xAxis
  | .y => d.yAxis

/-- The draft with an axis on a side. -/
def withAxis (d : Draft) (a : Axis) : Side → Draft
  | .x => { d with xAxis := some a }
  | .y => { d with yAxis := some a }

end Draft

/-- The rule for the axis on a side. -/
def axisLine (side : Side) (d : Draft) (line : Line) : Taken Draft :=
  match afterKeyword? side.keyword line.text with
  | none => pass
  | some rest =>
    if (d.axisOn side).isSome then .error (line.fail (.axisRepeated side.keyword))
    else (axis line rest).map fun a => some (d.withAxis a side)

theorem xAxisLine_eq : xAxisLine = axisLine .x := rfl

theorem yAxisLine_eq : yAxisLine = axisLine .y := rfl

variable {d : Draft} {side : Side} {kind : SeriesKind} {rest : Text}

/-- The last title counts. -/
theorem readLine_title (keyword : afterKeywordColon? "title" line.text = some rest) :
    readLine rules d line = .ok { d with title := trimmed? (unquote rest) } :=
  readLine_of_first rfl (by rw [titleLine, keyword]; rfl)

/-- An axis is read unless there is one on its side. -/
theorem readLine_axis (keyword : afterKeyword? side.keyword line.text = some rest) :
    readLine rules d line = if (d.axisOn side).isSome then .error (line.fail (.axisRepeated side.keyword))
      else (axis line rest).map fun a => d.withAxis a side := by
  have first := prefix_of_afterKeyword? keyword
  have taken : axisLine side d line = (if (d.axisOn side).isSome then .error (line.fail (.axisRepeated side.keyword))
      else (axis line rest).map fun a => d.withAxis a side : Except ParseError Draft).map some := by
    rw [axisLine, keyword]
    exact guarded_map_some
  have untitled : titleLine d line = pass := by
    rw [titleLine, afterKeywordColon?_eq_none first (by cases side <;> decide)]
  rw [rules, xAxisLine_eq, yAxisLine_eq]
  cases side with
  | x => exact readLine_of_first (firstTaking_cons_of_pass untitled) taken
  | y =>
    have other : axisLine .x d line = pass := by rw [axisLine, afterKeyword?_eq_none first (by decide)]
    exact readLine_of_first ((firstTaking_cons_of_pass untitled).trans (firstTaking_cons_of_pass other)) taken

/-- An axis that is written is read as it is, if it is the first on its side. -/
theorem readLine_axis_written (keyword : afterKeyword? side.keyword line.text = some rest)
    (written : AxisText rest title range) (free : d.axisOn side = none) :
    readLine rules d line = .ok (d.withAxis ⟨title, range, line.position⟩ side) := by
  have read : axis line rest = .ok ⟨title, range, line.position⟩ := axis_eq_ok_iff.mpr ⟨title, range, written, rfl⟩
  rw [readLine_axis keyword, free, read]
  rfl

theorem seriesKind?_eq_some_iff : seriesKind? t = some (kind, rest) ↔ afterKeyword? kind.keyword t = some rest := by
  constructor
  · intro found
    unfold seriesKind? at found
    split at found
    · next other bar =>
      obtain ⟨rfl, rfl⟩ := Prod.mk.inj (Option.some.inj found)
      exact bar
    · obtain ⟨other, line, same⟩ := Option.map_eq_some_iff.mp found
      obtain ⟨rfl, rfl⟩ := Prod.mk.inj same
      exact line
  · intro keyword
    cases kind with
    | bar => rw [seriesKind?, show afterKeyword? "bar" t = some rest from keyword]
    | line =>
      have other : afterKeyword? "bar" t = none := afterKeyword?_eq_none (prefix_of_afterKeyword? keyword) (by decide)
      rw [seriesKind?, other, show afterKeyword? "line" t = some rest from keyword]
      rfl

/-- A series is read by the rule for series. -/
theorem readLine_series (keyword : afterKeyword? kind.keyword line.text = some rest) :
    readLine rules d line = match cutBracketed? rest with
      | none => .error (line.fail .seriesMalformed)
      | some (front, inner) => ((pieces ',' inner).mapM (number line)).map fun values =>
        { d with series := d.series ++ [⟨kind, titleIn front, values, line.position⟩] } := by
  have first := prefix_of_afterKeyword? keyword
  have untitled : titleLine d line = pass := by
    rw [titleLine, afterKeywordColon?_eq_none first (by cases kind <;> decide)]
  have off_axis (side : Side) : axisLine side d line = pass := by
    rw [axisLine, afterKeyword?_eq_none first (by cases kind <;> cases side <;> decide)]
  refine readLine_of_first ((firstTaking_cons_of_pass untitled).trans
    ((firstTaking_cons_of_pass (off_axis .x)).trans (firstTaking_cons_of_pass (off_axis .y)))) ?_
  rw [seriesLine, seriesKind?_eq_some_iff.mpr keyword]
  dsimp only
  cases cutBracketed? rest with
  | none => rfl
  | some parts =>
    obtain ⟨front, inner⟩ := parts
    dsimp only
    cases (pieces ',' inner).mapM (number line) <;> rfl

/-- A series that is written is read as it is. -/
theorem readLine_series_written {name : Option Text} (keyword : afterKeyword? kind.keyword line.text = some rest)
    (written : SeriesText rest name values) :
    readLine rules d line = .ok { d with series := d.series ++ [⟨kind, name, values, line.position⟩] } := by
  cases written with
  | values first numbers =>
    rw [readLine_series keyword, cutBracketed?_eq_some_iff.mpr ⟨first, rfl⟩]
    simp only [mapM_number_eq_ok_iff.mpr numbers]
    rfl

end DiagramLint.XyChart
