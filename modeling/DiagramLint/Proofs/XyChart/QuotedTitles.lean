import DiagramLint.Proofs.XyChart.Lines

/-!
Titles in double quotes on the lines of axes and series. The bracket that opens a list and the arrow between two numbers are
looked for in the quotes, too. So a title is read as it is written where it does not hold the one that its line has, and
else the line is refused, or read with another title (`quoted_titles_read`).
-/
namespace DiagramLint.XyChart

open Text

/-- A title that is written in double quotes: any text without them that is not empty and has no blanks at its ends. -/
structure QuotedTitle where
  text : Text
  filled : text ≠ []
  tight : trim text = text
  unquoted : '"' ∉ text

namespace QuotedTitle

/-- The title in its quotes. -/
def written (t : QuotedTitle) : Text := '"' :: (t.text ++ ['"'])

/-- The title between the keyword of a line and the rest of it. -/
def within (t : QuotedTitle) (keyword : String) (u : Text) : Text := keyword.toList ++ ' ' :: (t.written ++ ' ' :: u)

end QuotedTitle

/-- A list in square brackets. -/
def bracketed (inner : Text) : Text := '[' :: (inner ++ [']'])

/-- What becomes of a line with the title, where nothing has been given for its side. -/
structure TitleRead (t : QuotedTitle) (d : Draft) (line : Line) : Prop where
  /-- In front of categories the title is read unless an opening bracket is in it. -/
  categories : ∀ {side inner names}, line.text = t.within side.keyword (bracketed inner) → fields inner = .ok names →
    d.axisOn side = none → '[' ∉ t.text →
    readLine rules d line = .ok (d.withAxis ⟨some t.text, .categories names, line.position⟩ side)
  /-- With the bracket in it the line is refused, or read with another title. -/
  opened : ∀ {side inner d'}, line.text = t.within side.keyword (bracketed inner) → '[' ∈ t.text →
    readLine rules d line = .ok d' → ∃ a, d'.axisOn side = some a ∧ a.title ≠ some t.text
  /-- In front of numbers the title is read unless an arrow is in it. -/
  numbers : ∀ {side low high min max}, line.text = t.within side.keyword (low ++ " --> ".toList ++ high) →
    Binary64.read? low = some min → Binary64.read? high = some max → d.axisOn side = none → ¬ "-->".toList <:+: t.text →
    readLine rules d line = .ok (d.withAxis ⟨some t.text, .numeric min max, line.position⟩ side)
  /-- With the arrow in it the line is refused. -/
  pointed : ∀ {side low high max}, line.text = t.within side.keyword (low ++ " --> ".toList ++ high) →
    Binary64.read? high = some max → d.axisOn side = none → "-->".toList <:+: t.text →
    ∃ e, readLine rules d line = .error e ∧ e.code = .e101
  /-- In front of values the title is read unless an opening bracket is in it. -/
  values : ∀ {kind : SeriesKind} {inner values}, line.text = t.within kind.keyword (bracketed inner) →
    List.Forall₂ (fun u x => Binary64.read? u = some x) (pieces ',' inner) values → '[' ∉ t.text →
    readLine rules d line = .ok { d with series := d.series ++ [⟨kind, some t.text, values, line.position⟩] }
  /-- With the bracket in it the line is refused. -/
  unlisted : ∀ {kind : SeriesKind} {inner}, line.text = t.within kind.keyword (bracketed inner) → '[' ∈ t.text →
    ∃ e, readLine rules d line = .error e ∧ e.code = .e101

variable {t : QuotedTitle} {d d' : Draft} {line : Line} {side : Side} {kind : SeriesKind} {u inner low high : Text}
  {names : List Text} {min max : Binary64} {values : List Binary64}

theorem number_error {e : ParseError} (failed : number line u = .error e) : e.code = .e101 := by
  unfold number at failed
  split at failed
  · cases failed
  · obtain rfl := Except.error.inj failed
    rfl

/-- What holds a double quote is no number. -/
theorem number_quoted (line : Line) (quoted : '"' ∈ u) : ∃ e, number line u = .error e ∧ e.code = .e101 := by
  cases read : number line u with
  | ok x => exact absurd quoted (Binary64.not_mem_of_read (number_eq_ok_iff.mp read) (by decide) (by decide))
  | error e => exact ⟨e, rfl, number_error read⟩

namespace QuotedTitle

theorem afterKeyword?_within (t : QuotedTitle) (keyword : String) (u : Text) :
    afterKeyword? keyword (t.within keyword u) = some (t.written ++ ' ' :: u) :=
  afterKeyword?_written (List.cons_ne_nil ' ' []) allBlank_space ⟨'"', _, rfl, by decide⟩

theorem keyword_of_written {keyword : String} (t : QuotedTitle) (written : line.text = t.within keyword u) :
    afterKeyword? keyword line.text = some (t.written ++ ' ' :: u) := by rw [written, t.afterKeyword?_within]

theorem titleIn_written (t : QuotedTitle) : titleIn (t.written ++ [' ']) = some t.text := by
  have begins : BeginsVisible t.written := ⟨'"', _, rfl, by decide⟩
  have ends : EndsVisible t.written := ⟨'"' :: t.text, '"', rfl, by decide⟩
  rw [titleIn, trim_of_blank_end begins ends allBlank_space, written, unquote_quoted, trimmed?_of_tight t.filled t.tight]

/-- What is looked for is found behind the title if it is not in it. -/
theorem not_mem_written {mark : Char} (absent : mark ∉ t.text) (other : mark ≠ '"') (visible : mark ≠ ' ') :
    mark ∉ t.written ++ [' '] := by
  simp [written, absent, other, visible]

end QuotedTitle

/-! ### Lists -/

theorem axisText_categories (given : fields inner = .ok names) (absent : '[' ∉ t.text) :
    AxisText (t.written ++ ' ' :: bracketed inner) (some t.text) (.categories names) := by
  have written := AxisText.categories (t.not_mem_written absent (by decide) (by decide)) given
  rwa [t.titleIn_written, List.append_assoc] at written

theorem seriesText_values (given : List.Forall₂ (fun u x => Binary64.read? u = some x) (pieces ',' inner) values)
    (absent : '[' ∉ t.text) : SeriesText (t.written ++ ' ' :: bracketed inner) (some t.text) values := by
  have written := SeriesText.values (t.not_mem_written absent (by decide) (by decide)) given
  rwa [t.titleIn_written, List.append_assoc] at written

/-- A bracket in the title begins a list there, which holds the quote behind the title. -/
theorem cutBracketed?_opened (opened : '[' ∈ t.text) (inner : Text) :
    ∃ before behind, '"' ∉ before ∧ '"' ∈ behind ∧
      cutBracketed? (t.written ++ ' ' :: bracketed inner) = some ('"' :: before, behind) := by
  obtain ⟨before, after, split, absent⟩ := List.eq_append_cons_of_mem opened
  have unquoted := t.unquoted
  rw [split, List.mem_append, not_or] at unquoted
  refine ⟨before, after ++ '"' :: ' ' :: '[' :: inner, unquoted.1, by simp, cutBracketed?_eq_some_iff.mpr ⟨?_, ?_⟩⟩
  · simp [absent]
  · simp [QuotedTitle.written, bracketed, split]

/-- The title is then cut at the bracket, and keeps the quote in front of it. -/
theorem title_opened (written : line.text = t.within side.keyword (bracketed inner)) (opened : '[' ∈ t.text)
    (read : readLine rules d line = .ok d') : ∃ a, d'.axisOn side = some a ∧ a.title ≠ some t.text := by
  rw [readLine_axis (t.keyword_of_written written)] at read
  split at read
  · cases read
  · obtain ⟨a, made, rfl⟩ := exists_of_map_ok read
    obtain ⟨before, behind, unquoted, -, cut⟩ := cutBracketed?_opened opened inner
    obtain ⟨title, titled, quoted⟩ := quote_of_unclosed unquoted
    rw [axis, cut] at made
    dsimp only at made
    split at made
    · cases made
    · obtain rfl := Except.ok.inj made
      refine ⟨_, by cases side <;> rfl, ?_⟩
      rw [titled]
      rintro same
      exact t.unquoted (Option.some.inj same ▸ quoted)

theorem refused_unlisted (written : line.text = t.within kind.keyword (bracketed inner)) (opened : '[' ∈ t.text) :
    ∃ e, readLine rules d line = .error e ∧ e.code = .e101 := by
  obtain ⟨before, behind, -, quoted, cut⟩ := cutBracketed?_opened opened inner
  rw [readLine_series (t.keyword_of_written written), cut]
  dsimp only
  cases read : (pieces ',' behind).mapM (number line) with
  | error e =>
    obtain ⟨piece, -, failed⟩ := exists_of_mapM_error read
    exact ⟨e, rfl, number_error failed⟩
  | ok values =>
    -- One of the pieces holds the quote.
    obtain ⟨piece, member, held⟩ := exists_piece ',' quoted (by decide)
    obtain ⟨x, number⟩ := exists_of_mapM_ok read member
    obtain ⟨e, failed, -⟩ := number_quoted line held
    cases number.symm.trans failed

/-! ### Numbers -/

/-- The first arrow is the one between the numbers if there is none in the title. -/
theorem cut_arrow (lowest : Binary64.read? low = some min) (absent : ¬ "-->".toList <:+: t.text) (high : Text) :
    cut? "-->".toList (t.written ++ ' ' :: (low ++ " --> ".toList ++ high)) =
      some ((t.written ++ [' ']) ++ (low ++ [' ']), ' ' :: high) := by
  have pointless : '>' ∉ low := Binary64.not_mem_of_read lowest (by decide) (by decide)
  have in_front : ¬ "-->".toList <:+: '"' :: t.text := fun inside =>
    absent (infix_of_infix_append (u := ['"']) (by decide) (by decide) inside)
  have between : ¬ "-->".toList <:+: ' ' :: low := fun inside => by
    have member : '>' ∈ ' ' :: low := inside.subset (by decide)
    exact pointless (by simpa using member)
  have shape : t.written ++ ' ' :: (low ++ " --> ".toList ++ high) =
      '"' :: t.text ++ '"' :: (' ' :: low ++ ' ' :: ("-->".toList ++ ' ' :: high)) := by
    simp [QuotedTitle.written]
  rw [shape, cut?_behind_mark in_front (by decide), cut?_behind_mark between (by decide), cut?_at_start]
  simp [QuotedTitle.written]

theorem axisText_numbers (lowest : Binary64.read? low = some min) (highest : Binary64.read? high = some max)
    (absent : ¬ "-->".toList <:+: t.text) :
    AxisText (t.written ++ ' ' :: (low ++ " --> ".toList ++ high)) (some t.text) (.numeric min max) := by
  have apart : SetApart (t.written ++ [' ']) := .inr ⟨t.written, ' ', rfl, by decide⟩
  have low_read : Binary64.read? (low ++ [' ']) = some min := by
    rw [← Binary64.read?_trim, trim_append_blank allBlank_space, Binary64.read?_trim, lowest]
  have high_read : Binary64.read? (' ' :: high) = some max := by
    rw [← Binary64.read?_trim, show ' ' :: high = [' '] ++ high from rfl, trim_blank_append allBlank_space, Binary64.read?_trim,
      highest]
  have written := AxisText.numeric (cut_arrow lowest absent high) apart low_read high_read
  rwa [t.titleIn_written] at written

/-- An arrow in the title is the first one, and the quote behind the title stands behind it. -/
theorem exists_arrow (inside : "-->".toList <:+: t.text) (u : Text) :
    ∃ head rest, cut? "-->".toList (t.written ++ ' ' :: u) = some (head, rest) ∧ '"' ∈ rest := by
  obtain ⟨⟨before, after⟩, found⟩ := Option.ne_none_iff_exists'.mp fun missing => cut?_eq_none_iff.mp missing inside
  have elsewhere : ¬ "-->".toList <+: '"' :: (t.text ++ '"' :: ' ' :: u) := by simp
  have shape : t.written ++ ' ' :: u = '"' :: (t.text ++ '"' :: ' ' :: u) := by simp [QuotedTitle.written]
  refine ⟨'"' :: before, after ++ '"' :: ' ' :: u, ?_, by simp⟩
  rw [shape, cut?_cons elsewhere, cut?_append found]
  rfl

theorem refused_pointed (written : line.text = t.within side.keyword (low ++ " --> ".toList ++ high))
    (highest : Binary64.read? high = some max) (free : d.axisOn side = none) (inside : "-->".toList <:+: t.text) :
    ∃ e, readLine rules d line = .error e ∧ e.code = .e101 := by
  obtain ⟨head, rest, arrow, quoted⟩ := exists_arrow inside (low ++ " --> ".toList ++ high)
  have unlisted : cutBracketed? (t.written ++ ' ' :: (low ++ " --> ".toList) ++ high) = none :=
    cutBracketed?_of_number highest _
  rw [List.append_assoc, List.cons_append] at unlisted
  obtain ⟨e, failed, coded⟩ := number_quoted line quoted
  rw [readLine_axis (t.keyword_of_written written), free, axis_of_arrow unlisted arrow]
  cases lowest : number line (titleAndLow head).2 with
  | error e' => exact ⟨e', rfl, number_error lowest⟩
  | ok x =>
    rw [failed]
    exact ⟨e, rfl, coded⟩

/-- A title in double quotes is read as it is written, unless what is looked for behind it is found in it. -/
theorem quoted_titles_read (t : QuotedTitle) (d : Draft) (line : Line) : TitleRead t d line where
  categories written given free absent :=
    readLine_axis_written (t.keyword_of_written written) (axisText_categories given absent) free
  opened written opened read := title_opened written opened read
  numbers written lowest highest free absent :=
    readLine_axis_written (t.keyword_of_written written) (axisText_numbers lowest highest absent) free
  pointed written highest free inside := refused_pointed written highest free inside
  values written given absent :=
    readLine_series_written (t.keyword_of_written written) (seriesText_values given absent)
  unlisted written opened := refused_unlisted written opened

/-- A title with an arrow, a comma and a closing bracket in it. -/
def busyTitle : QuotedTitle := ⟨"a --> b, c]".toList, by decide, by decide, by decide⟩

theorem quoted_titles_read_busyTitle :
    let line := Line.ofRaw 2 "x-axis \"a --> b, c]\" [\"d, e\", f]".toList
    readLine rules {} line =
      .ok { xAxis := some ⟨some busyTitle.text, .categories ["d, e".toList, "f".toList], line.position⟩ } := by
  intro line
  have given : fields "\"d, e\", f".toList = .ok ["d, e".toList, "f".toList] := eq_ok_of_toOption (by decide +kernel)
  have written : line.text = busyTitle.within Side.x.keyword (bracketed "\"d, e\", f".toList) := by decide +kernel
  exact (quoted_titles_read busyTitle {} line).categories written given rfl (by decide)

/-- An opening bracket in the title of the x-axis. -/
def openedTitle : Text := "xychart-beta\nx-axis \"a [b\" [c]\ny-axis 0 --> 1\nbar [1]".toList

/-- The line is refused, although the title is in quotes. -/
theorem openedTitle_refused : read (Source.ofText openedTitle 0) =
    .error ((Line.ofRaw 2 "x-axis \"a [b\" [c]".toList).fail (.fieldsMalformed ⟨5⟩)) :=
  eq_error_of_seen (by decide +kernel)

end DiagramLint.XyChart
