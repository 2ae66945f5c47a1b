import DiagramLint.Diagram
import DiagramLint.Proofs.Coverage.Basic
import DiagramLint.Proofs.Detection
import DiagramLint.Proofs.Number.Literals
import DiagramLint.Proofs.Reading.Diagram
import DiagramLint.Proofs.Text.Lines
import DiagramLint.Proofs.Text.Words

/-!
Pie charts as they are written, a line for each slice: the label in double quotes, so that it may hold colons and comment
marks, and the value as any literal of it. A title stands on the header line or on a line of its own between the slices.
The lines are read back as the slices and the title that they are written for, and whatever else is read as a pie chart has
slices with values above zero, too (`written_slices_read`).
-/
namespace DiagramLint.PieChart

open Text

/-- A slice as it is written, with a literal of its value. -/
structure WrittenSlice where
  label : Text
  literal : Text
  value : Binary64
  label_unquoted : '"' ∉ label
  label_single : '\n' ∉ label
  literal_single : '\n' ∉ literal
  read : Binary64.read? literal = some value
  positive : value.isPositive = true

/-- A title as it is written: not empty, without blanks at its ends, and on one line. -/
structure WrittenTitle where
  text : Text
  filled : text ≠ []
  tight : trim text = text
  single : '\n' ∉ text

/-- A line behind the header. -/
inductive WrittenLine where
  | title (t : WrittenTitle)
  | slice (s : WrittenSlice)

namespace WrittenSlice

/-- The label in double quotes, a colon and the literal. -/
def written (s : WrittenSlice) : Text := '"' :: (s.label ++ ['"']) ++ ' ' :: (':' :: ' ' :: s.literal)

/-- The slice that is written, at a position. -/
def slice (s : WrittenSlice) (position : Position) : Slice := ⟨s.label, s.value, position⟩

end WrittenSlice

/-- The title behind its keyword. -/
def WrittenTitle.written (t : WrittenTitle) : Text := "title".toList ++ ' ' :: t.text

namespace WrittenLine

/-- The line as it is written. -/
def written : WrittenLine → Text
  | title t => t.written
  | slice s => s.written

/-- The title on the line. -/
def title? : WrittenLine → Option Text
  | title t => some t.text
  | slice _ => none

/-- The slice on the line. -/
def slice? : WrittenLine → Option WrittenSlice
  | title _ => none
  | slice s => some s

end WrittenLine

/-- A pie chart as it is written: with at least one slice, and with at most one title, in the header line or between the
slices. -/
structure WrittenChart where
  shown : Bool
  headed : Option WrittenTitle
  body : List WrittenLine
  titled_once : headed.toList.length + (body.filterMap WrittenLine.title?).length ≤ 1
  sliced : body.filterMap WrittenLine.slice? ≠ []

/-- The slices of some lines, where `number` is the number of the first line. -/
def slicesFrom (number : Nat) (body : List WrittenLine) : List Slice :=
  (body.zipIdx number).filterMap fun (line, n) => line.slice?.map fun s => s.slice ⟨n, 1⟩

namespace WrittenChart

/-- The mark in the header line that asks for the values to be shown. -/
def mark (c : WrittenChart) : Text := if c.shown then " showData".toList else []

/-- The title in the header line. -/
def headTitle (c : WrittenChart) : Text := c.headed.elim [] fun t => ' ' :: t.written

/-- The header line. -/
def header (c : WrittenChart) : Text := "pie".toList ++ (c.mark ++ c.headTitle)

/-- The text of the chart. -/
def text (c : WrittenChart) : Text := join ['\n'] (c.header :: c.body.map WrittenLine.written)

/-- The title of the chart, wherever it stands. -/
def title (c : WrittenChart) : Option Text :=
  (c.headed.map WrittenTitle.text).or (c.body.filterMap WrittenLine.title?).head?

end WrittenChart

variable {line : Line} {d : Draft} {raws : List Text} {body : List WrittenLine} {chart : PieChart}

/-! ### Lines -/

theorem WrittenTitle.begins (t : WrittenTitle) : BeginsVisible t.text := begins_of_trim t.filled t.tight

theorem WrittenTitle.trim_written (t : WrittenTitle) : trim t.written = t.written :=
  trim_of_visible ⟨'t', _, rfl, by decide⟩ (((ends_of_trim t.filled t.tight).append [' ']).append "title".toList)

/-- A title is read if there is none yet. -/
theorem readLine_title (t : WrittenTitle) (same : line.text = trim t.written) (untitled : d.title = none) :
    readLine rules d line = .ok { d with title := some t.text } := by
  have found : afterKeywordColon? "title" line.text = some t.text := by
    rw [same, t.trim_written]
    exact afterKeywordColon?_written t.begins
  have taken : titleLine d line = (Except.ok { d with title := some t.text }).map some := by
    rw [titleLine, found]
    simp [untitled, trimmed?_of_tight t.filled t.tight, take, Except.map]
  exact readLine_of_first rfl taken

/-- Behind the colon of a label only blanks at the end are lost with those of the line. -/
theorem headAndLabel_trim {t : Text} (whole : isWhole (· = ':') false t = true) (begins : BeginsVisible t) (u : Text) :
    headAndLabel (trim (t ++ ':' :: u)) = (trimEnd t, some (trim u)) := by
  have trimmed : trim (t ++ [':'] ++ u) = t ++ [':'] ++ trimEnd u :=
    trim_append (begins.append [':']) ⟨t, ':', rfl, by decide⟩ u
  rw [List.append_assoc, List.append_assoc, List.singleton_append, List.singleton_append] at trimmed
  rw [trimmed, headAndLabel_of_whole whole, trim_trimEnd]

theorem headAndLabel_slice (s : WrittenSlice) :
    headAndLabel (trim s.written) = ('"' :: (s.label ++ ['"']), some (trim (' ' :: s.literal))) := by
  have quoted : isWhole (· = ':') false ('"' :: (s.label ++ ['"'])) = true := isWhole_quoted (by decide) s.label_unquoted
  have whole : isWhole (· = ':') false ('"' :: (s.label ++ ['"']) ++ [' ']) = true := isWhole_append quoted (by decide)
  have head : trimEnd ('"' :: (s.label ++ ['"']) ++ [' ']) = '"' :: (s.label ++ ['"']) :=
    trimEnd_of_ends ⟨'"' :: s.label, '"', rfl, by decide⟩ allBlank_space
  have cut := headAndLabel_trim whole ⟨'"', _, rfl, by decide⟩ (' ' :: s.literal)
  rw [head] at cut
  simpa [WrittenSlice.written] using cut

theorem read?_literal (s : WrittenSlice) : Binary64.read? (trim (' ' :: s.literal)) = some s.value := by
  rw [show ' ' :: s.literal = [' '] ++ s.literal from rfl, trim_blank_append allBlank_space, Binary64.read?_trim, s.read]

/-- A line of a slice is read as the slice. -/
theorem readLine_slice (s : WrittenSlice) (same : line.text = trim s.written) :
    readLine rules d line = .ok { d with slices := d.slices ++ [s.slice line.position] } := by
  have first : ['"'] <+: line.text := by
    rw [same, WrittenSlice.written, List.cons_append, trim_cons (by decide)]
    exact ⟨_, rfl⟩
  have untitled : titleLine d line = pass := by rw [titleLine, afterKeywordColon?_eq_none first (by decide)]
  have label : between? ['"'] ['"'] ('"' :: (s.label ++ ['"'])) = some s.label := between?_eq_some ['"'] s.label ['"']
  have taken : sliceLine d line = (Except.ok { d with slices := d.slices ++ [s.slice line.position] }).map some := by
    rw [sliceLine, same, headAndLabel_slice]
    simp only [label, read?_literal, s.positive]
    rfl
  exact readLine_of_first (firstTaking_cons_of_pass untitled) taken

theorem WrittenLine.speaks (l : WrittenLine) : Speaks l.written := by
  cases l with
  | title t => exact ⟨by simp [written, WrittenTitle.written, t.single], 't', _, rfl, by decide, by decide⟩
  | slice s =>
    refine ⟨?_, '"', _, rfl, by decide, by decide⟩
    simp [written, WrittenSlice.written, s.label_single, s.literal_single]

/-- A line gives its title, for which there is room, or its slice. -/
theorem readLine_written (l : WrittenLine) (same : line.text = trim l.written) (room : d.title = none ∨ l.title? = none) :
    readLine rules d line = .ok ⟨d.title.or l.title?,
      d.slices ++ (l.slice?.map fun s => s.slice line.position).toList⟩ := by
  cases l with
  | title t =>
    have untitled : d.title = none := room.resolve_right (Option.some_ne_none t.text)
    rw [readLine_title t same untitled, untitled]
    simp [WrittenLine.title?, WrittenLine.slice?]
  | slice s =>
    rw [readLine_slice s same]
    simp [WrittenLine.title?, WrittenLine.slice?]

theorem slicesFrom_cons (number : Nat) (l : WrittenLine) (body : List WrittenLine) :
    slicesFrom number (l :: body) = (l.slice?.map fun s => s.slice ⟨number, 1⟩).toList ++ slicesFrom (number + 1) body := by
  cases l <;> simp [slicesFrom, WrittenLine.slice?]

/-- Lines behind one another give their slices, and the title if one of them has it. -/
theorem readLines_written (lines : List.Forall₂ LineOf raws (body.map WrittenLine.written)) (d : Draft) (number : Nat)
    (once : d.title.toList.length + (body.filterMap WrittenLine.title?).length ≤ 1) :
    readLines (fun _ => rules) d (raws.mapIdx fun i raw => .ofRaw (number + i) raw) =
      .ok ⟨d.title.or (body.filterMap WrittenLine.title?).head?, d.slices ++ slicesFrom number body⟩ := by
  induction body generalizing raws d number with
  | nil =>
    obtain rfl := List.forall₂_nil_right_iff.mp lines
    simp [readLines, slicesFrom]
  | cons l body ih =>
    obtain ⟨raw, raws, of, others, rfl⟩ := List.forall₂_cons_right_iff.mp lines
    have count : d.title.toList.length + (l.title?.toList.length + (body.filterMap WrittenLine.title?).length) ≤ 1 := by
      cases titled : l.title? <;> simpa [titled, Nat.add_comm] using once
    have room : d.title = none ∨ l.title? = none := by
      cases held : d.title with
      | none => exact .inl rfl
      | some t =>
        cases titled : l.title? with
        | none => exact .inr rfl
        | some t' =>
          simp only [held, titled, Option.toList_some, List.length_singleton] at count
          omega
    have first := readLine_written l (show (Line.ofRaw number raw).text = trim l.written from of.trim) room
    rw [of.position l.speaks] at first
    rw [List.mapIdx_cons, readLines_cons_ok first]
    have behind := ih others ⟨d.title.or l.title?, d.slices ++ (l.slice?.map fun s => s.slice ⟨number, 1⟩).toList⟩ (number + 1) (by
      rcases room with none_held | none_given
      · simpa [none_held] using count
      · simpa [none_given] using count)
    rw [slicesFrom_cons]
    cases titled : l.title? <;> simpa [titled, Nat.add_assoc, Nat.add_comm 1] using behind

/-! ### Headers -/

namespace WrittenChart

variable {c : WrittenChart} {first : Line} {lines : List Line} {text : Text} {offset : Nat}

theorem headTitle_blank (c : WrittenChart) : ∀ a ∈ c.headTitle.head?, isBlank a = true := by
  cases headed : c.headed <;> simp [headTitle, headed, (by decide : isBlank ' ' = true)]

theorem trimStart_headTitle (c : WrittenChart) : trimStart c.headTitle = c.headed.elim [] WrittenTitle.written := by
  cases headed : c.headed with
  | none => simp [headTitle, headed, trimStart]
  | some t =>
    have begins : BeginsVisible t.written := ⟨'t', _, rfl, by decide⟩
    simpa [headTitle, headed] using trimStart_of_begins (b := [' ']) allBlank_space begins

/-- What stands behind the keyword. -/
theorem afterKeyword?_header (c : WrittenChart) : afterKeyword? "pie" c.header = some (trimStart (c.mark ++ c.headTitle)) := by
  refine afterKeyword?_append ?_
  unfold mark
  split
  · simp [(by decide : isBlank ' ' = true)]
  · exact c.headTitle_blank

/-- The mark is told from the title. -/
theorem afterKeyword?_mark (c : WrittenChart) : afterKeyword? "showData" (trimStart (c.mark ++ c.headTitle)) =
    if c.shown then some (trimStart c.headTitle) else none := by
  cases shown : c.shown with
  | true =>
    have behind : trimStart (c.mark ++ c.headTitle) = "showData".toList ++ c.headTitle := by
      have begins : BeginsVisible ("showData".toList ++ c.headTitle) := ⟨'s', _, rfl, by decide⟩
      simpa [mark, shown] using trimStart_of_begins (b := [' ']) allBlank_space begins
    rw [behind, afterKeyword?_append c.headTitle_blank]
    rfl
  | false =>
    have behind : trimStart (c.mark ++ c.headTitle) = c.headed.elim [] WrittenTitle.written := by
      rw [mark, shown, ← trimStart_headTitle]
      rfl
    rw [behind]
    cases c.headed with
    | none => rfl
    | some t => exact afterKeyword?_eq_none (a := "title".toList) ⟨_, rfl⟩ (by decide)

theorem headerTitle_written (c : WrittenChart) (first : Line) :
    headerTitle first (trimStart c.headTitle) = .ok (c.headed.map WrittenTitle.text) := by
  rw [trimStart_headTitle]
  cases c.headed with
  | none => rfl
  | some t =>
    have filled : t.written.isEmpty = false := rfl
    have found : afterKeywordColon? "title" t.written = some t.text := afterKeywordColon?_written t.begins
    simp [headerTitle, filled, found, trimmed?_of_tight t.filled t.tight]

/-- Nothing of the header line is trimmed. -/
theorem trim_header (c : WrittenChart) : trim c.header = c.header := by
  refine trim_of_visible ⟨'p', _, rfl, by decide⟩ ?_
  cases headed : c.headed with
  | none =>
    cases shown : c.shown with
    | true => exact ⟨"pie showDat".toList, 'a', by simp [header, mark, headTitle, headed, shown], by decide⟩
    | false => exact ⟨"pi".toList, 'e', by simp [header, mark, headTitle, headed, shown], by decide⟩
  | some t =>
    have ends := ends_of_trim t.filled t.tight
    simpa [header, headTitle, headed, WrittenTitle.written] using ends.append ("pie".toList ++ (c.mark ++ " title ".toList))

theorem speaks_header (c : WrittenChart) : Speaks c.header := by
  refine ⟨?_, 'p', _, rfl, by decide, by decide⟩
  have marked : '\n' ∉ c.mark := by
    unfold mark
    split <;> decide
  cases headed : c.headed with
  | none => simp [header, headTitle, headed, marked]
  | some t => simp [header, headTitle, headed, marked, WrittenTitle.written, t.single]

/-- The slices of the chart, which begins behind some lines of a document. -/
def slices (c : WrittenChart) (offset : Nat) : List Slice := slicesFrom (offset + 2) c.body

end WrittenChart

/-! ### Charts that are read -/

theorem positive_step {d d' : Draft} (positive : ∀ s ∈ d.slices, s.value.isPositive = true)
    (taken : readLine rules d line = .ok d') : ∀ s ∈ d'.slices, s.value.isPositive = true := by
  rw [readLine_eq_ok_iff] at taken
  simp only [rules, firstTaking_cons, not_taken_by_none, and_false, or_false] at taken
  rcases taken with titled | ⟨-, sliced⟩
  · unfold titleLine at titled
    split at titled
    · cases titled
    · split at titled
      · cases titled
      · obtain rfl := eq_of_take titled
        exact positive
  · unfold sliceLine at sliced
    split at sliced
    · cases sliced
    · split at sliced
      · cases sliced
      · split at sliced
        · cases sliced
        · split at sliced
          · next above =>
            obtain rfl := eq_of_take sliced
            exact List.forall_mem_append.mpr ⟨positive, List.forall_mem_singleton.mpr above⟩
          · cases sliced

/-- A pie chart has slices, and all of them have values above zero. -/
theorem positive_of_read {s : Source} (accepted : read s = .ok chart) :
    chart.slices ≠ [] ∧ ∀ slice ∈ chart.slices, slice.value.isPositive = true := by
  obtain ⟨⟨header, word, rest⟩, -, accepted⟩ := exists_of_bind_ok accepted
  obtain ⟨title, -, accepted⟩ := exists_of_bind_ok accepted
  obtain ⟨d, run, accepted⟩ := exists_of_bind_ok accepted
  split at accepted
  · cases accepted
  · next filled =>
    obtain rfl := Except.ok.inj accepted
    exact ⟨by simpa using filled, readLines_keep (P := fun d : Draft => ∀ s ∈ d.slices, s.value.isPositive = true)
      positive_step run (List.forall_mem_nil _)⟩

/-! ### Charts that are written -/

theorem slicesFrom_ne_nil (filled : body.filterMap WrittenLine.slice? ≠ []) (number : Nat) : slicesFrom number body ≠ [] := by
  induction body generalizing number with
  | nil => exact absurd rfl filled
  | cons l body ih =>
    rw [slicesFrom_cons]
    cases l with
    | title t => simpa [WrittenLine.slice?] using ih (by simpa [WrittenLine.slice?] using filled) (number + 1)
    | slice s => simp [WrittenLine.slice?]

/-- A source with a header line as it is written is read as a pie chart. -/
theorem ofSource_of_header (c : WrittenChart) {first : Line} {behind : List Line} {text : Text} {offset : Nat}
    (word : first.text = c.header)
    (run : readLines (fun _ => rules) ⟨c.headed.map WrittenTitle.text, []⟩ behind = .ok ⟨c.title, c.slices offset⟩) :
    Diagram.ofSource (Source.kind ⟨text, offset, first :: behind⟩) ⟨text, offset, first :: behind⟩ =
      .ok (.pie ⟨⟨.pie, text, first.position⟩, c.shown, c.title, c.slices offset⟩) := by
  have headed : Source.headerWith ⟨text, offset, first :: behind⟩ ["pie"] =
      .ok (first, "pie", trimStart (c.mark ++ c.headTitle)) := by
    simp [Source.headerWith, Source.headerLine, Source.header?, word, c.afterKeyword?_header, bind, Except.bind]
  have kind : Source.kind ⟨text, offset, first :: behind⟩ = .pie :=
    kind_of_tells ((tells_of_headerWith headed).2 .pie (by decide))
  have shown : (afterKeyword? "showData" (trimStart (c.mark ++ c.headTitle))).isSome = c.shown := by
    rw [c.afterKeyword?_mark]
    cases c.shown <;> rfl
  have rest : (afterKeyword? "showData" (trimStart (c.mark ++ c.headTitle))).getD (trimStart (c.mark ++ c.headTitle)) =
      trimStart c.headTitle := by
    rw [c.afterKeyword?_mark]
    cases marked : c.shown with
    | true => rfl
    | false => simp [WrittenChart.mark, marked]
  have filled : (c.slices offset).isEmpty = false := List.isEmpty_eq_false_iff.mpr (slicesFrom_ne_nil c.sliced (offset + 2))
  have accepted : read ⟨text, offset, first :: behind⟩ =
      .ok ⟨⟨.pie, text, first.position⟩, c.shown, c.title, c.slices offset⟩ := by
    simp [read, headed, shown, rest, c.headerTitle_written, Source.body, Source.header, run, filled, bind, Except.bind]
  rw [kind, ofSource_eq]
  exact congrArg (Except.map Diagram.pie) accepted

/-- Slices and a title are read back as they are written, with the mark for the values: the slices in the order of their
lines, and the title from the header line or from its own line, wherever it stands. Whatever is read as a pie chart has at
least one slice, and only slices with values above zero. -/
theorem written_slices_read :
    (∀ (c : WrittenChart) (offset : Nat), Diagram.read c.text offset =
      .ok (.pie ⟨⟨.pie, c.text, ⟨offset + 1, 1⟩⟩, c.shown, c.title, c.slices offset⟩)) ∧
    ∀ s chart, read s = .ok chart → chart.slices ≠ [] ∧ ∀ slice ∈ chart.slices, slice.value.isPositive = true := by
  refine ⟨fun c offset => ?_, fun s chart accepted => positive_of_read accepted⟩
  have spoken : ∀ t ∈ c.header :: c.body.map WrittenLine.written, Speaks t := by
    refine List.forall_mem_cons.mpr ⟨c.speaks_header, fun t member => ?_⟩
    obtain ⟨l, -, rfl⟩ := List.mem_map.mp member
    exact l.speaks
  have unfenced : c.header.head? ≠ some '-' := by simp [WrittenChart.header]
  obtain ⟨raw, raws, of, others, cut⟩ := ofText_join spoken unfenced offset
  have word : (Line.ofRaw (offset + 1) raw).text = c.header := of.trim.trans c.trim_header
  have once : (c.headed.map WrittenTitle.text).toList.length + (c.body.filterMap WrittenLine.title?).length ≤ 1 := by
    cases headed : c.headed <;> simpa [headed] using c.titled_once
  have run := readLines_written others ⟨c.headed.map WrittenTitle.text, []⟩ (offset + 2) once
  rw [List.nil_append] at run
  rw [Diagram.read, WrittenChart.text, ofText_of_lines cut, ofSource_of_header c word run, of.position c.speaks_header]

/-- A slice with a comment mark, a colon and a keyword in its label, and a literal with a sign, an exponent and blanks. -/
def markedSlice : WrittenSlice where
  label := "%% title: a".toList
  literal := " +7.5e1\r".toList
  value := ⟨false, 5277655813324800, -46⟩
  label_unquoted := by decide
  label_single := by decide
  literal_single := by decide
  read := by decide +kernel
  positive := by decide

/-- A slice without a label. -/
def namelessSlice : WrittenSlice where
  label := []
  literal := ".5".toList
  value := ⟨false, 4503599627370496, -53⟩
  label_unquoted := by decide
  label_single := by decide
  literal_single := by decide
  read := by decide +kernel
  positive := by decide

/-- A title that begins like a keyword. -/
def markedTitle : WrittenTitle := ⟨"showData: \"b\"".toList, by decide, by decide +kernel, by decide⟩

/-- A chart with the title between its slices. -/
def dividedChart : WrittenChart :=
  ⟨true, none, [.slice markedSlice, .title markedTitle, .slice namelessSlice], by decide, by simp [WrittenLine.slice?]⟩

/-- A chart with the title in its header line. -/
def headedChart : WrittenChart := ⟨false, some markedTitle, [.slice namelessSlice], by decide, by simp [WrittenLine.slice?]⟩

/-- A chart in which the colons stand otherwise. -/
def looseText : Text := "pie title: T\n\"a\":3".toList

theorem written_slices_read_divided :
    Diagram.read "pie showData\n\"%% title: a\" :  +7.5e1\r\ntitle showData: \"b\"\n\"\" : .5".toList 4 =
      .ok (.pie ⟨⟨.pie, dividedChart.text, ⟨5, 1⟩⟩, true, some "showData: \"b\"".toList,
        [⟨"%% title: a".toList, markedSlice.value, ⟨6, 1⟩⟩, ⟨[], namelessSlice.value, ⟨8, 1⟩⟩]⟩) ∧
    Diagram.read "pie title showData: \"b\"\n\"\" : .5".toList 0 =
      .ok (.pie ⟨⟨.pie, headedChart.text, ⟨1, 1⟩⟩, false, some "showData: \"b\"".toList,
        [⟨[], namelessSlice.value, ⟨2, 1⟩⟩]⟩) ∧
    ∃ chart, read (Source.ofText looseText 0) = .ok chart ∧ chart.slices ≠ [] ∧
      ∀ slice ∈ chart.slices, slice.value.isPositive = true := by
  obtain ⟨written, positive⟩ := written_slices_read
  refine ⟨written dividedChart 4, written headedChart 0, ?_⟩
  obtain ⟨chart, accepted⟩ := exists_of_isOk (x := read (Source.ofText looseText 0)) (by decide +kernel)
  exact ⟨chart, accepted, positive _ chart accepted⟩

end DiagramLint.PieChart
