import DiagramLint.Proofs.LineRule
import DiagramLint.Proofs.Results
import DiagramLint.Proofs.Text.Pieces
import DiagramLint.QuadrantChart

/-!
How often the keywords of a quadrant chart may be used. Whether a keyword has been used is told from what it has left
behind, so a second line with it is at fault just where an earlier one has given something. An axis is always something, but
the label of a quadrant may be empty, and then more lines may follow for the same quadrant: the last one counts
(`keywords_of_source`).
-/
namespace DiagramLint.QuadrantChart

open Text

/-- What a line can be for: an axis, or the label of a quadrant. -/
inductive Slot where
  | x | y
  | quadrant (q : Quadrant)

namespace Slot

/-- The keyword that the lines begin with. -/
def keyword : Slot → String
  | .x => "x-axis"
  | .y => "y-axis"
  | .quadrant q => q.keyword

/-- The fault of a line that comes too late. -/
def repeated : Slot → Fault
  | .x => .axisRepeated "x-axis"
  | .y => .axisRepeated "y-axis"
  | .quadrant q => .quadrantRepeated q.keyword

/-- What is recorded. -/
def Value : Slot → Type
  | .x | .y => Axis
  | .quadrant _ => Text

end Slot

/-- The axis that is written: the label of its low end, and that of its high end behind the first arrow. -/
def writtenAxis? (position : Position) (t : Text) : Option Axis :=
  match cut? "-->".toList t with
  | some (low, high) => (axisLabel? low).map fun low => ⟨low, axisLabel? high, position⟩
  | none => (axisLabel? t).map fun low => ⟨low, none, position⟩

namespace Slot

/-- What is written behind the keyword, if it is something. -/
def given (line : Line) (rest : Text) : (slot : Slot) → Option slot.Value
  | .x => writtenAxis? line.position rest
  | .y => writtenAxis? line.position rest
  | .quadrant _ => trimmed? (unquote rest)

/-- What a line gives for the slot. -/
def on? (slot : Slot) (line : Line) : Option slot.Value :=
  (afterKeyword? slot.keyword line.text).bind fun rest => slot.given line rest

/-- What has been read for the slot. -/
def inDraft (d : Draft) : (slot : Slot) → Option slot.Value
  | .x => d.xAxis
  | .y => d.yAxis
  | .quadrant q => d.quadrants.get q

/-- What a chart has for the slot. -/
def inChart (chart : QuadrantChart) : (slot : Slot) → Option slot.Value
  | .x => chart.xAxis
  | .y => chart.yAxis
  | .quadrant q => chart.quadrants.get q

/-- Whether the keyword is the first word of a line. -/
def begins (slot : Slot) (line : Line) : Bool := firstWord line.text = slot.keyword.toList

/-- The lines that begin with the keyword. -/
def linesOf (slot : Slot) (lines : List Line) : List Line := lines.filter slot.begins

end Slot

/-- Some lines behind the header can be read. -/
def Readable (lines : List Line) : Prop := ∃ d, readLines (fun _ => rules) {} lines = .ok d

/-- How often the lines of a source may begin with the keywords, and what they leave behind. -/
structure KeywordLaw (s : Source) : Prop where
  /-- The last line with a keyword has what is recorded for it. -/
  recorded : ∀ chart, read s = .ok chart → ∀ slot : Slot, slot.inChart chart = (slot.linesOf s.body).getLast?.bind slot.on?
  /-- All lines with the keyword in front of that one give nothing. -/
  unlabelled : ∀ chart, read s = .ok chart → ∀ slot : Slot, ∀ line ∈ (slot.linesOf s.body).dropLast, slot.on? line = none
  /-- Of each axis there is at most one line, and it gives the axis. -/
  axis_once : ∀ chart, read s = .ok chart → ∀ slot ∈ [Slot.x, Slot.y],
    (slot.linesOf s.body).length ≤ 1 ∧ ∀ line ∈ slot.linesOf s.body, (slot.on? line).isSome
  /-- Behind a line that gives something another one with the keyword is at fault. -/
  repeated : ∀ before line after, s.body = before ++ line :: after → Readable before → ∀ slot : Slot, slot.begins line →
    (∃ earlier ∈ before, (slot.on? earlier).isSome) →
    read s = .error (line.fail slot.repeated) ∧ slot.repeated.code = .e203
  /-- Behind lines that give a quadrant no label another one is read. -/
  tolerated : ∀ before line after, s.body = before ++ line :: after → Readable before → ∀ q, (Slot.quadrant q).begins line →
    (∀ earlier ∈ before, (Slot.quadrant q).on? earlier = none) → Readable (before ++ [line])

variable {d d' : Draft} {line : Line} {lines before after : List Line} {rest t : Text} {slot other : Slot} {q : Quadrant}
  {a : Axis} {s : Source} {header : Line} {chart : QuadrantChart}

/-! ### What is written on a line -/

theorem axis_eq_ok_iff : axis line t = .ok a ↔ writtenAxis? line.position t = some a := by
  unfold axis writtenAxis?
  cases cut? "-->".toList t with
  | none =>
    dsimp only
    cases axisLabel? t <;> simp
  | some parts =>
    dsimp only
    cases axisLabel? parts.1 <;> simp

/-! ### Keywords -/

/-- Neither of two keywords begins like the other. -/
theorem keyword_apart (different : other ≠ slot) :
    ¬ slot.keyword.toList <+: other.keyword.toList ∧ ¬ other.keyword.toList <+: slot.keyword.toList := by
  rcases slot with _ | _ | (_ | _ | _ | _) <;> rcases other with _ | _ | (_ | _ | _ | _) <;>
    first
    | exact absurd rfl different
    | decide

theorem Slot.begins_iff : slot.begins line = true ↔ ∃ rest, afterKeyword? slot.keyword line.text = some rest := by
  have visible : slot.keyword.toList.all fun c => !isBlank c := by
    rcases slot with _ | _ | (_ | _ | _ | _) <;> decide
  rw [Slot.begins, decide_eq_true_iff, ← isSome_afterKeyword?_iff visible, Option.isSome_iff_exists]

/-- A line begins with one keyword only. -/
theorem other_keyword (slot other : Slot) (keyword : afterKeyword? slot.keyword t = some rest) (different : other ≠ slot) :
    afterKeyword? other.keyword t = none :=
  afterKeyword?_eq_none (prefix_of_afterKeyword? keyword) (keyword_apart different)

theorem get_set (labels : Labels) (label : Option Text) (q : Quadrant) : (labels.set label q).get q = label := by
  cases q <;> rfl

theorem get_set_other {q r : Quadrant} (labels : Labels) (label : Option Text) (different : r ≠ q) :
    (labels.set label q).get r = labels.get r := by
  cases q <;> cases r <;> first | rfl | exact absurd rfl different

theorem quadrantLabel?_eq_some_iff : quadrantLabel? t = some (q, rest) ↔ afterKeyword? q.keyword t = some rest := by
  constructor
  · intro found
    obtain ⟨r, -, same⟩ := List.exists_of_findSome?_eq_some found
    obtain ⟨rest', keyword, same⟩ := Option.map_eq_some_iff.mp same
    obtain ⟨rfl, rfl⟩ := Prod.mk.inj same
    exact keyword
  · intro keyword
    have others (r : Quadrant) (different : r ≠ q) : afterKeyword? r.keyword t = none :=
      other_keyword (.quadrant q) (.quadrant r) keyword (by simpa using different)
    cases q <;> simp [quadrantLabel?, Quadrant.all, keyword, others]

/-- What the line makes of a draft in which nothing stands for the slot. -/
def Slot.taken (d : Draft) (line : Line) (rest : Text) : Slot → Except ParseError Draft
  | .x => (axis line rest).map fun a => { d with xAxis := some a }
  | .y => (axis line rest).map fun a => { d with yAxis := some a }
  | .quadrant q => .ok { d with quadrants := d.quadrants.set (trimmed? (unquote rest)) q }

/-- A line that begins with a keyword is read for the slot of the keyword, if nothing is recorded for it. -/
theorem readLine_slot (keyword : afterKeyword? slot.keyword line.text = some rest) :
    readLine rules d line = if (slot.inDraft d).isSome then .error (line.fail slot.repeated) else slot.taken d line rest := by
  have apart : ¬ slot.keyword.toList <+: "title".toList ∧ ¬ "title".toList <+: slot.keyword.toList := by
    rcases slot with _ | _ | (_ | _ | _ | _) <;> decide
  have untitled : titleLine d line = pass := by
    rw [titleLine, afterKeywordColon?_eq_none (prefix_of_afterKeyword? keyword) apart]
  have off_x (different : .x ≠ slot) : xAxisLine d line = pass := by
    rw [xAxisLine, show afterKeyword? "x-axis" line.text = none from other_keyword slot .x keyword different]
  have off_y (different : .y ≠ slot) : yAxisLine d line = pass := by
    rw [yAxisLine, show afterKeyword? "y-axis" line.text = none from other_keyword slot .y keyword different]
  cases slot with
  | x =>
    refine readLine_of_first (firstTaking_cons_of_pass untitled) ?_
    rw [xAxisLine, show afterKeyword? "x-axis" line.text = some rest from keyword]
    exact guarded_map_some
  | y =>
    refine readLine_of_first ((firstTaking_cons_of_pass untitled).trans (firstTaking_cons_of_pass (off_x nofun))) ?_
    rw [yAxisLine, show afterKeyword? "y-axis" line.text = some rest from keyword]
    exact guarded_map_some
  | quadrant q =>
    refine readLine_of_first ((firstTaking_cons_of_pass untitled).trans
      ((firstTaking_cons_of_pass (off_x nofun)).trans (firstTaking_cons_of_pass (off_y nofun)))) ?_
    show quadrantLine d line = (if (d.quadrants.get q).isSome then .error (line.fail (.quadrantRepeated q.keyword))
      else .ok { d with quadrants := d.quadrants.set (trimmed? (unquote rest)) q } : Except ParseError Draft).map some
    rw [quadrantLine, quadrantLabel?_eq_some_iff.mpr keyword]
    dsimp only
    split <;> rfl

/-! ### Slots -/

/-- A line that is read for a slot leaves there what it gives. -/
theorem inDraft_of_taken (taken : slot.taken d line rest = .ok d') : slot.inDraft d' = slot.given line rest := by
  cases slot with
  | x =>
    obtain ⟨a, read, rfl⟩ := exists_of_map_ok taken
    exact (axis_eq_ok_iff.mp read).symm
  | y =>
    obtain ⟨a, read, rfl⟩ := exists_of_map_ok taken
    exact (axis_eq_ok_iff.mp read).symm
  | quadrant q =>
    obtain rfl := Except.ok.inj taken
    exact get_set _ _ q

/-- The other slots stay as they are. -/
theorem inDraft_of_other (taken : slot.taken d line rest = .ok d') (different : other ≠ slot) :
    other.inDraft d' = other.inDraft d := by
  cases slot with
  | x =>
    obtain ⟨a, -, rfl⟩ := exists_of_map_ok taken
    cases other with
    | x => exact absurd rfl different
    | y => rfl
    | quadrant r => rfl
  | y =>
    obtain ⟨a, -, rfl⟩ := exists_of_map_ok taken
    cases other with
    | x => rfl
    | y => exact absurd rfl different
    | quadrant r => rfl
  | quadrant q =>
    obtain rfl := Except.ok.inj taken
    cases other with
    | x => rfl
    | y => rfl
    | quadrant r => exact get_set_other _ _ (by rintro rfl; exact different rfl)

/-- A line that begins with a keyword is read if nothing is recorded for it, and leaves what it gives. -/
theorem slot_of_read (begins : slot.begins line = true) (read : readLine rules d line = .ok d') :
    slot.inDraft d = none ∧ slot.inDraft d' = slot.on? line := by
  obtain ⟨rest, keyword⟩ := Slot.begins_iff.mp begins
  rw [readLine_slot keyword] at read
  split at read
  · cases read
  · next free =>
    have given : slot.on? line = slot.given line rest := by rw [Slot.on?, keyword, Option.bind_some]
    exact ⟨by simpa using free, (inDraft_of_taken read).trans given.symm⟩

/-- A line with a keyword leaves the other slots as they are. -/
theorem slot_of_other_keyword (other : Slot) (keyword : afterKeyword? other.keyword line.text = some rest)
    (begins : slot.begins line = false) (read : readLine rules d line = .ok d') : slot.inDraft d' = slot.inDraft d := by
  have different : slot ≠ other := by
    rintro rfl
    rw [Slot.begins_iff.mpr ⟨rest, keyword⟩] at begins
    cases begins
  rw [readLine_slot keyword] at read
  split at read
  · cases read
  · exact inDraft_of_other read different

/-- Every line leaves the slots as they are whose keywords it does not begin with. -/
theorem slot_of_other (begins : slot.begins line = false) (read : readLine rules d line = .ok d') :
    slot.inDraft d' = slot.inDraft d := by
  obtain ⟨rule, member, taken⟩ := taken_by read
  simp only [rules, List.mem_cons, List.not_mem_nil, or_false] at member
  rcases member with rfl | rfl | rfl | rfl | rfl | rfl
  · dsimp only [titleLine] at taken
    split at taken
    · cases taken
    · obtain rfl := Option.some.inj (Except.ok.inj taken)
      cases slot <;> rfl
  · dsimp only [xAxisLine] at taken
    split at taken
    · cases taken
    · next rest keyword => exact slot_of_other_keyword .x keyword begins read
  · dsimp only [yAxisLine] at taken
    split at taken
    · cases taken
    · next rest keyword => exact slot_of_other_keyword .y keyword begins read
  · dsimp only [quadrantLine] at taken
    split at taken
    · cases taken
    · next q rest keyword =>
      exact slot_of_other_keyword (.quadrant q) (quadrantLabel?_eq_some_iff.mp keyword) begins read
  · dsimp only [styleLine] at taken
    split at taken
    · cases taken
    · split at taken
      · cases taken
      · obtain rfl := Option.some.inj (Except.ok.inj taken)
        cases slot <;> rfl
  · dsimp only [pointLine] at taken
    split at taken
    · cases taken
    · split at taken
      · cases taken
      · split at taken
        · cases taken
        · obtain ⟨p, -, same⟩ := exists_of_map_ok taken
          obtain rfl := Option.some.inj same
          cases slot <;> rfl

/-- A line that is read for an axis gives one. -/
theorem axis_given (axes : slot ∈ [Slot.x, Slot.y]) (begins : slot.begins line = true)
    (read : readLine rules d line = .ok d') : (slot.on? line).isSome = true := by
  obtain ⟨rest, keyword⟩ := Slot.begins_iff.mp begins
  obtain ⟨-, leaves⟩ := slot_of_read begins read
  rw [readLine_slot keyword] at read
  split at read
  · cases read
  · rw [← leaves]
    simp only [List.mem_cons, List.not_mem_nil, or_false] at axes
    rcases axes with rfl | rfl
    · obtain ⟨a, -, rfl⟩ := exists_of_map_ok read
      rfl
    · obtain ⟨a, -, rfl⟩ := exists_of_map_ok read
      rfl

/-! ### Lines behind one another -/

/-- What some lines have left for a slot: what the last line with its keyword gives, where the others give nothing. -/
structure Left (slot : Slot) (lines : List Line) (d : Draft) : Prop where
  recorded : slot.inDraft d = (slot.linesOf lines).getLast?.bind slot.on?
  silent : ∀ line ∈ (slot.linesOf lines).dropLast, slot.on? line = none

theorem mem_linesOf_of_on? (member : line ∈ lines) (given : slot.on? line ≠ none) : line ∈ slot.linesOf lines := by
  refine List.mem_filter.mpr ⟨member, Slot.begins_iff.mpr (Option.ne_none_iff_exists'.mp fun missing => given ?_)⟩
  rw [Slot.on?, missing, Option.bind_none]

/-- Nothing is recorded just if no line has given anything. -/
theorem Left.eq_none_iff (left : Left slot lines d) : slot.inDraft d = none ↔ ∀ line ∈ lines, slot.on? line = none := by
  constructor
  · intro free line member
    by_contra given
    have found := mem_linesOf_of_on? member given
    have recorded := left.recorded
    have silent := left.silent
    rcases List.eq_nil_or_concat' (slot.linesOf lines) with nothing | ⟨front, last, split⟩
    · rw [nothing] at found
      cases found
    · rw [split, List.getLast?_concat, Option.bind_some, free] at recorded
      rw [split, List.dropLast_concat] at silent
      rw [split] at found
      rcases List.mem_append.mp found with earlier | here
      · exact given (silent line earlier)
      · obtain rfl := List.mem_singleton.mp here
        exact given recorded.symm
  · intro silent
    rw [left.recorded]
    cases last : (slot.linesOf lines).getLast? with
    | none => rfl
    | some line => exact silent line (List.mem_of_mem_filter (List.mem_of_getLast? last))

theorem linesOf_concat (slot : Slot) (lines : List Line) (line : Line) :
    slot.linesOf (lines ++ [line]) = slot.linesOf lines ++ if slot.begins line then [line] else [] := by
  rw [Slot.linesOf, List.filter_append, Slot.linesOf, List.filter_singleton]
  cases slot.begins line <;> rfl

/-- One more line keeps what has been left, or leaves what it gives. -/
theorem Left.concat (left : Left slot lines d) (read : readLine rules d line = .ok d') : Left slot (lines ++ [line]) d' := by
  cases begins : slot.begins line with
  | false =>
    have same : slot.linesOf (lines ++ [line]) = slot.linesOf lines := by simp [linesOf_concat, begins]
    exact ⟨by rw [slot_of_other begins read, same, left.recorded], by rw [same]; exact left.silent⟩
  | true =>
    have more : slot.linesOf (lines ++ [line]) = slot.linesOf lines ++ [line] := by simp [linesOf_concat, begins]
    obtain ⟨free, leaves⟩ := slot_of_read begins read
    refine ⟨by rw [more, List.getLast?_concat, leaves, Option.bind_some], ?_⟩
    rw [more, List.dropLast_concat]
    exact fun earlier member => left.eq_none_iff.mp free earlier (List.mem_of_mem_filter member)

theorem left_of_run (slot : Slot) (run : readLines (fun _ => rules) {} lines = .ok d) : Left slot lines d := by
  have start : Left slot [] {} := by
    refine ⟨?_, nofun⟩
    cases slot with
    | x => rfl
    | y => rfl
    | quadrant q => cases q <;> rfl
  exact readLines_holds (P := Left slot) (fun left read => left.concat read) start run

/-! ### Sources -/

/-- The lines of each axis are at most one. -/
theorem axis_of_run (axes : slot ∈ [Slot.x, Slot.y]) (run : readLines (fun _ => rules) {} lines = .ok d) :
    (slot.linesOf lines).length ≤ 1 ∧ ∀ line ∈ slot.linesOf lines, (slot.on? line).isSome = true := by
  have each : ∀ line ∈ slot.linesOf lines, (slot.on? line).isSome = true := by
    intro line member
    obtain ⟨inside, begins⟩ := List.mem_filter.mp member
    obtain ⟨before, after, rfl⟩ := List.append_of_mem inside
    obtain ⟨between, next, -, read⟩ := readLines_split_ok run
    exact axis_given axes begins read
  refine ⟨?_, each⟩
  have silent := (left_of_run slot run).silent
  rcases List.eq_nil_or_concat' (slot.linesOf lines) with nothing | ⟨front, last, split⟩
  · simp [nothing]
  · cases front with
    | nil => simp [split]
    | cons first front =>
      have given := each first (by simp [split])
      rw [split, List.dropLast_concat] at silent
      rw [silent first List.mem_cons_self] at given
      cases given

theorem run_of_read (accepted : read s = .ok chart) :
    ∃ d, readLines (fun _ => rules) {} s.body = .ok d ∧ ∀ slot : Slot, slot.inChart chart = slot.inDraft d := by
  obtain ⟨header, -, accepted⟩ := exists_of_bind_ok accepted
  obtain ⟨d, run, accepted⟩ := exists_of_bind_ok accepted
  obtain rfl := Except.ok.inj accepted
  exact ⟨d, run, fun slot => by cases slot <;> rfl⟩

/-- The lines of a source leave what the last line with each keyword gives, and a line with a keyword is at fault behind one
that has given something. -/
theorem keywords_of_source (headed : s.bareHeader "quadrantChart" = .ok header) : KeywordLaw s where
  recorded chart accepted slot := by
    obtain ⟨d, run, same⟩ := run_of_read accepted
    rw [same, (left_of_run slot run).recorded]
  unlabelled chart accepted slot := by
    obtain ⟨d, run, -⟩ := run_of_read accepted
    exact (left_of_run slot run).silent
  axis_once chart accepted slot axes := by
    obtain ⟨d, run, -⟩ := run_of_read accepted
    exact axis_of_run axes run
  repeated before line after split readable slot begins given := by
    obtain ⟨d, run⟩ := readable
    obtain ⟨rest, keyword⟩ := Slot.begins_iff.mp begins
    have recorded : (slot.inDraft d).isSome = true := by
      rw [Option.isSome_iff_ne_none]
      intro free
      obtain ⟨earlier, member, some_given⟩ := given
      simp [(left_of_run slot run).eq_none_iff.mp free earlier member] at some_given
    have refused : readLines (fun _ => rules) {} s.body = .error (line.fail slot.repeated) := by
      rw [split, readLines_append run]
      exact readLines_cons_error (by rw [readLine_slot keyword, if_pos recorded])
    refine ⟨?_, by cases slot <;> rfl⟩
    rw [read, headed]
    simp only [bind, Except.bind, refused]
  tolerated before line after split readable q begins silent := by
    obtain ⟨d, run⟩ := readable
    obtain ⟨rest, keyword⟩ := Slot.begins_iff.mp begins
    have free : (Slot.quadrant q).inDraft d = none := (left_of_run _ run).eq_none_iff.mpr silent
    refine ⟨{ d with quadrants := d.quadrants.set (trimmed? (unquote rest)) q }, ?_⟩
    rw [readLines_append run]
    exact readLines_cons_ok (by rw [readLine_slot keyword, free]; rfl)

/-- A quadrant with two labels behind a line without one. -/
def relabelled : Text := "quadrantChart\nquadrant-1 \"\"\ny-axis Low --> High\nquadrant-1 A\nquadrant-1 B".toList

theorem keywords_of_source_relabelled :
    let s := Source.ofText relabelled 0
    s.bareHeader "quadrantChart" = .ok (Line.ofRaw 1 "quadrantChart".toList) ∧ KeywordLaw s := by
  intro s
  have headed : s.bareHeader "quadrantChart" = .ok (Line.ofRaw 1 "quadrantChart".toList) :=
    eq_ok_of_toOption (by decide +kernel)
  exact ⟨headed, keywords_of_source headed⟩

/-- Two lines for one quadrant, the first of them without a label. -/
def unlabelledFirst : Text := "quadrantChart\nquadrant-1\nquadrant-1 A".toList

/-- The second line is read, although its keyword has been used. -/
theorem unlabelledFirst_accepted : ∃ chart, read (Source.ofText unlabelledFirst 0) = .ok chart ∧
    ((Slot.quadrant .first).linesOf (Source.ofText unlabelledFirst 0).body).map Line.number = [2, 3] ∧
    chart.quadrants.first = some "A".toList := by
  refine ⟨_, eq_ok_get (by decide +kernel), ?_, ?_⟩
  · decide +kernel
  · decide +kernel

end DiagramLint.QuadrantChart
