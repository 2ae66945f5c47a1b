import DiagramLint.Proofs.Coverage.Basic
import DiagramLint.Proofs.LineRule
import DiagramLint.Proofs.Reading.Schedules
import DiagramLint.Proofs.Results
import DiagramLint.Proofs.Text.Keywords
import DiagramLint.Timeline
import Mathlib.Data.List.DropRight

/-!
Timelines and their lines. The reader puts each line to the last period of the last section so far, or to the last one in
front of the sections. What comes of it is told by the lines: a section has the periods of the lines between its own and the
next section's, and a period has the events of its own line and of the lines that go on with it, up to the next period or
section (`periods_of_lines`).
-/
namespace DiagramLint

open Text

/-! ### Blocks -/

/-- Each line that makes something, as what it makes, with the lines behind it in front of the next such line. -/
def blocks {β : Type} (make? : Line → Option β) : List Line → List (β × List Line)
  | [] => []
  | line :: rest =>
    match make? line with
    | some b => (b, rest.takeWhile fun l => (make? l).isNone) :: blocks make? rest
    | none => blocks make? rest

section

variable {β : Type} {make? : Line → Option β} {b : β} {line : Line} {lines near : List Line}

theorem takeWhile_append_of_stop {α : Type} {p : α → Bool} {a : α} (stop : p a = false) (l r : List α) :
    (l ++ a :: r).takeWhile p = l.takeWhile p := by
  induction l with
  | nil => simp [stop]
  | cons c l ih => by_cases goes : p c = true <;> simp [goes, ih]

theorem blocks_of_plain (plain : ∀ l ∈ lines, make? l = none) : blocks make? lines = [] := by
  induction lines with
  | nil => rfl
  | cons line lines ih =>
    obtain ⟨first, others⟩ := List.forall_mem_cons.mp plain
    rw [blocks, first]
    exact ih others

theorem plain_concat (plain : ∀ l ∈ lines, make? l = none) (last : make? line = none) :
    ∀ l ∈ lines ++ [line], make? l = none :=
  List.forall_mem_append.mpr ⟨plain, List.forall_mem_singleton.mpr last⟩

/-- The last line that makes something has all lines behind it. -/
theorem blocks_at_last (made : make? line = some b) (plain : ∀ l ∈ near, make? l = none) (far : List Line) :
    blocks make? (far ++ line :: near) = blocks make? far ++ [(b, near)] := by
  induction far with
  | nil =>
    have whole : near.takeWhile (fun l => (make? l).isNone) = near :=
      List.takeWhile_eq_self_iff.mpr fun l member => by simp [plain l member]
    simp [blocks, made, whole, blocks_of_plain plain]
  | cons first far ih =>
    have stop : (make? line).isNone = false := by simp [made]
    have kept := takeWhile_append_of_stop (p := fun l => (make? l).isNone) stop far near
    rw [List.cons_append, blocks, blocks, ih, kept]
    cases make? first <;> rfl

/-- No line makes anything, or one of them is the last that does. -/
theorem plain_or_last (make? : Line → Option β) (lines : List Line) : (∀ l ∈ lines, make? l = none) ∨
    ∃ far line near b, lines = far ++ line :: near ∧ make? line = some b ∧ ∀ l ∈ near, make? l = none := by
  induction lines with
  | nil => exact .inl (List.forall_mem_nil _)
  | cons first lines ih =>
    rcases ih with plain | ⟨far, line, near, b, rfl, made, plain⟩
    · cases found : make? first with
      | none => exact .inl (List.forall_mem_cons.mpr ⟨found, plain⟩)
      | some b => exact .inr ⟨[], first, lines, b, rfl, found, plain⟩
    · exact .inr ⟨first :: far, line, near, b, rfl, made, plain⟩

end

namespace Timeline

/-! ### What lines say -/

/-- What a line of a timeline says. -/
inductive Saying where
  | title
  | heading (name : Text)
  | more (events : List Text)
  | period (label : Text) (events : List Text)
  deriving DecidableEq, Repr

/-- What a line says, if it says anything. -/
def said? (line : Line) : Option Saying :=
  if (afterKeywordColon? "title" line.text).isSome then some .title
  else match afterKeyword? "section" line.text with
    | some rest => (trimmed? rest).map .heading
    | none =>
      match dropStart? [':'] line.text with
      | some rest => some (.more (events rest))
      | none =>
        (cut? [':'] line.text).bind fun (label, rest) => (trimmed? label).map fun label => .period label (events rest)

/-- The section that a line begins, without its periods. -/
def section? (line : Line) : Option (Section Period) :=
  match said? line with
  | some (.heading name) => some ⟨name, [], line.position⟩
  | _ => none

/-- The period that a line begins, with the events on this line. -/
def period? (line : Line) : Option Period :=
  match said? line with
  | some (.period label events) => some ⟨label, events, line.position⟩
  | _ => none

/-- The events that a line adds to the period in front of it. -/
def more (line : Line) : List Text :=
  match said? line with
  | some (.more events) => events
  | _ => []

/-- The period with further events. -/
def Period.addEvents (events : List Text) (p : Period) : Period := { p with events := p.events ++ events }

/-- The periods of some lines: each with its own events and those of the lines in front of the next period. -/
def periodsOf (lines : List Line) : List Period :=
  (blocks period? lines).map fun (p, behind) => p.addEvents (behind.flatMap more)

/-- The sections of some lines: each with the periods of the lines in front of the next section. -/
def sectionsOf (lines : List Line) : List (Section Period) :=
  (blocks section? lines).map fun (s, behind) => { s with items := periodsOf behind }

/-- The lines in front of the first section. -/
def ahead (lines : List Line) : List Line := lines.takeWhile fun l => (section? l).isNone

/-- The lines behind the last line that begins a section, or all lines. -/
def latest (lines : List Line) : List Line := lines.rtakeWhile fun l => (section? l).isNone

/-- The periods and the sections are those of some lines, each of which says something. -/
structure Divides (lines : List Line) (periods : List Period) (sections : List (Section Period)) : Prop where
  spoken : ∀ line ∈ lines, (said? line).isSome
  periods : periods = periodsOf (ahead lines)
  sections : sections = sectionsOf lines

/-- The line begins with a colon, behind lines that can be read, and no line behind the last section line begins a period. -/
def Orphaned (lines : List Line) (line : Line) : Prop :=
  [':'] <+: line.text ∧ ∃ before after d, lines = before ++ line :: after ∧ readLines (fun _ => rules) {} before = .ok d ∧
    ∀ l ∈ latest before, period? l = none

variable {d d' : Draft} {line : Line} {lines near : List Line} {periods : List Period} {s : Section Period}
  {others : List (Section Period)}

/-! ### Periods and sections line by line -/

@[simp] theorem Period.addEvents_nil (p : Period) : p.addEvents [] = p := by simp [Period.addEvents]

theorem Period.addEvents_append (p : Period) (first second : List Text) :
    p.addEvents (first ++ second) = (p.addEvents first).addEvents second := by simp [Period.addEvents]

/-- A line that begins a period puts it behind the others. -/
theorem periodsOf_concat_of_period {p : Period} (begun : period? line = some p) (lines : List Line) :
    periodsOf (lines ++ [line]) = periodsOf lines ++ [p] := by
  rw [periodsOf, blocks_at_last begun (List.forall_mem_nil _) lines, List.map_append]
  simp [periodsOf]

/-- Any other line adds to the last period. -/
theorem periodsOf_concat_of_none (unbegun : period? line = none) (lines : List Line) :
    periodsOf (lines ++ [line]) = (changeLast? (Period.addEvents (more line)) (periodsOf lines)).getD [] := by
  rcases plain_or_last period? lines with plain | ⟨far, first, near, p, rfl, begun, plain⟩
  · have still := plain_concat plain unbegun
    simp only [periodsOf, blocks_of_plain plain, blocks_of_plain still]
    rfl
  · have still := plain_concat plain unbegun
    simp only [periodsOf, List.append_assoc, List.cons_append, blocks_at_last begun plain, blocks_at_last begun still,
      List.map_append, List.map_cons, List.map_nil, changeLast?_concat]
    simp [Period.addEvents_append]

/-- Nothing more for the last period leaves all as they are. -/
theorem changeLast?_addEvents_nil (periods : List Period) : (changeLast? (Period.addEvents []) periods).getD [] = periods := by
  rcases List.eq_nil_or_concat' periods with rfl | ⟨others, last, rfl⟩
  · rfl
  · simp [changeLast?_concat]

theorem sectionsOf_of_plain (plain : ∀ l ∈ lines, section? l = none) : sectionsOf lines = [] := by
  rw [sectionsOf, blocks_of_plain plain, List.map_nil]

theorem sectionsOf_at_last (begun : section? line = some s) (plain : ∀ l ∈ near, section? l = none) (far : List Line) :
    sectionsOf (far ++ line :: near) = sectionsOf far ++ [{ s with items := periodsOf near }] := by
  rw [sectionsOf, blocks_at_last begun plain far, List.map_append]
  rfl

theorem ahead_of_plain (plain : ∀ l ∈ lines, section? l = none) : ahead lines = lines :=
  List.takeWhile_eq_self_iff.mpr fun l member => by simp [plain l member]

theorem ahead_at_section (begun : section? line = some s) (far near : List Line) : ahead (far ++ line :: near) = ahead far :=
  takeWhile_append_of_stop (by simp [begun]) far near

theorem latest_of_plain (plain : ∀ l ∈ lines, section? l = none) : latest lines = lines :=
  List.rtakeWhile_eq_self_iff.mpr fun l member => by simp [plain l member]

theorem latest_at_section (begun : section? line = some s) (plain : ∀ l ∈ near, section? l = none) (far : List Line) :
    latest (far ++ line :: near) = near := by
  have stop : (section? line).isNone = false := by simp [begun]
  have apart : (far ++ line :: near).reverse = near.reverse ++ line :: far.reverse := by simp
  rw [latest, List.rtakeWhile, apart, takeWhile_append_of_stop (p := fun l => (section? l).isNone) stop]
  exact latest_of_plain plain

/-! ### The open periods -/

theorem openPeriods_of_nil (none_yet : d.sections = []) : openPeriods d = d.periods := by
  rw [openPeriods, none_yet]
  rfl

theorem setOpenPeriods_of_nil (none_yet : d.sections = []) (periods : List Period) :
    setOpenPeriods d periods = { d with periods := periods } := by
  rw [setOpenPeriods, none_yet]
  rfl

theorem openPeriods_of_last (last : d.sections = others ++ [s]) : openPeriods d = s.items := by
  simp [openPeriods, last]

theorem setOpenPeriods_of_last (last : d.sections = others ++ [s]) (periods : List Period) :
    setOpenPeriods d periods = { d with sections := others ++ [{ s with items := periods }] } := by
  simp [setOpenPeriods, last, changeLast?_concat]

theorem setOpenPeriods_openPeriods (d : Draft) : setOpenPeriods d (openPeriods d) = d := by
  rcases List.eq_nil_or_concat' d.sections with none_yet | ⟨others, s, last⟩
  · rw [openPeriods_of_nil none_yet, setOpenPeriods_of_nil none_yet]
  · rw [openPeriods_of_last last, setOpenPeriods_of_last last, ← last]

theorem Divides.spoken_concat (divides : Divides lines d.periods d.sections) (speaks : (said? line).isSome) :
    ∀ l ∈ lines ++ [line], (said? l).isSome :=
  List.forall_mem_append.mpr ⟨divides.spoken, List.forall_mem_singleton.mpr speaks⟩

/-- A line that begins a section puts it behind the others. -/
theorem Divides.heading (divides : Divides lines d.periods d.sections) (speaks : (said? line).isSome)
    (begun : section? line = some s) : Divides (lines ++ [line]) d.periods (d.sections ++ [{ s with items := [] }]) where
  spoken := divides.spoken_concat speaks
  periods := by rw [ahead_at_section begun, divides.periods]
  sections := by
    rw [sectionsOf_at_last begun (List.forall_mem_nil _), ← divides.sections]
    rfl

theorem Divides.openPeriods_eq (divides : Divides lines d.periods d.sections) : openPeriods d = periodsOf (latest lines) := by
  rcases plain_or_last section? lines with plain | ⟨far, heading, near, s, rfl, begun, plain⟩
  · have none_yet : d.sections = [] := divides.sections.trans (sectionsOf_of_plain plain)
    rw [openPeriods_of_nil none_yet, divides.periods, ahead_of_plain plain, latest_of_plain plain]
  · have last := divides.sections.trans (sectionsOf_at_last begun plain far)
    rw [openPeriods_of_last last, latest_at_section begun plain]

/-- A line that begins no section changes nothing but the open periods. -/
theorem Divides.within (divides : Divides lines d.periods d.sections) (speaks : (said? line).isSome)
    (unheaded : section? line = none) :
    Divides (lines ++ [line]) (setOpenPeriods d (periodsOf (latest lines ++ [line]))).periods
      (setOpenPeriods d (periodsOf (latest lines ++ [line]))).sections := by
  rcases plain_or_last section? lines with plain | ⟨far, heading, near, s, rfl, begun, plain⟩
  · have none_yet : d.sections = [] := divides.sections.trans (sectionsOf_of_plain plain)
    have still := plain_concat plain unheaded
    rw [latest_of_plain plain, setOpenPeriods_of_nil none_yet]
    exact ⟨divides.spoken_concat speaks, by rw [ahead_of_plain still], none_yet.trans (sectionsOf_of_plain still).symm⟩
  · have last := divides.sections.trans (sectionsOf_at_last begun plain far)
    have still := plain_concat plain unheaded
    rw [latest_at_section begun plain, setOpenPeriods_of_last last]
    refine ⟨divides.spoken_concat speaks, ?_, ?_⟩
    · rw [divides.periods, ahead_at_section begun, List.append_assoc, List.cons_append, ahead_at_section begun]
    · rw [List.append_assoc, List.cons_append, sectionsOf_at_last begun still]

/-! ### One line -/

/-- What a line that is read does. -/
inductive Step (d : Draft) (line : Line) (d' : Draft) : Prop where
  | title (said : said? line = some .title) (title : Option Text) (state : d' = { d with title := title })
  | heading {name : Text} (said : said? line = some (.heading name))
      (state : d' = { d with sections := d.sections ++ [⟨name, [], line.position⟩] })
  | more {events : List Text} {periods : List Period} (said : said? line = some (.more events))
      (added : changeLast? (Period.addEvents events) (openPeriods d) = some periods) (state : d' = setOpenPeriods d periods)
  | period {label : Text} {events : List Text} (said : said? line = some (.period label events))
      (state : d' = setOpenPeriods d (openPeriods d ++ [⟨label, events, line.position⟩]))

theorem titleLine_of_none (untitled : afterKeywordColon? "title" line.text = none) : titleLine d line = pass := by
  rw [titleLine, untitled]

theorem sectionLine_of_none (unheaded : afterKeyword? "section" line.text = none) : sectionLine d line = pass := by
  rw [sectionLine, unheaded]

theorem continuationLine_of_none (fresh : dropStart? [':'] line.text = none) : continuationLine d line = pass := by
  rw [continuationLine, fresh]

/-- Behind a colon stand events for the last of the open periods. -/
theorem continuationLine_of_some {rest : Text} (found : dropStart? [':'] line.text = some rest) :
    continuationLine d line =
      match changeLast? (Period.addEvents (events rest)) (openPeriods d) with
      | some periods => take (setOpenPeriods d periods)
      | none => .error (line.fail .eventWithoutPeriod) := by
  rw [continuationLine, found]
  rfl

theorem step_of_readLine (taken : readLine rules d line = .ok d') : Step d line d' := by
  rw [readLine_eq_ok_iff, rules] at taken
  cases titled : afterKeywordColon? "title" line.text with
  | some rest =>
    simp only [firstTaking, titleLine, titled, take] at taken
    exact .title (by simp [said?, titled]) _ (Option.some.inj (Except.ok.inj taken)).symm
  | none =>
    rw [firstTaking_cons_of_pass (titleLine_of_none titled)] at taken
    cases headed : afterKeyword? "section" line.text with
    | some rest =>
      cases named : trimmed? rest with
      | none => simp [firstTaking, sectionLine, headed, Section.ofLine, named, Except.map] at taken
      | some name =>
        simp only [firstTaking, sectionLine, headed, Section.ofLine, named, Except.map] at taken
        exact .heading (by simp [said?, titled, headed, named]) (Option.some.inj (Except.ok.inj taken)).symm
    | none =>
      rw [firstTaking_cons_of_pass (sectionLine_of_none headed)] at taken
      cases continued : dropStart? [':'] line.text with
      | some rest =>
        cases added : changeLast? (Period.addEvents (events rest)) (openPeriods d) with
        | none => simp [firstTaking, continuationLine_of_some continued, added] at taken
        | some periods =>
          simp only [firstTaking, continuationLine_of_some continued, added, take] at taken
          exact .more (by simp [said?, titled, headed, continued]) added (Option.some.inj (Except.ok.inj taken)).symm
      | none =>
        rw [firstTaking_cons_of_pass (continuationLine_of_none continued)] at taken
        rcases firstTaking_cons.mp taken with begun | ⟨-, left⟩
        · unfold periodLine at begun
          split at begun
          · cases begun
          · next label rest cut =>
            split at begun
            · cases begun
            · next named => exact .period (by simp [said?, titled, headed, continued, cut, named]) (eq_of_take begun)
        · exact (not_taken_by_none left).elim

/-- A line that is read keeps the periods and the sections those of the lines. -/
theorem Divides.step (divides : Divides lines d.periods d.sections) (taken : readLine rules d line = .ok d') :
    Divides (lines ++ [line]) d'.periods d'.sections := by
  have opened := divides.openPeriods_eq
  cases step_of_readLine taken with
  | title said title state =>
    have unbegun : period? line = none := by rw [period?, said]
    have nothing : more line = [] := by rw [more, said]
    have same : periodsOf (latest lines ++ [line]) = openPeriods d := by
      rw [periodsOf_concat_of_none unbegun, nothing, changeLast?_addEvents_nil, opened]
    have unheaded : section? line = none := by rw [section?, said]
    have extended := divides.within (by rw [said]; rfl) unheaded
    rw [same, setOpenPeriods_openPeriods] at extended
    rw [state]
    exact extended
  | @heading name said state =>
    rw [state]
    have begun : section? line = some ⟨name, [], line.position⟩ := by rw [section?, said]
    exact divides.heading (by rw [said]; rfl) begun
  | @more events periods said added state =>
    have unbegun : period? line = none := by rw [period?, said]
    have events_told : more line = events := by rw [more, said]
    have same : periodsOf (latest lines ++ [line]) = periods := by
      rw [periodsOf_concat_of_none unbegun, events_told, ← opened, added, Option.getD_some]
    rw [state, ← same]
    exact divides.within (by rw [said]; rfl) (by rw [section?, said])
  | @period label events said state =>
    have begun : period? line = some ⟨label, events, line.position⟩ := by rw [period?, said]
    rw [state, opened, ← periodsOf_concat_of_period begun]
    exact divides.within (by rw [said]; rfl) (by rw [section?, said])

/-- All lines that are read are divided. -/
theorem divides_of_run (run : readLines (fun _ => rules) {} lines = .ok d) : Divides lines d.periods d.sections := by
  have start : Divides [] ({} : Draft).periods ({} : Draft).sections := ⟨nofun, rfl, rfl⟩
  exact readLines_holds (P := fun lines d => Divides lines d.periods d.sections) Divides.step start run

/-- A line that goes on with a period is at fault where no period is open. -/
theorem fault_of_orphaned (orphaned : Orphaned lines line) :
    readLines (fun _ => rules) {} lines = .error (line.fail .eventWithoutPeriod) := by
  obtain ⟨first, before, after, d, rfl, run, unbegun⟩ := orphaned
  have empty : openPeriods d = [] := by
    rw [(divides_of_run run).openPeriods_eq, periodsOf, blocks_of_plain unbegun, List.map_nil]
  have untitled : afterKeywordColon? "title" line.text = none := afterKeywordColon?_eq_none first (by decide)
  have unheaded : afterKeyword? "section" line.text = none := afterKeyword?_eq_none first (by decide)
  obtain ⟨rest, colon⟩ := first
  refine readLines_eq_error_iff.mpr ⟨before, line, after, d, rfl, run, ?_⟩
  refine readLine_of_first ((firstTaking_cons_of_pass (titleLine_of_none untitled)).trans
    (firstTaking_cons_of_pass (sectionLine_of_none unheaded))) ?_
  rw [continuationLine_of_some (dropStart?_eq_some_iff.mpr colon.symm), empty]
  rfl

/-- The periods and the sections of a timeline are those of the lines behind the header, and a line that goes on with no
period is at fault. -/
theorem periods_of_lines :
    (∀ s t, read s = .ok t → Divides s.body t.periods t.sections) ∧
    ∀ s header line, s.bareHeader "timeline" = .ok header → Orphaned s.body line →
      ∃ e, read s = .error e ∧ e.code = .e202 ∧ e.position = line.position := by
  refine ⟨fun s t read => ?_, fun s header line headed orphaned => ?_⟩
  · obtain ⟨header, -, rest⟩ := exists_of_bind_ok read
    obtain ⟨d, run, made⟩ := exists_of_bind_ok rest
    obtain rfl := Except.ok.inj made
    exact divides_of_run run
  · refine ⟨line.fail .eventWithoutPeriod, ?_, rfl, rfl⟩
    simp [read, headed, fault_of_orphaned orphaned, bind, Except.bind]

/-- A timeline with a title between a period and its further events, empty pieces, and two sections of one name. -/
def epochs : Source :=
  Source.ofText "timeline\na: b : : c\ntitle T\n: d\nsection S\nsection S\np: q\n: : r\n:\nx: y".toList 0

/-- A timeline that goes on with a period of an earlier section. -/
def lostEpoch : Source := Source.ofText "timeline\na: b\nsection S\ntitle T\n : c".toList 0

theorem periods_of_lines_continued :
    (∃ t, read epochs = .ok t ∧ Divides epochs.body t.periods t.sections) ∧
    ∃ e, read lostEpoch = .error e ∧ e.code = .e202 ∧ e.position = ⟨5, 2⟩ := by
  obtain ⟨timelines, lost⟩ := periods_of_lines
  constructor
  · obtain ⟨t, accepted⟩ := exists_of_isOk (x := read epochs) (by decide +kernel)
    exact ⟨t, accepted, timelines epochs t accepted⟩
  · let before := [Line.ofRaw 2 "a: b".toList, Line.ofRaw 3 "section S".toList, Line.ofRaw 4 "title T".toList]
    refine lost lostEpoch (Line.ofRaw 1 "timeline".toList) (Line.ofRaw 5 " : c".toList) rfl ⟨by decide +kernel, before, [], ?_⟩
    exact ⟨_, rfl, eq_ok_get (by decide +kernel), by decide +kernel⟩

example : (periodsOf (ahead epochs.body)).map Period.events = ["b c d".toList.splitOn ' '] := by decide +kernel

end Timeline

end DiagramLint
