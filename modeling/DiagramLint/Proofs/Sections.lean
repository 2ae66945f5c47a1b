import DiagramLint.Gantt
import DiagramLint.Journey
import DiagramLint.Proofs.Coverage.Basic
import DiagramLint.Proofs.LineRule
import DiagramLint.Proofs.Reading.Schedules
import DiagramLint.Proofs.Results

/-!
Sections and the lines that they are made of. Gantt charts and journeys put every task into the last section so far. Listed
one by one, each in front of its tasks, the sections of a diagram that is read are what its section and task lines say, line
by line; a task in front of the first section is at fault (`sections_of_lines`).
-/
namespace DiagramLint

open Text

namespace Section

/-- What a line says of sections: it begins one, or it is an item of the last one. -/
inductive Entry (α : Type) where
  | heading (name : Text) (position : Position)
  | item (item : α)
  deriving DecidableEq, Repr

/-- A section in front of its items. -/
def entries {α : Type} (s : Section α) : List (Entry α) := .heading s.name s.position :: s.items.map .item

/-- The sections one by one, each in front of its items. -/
def listing {α : Type} (sections : List (Section α)) : List (Entry α) := sections.flatMap entries

variable {α : Type} {sections added others : List (Section α)} {s : Section α} {item : α}

@[simp] theorem listing_append (sections others : List (Section α)) :
    listing (sections ++ others) = listing sections ++ listing others := List.flatMap_append

/-- What is listed begins with a section. -/
theorem listing_cons (s : Section α) (others : List (Section α)) :
    listing (s :: others) = .heading s.name s.position :: (s.items.map .item ++ listing others) := rfl

theorem listing_of_addToLast? (found : addToLast? item sections = some added) :
    listing added = listing sections ++ [.item item] := by
  obtain ⟨others, last, rfl, rfl⟩ := exists_of_changeLast? found
  simp [listing, entries, add]

/-- A section that a line begins stands behind the others. -/
theorem listing_of_ofLine {line : Line} {rest : Text} (made : ofLine line rest = .ok s) (sections : List (Section α)) :
    ∃ name, trimmed? rest = some name ∧
      listing (sections ++ [s]) = listing sections ++ [.heading name line.position] := by
  unfold ofLine at made
  split at made
  · next name found =>
    obtain rfl := Except.ok.inj made
    exact ⟨name, found, by simp [listing, entries]⟩
  · cases made

end Section

/-- Diagrams with sections: the rules for their lines, and how the lines are told apart. -/
structure Schedule (σ α : Type) where
  /-- The rules in front of those for sections and for tasks. -/
  asides : List (LineRule σ)
  sectionLine : σ → Line → Taken σ
  taskLine : σ → Line → Taken σ
  start : σ
  sections : σ → List (Section α)
  withSections : σ → List (Section α) → σ
  /-- The text is a title or a setting, which says nothing of sections. -/
  isAside : Text → Bool
  /-- The item that a line makes by itself. -/
  item? : Line → Option α
  /-- The name of an item. -/
  name : α → Text

namespace Schedule

variable {σ α : Type} {k : Schedule σ α} {d d' : σ} {line : Line} {lines : List Line} {item : α} {s : Section α}
  {sections : List (Section α)}

/-- The rules for the lines of the diagrams. -/
def rules (k : Schedule σ α) : List (LineRule σ) := k.asides ++ [⟨"section", k.sectionLine⟩, ⟨"task", k.taskLine⟩]

/-- The item is put into the last section. -/
def put (k : Schedule σ α) (d : σ) (line : Line) (item : α) : Taken σ :=
  match Section.addToLast? item (k.sections d) with
  | some sections => take (k.withSections d sections)
  | none => .error (line.fail (.taskOutsideSection (k.name item)))

/-- What a line says of sections. -/
def said? (k : Schedule σ α) (line : Line) : Option (Section.Entry α) :=
  if k.isAside line.text then none
  else match afterKeyword? "section" line.text with
    | some rest => (trimmed? rest).map fun name => .heading name line.position
    | none => (k.item? line).map .item

/-- The line begins a section. -/
def Heads (k : Schedule σ α) (line : Line) : Prop := ∃ name place, k.said? line = some (.heading name place)

/-- The item is on a line behind the line of the section, and no section begins between them. -/
def Behind (k : Schedule σ α) (lines : List Line) (s : Section α) (item : α) : Prop :=
  ∃ before heading between line after, lines = before ++ heading :: (between ++ line :: after) ∧
    k.said? heading = some (.heading s.name s.position) ∧ k.said? line = some (.item item) ∧
    ∀ other ∈ between, ¬ k.Heads other

/-- The sections are what the lines say, and no line but those aside says nothing. -/
structure Lists (k : Schedule σ α) (lines : List Line) (sections : List (Section α)) : Prop where
  listed : Section.listing sections = lines.filterMap k.said?
  spoken : ∀ line ∈ lines, k.said? line = none ↔ k.isAside line.text = true

/-- The sections divide the lines: they list what the lines say, and every item is in the nearest section above it. -/
structure Divides (k : Schedule σ α) (lines : List Line) (sections : List (Section α)) : Prop
    extends k.Lists lines sections where
  nearest : ∀ s ∈ sections, ∀ item ∈ s.items, k.Behind lines s item

/-- The line is an item behind lines that can be read and begin no section. -/
def Outside (k : Schedule σ α) (lines : List Line) (line : Line) (item : α) : Prop :=
  k.said? line = some (.item item) ∧ ∃ before after d, lines = before ++ line :: after ∧
    readLines (fun _ => k.rules) k.start before = .ok d ∧ ∀ earlier ∈ before, ¬ k.Heads earlier

/-- The rules do to the sections what a line says. The rules in front take the lines aside and keep the sections, a section
is put behind the others and an item into the last of them, and no other line is taken. -/
structure Obeyed (k : Schedule σ α) : Prop where
  empty : k.sections k.start = []
  sections_with : ∀ d sections, k.sections (k.withSections d sections) = sections
  left : ∀ {d line}, k.isAside line.text = false ↔ ∀ rule ∈ k.asides, rule.read d line = pass
  kept : ∀ {d line d'}, ∀ rule ∈ k.asides, rule.read d line = .ok (some d') → k.sections d' = k.sections d
  heading : ∀ {d line}, k.sectionLine d line =
    match afterKeyword? "section" line.text with
    | none => pass
    | some rest => (Section.ofLine line rest).map fun s => some (k.withSections d (k.sections d ++ [s]))
  item : ∀ {d line item}, k.item? line = some item → k.taskLine d line = k.put d line item
  other : ∀ {d line d'}, k.item? line = none → k.taskLine d line ≠ .ok (some d')

theorem item_of_said? (entry : k.said? line = some (.item item)) :
    k.isAside line.text = false ∧ afterKeyword? "section" line.text = none ∧ k.item? line = some item := by
  unfold said? at entry
  split at entry
  · cases entry
  · next spoken =>
    split at entry
    · obtain ⟨name, -, other⟩ := Option.map_eq_some_iff.mp entry
      cases other
    · next plain =>
      obtain ⟨found, made, same⟩ := Option.map_eq_some_iff.mp entry
      obtain rfl := Section.Entry.item.inj same
      exact ⟨by simpa using spoken, plain, made⟩

/-- An item of a section that is listed stands behind the line of the section. -/
theorem Lists.behind (lists : k.Lists lines sections) (member : s ∈ sections) (inside : item ∈ s.items) :
    k.Behind lines s item := by
  obtain ⟨front, back, rfl⟩ := List.append_of_mem member
  obtain ⟨earlier, later, split⟩ := List.append_of_mem inside
  -- The listing is cut in front of the section and in front of the item, and the lines are cut with it.
  have listed := lists.listed
  rw [Section.listing_append, Section.listing_cons, split, List.map_append, List.map_cons, List.append_assoc] at listed
  obtain ⟨before, rest, rfl, -, headed⟩ := List.filterMap_eq_append_iff.mp listed.symm
  obtain ⟨silent, heading, behind, rfl, -, begins, told⟩ := List.filterMap_eq_cons_iff.mp headed
  obtain ⟨items, rest, rfl, said, told⟩ := List.filterMap_eq_append_iff.mp told
  obtain ⟨quiet, line, after, rfl, nothing, speaks, -⟩ := List.filterMap_eq_cons_iff.mp told
  refine ⟨before ++ silent, heading, items ++ quiet, line, after, by simp, begins, speaks, ?_⟩
  rintro other between ⟨name, place, heads⟩
  rcases List.mem_append.mp between with among | among
  · have entry : Section.Entry.heading name place ∈ items.filterMap k.said? :=
      List.mem_filterMap.mpr ⟨other, among, heads⟩
    rw [said] at entry
    obtain ⟨_, -, different⟩ := List.mem_map.mp entry
    cases different
  · rw [nothing other among] at heads
    cases heads

/-- Where no line begins a section, none is listed. -/
theorem Lists.eq_nil (lists : k.Lists lines sections) (unheaded : ∀ line ∈ lines, ¬ k.Heads line) : sections = [] := by
  cases sections with
  | nil => rfl
  | cons s others =>
    have listed := lists.listed
    rw [Section.listing_cons] at listed
    obtain ⟨silent, heading, rest, rfl, -, begins, -⟩ := List.filterMap_eq_cons_iff.mp listed.symm
    exact absurd ⟨_, _, begins⟩ (unheaded heading (by simp))

namespace Obeyed

variable (obeyed : k.Obeyed)

include obeyed

/-- Lines that say something of sections reach the rules for them. -/
theorem reached (spoken : k.isAside line.text = false) :
    firstTaking d line k.rules = firstTaking d line [⟨"section", k.sectionLine⟩, ⟨"task", k.taskLine⟩] :=
  firstTaking_append_of_pass (obeyed.left.mp spoken)

theorem sectionLine_of_plain (plain : afterKeyword? "section" line.text = none) : k.sectionLine d line = pass := by
  rw [obeyed.heading, plain]

/-- A line that is read adds to the listing what it says, and it says something unless it is aside. -/
theorem step (taken : readLine k.rules d line = .ok d') :
    Section.listing (k.sections d') = Section.listing (k.sections d) ++ (k.said? line).toList ∧
      (k.said? line = none ↔ k.isAside line.text = true) := by
  rw [readLine_eq_ok_iff] at taken
  cases spoken : k.isAside line.text with
  | true =>
    rcases front_taken_or_passed taken with ⟨rule, member, read⟩ | passed
    · have same := obeyed.kept rule member read
      simp [said?, spoken, same]
    · cases (obeyed.left.mpr passed).symm.trans spoken
  | false =>
    rw [obeyed.reached spoken] at taken
    -- Behind the word for sections the line never reaches the rule for tasks, even if it has a colon.
    cases after : afterKeyword? "section" line.text with
    | some rest =>
      rw [firstTaking_cons, obeyed.heading, after] at taken
      rcases taken with heads | ⟨passed, -⟩
      · obtain ⟨s, made, same⟩ := exists_of_map_ok heads
        obtain rfl := Option.some.inj same
        obtain ⟨name, named, listed⟩ := Section.listing_of_ofLine made (k.sections d)
        simp [said?, spoken, after, named, obeyed.sections_with, listed]
      · obtain ⟨s, -, other⟩ := exists_of_map_ok passed
        cases other
    | none =>
      rw [firstTaking_cons_of_pass (obeyed.sectionLine_of_plain after), firstTaking_cons] at taken
      have tasked := taken.resolve_right fun left => not_taken_by_none left.2
      cases made : k.item? line with
      | none => exact absurd tasked (obeyed.other made)
      | some item =>
        rw [obeyed.item made, put] at tasked
        split at tasked
        · next added =>
          obtain rfl := eq_of_take tasked
          simp [said?, spoken, after, made, obeyed.sections_with, Section.listing_of_addToLast? added]
        · cases tasked

/-- All lines that are read are listed. -/
theorem lists (run : readLines (fun _ => k.rules) k.start lines = .ok d) : k.Lists lines (k.sections d) := by
  have start : k.Lists [] (k.sections k.start) := ⟨by simp [obeyed.empty, Section.listing], nofun⟩
  refine readLines_holds (P := fun lines d => k.Lists lines (k.sections d)) ?_ start run
  intro read d line d' lists taken
  obtain ⟨grown, said⟩ := obeyed.step taken
  constructor
  · rw [grown, lists.listed, List.filterMap_append]
    cases made : k.said? line <;> simp [made]
  · intro each member
    rcases List.mem_append.mp member with earlier | last
    · exact lists.spoken each earlier
    · exact List.mem_singleton.mp last ▸ said

/-- All lines that are read are divided by the sections. -/
theorem divides (run : readLines (fun _ => k.rules) k.start lines = .ok d) : k.Divides lines (k.sections d) where
  toLists := obeyed.lists run
  nearest _ member _ inside := (obeyed.lists run).behind member inside

/-- An item in front of the first section is at fault. -/
theorem fault_of_outside (outside : k.Outside lines line item) :
    readLines (fun _ => k.rules) k.start lines = .error (line.fail (.taskOutsideSection (k.name item))) := by
  obtain ⟨entry, before, after, d, rfl, run, unheaded⟩ := outside
  obtain ⟨spoken, plain, made⟩ := item_of_said? entry
  have none_yet : k.sections d = [] := (obeyed.lists run).eq_nil unheaded
  refine readLines_eq_error_iff.mpr ⟨before, line, after, d, rfl, run, ?_⟩
  refine readLine_of_first ((obeyed.reached spoken).trans (firstTaking_cons_of_pass (obeyed.sectionLine_of_plain plain))) ?_
  rw [obeyed.item made, put, none_yet]
  rfl

end Obeyed

end Schedule

/-! ### Gantt charts -/

namespace Gantt

variable {d d' : Draft} {line : Line} {t : Task} {key : String} {value name details : Text}

/-- The text is a title or a setting. -/
def isAside (t : Text) : Bool :=
  (afterKeywordColon? "title" t).isSome || (valueKeys.any fun key => (afterKeyword? key t).isSome) ||
    flagKeys.any fun key => key.toList == t

/-- The task of a line with a name in front of a colon and details that can be read behind it. -/
def task? (line : Line) : Option Task :=
  match headAndLabel line.text with
  | (_, none) => none
  | (head, some details) => (trimmed? head).bind fun name => (task line name details).toOption

/-- The sections of gantt charts. -/
def schedule : Schedule Draft Task where
  asides := [⟨"title", titleLine⟩, ⟨"setting", settingLine⟩, ⟨"flag", flagLine⟩]
  sectionLine := sectionLine
  taskLine := taskLine
  start := {}
  sections := Draft.sections
  withSections d sections := { d with sections := sections }
  isAside := isAside
  item? := task?
  name := Task.name

/-- A setting is recorded or at fault, and the sections stay. -/
theorem addSetting_keeps (taken : addSetting d line key value = .ok (some d')) : d'.sections = d.sections := by
  unfold addSetting at taken
  split at taken
  · cases taken
  · rw [eq_of_take taken]

theorem addSetting_ne_pass : addSetting d line key value ≠ pass := by
  unfold addSetting
  split <;> simp [take, pass]

theorem asides_keep : ∀ rule ∈ schedule.asides, rule.read d line = .ok (some d') → d'.sections = d.sections := by
  simp only [schedule, List.forall_mem_cons]
  refine ⟨fun taken => ?_, fun taken => ?_, fun taken => ?_, List.forall_mem_nil _⟩
  · unfold titleLine at taken
    split at taken
    · cases taken
    · rw [eq_of_take taken]
  · unfold settingLine at taken
    split at taken
    · cases taken
    · split at taken
      · cases taken
      · exact addSetting_keeps taken
  · unfold flagLine at taken
    split at taken
    · cases taken
    · exact addSetting_keeps taken

/-- Lines aside are those that these rules do not leave to the others. -/
theorem isAside_eq_false_iff : isAside line.text = false ↔ ∀ rule ∈ schedule.asides, rule.read d line = pass := by
  have title : titleLine d line = pass ↔ afterKeywordColon? "title" line.text = none := by
    unfold titleLine
    split <;> simp_all [take, pass]
  have setting : settingLine d line = pass ↔
      (valueKeys.findSome? fun k => (afterKeyword? k line.text).map fun v => (k, v)) = none := by
    unfold settingLine
    split
    · next absent => simp [absent]
    · next found =>
      split
      · simp [found, pass]
      · simp [found, addSetting_ne_pass]
  have flag : flagLine d line = pass ↔ (flagKeys.find? fun k => k.toList == line.text) = none := by
    unfold flagLine
    split
    · next absent => simp [absent]
    · next found => simp [found, addSetting_ne_pass]
  simp only [schedule, List.forall_mem_cons, title, setting, flag]
  simp [isAside, and_assoc]

theorem name_of_task (made : task line name details = .ok t) : t.name = name := by
  unfold task at made
  dsimp only at made
  split at made
  · cases made
  · obtain rfl := Except.ok.inj made
    rfl

theorem taskLine_of_task? (made : task? line = some t) : taskLine d line = schedule.put d line t := by
  unfold task? at made
  split at made
  · cases made
  · next head details split =>
    obtain ⟨name, named, found⟩ := Option.bind_eq_some_iff.mp made
    have read := eq_ok_of_toOption found
    obtain rfl := name_of_task read
    cases added : Section.addToLast? t d.sections <;>
      simp [taskLine, split, named, read, Schedule.put, schedule, added]

/-- Other lines are left, or their details are at fault. -/
theorem taskLine_of_none (unmade : task? line = none) : taskLine d line ≠ .ok (some d') := by
  unfold task? at unmade
  split at unmade
  · next head split => simp [taskLine, split, pass]
  · next head details split =>
    cases named : trimmed? head with
    | none => simp [taskLine, split, named, pass]
    | some name =>
      rw [named, Option.bind_some] at unmade
      obtain ⟨e, refused⟩ := exists_error_of_toOption unmade
      simp [taskLine, split, named, refused]

theorem schedule_obeyed : schedule.Obeyed where
  empty := rfl
  sections_with _ _ := rfl
  left := isAside_eq_false_iff
  kept := asides_keep
  heading := rfl
  item := taskLine_of_task?
  other := taskLine_of_none

end Gantt

/-! ### Journeys -/

namespace Journey

variable {d d' : Draft} {line : Line} {t : Task}

/-- The task of a line with a name and an integer between colons. -/
def task? (line : Line) : Option Task :=
  (taskParts? line.text).bind fun (name, score, actors) =>
    if name.isEmpty then none
    else (Integer.read? score).map fun n =>
      ⟨name, n, (actors.map fun a => (pieces ',' a).filterMap trimmed?).getD [], line.position⟩

/-- The sections of journeys. -/
def schedule : Schedule Draft Task where
  asides := [⟨"title", titleLine⟩]
  sectionLine := sectionLine
  taskLine := taskLine
  start := {}
  sections := Draft.sections
  withSections d sections := { d with sections := sections }
  isAside t := (afterKeywordColon? "title" t).isSome
  item? := task?
  name := Task.name

theorem taskLine_of_task? (made : task? line = some t) : taskLine d line = schedule.put d line t := by
  obtain ⟨⟨name, score, actors⟩, parts, made⟩ := Option.bind_eq_some_iff.mp made
  dsimp only at made
  split at made
  · cases made
  · next filled =>
    obtain ⟨n, read, same⟩ := Option.map_eq_some_iff.mp made
    have named : t.name = name := by rw [← same]
    simp only [taskLine, parts, filled, read, same, Schedule.put, schedule, named]
    cases Section.addToLast? t d.sections <;> rfl

theorem taskLine_of_none (unmade : task? line = none) : taskLine d line ≠ .ok (some d') := by
  unfold task? at unmade
  cases parts : taskParts? line.text with
  | none => simp [taskLine, parts, pass]
  | some found =>
    obtain ⟨name, score, actors⟩ := found
    by_cases empty : name.isEmpty
    · simp [taskLine, parts, empty, pass]
    · have unread : Integer.read? score = none := by
        rw [parts, Option.bind_some] at unmade
        exact Option.map_eq_none_iff.mp ((if_neg empty).symm.trans unmade)
      simp [taskLine, parts, empty, unread]

theorem schedule_obeyed : schedule.Obeyed where
  empty := rfl
  sections_with _ _ := rfl
  left {d line} := by
    simp only [schedule, List.forall_mem_singleton, titleLine]
    split <;> simp_all [take, pass]
  kept := by
    intro d line d'
    simp only [schedule, List.forall_mem_singleton, titleLine]
    intro taken
    split at taken
    · cases taken
    · rw [eq_of_take taken]
  heading := rfl
  item := taskLine_of_task?
  other := taskLine_of_none

end Journey

/-! ### Sources -/

/-- The sections of a chart or a journey divide the lines behind the header, and a task in front of them is at fault. -/
theorem sections_of_lines :
    (∀ s chart, Gantt.read s = .ok chart → Gantt.schedule.Divides s.body chart.sections) ∧
    (∀ s journey, Journey.read s = .ok journey → Journey.schedule.Divides s.body journey.sections) ∧
    (∀ s header line t, s.bareHeader "gantt" = .ok header → Gantt.schedule.Outside s.body line t →
      ∃ e, Gantt.read s = .error e ∧ e.code = .e202 ∧ e.position = line.position) ∧
    (∀ s header line t, s.bareHeader "journey" = .ok header → Journey.schedule.Outside s.body line t →
      ∃ e, Journey.read s = .error e ∧ e.code = .e202 ∧ e.position = line.position) := by
  refine ⟨fun s chart read => ?_, fun s journey read => ?_, fun s header line t headed outside => ?_,
    fun s header line t headed outside => ?_⟩
  · obtain ⟨header, -, rest⟩ := exists_of_bind_ok read
    obtain ⟨d, run, made⟩ := exists_of_bind_ok rest
    obtain rfl := Except.ok.inj made
    exact Gantt.schedule_obeyed.divides run
  · obtain ⟨header, -, rest⟩ := exists_of_bind_ok read
    obtain ⟨d, run, made⟩ := exists_of_bind_ok rest
    obtain rfl := Except.ok.inj made
    exact Journey.schedule_obeyed.divides run
  · refine ⟨line.fail (.taskOutsideSection t.name), ?_, rfl, rfl⟩
    have stopped : readLines (fun _ => Gantt.rules) {} s.body = .error (line.fail (.taskOutsideSection t.name)) :=
      Gantt.schedule_obeyed.fault_of_outside outside
    simp [Gantt.read, headed, stopped, bind, Except.bind]
  · refine ⟨line.fail (.taskOutsideSection t.name), ?_, rfl, rfl⟩
    have stopped : readLines (fun _ => Journey.rules) {} s.body = .error (line.fail (.taskOutsideSection t.name)) :=
      Journey.schedule_obeyed.fault_of_outside outside
    simp [Journey.read, headed, stopped, bind, Except.bind]

/-- A chart with two sections of one name, an empty section and settings in between. -/
def days : Source := Source.ofText "gantt\nsection A\ntitle T\nsection B\nx: 1d\nsection A\ny: 2d\ntopAxis\nz: 3d".toList 0

/-- A journey with two sections of one name and an empty section. -/
def trip : Source := Source.ofText "journey\nsection A\nx: 5: Me\nsection B\nsection A\ntitle T\ny: 1".toList 0

/-- A chart with a task in front of its section. -/
def earlyDays : Source := Source.ofText "gantt\ntitle T\n x: 1d\nsection A".toList 0

/-- A journey with a task in front of its section. -/
def earlyTrip : Source := Source.ofText "journey\ntitle T\n x: 5: Me\nsection A".toList 0

/-- The line in front of the tasks of both. -/
def earlyTitle : Line := Line.ofRaw 2 "title T".toList

theorem sections_of_lines_repeated :
    (∃ chart, Gantt.read days = .ok chart ∧ Gantt.schedule.Divides days.body chart.sections) ∧
    (∃ journey, Journey.read trip = .ok journey ∧ Journey.schedule.Divides trip.body journey.sections) ∧
    (∃ e, Gantt.read earlyDays = .error e ∧ e.code = .e202 ∧ e.position = ⟨3, 2⟩) ∧
    ∃ e, Journey.read earlyTrip = .error e ∧ e.code = .e202 ∧ e.position = ⟨3, 2⟩ := by
  obtain ⟨charts, journeys, early_charts, early_journeys⟩ := sections_of_lines
  refine ⟨?_, ?_, ?_, ?_⟩
  · obtain ⟨chart, read⟩ := exists_of_isOk (x := Gantt.read days) (by decide +kernel)
    exact ⟨chart, read, charts days chart read⟩
  · obtain ⟨journey, read⟩ := exists_of_isOk (x := Journey.read trip) (by decide +kernel)
    exact ⟨journey, read, journeys trip journey read⟩
  · have silent : Gantt.schedule.said? earlyTitle = none := by decide +kernel
    refine early_charts earlyDays (Line.ofRaw 1 "gantt".toList) (Line.ofRaw 3 " x: 1d".toList)
      ⟨"x".toList, none, [], none, some "1d".toList, [], ⟨3, 2⟩⟩ rfl ⟨by decide +kernel, ?_⟩
    exact ⟨[earlyTitle], [Line.ofRaw 4 "section A".toList], ⟨some "T".toList, [], []⟩, by decide +kernel, rfl,
      by simp [Schedule.Heads, silent]⟩
  · have silent : Journey.schedule.said? earlyTitle = none := by decide +kernel
    refine early_journeys earlyTrip (Line.ofRaw 1 "journey".toList) (Line.ofRaw 3 " x: 5: Me".toList)
      ⟨"x".toList, 5, ["Me".toList], ⟨3, 2⟩⟩ rfl ⟨by decide +kernel, ?_⟩
    exact ⟨[earlyTitle], [Line.ofRaw 4 "section A".toList], ⟨some "T".toList, []⟩, by decide +kernel, rfl,
      by simp [Schedule.Heads, silent]⟩

end DiagramLint
