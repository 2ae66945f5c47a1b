import DiagramLint.Gantt
import DiagramLint.Journey
import DiagramLint.Proofs.Reading.Basic
import DiagramLint.Timeline
import Mathlib.Data.List.Basic

/-!
How diagrams with sections are read: gantt charts, journeys and timelines. The items of a section stand
behind its line and in front of the next section, so all of them together are one column.
-/
namespace DiagramLint

open Text

theorem changeLast?_concat {α : Type} (f : α → α) (as : List α) (a : α) :
    changeLast? f (as ++ [a]) = some (as ++ [f a]) := by
  induction as with
  | nil => rfl
  | cons b as ih =>
    rw [List.cons_append]
    cases split : as ++ [a] with
    | nil => simp at split
    | cons c rest =>
      rw [split] at ih
      simp [changeLast?, ih]

/-- What is changed has a last member. -/
theorem exists_of_changeLast? {α : Type} {f : α → α} {as changed : List α} (found : changeLast? f as = some changed) :
    ∃ others last, as = others ++ [last] ∧ changed = others ++ [f last] := by
  rcases List.eq_nil_or_concat' as with rfl | ⟨others, last, rfl⟩
  · cases found
  · rw [changeLast?_concat] at found
    exact ⟨others, last, rfl, (Option.some.inj found).symm⟩

/-- A change of the last member that leaves its place leaves all places. -/
theorem map_of_changeLast? {α β : Type} {f : α → α} (place : α → β) {as changed : List α}
    (found : changeLast? f as = some changed) (stays : ∀ a, place (f a) = place a) :
    changed.map place = as.map place := by
  obtain ⟨others, last, rfl, rfl⟩ := exists_of_changeLast? found
  simp [stays]

namespace Section

variable {α : Type}

/-- The positions of sections and of their items, in the order in which they are written. -/
def outline (place : α → Position) (sections : List (Section α)) : List Position :=
  sections.flatMap fun s => s.position :: s.items.map place

@[simp] theorem outline_append (place : α → Position) (sections others : List (Section α)) :
    outline place (sections ++ others) = outline place sections ++ outline place others := List.flatMap_append

/-- An item of the last section stands behind all that is there. -/
theorem outline_of_addToLast? {place : α → Position} {item : α} {sections added : List (Section α)}
    (found : addToLast? item sections = some added) :
    outline place added = outline place sections ++ [place item] := by
  obtain ⟨others, last, rfl, rfl⟩ := exists_of_changeLast? found
  simp [outline, add]

theorem ofLine_ofLine (line : Line) (rest : Text) :
    OfLine line (ofLine line rest : Except ParseError (Section α)) fun s =>
      s.items = [] ∧ s.position = line.position := by
  unfold ofLine
  split <;> simp [Fault.code]

end Section

/-! ### Gantt charts -/

namespace Gantt

instance : Stored Gantt where
  header chart := chart.header
  withSource text chart := { chart with header := chart.header.withSource text }
  columns chart := [chart.settings.map Setting.position, Section.outline Task.position chart.sections]

/-- The positions of a draft. -/
def Draft.columns (d : Draft) : List (List Position) :=
  [d.settings.map Setting.position, Section.outline Task.position d.sections]

theorem titleLine_marks (d : Draft) (line : Line) : Marks Draft.columns d line (titleLine d line) := by
  unfold titleLine
  split <;> simp [Draft.columns]

theorem addSetting_marks (d : Draft) (line : Line) (key : String) (value : Text) :
    Marks Draft.columns d line (addSetting d line key value) := by
  unfold addSetting
  split <;> simp [Draft.columns, Grows, Fault.code]

theorem settingLine_marks (d : Draft) (line : Line) : Marks Draft.columns d line (settingLine d line) := by
  unfold settingLine
  split
  · simp
  · split
    · simp [Fault.code]
    · exact addSetting_marks ..

theorem flagLine_marks (d : Draft) (line : Line) : Marks Draft.columns d line (flagLine d line) := by
  unfold flagLine
  split
  · simp
  · exact addSetting_marks ..

theorem sectionLine_marks (d : Draft) (line : Line) : Marks Draft.columns d line (sectionLine d line) := by
  unfold sectionLine
  split
  · simp
  · refine Marks.made (Section.ofLine_ofLine line _) ?_
    rintro s ⟨items, position⟩
    simp [Draft.columns, Grows, Section.outline, items, position]

theorem task_ofLine (line : Line) (name details : Text) :
    OfLine line (task line name details) fun t => t.position = line.position := by
  unfold task
  dsimp only
  split <;> simp [Fault.code]

theorem taskLine_marks (d : Draft) (line : Line) : Marks Draft.columns d line (taskLine d line) := by
  unfold taskLine
  split
  · simp
  · next head details _ =>
    split
    · simp
    · next name _ =>
      have given := task_ofLine line name details
      split
      · next failed => exact given.of_error failed
      · next t made =>
        have place : t.position = line.position := given.of_ok made
        split
        · next added => simp [Draft.columns, Grows, Section.outline_of_addToLast? added, place]
        · simp [Fault.code]

theorem rules_mark (d : Draft) : ∀ rule ∈ rules, ∀ line, Marks Draft.columns d line (rule.read d line) := by
  simp only [rules, List.forall_mem_cons]
  exact ⟨titleLine_marks d, settingLine_marks d, flagLine_marks d, sectionLine_marks d, taskLine_marks d,
    List.forall_mem_nil _⟩

/-- How gantt charts are read. -/
abbrev reading : Reading Gantt where
  Head := Line
  State := Draft
  head first := first.alone.bareHeader "gantt"
  fits := Text.BeginsWith ["gantt"]
  line header := header
  start _ := {}
  rules _ := rules
  columns := Draft.columns
  finish text header d := .ok ⟨⟨.gantt, text, header.position⟩, d.title, d.settings, d.sections⟩

theorem reading_describes : reading.Describes read where
  read_eq text offset first body := by
    rw [List.flatMap_singleton']
    rfl
  head_ofHeader first := bareHeader_ofHeader [] 0 first [] "gantt"
  start_empty _ := by simp [Draft.columns, Section.outline]
  rules_mark := rules_mark
  finish_error := nofun
  finish_ok finished := by
    obtain rfl := Except.ok.inj finished
    exact ⟨rfl, fun _ => id⟩
  finish_text _ _ _ _ := rfl

end Gantt

/-! ### Journeys -/

namespace Journey

instance : Stored Journey where
  header journey := journey.header
  withSource text journey := { journey with header := journey.header.withSource text }
  columns journey := [Section.outline Task.position journey.sections]

/-- The positions of a draft. -/
def Draft.columns (d : Draft) : List (List Position) := [Section.outline Task.position d.sections]

theorem titleLine_marks (d : Draft) (line : Line) : Marks Draft.columns d line (titleLine d line) := by
  unfold titleLine
  split <;> simp [Draft.columns]

theorem sectionLine_marks (d : Draft) (line : Line) : Marks Draft.columns d line (sectionLine d line) := by
  unfold sectionLine
  split
  · simp
  · refine Marks.made (Section.ofLine_ofLine line _) ?_
    rintro s ⟨items, position⟩
    simp [Draft.columns, Grows, Section.outline, items, position]

theorem taskLine_marks (d : Draft) (line : Line) : Marks Draft.columns d line (taskLine d line) := by
  unfold taskLine
  split
  · simp
  · split
    · simp
    · split
      · simp [Fault.code]
      · dsimp only
        split
        · next added => simp [Draft.columns, Grows, Section.outline_of_addToLast? added]
        · simp [Fault.code]

theorem rules_mark (d : Draft) : ∀ rule ∈ rules, ∀ line, Marks Draft.columns d line (rule.read d line) := by
  simp only [rules, List.forall_mem_cons]
  exact ⟨titleLine_marks d, sectionLine_marks d, taskLine_marks d, List.forall_mem_nil _⟩

/-- How journeys are read. -/
abbrev reading : Reading Journey where
  Head := Line
  State := Draft
  head first := first.alone.bareHeader "journey"
  fits := Text.BeginsWith ["journey"]
  line header := header
  start _ := {}
  rules _ := rules
  columns := Draft.columns
  finish text header d := .ok ⟨⟨.journey, text, header.position⟩, d.title, d.sections⟩

theorem reading_describes : reading.Describes read where
  read_eq text offset first body := by
    rw [List.flatMap_singleton']
    rfl
  head_ofHeader first := bareHeader_ofHeader [] 0 first [] "journey"
  start_empty _ := by simp [Draft.columns, Section.outline]
  rules_mark := rules_mark
  finish_error := nofun
  finish_ok finished := by
    obtain rfl := Except.ok.inj finished
    exact ⟨rfl, fun _ => id⟩
  finish_text _ _ _ _ := rfl

end Journey

/-! ### Timelines -/

namespace Timeline

instance : Stored Timeline where
  header timeline := timeline.header
  withSource text timeline := { timeline with header := timeline.header.withSource text }
  columns timeline :=
    [timeline.periods.map Period.position, Section.outline Period.position timeline.sections]

/-- The positions of a draft. -/
def Draft.columns (d : Draft) : List (List Position) :=
  [d.periods.map Period.position, Section.outline Period.position d.sections]

theorem titleLine_marks (d : Draft) (line : Line) : Marks Draft.columns d line (titleLine d line) := by
  unfold titleLine
  split <;> simp [Draft.columns]

theorem sectionLine_marks (d : Draft) (line : Line) : Marks Draft.columns d line (sectionLine d line) := by
  unfold sectionLine
  split
  · simp
  · refine Marks.made (Section.ofLine_ofLine line _) ?_
    rintro s ⟨items, position⟩
    simp [Draft.columns, Grows, Section.outline, items, position]

/-- The periods that a line may add to are the last ones of their column. -/
theorem setOpenPeriods_grows {d : Draft} {p : Position} {periods : List Period} {n : Nat}
    (longer : periods.map Period.position = (openPeriods d).map Period.position ++ List.replicate n p) :
    Grows p d.columns (setOpenPeriods d periods).columns := by
  obtain ⟨title, sections, front⟩ := d
  rcases List.eq_nil_or_concat' sections with rfl | ⟨others, last, rfl⟩
  · have front_longer : periods.map Period.position = front.map Period.position ++ List.replicate n p := longer
    simp [setOpenPeriods, changeLast?, Draft.columns, Grows, front_longer]
  · have last_longer : periods.map Period.position = last.items.map Period.position ++ List.replicate n p := by
      simpa [openPeriods] using longer
    have outline : Section.outline Period.position (others ++ [{ last with items := periods }]) =
        Section.outline Period.position (others ++ [last]) ++ List.replicate n p := by
      simp [Section.outline, last_longer]
    simp only [setOpenPeriods, changeLast?_concat, Draft.columns, Grows, List.forall_mem_cons, outline]
    exact ⟨.same (by simp), .copies (by simp) n, List.forall_mem_nil _⟩

theorem continuationLine_marks (d : Draft) (line : Line) :
    Marks Draft.columns d line (continuationLine d line) := by
  unfold continuationLine
  split
  · simp
  · dsimp only
    split
    · next changed =>
      refine Marks.take_iff.mpr (setOpenPeriods_grows (n := 0) ?_)
      have places := map_of_changeLast? Period.position changed fun _ => rfl
      simp [places]
    · simp [Fault.code]

theorem periodLine_marks (d : Draft) (line : Line) : Marks Draft.columns d line (periodLine d line) := by
  unfold periodLine
  split
  · simp
  · split
    · simp
    · exact Marks.take_iff.mpr (setOpenPeriods_grows (n := 1) (by simp))

theorem rules_mark (d : Draft) : ∀ rule ∈ rules, ∀ line, Marks Draft.columns d line (rule.read d line) := by
  simp only [rules, List.forall_mem_cons]
  exact ⟨titleLine_marks d, sectionLine_marks d, continuationLine_marks d, periodLine_marks d, List.forall_mem_nil _⟩

/-- How timelines are read. -/
abbrev reading : Reading Timeline where
  Head := Line
  State := Draft
  head first := first.alone.bareHeader "timeline"
  fits := Text.BeginsWith ["timeline"]
  line header := header
  start _ := {}
  rules _ := rules
  columns := Draft.columns
  finish text header d := .ok ⟨⟨.timeline, text, header.position⟩, d.title, d.sections, d.periods⟩

theorem reading_describes : reading.Describes read where
  read_eq text offset first body := by
    rw [List.flatMap_singleton']
    rfl
  head_ofHeader first := bareHeader_ofHeader [] 0 first [] "timeline"
  start_empty _ := by simp [Draft.columns, Section.outline]
  rules_mark := rules_mark
  finish_error := nofun
  finish_ok finished := by
    obtain rfl := Except.ok.inj finished
    exact ⟨rfl, fun _ => id⟩
  finish_text _ _ _ _ := rfl

end Timeline

end DiagramLint
