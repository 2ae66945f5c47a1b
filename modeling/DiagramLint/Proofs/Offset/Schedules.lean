import DiagramLint.Gantt
import DiagramLint.Journey
import DiagramLint.Proofs.Offset.Checks
import DiagramLint.Proofs.Offset.LineRule
import DiagramLint.Timeline

/-!
Diagrams with sections further down in a document: gantt charts, journeys and timelines.
-/
namespace DiagramLint

open Text
open Placed (shift)

variable {k : Move}

/-! ### Sections -/

instance {α : Type} [Placed α] : Placed (Section α) where
  shift k s := { s with items := shift k s.items, position := shift k s.position }

theorem changeLast?_shift {α : Type} [Placed α] {f g : α → α} (moves : ∀ a, g (shift k a) = shift k (f a))
    (as : List α) : changeLast? g (shift k as) = shift k (changeLast? f as) := by
  fun_induction changeLast? f as with
  | case1 => rfl
  | case2 a => exact congrArg (fun a => some [a]) (moves a)
  | case3 a b rest ih =>
    show (changeLast? g (shift k (b :: rest))).map (shift k a :: ·) = _
    rw [ih]
    cases changeLast? f (b :: rest) with
    | none => rfl
    | some later => rfl

namespace Section

variable {α : Type} [Placed α]

theorem addToLast?_shift (item : α) (sections : List (Section α)) :
    addToLast? (shift k item) (shift k sections) = shift k (addToLast? item sections) := by
  refine changeLast?_shift ?_ sections
  intro s
  exact congrArg (fun items => { shift k s with items := items }) (shift_append s.items [item]).symm

theorem allItems_shift (sections : List (Section α)) : allItems (shift k sections) = shift k (allItems sections) := by
  refine flatMap_shift ?_ sections
  intro s
  rfl

theorem ofLine_shift (line : Line) (rest : Text) :
    (ofLine (shift k line) rest : Except ParseError (Section α)) = shift k (ofLine line rest) := by
  unfold ofLine
  split
  · rfl
  · rfl

end Section

/-! ### Gantt charts -/

namespace Gantt

instance : Placed Setting := ⟨fun k s => { s with position := shift k s.position }⟩

instance : Placed Task := ⟨fun k t => { t with position := shift k t.position }⟩

instance : Placed Gantt where
  shift k chart :=
    { chart with
      header := shift k chart.header
      settings := shift k chart.settings
      sections := shift k chart.sections }

instance : Placed Draft where
  shift k d := { d with settings := shift k d.settings, sections := shift k d.sections }

theorem titleLine_moves : Moves k titleLine := by
  intro d line
  unfold titleLine
  rw [text_shift]
  split
  · rfl
  · rfl

/-- The line that the fault of a repeated setting quotes is that of a setting, which is moved down. -/
theorem addSetting_shift (quoting : k.quoted = k.lines) (d : Draft) (line : Line) (key : String) (value : Text) :
    addSetting (shift k d) (shift k line) key value = shift k (addSetting d line key value) := by
  unfold addSetting
  have settings : (shift k d).settings = shift k d.settings := rfl
  have earlier : ((shift k d.settings).find? fun s => s.key == key.toList) =
      shift k (d.settings.find? fun s => s.key == key.toList) := by
    refine find?_shift ?_ _
    intro s
    rfl
  rw [settings, earlier]
  cases d.settings.find? fun s => s.key == key.toList with
  | some earlier =>
    show Except.error ((shift k line).fail (.settingRepeated key _)) =
      Except.error ((shift k line).fail (.settingRepeated key (_ + k.quotedDistance earlier.position.line)))
    rw [Move.quotedDistance_eq quoting]
    rfl
  | none =>
    symm
    exact congrArg (fun settings => take { shift k d with settings := settings }) (shift_append d.settings _)

theorem settingLine_moves (quoting : k.quoted = k.lines) : Moves k settingLine := by
  intro d line
  unfold settingLine
  rw [text_shift]
  split
  · rfl
  · split
    · rfl
    · exact addSetting_shift quoting ..

theorem flagLine_moves (quoting : k.quoted = k.lines) : Moves k flagLine := by
  intro d line
  unfold flagLine
  rw [text_shift]
  split
  · rfl
  · exact addSetting_shift quoting ..

theorem sectionLine_moves : Moves k sectionLine := by
  intro d line
  unfold sectionLine
  rw [text_shift]
  split
  · rfl
  · rw [Section.ofLine_shift]
    refine result_map_shift ?_ _
    intro s
    exact congrArg (fun sections => some { shift k d with sections := sections }) (shift_append d.sections [s]).symm

theorem task_shift (line : Line) (name details : Text) :
    task (shift k line) name details = shift k (task line name details) := by
  unfold task
  dsimp only
  split
  · rfl
  · rfl

theorem taskLine_moves : Moves k taskLine := by
  intro d line
  unfold taskLine
  rw [text_shift]
  split
  · rfl
  · next head details _ =>
    split
    · rfl
    · next name _ =>
      rw [task_shift]
      cases task line name details with
      | error e => rfl
      | ok t =>
        have sections : (shift k d).sections = shift k d.sections := rfl
        have moved : shift k (Except.ok t : Except ParseError Task) = .ok (shift k t) := rfl
        rw [moved, sections]
        dsimp only
        rw [Section.addToLast?_shift]
        cases Section.addToLast? t d.sections with
        | none => rfl
        | some sections => rfl

theorem rules_move (quoting : k.quoted = k.lines) (_ : Draft) : ∀ rule ∈ rules, Moves k rule.read := by
  simp only [rules, List.forall_mem_cons]
  exact ⟨titleLine_moves, settingLine_moves quoting, flagLine_moves quoting, sectionLine_moves, taskLine_moves, nofun⟩

/-- A gantt chart is read further down as it is read, where quoted lines move as all others do. -/
theorem read_shift (quoting : k.quoted = k.lines) (s : Source) : read (shift k s) = shift k (read s) := by
  refine bareRead_shift (rules_move quoting) (fun _ => rfl) rfl ?_ "gantt" s
  intro header d
  rfl

theorem tasks_shift (chart : Gantt) : (shift k chart).tasks = shift k chart.tasks :=
  Section.allItems_shift chart.sections

theorem taskIds_shift (chart : Gantt) : (shift k chart).taskIds = shift k chart.taskIds := by
  unfold taskIds
  rw [tasks_shift]
  exact names_shift (by intro t; rfl) (by intro t; rfl) chart.tasks

theorem duplicateTaskIds_shift (chart : Gantt) : duplicateTaskIds (shift k chart) = shift k (duplicateTaskIds chart) := by
  unfold duplicateTaskIds
  rw [taskIds_shift]
  exact Duplicates.findings_shift (.empty "task id") _

theorem missingDependencies_shift (chart : Gantt) :
    missingDependencies (shift k chart) = shift k (missingDependencies chart) := by
  have ids : (References.empty "task id").declareAll (shift k chart.taskIds) =
      shift k ((References.empty "task id").declareAll chart.taskIds) :=
    References.declareAll_shift (.empty "task id") _
  unfold missingDependencies
  dsimp only
  rw [taskIds_shift, ids, tasks_shift]
  refine flatMap_shift ?_ _
  intro t
  rw [shift_filterMap]
  simp only [← References.check_shift]
  rfl

end Gantt

/-! ### Journeys -/

namespace Journey

instance : Placed Task := ⟨fun k t => { t with position := shift k t.position }⟩

instance : Placed Journey where
  shift k journey := { journey with header := shift k journey.header, sections := shift k journey.sections }

instance : Placed Draft := ⟨fun k d => { d with sections := shift k d.sections }⟩

theorem titleLine_moves : Moves k titleLine := by
  intro d line
  unfold titleLine
  rw [text_shift]
  split
  · rfl
  · rfl

theorem sectionLine_moves : Moves k sectionLine := by
  intro d line
  unfold sectionLine
  rw [text_shift]
  split
  · rfl
  · rw [Section.ofLine_shift]
    refine result_map_shift ?_ _
    intro s
    exact congrArg (fun sections => some { shift k d with sections := sections }) (shift_append d.sections [s]).symm

theorem taskLine_moves : Moves k taskLine := by
  intro d line
  unfold taskLine
  rw [text_shift]
  split
  · rfl
  · next name score actors _ =>
    split
    · rfl
    · split
      · rfl
      · next n _ =>
        have added (actors : List Text) :
            Section.addToLast? ⟨name, n, actors, (shift k line).position⟩ (shift k d).sections =
              shift k (Section.addToLast? ⟨name, n, actors, line.position⟩ d.sections) :=
          Section.addToLast?_shift (⟨name, n, actors, line.position⟩ : Task) d.sections
        dsimp only
        rw [added]
        cases Section.addToLast? (⟨name, n, _, line.position⟩ : Task) d.sections with
        | none => rfl
        | some sections => rfl

theorem rules_move (_ : Draft) : ∀ rule ∈ rules, Moves k rule.read := by
  simp only [rules, List.forall_mem_cons]
  exact ⟨titleLine_moves, sectionLine_moves, taskLine_moves, nofun⟩

/-- A journey is read further down as it is read. -/
theorem read_shift (s : Source) : read (shift k s) = shift k (read s) := by
  refine bareRead_shift rules_move (fun _ => rfl) rfl ?_ "journey" s
  intro header d
  rfl

theorem scoreRange_shift (journey : Journey) : scoreRange (shift k journey) = shift k (scoreRange journey) := by
  have outside : ((shift k (Section.allItems journey.sections)).filter fun t => t.score < 1 || 5 < t.score) =
      shift k ((Section.allItems journey.sections).filter fun t => t.score < 1 || 5 < t.score) := by
    refine filter_shift ?_ _
    intro t
    rfl
  unfold scoreRange
  show ((Section.allItems (shift k journey.sections)).filter fun t => t.score < 1 || 5 < t.score).map _ = _
  rw [Section.allItems_shift, outside]
  refine map_shift ?_ _
  intro t
  rfl

end Journey

/-! ### Timelines -/

namespace Timeline

instance : Placed Period := ⟨fun k p => { p with position := shift k p.position }⟩

instance : Placed Timeline where
  shift k t :=
    { t with
      header := shift k t.header
      sections := shift k t.sections
      periods := shift k t.periods }

instance : Placed Draft where
  shift k d := { d with sections := shift k d.sections, periods := shift k d.periods }

theorem openPeriods_shift (d : Draft) : openPeriods (shift k d) = shift k (openPeriods d) := by
  unfold openPeriods
  have last : (shift k d).sections.getLast? = shift k d.sections.getLast? := List.getLast?_map
  rw [last]
  cases d.sections.getLast? with
  | none => rfl
  | some s => rfl

theorem setOpenPeriods_shift (d : Draft) (periods : List Period) :
    setOpenPeriods (shift k d) (shift k periods) = shift k (setOpenPeriods d periods) := by
  have changed : changeLast? (fun s => { s with items := shift k periods }) (shift k d.sections) =
      shift k (changeLast? (fun s => { s with items := periods }) d.sections) := by
    refine changeLast?_shift ?_ _
    intro s
    rfl
  unfold setOpenPeriods
  have sections : (shift k d).sections = shift k d.sections := rfl
  rw [sections, changed]
  cases changeLast? (fun s => { s with items := periods }) d.sections with
  | none => rfl
  | some sections => rfl

theorem titleLine_moves : Moves k titleLine := by
  intro d line
  unfold titleLine
  rw [text_shift]
  split
  · rfl
  · rfl

theorem sectionLine_moves : Moves k sectionLine := by
  intro d line
  unfold sectionLine
  rw [text_shift]
  split
  · rfl
  · rw [Section.ofLine_shift]
    refine result_map_shift ?_ _
    intro s
    exact congrArg (fun sections => some { shift k d with sections := sections }) (shift_append d.sections [s]).symm

theorem continuationLine_moves : Moves k continuationLine := by
  intro d line
  unfold continuationLine
  rw [text_shift]
  split
  · rfl
  · next rest _ =>
    have longer : changeLast? (fun p => { p with events := p.events ++ events rest }) (shift k (openPeriods d)) =
        shift k (changeLast? (fun p => { p with events := p.events ++ events rest }) (openPeriods d)) := by
      refine changeLast?_shift ?_ _
      intro p
      rfl
    dsimp only
    rw [openPeriods_shift, longer]
    cases changeLast? (fun p => { p with events := p.events ++ events rest }) (openPeriods d) with
    | none => rfl
    | some periods => exact congrArg take (setOpenPeriods_shift d periods)

theorem periodLine_moves : Moves k periodLine := by
  intro d line
  unfold periodLine
  rw [text_shift]
  split
  · rfl
  · next rest _ =>
    split
    · rfl
    · next label _ =>
      have longer : shift k (openPeriods d ++ [⟨label, events rest, line.position⟩]) =
          shift k (openPeriods d) ++ [⟨label, events rest, (shift k line).position⟩] := shift_append ..
      rw [openPeriods_shift, ← longer, setOpenPeriods_shift]
      rfl

theorem rules_move (_ : Draft) : ∀ rule ∈ rules, Moves k rule.read := by
  simp only [rules, List.forall_mem_cons]
  exact ⟨titleLine_moves, sectionLine_moves, continuationLine_moves, periodLine_moves, nofun⟩

/-- A timeline is read further down as it is read. -/
theorem read_shift (s : Source) : read (shift k s) = shift k (read s) := by
  refine bareRead_shift rules_move (fun _ => rfl) rfl ?_ "timeline" s
  intro header d
  rfl

theorem duplicateSections_shift (t : Timeline) : duplicateSections (shift k t) = shift k (duplicateSections t) := by
  refine Duplicates.findings_map_shift ?_ (.empty "section") t.sections
  intro s
  rfl

end Timeline
end DiagramLint
