import DiagramLint.Proofs.LineOrder
import DiagramLint.Proofs.Names
import DiagramLint.Proofs.Sections

/-!
Dependencies of gantt tasks. A dependency is found if no task of the chart has its id, whatever sections the tasks are in
and whether they stand in front of it or behind it. So only the tasks matter: where tasks and sections are moved, the same is
found in another order and at other places (`findings_about_dependencies`).
-/
namespace DiagramLint

open Text

namespace Section

variable {α : Type}

/-- The item of an entry, if it does not begin a section. -/
def Entry.item? : Entry α → Option α
  | .heading _ _ => none
  | .item i => some i

theorem items_of_listing (sections : List (Section α)) : (listing sections).filterMap Entry.item? = allItems sections := by
  rw [listing, allItems, List.filterMap_flatMap]
  refine List.flatMap_congr fun s _ => ?_
  rw [entries, List.filterMap_cons_none rfl, List.filterMap_map]
  exact List.filterMap_some

end Section

namespace Gantt

/-- A dependency of a task. -/
structure Dependency where
  task : Task
  id : Text
  deriving DecidableEq, Repr

namespace Dependency

/-- No task has the id. -/
def Missing (tasks : List Task) (d : Dependency) : Prop := ∀ t ∈ tasks, t.id ≠ some d.id

instance (tasks : List Task) (d : Dependency) : Decidable (d.Missing tasks) :=
  inferInstanceAs (Decidable (∀ t ∈ tasks, t.id ≠ some d.id))

/-- The name of the task, and the id that it depends on. -/
def named (d : Dependency) : Text × Text := (d.task.name, d.id)

/-- The finding for a dependency on an id that no task has. -/
def finding (d : Dependency) : Finding :=
  References.finding "task id" d.id d.task.position s!"task {quote d.task.name}"

end Dependency

/-- The dependencies of some tasks, one task after the other. -/
def dependencies (tasks : List Task) : List Dependency := tasks.flatMap fun t => t.dependencies.map fun id => ⟨t, id⟩

/-- The dependencies of some tasks on ids that none of them has. -/
def missing (tasks : List Task) : List Dependency := (dependencies tasks).filter fun d => d.Missing tasks

/-- The task without its place. -/
def Task.unplaced (t : Task) : Task := { t with position := .origin }

/-- The dependency without the place of its task. -/
def Dependency.unplaced (d : Dependency) : Dependency := { d with task := d.task.unplaced }

/-- The chart has the tasks of another one in some order and in some sections, wherever they stand. -/
def Reorders (chart' chart : Gantt) : Prop :=
  chart'.header.kind = chart.header.kind ∧ (chart'.tasks.map Task.unplaced).Perm (chart.tasks.map Task.unplaced)

/-- The source has the lines of another one in some order. -/
def Moved (s' s : Source) : Prop := (s'.body.map Line.text).Perm (s.body.map Line.text)

variable {chart chart' : Gantt} {s s' : Source} {line other : Line} {t : Task} {tasks tasks' : List Task} {text : Text}
  {offset : Nat}

/-! ### Lines with tasks -/

/-- The task on a line, if there is one. -/
def taskOn? (line : Line) : Option Task := (schedule.said? line).bind Section.Entry.item?

theorem tasks_of_read (accepted : read s = .ok chart) : chart.tasks = s.body.filterMap taskOn? := by
  obtain ⟨header, -, rest⟩ := exists_of_bind_ok accepted
  obtain ⟨d, run, made⟩ := exists_of_bind_ok rest
  obtain rfl := Except.ok.inj made
  have listed : Section.listing d.sections = s.body.filterMap schedule.said? := (schedule_obeyed.lists run).listed
  rw [tasks, ← Section.items_of_listing, listed, List.filterMap_filterMap]
  rfl

theorem kind_of_read (accepted : read s = .ok chart) : chart.header.kind = .gantt := by
  obtain ⟨header, -, rest⟩ := exists_of_bind_ok accepted
  obtain ⟨d, -, made⟩ := exists_of_bind_ok rest
  obtain rfl := Except.ok.inj made
  rfl

theorem taskOn?_eq (line : Line) : taskOn? line =
    if isAside line.text ∨ (afterKeyword? "section" line.text).isSome then none else task? line := by
  rw [taskOn?, Schedule.said?]
  simp only [schedule]
  by_cases aside : isAside line.text
  · simp [aside]
  · cases after : afterKeyword? "section" line.text with
    | some rest => cases trimmed? rest <;> simp [aside, Section.Entry.item?]
    | none => cases task? line <;> simp [aside, Section.Entry.item?]

theorem position_of_taskOn? (found : taskOn? line = some t) : t.position = line.position := by
  rw [taskOn?_eq] at found
  split at found
  · cases found
  · unfold task? at found
    split at found
    · cases found
    · obtain ⟨name, -, made⟩ := Option.bind_eq_some_iff.mp found
      exact (task_ofLine line name _).of_ok (eq_ok_of_toOption made)

/-- A task is made of its name and its details, wherever it stands. -/
theorem unplaced_task (line other : Line) (name details : Text) :
    (task line name details).toOption.map Task.unplaced = (task other name details).toOption.map Task.unplaced := by
  unfold task
  dsimp only
  split <;> rfl

/-- Lines of one text have the same task, each at its place. -/
theorem unplaced_taskOn? (same : line.text = other.text) :
    (taskOn? line).map Task.unplaced = (taskOn? other).map Task.unplaced := by
  rw [taskOn?_eq, taskOn?_eq, same]
  split
  · rfl
  · unfold task?
    rw [same]
    split
    · rfl
    · rw [Option.map_bind, Option.map_bind]
      exact congrArg _ (funext fun name => unplaced_task line other name _)

/-- Tasks stand line by line. -/
theorem tasks_lineByLine (accepted : read (Source.ofText text offset) = .ok chart) :
    LineByLine (chart.tasks.map Task.position) := by
  rw [tasks_of_read accepted]
  refine List.pairwise_map.mpr ((body_increasing text offset).filterMap taskOn? ?_)
  intro first second before t found u found'
  rw [position_of_taskOn? found, position_of_taskOn? found']
  exact before

/-- Lines in another order have the same tasks in another order. -/
theorem reorders_of_moved (accepted : read s = .ok chart) (accepted' : read s' = .ok chart') (moved : Moved s' s) :
    chart'.Reorders chart := by
  refine ⟨(kind_of_read accepted').trans (kind_of_read accepted).symm, ?_⟩
  have told {s : Source} {chart : Gantt} (accepted : read s = .ok chart) : chart.tasks.map Task.unplaced =
      (s.body.map Line.text).filterMap fun t => (taskOn? ⟨0, 0, 0, [], t⟩).map Task.unplaced := by
    rw [tasks_of_read accepted, List.map_filterMap, List.filterMap_map]
    exact List.filterMap_congr fun line _ => unplaced_taskOn? rfl
  rw [told accepted, told accepted']
  exact moved.filterMap _

/-! ### Missing ids -/

theorem missingDependencies_eq (chart : Gantt) : chart.missingDependencies = (missing chart.tasks).map Dependency.finding := by
  have checks : chart.missingDependencies = (dependencies chart.tasks).filterMap fun d =>
      ((References.empty "task id").declareAll chart.taskIds).check d.id d.task.position s!"task {quote d.task.name}" := by
    rw [dependencies, List.filterMap_flatMap]
    refine List.flatMap_congr fun t _ => ?_
    rw [List.filterMap_map]
    rfl
  have declared (d : Dependency) : d.id ∉ chart.taskIds.map Prod.fst ↔ d.Missing chart.tasks := by
    simp [taskIds, Dependency.Missing]
  rw [checks, References.checks_declareAll, missing]
  simp only [declared]
  rfl

theorem missing_unplaced (tasks : List Task) : missing (tasks.map Task.unplaced) = (missing tasks).map Dependency.unplaced := by
  have all : dependencies (tasks.map Task.unplaced) = (dependencies tasks).map Dependency.unplaced := by
    rw [dependencies, dependencies, List.flatMap_map, List.map_flatMap]
    refine List.flatMap_congr fun t _ => ?_
    rw [List.map_map]
    rfl
  have known (d : Dependency) : d.unplaced.Missing (tasks.map Task.unplaced) ↔ d.Missing tasks := List.forall_mem_map
  rw [missing, all, List.filter_map, missing]
  refine congrArg _ (List.filter_congr fun d _ => ?_)
  exact decide_eq_decide.mpr (known d)

/-- The order of the tasks is the order of the dependencies, and makes no other difference to them. -/
theorem missing_perm (same : tasks'.Perm tasks) : (missing tasks').Perm (missing tasks) := by
  have known : (fun d : Dependency => decide (d.Missing tasks')) = fun d => decide (d.Missing tasks) :=
    funext fun d => decide_eq_decide.mpr (forall_congr' fun t => imp_congr_left same.mem_iff)
  rw [missing, missing, known]
  exact (same.flatMap_right _).filter _

/-! ### Findings -/

theorem foundBy_dependencies (kind : chart.header.kind = .gantt) :
    (Diagram.gantt chart).foundBy "gantt-dependency" = (missing chart.tasks).map Dependency.finding := by
  have family : (Diagram.gantt chart).kind.family? = some .gantt := congrArg Kind.family? kind
  rw [Diagram.foundBy_of_family family, ← missingDependencies_eq]
  simp [Family.rules, Rule.gantt, Rule.on]

/-- What is named is told without the places. -/
theorem named_missing (tasks : List Task) :
    (missing tasks).map Dependency.named = (missing (tasks.map Task.unplaced)).map Dependency.named := by
  rw [missing_unplaced, List.map_map]
  rfl

/-- What is found is told without the places. -/
theorem unplaced_findings (tasks : List Task) : ((missing tasks).map Dependency.finding).map Finding.unplaced =
    (missing (tasks.map Task.unplaced)).map Dependency.finding := by
  rw [missing_unplaced, List.map_map, List.map_map]
  rfl

/-- Just the dependencies on ids that no task has are found, in the order of the tasks. Where tasks and sections are moved,
the same tasks are named with the same ids, and the same is found elsewhere. -/
theorem findings_about_dependencies (accepted : read (Source.ofText text offset) = .ok chart) :
    LineByLine (chart.tasks.map Task.position) ∧
    (Diagram.gantt chart).foundBy "gantt-dependency" = (missing chart.tasks).map Dependency.finding ∧
    (∀ chart', Reorders chart' chart →
      ((missing chart'.tasks).map Dependency.named).Perm ((missing chart.tasks).map Dependency.named) ∧
      (((Diagram.gantt chart').foundBy "gantt-dependency").map Finding.unplaced).Perm
        (((Diagram.gantt chart).foundBy "gantt-dependency").map Finding.unplaced)) ∧
    ∀ s' chart', read s' = .ok chart' → Moved s' (Source.ofText text offset) → Reorders chart' chart := by
  have kind := kind_of_read accepted
  refine ⟨tasks_lineByLine accepted, foundBy_dependencies kind, fun chart' reorders => ?_,
    fun s' chart' accepted' moved => reorders_of_moved accepted accepted' moved⟩
  obtain ⟨same_kind, same⟩ := reorders
  rw [named_missing, named_missing chart.tasks, foundBy_dependencies (same_kind.trans kind), foundBy_dependencies kind,
    unplaced_findings, unplaced_findings]
  exact ⟨(missing_perm same).map _, (missing_perm same).map _⟩

/-- Tasks that depend on a later section, on themselves, on an id that two tasks have, and twice on an id that none has. -/
def crossed : Text :=
  "gantt
section A
x: a, after b a, 1d
y: after c d c, 1d
section B
z: b, 2024-01-01, 1d
y: b, after e, 1d".toList

/-- The same lines with the sections and the tasks in other places. -/
def crossedBack : Text :=
  "gantt
section B
y: b, after e, 1d
x: a, after b a, 1d

section A
z: b, 2024-01-01, 1d
  y: after c d c, 1d".toList

theorem findings_about_dependencies_crossed : ∃ chart chart', read (Source.ofText crossed 0) = .ok chart ∧
    read (Source.ofText crossedBack 0) = .ok chart' ∧ LineByLine (chart.tasks.map Task.position) ∧
    (Diagram.gantt chart).foundBy "gantt-dependency" = (missing chart.tasks).map Dependency.finding ∧
    Reorders chart' chart ∧ ((missing chart'.tasks).map Dependency.named).Perm ((missing chart.tasks).map Dependency.named) ∧
    (((Diagram.gantt chart').foundBy "gantt-dependency").map Finding.unplaced).Perm
      (((Diagram.gantt chart).foundBy "gantt-dependency").map Finding.unplaced) := by
  obtain ⟨chart, accepted⟩ := exists_of_isOk (x := read (Source.ofText crossed 0)) (by decide +kernel)
  obtain ⟨chart', accepted'⟩ := exists_of_isOk (x := read (Source.ofText crossedBack 0)) (by decide +kernel)
  obtain ⟨order, found, elsewhere, reordered⟩ := findings_about_dependencies accepted
  have moved : Moved (Source.ofText crossedBack 0) (Source.ofText crossed 0) := by
    unfold Moved
    decide +kernel
  have reorders := reordered _ chart' accepted' moved
  exact ⟨chart, chart', accepted, accepted', order, found, reorders, elsewhere chart' reorders⟩

example : (read (Source.ofText crossed 0)).toOption.map (fun chart => (missing chart.tasks).map Dependency.named) =
    some [("y".toList, "c".toList), ("y".toList, "d".toList), ("y".toList, "c".toList), ("y".toList, "e".toList)] := by
  decide +kernel

end Gantt

end DiagramLint
