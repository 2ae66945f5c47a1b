import DiagramLint.Check.Duplicates
import DiagramLint.Check.References
import DiagramLint.Section

/-!
Gantt charts: settings, each given once, and sections of tasks. The details of a task are fields
between commas: words for its status, then an end, or a start and an end, or an id, a start and an
end. A start that begins with the word "after" names other tasks instead of a date, and so does such
a field on its own.
-/
namespace DiagramLint

open Text

namespace Gantt

/-- A word for the status of a task. -/
inductive Status where
  | done | active | crit | milestone
  deriving DecidableEq, Repr

namespace Status

/-- Every status. -/
def all : List Status := [.done, .active, .crit, .milestone]

/-- The word for a status. -/
def name : Status → String
  | .done => "done"
  | .active => "active"
  | .crit => "crit"
  | .milestone => "milestone"

/-- The status that a word names. -/
def ofName? (t : Text) : Option Status := all.find? fun s => s.name.toList == t

end Status

/-- A setting of the chart; a flag has an empty value. -/
structure Setting where
  key : Text
  value : Text
  position : Position
  deriving DecidableEq, Repr

/-- A task of a gantt chart. -/
structure Task where
  name : Text
  id : Option Text
  statuses : List Status
  /-- The date of the start, if the task does not start after others. -/
  start : Option Text
  /-- The length or the date of the end, as written. -/
  finish : Option Text
  /-- The ids of the tasks after which the task starts. -/
  dependencies : List Text
  position : Position
  deriving DecidableEq, Repr

end Gantt

/-- A gantt chart. -/
structure Gantt where
  header : Header
  title : Option Text
  settings : List Gantt.Setting
  sections : List (Section Gantt.Task)
  deriving DecidableEq, Repr

namespace Gantt

/-- What has been read of a gantt chart. -/
structure Draft where
  title : Option Text := none
  settings : List Setting := []
  sections : List (Section Task) := []
  deriving DecidableEq, Repr

/-- The keys of settings with a value. -/
def valueKeys : List String :=
  ["dateFormat", "axisFormat", "excludes", "includes", "todayMarker", "tickInterval", "weekday"]

/-- The keys of settings without a value. -/
def flagKeys : List String := ["inclusiveEndDates", "topAxis"]

/-- A title; the last one counts. -/
def titleLine (d : Draft) (line : Line) : Taken Draft :=
  match afterKeywordColon? "title" line.text with
  | none => pass
  | some rest => take { d with title := trimmed? rest }

/-- One more setting, whose key has not been set yet. -/
def addSetting (d : Draft) (line : Line) (key : String) (value : Text) : Taken Draft :=
  match d.settings.find? fun s => s.key == key.toList with
  | some earlier => .error (line.fail (.settingRepeated key earlier.position.line))
  | none => take { d with settings := d.settings ++ [⟨key.toList, value, line.position⟩] }

/-- A key and a value. -/
def settingLine (d : Draft) (line : Line) : Taken Draft :=
  match valueKeys.findSome? fun k => (afterKeyword? k line.text).map fun v => (k, v) with
  | none => pass
  | some (key, value) =>
    if value.isEmpty then .error (line.fail (.settingEmpty key)) else addSetting d line key value

/-- A key that stands alone. -/
def flagLine (d : Draft) (line : Line) : Taken Draft :=
  match flagKeys.find? fun k => k.toList == line.text with
  | none => pass
  | some key => addSetting d line key []

/-- The beginning of a section. -/
def sectionLine (d : Draft) (line : Line) : Taken Draft :=
  match afterKeyword? "section" line.text with
  | none => pass
  | some rest =>
    (Section.ofLine line rest).map fun s => some { d with sections := d.sections ++ [s] }

/-- The statuses at the start of some fields, and the fields behind them. -/
def takeStatuses : List Text → List Status × List Text
  | [] => ([], [])
  | field :: rest =>
    match Status.ofName? field with
    | some status => (status :: (takeStatuses rest).1, (takeStatuses rest).2)
    | none => ([], field :: rest)

/-- The id, the start and the end in one to three fields. -/
def taskFields? : List Text → Option (Option Text × Option Text × Text)
  | [finish] => some (none, none, finish)
  | [start, finish] => some (none, some start, finish)
  | [id, start, finish] => some (trimmed? id, some start, finish)
  | _ => none

/-- The start and the end: a field that stands alone and begins with "after" is the start. -/
def startAndFinish (start : Option Text) (finish : Text) : Option Text × Option Text :=
  match start, afterKeyword? "after" finish with
  | none, some _ => (some finish, none)
  | start, _ => (start, trimmed? finish)

/-- The date of a start, or the tasks that it names. -/
def startAndDependencies : Option Text → Option Text × List Text
  | none => (none, [])
  | some start =>
    match afterKeyword? "after" start with
    | some targets => (none, tokens targets)
    | none => (trimmed? start, [])

/-- The task with a name and details. -/
def task (line : Line) (name details : Text) : Except ParseError Task :=
  let (statuses, rest) := takeStatuses ((pieces ',' details).map trim)
  match taskFields? rest with
  | none => .error (line.fail (.taskFieldCount name rest.length))
  | some (id, start, finish) =>
    let (start, finish) := startAndFinish start finish
    let (date, dependencies) := startAndDependencies start
    .ok ⟨name, id, statuses, date, finish, dependencies, line.position⟩

/-- A name, a colon and the details of a task. -/
def taskLine (d : Draft) (line : Line) : Taken Draft :=
  match headAndLabel line.text with
  | (_, none) => pass
  | (head, some details) =>
    match trimmed? head with
    | none => pass
    | some name =>
      match task line name details with
      | .error e => .error e
      | .ok t =>
        match Section.addToLast? t d.sections with
        | some sections => take { d with sections := sections }
        | none => .error (line.fail (.taskOutsideSection name))

/-- The rules for the lines of a gantt chart. -/
def rules : List (LineRule Draft) :=
  [⟨"title", titleLine⟩, ⟨"setting", settingLine⟩, ⟨"flag", flagLine⟩, ⟨"section", sectionLine⟩,
   ⟨"task", taskLine⟩]

/-- The gantt chart of a source. -/
def read (s : Source) : Except ParseError Gantt := do
  let header ← s.bareHeader "gantt"
  let d ← readLines (fun _ => rules) {} s.body
  .ok ⟨s.header .gantt header, d.title, d.settings, d.sections⟩

/-- The value of a setting. -/
def setting? (chart : Gantt) (key : Text) : Option Text :=
  (chart.settings.find? fun s => s.key == key).map Setting.value

/-- The tasks of all sections in order. -/
def tasks (chart : Gantt) : List Task := Section.allItems chart.sections

/-- The ids that tasks have, with the positions of the tasks. -/
def taskIds (chart : Gantt) : List (Text × Position) :=
  chart.tasks.filterMap fun t => t.id.map fun id => (id, t.position)

/-- Tasks with an id that an earlier task has. -/
def duplicateTaskIds (chart : Gantt) : List Finding :=
  (Duplicates.empty "task id").findings chart.taskIds

/-- Dependencies on ids that no task has, earlier or later. -/
def missingDependencies (chart : Gantt) : List Finding :=
  let ids := (References.empty "task id").declareAll chart.taskIds
  chart.tasks.flatMap fun t =>
    t.dependencies.filterMap fun d => ids.check d t.position s!"task {quote t.name}"

end Gantt
end DiagramLint
