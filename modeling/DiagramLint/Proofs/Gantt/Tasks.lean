import DiagramLint.Gantt
import DiagramLint.Proofs.Text.Pieces

/-!
Tasks as they are written. Between the commas behind the colon of a task stand words for its status, as many as there are,
and then an end, a start and an end, or an id, a start and an end; a start is a date or the word "after" and some ids, and
such a start may stand alone. A task is read as it is written (`written_task_read`).
-/
namespace DiagramLint.Gantt

open Text

/-- A field between commas. -/
structure WrittenField where
  text : Text
  filled : text ≠ []
  tight : trim text = text
  plain : ',' ∉ text

/-- A date or an end, which the word "after" does not begin. -/
structure WrittenTime extends WrittenField where
  timed : afterKeyword? "after" text = none

/-- An id behind the word "after", with the blanks in front of it. -/
structure WrittenId where
  gap : Text
  id : Text
  gap_filled : gap ≠ []
  gap_blank : allBlank gap = true
  id_filled : id ≠ []
  id_visible : ∀ c ∈ id, isBlank c = false
  id_plain : ',' ∉ id

/-- The id as it is written. -/
def WrittenId.written (i : WrittenId) : Text := i.gap ++ i.id

/-- The word "after" with ids behind it. -/
def afterText (ids : List WrittenId) : Text := "after".toList ++ ids.flatMap WrittenId.written

/-- A start: a date, or ids behind the word "after", at least one. -/
inductive WrittenStart where
  | date (date : WrittenTime)
  | after (first : WrittenId) (others : List WrittenId)

namespace WrittenStart

/-- The start as it is written. -/
def written : WrittenStart → Text
  | date d => d.text
  | after first others => afterText (first :: others)

/-- The date of the start. -/
def date? : WrittenStart → Option Text
  | date d => some d.text
  | after _ _ => none

/-- The ids behind the word "after". -/
def dependencies : WrittenStart → List Text
  | date _ => []
  | after first others => (first :: others).map WrittenId.id

end WrittenStart

/-- The fields behind the statuses of a task. -/
inductive WrittenFields where
  | finish (finish : WrittenTime)
  | after (first : WrittenId) (others : List WrittenId)
  | startFinish (start : WrittenStart) (finish : WrittenTime)
  | idStartFinish (id : WrittenField) (start : WrittenStart) (finish : WrittenTime)

namespace WrittenFields

/-- The fields as they are written. -/
def written : WrittenFields → List Text
  | finish f => [f.text]
  | after first others => [afterText (first :: others)]
  | startFinish s f => [s.written, f.text]
  | idStartFinish i s f => [i.text, s.written, f.text]

/-- The task that is written, with its name and its statuses, at a position. -/
def task (name : Text) (statuses : List Status) (position : Position) : WrittenFields → Task
  | finish f => ⟨name, none, statuses, none, some f.text, [], position⟩
  | after first others => ⟨name, none, statuses, none, none, (first :: others).map WrittenId.id, position⟩
  | startFinish s f => ⟨name, none, statuses, s.date?, some f.text, s.dependencies, position⟩
  | idStartFinish i s f => ⟨name, some i.text, statuses, s.date?, some f.text, s.dependencies, position⟩

end WrittenFields

/-- The statuses and the fields as they are written. -/
def detailFields (statuses : List Status) (fields : WrittenFields) : List Text :=
  statuses.map (fun s => s.name.toList) ++ fields.written

variable {statuses : List Status} {fields : WrittenFields} {ids : List WrittenId} {first : WrittenId}
  {others : List WrittenId} {field t : Text} {rest raw : List Text} {line : Line}

/-! ### Statuses -/

theorem ofName?_name (status : Status) : Status.ofName? status.name.toList = some status := by
  cases status <;> decide

/-- The statuses end at the first field that is none. -/
theorem takeStatuses_append (other : ∀ field ∈ rest.head?, Status.ofName? field = none) (statuses : List Status) :
    takeStatuses (statuses.map (fun s => s.name.toList) ++ rest) = (statuses, rest) := by
  induction statuses with
  | nil =>
    cases rest with
    | nil => rfl
    | cons field rest => simp [takeStatuses, other field rfl]
  | cons status statuses ih => simp [takeStatuses, ofName?_name, ih]

theorem status_plain (status : Status) : trim status.name.toList = status.name.toList ∧ ',' ∉ status.name.toList := by
  cases status <;> decide

/-! ### Starts -/

/-- Behind an id come further ids or nothing. -/
theorem begins_blank (ids : List WrittenId) : ∀ c ∈ (ids.flatMap WrittenId.written).head?, isBlank c = true := by
  cases ids with
  | nil => simp
  | cons i ids =>
    obtain ⟨b, gap, split⟩ := List.exists_cons_of_ne_nil i.gap_filled
    have blank : isBlank b = true := List.all_eq_true.mp i.gap_blank b (by simp [split])
    simpa [WrittenId.written, split] using blank

/-- Ids with gaps in front of them are read back. -/
theorem tokens_ids (ids : List WrittenId) : tokens (ids.flatMap WrittenId.written) = ids.map WrittenId.id := by
  induction ids with
  | nil => rfl
  | cons i ids ih =>
    rw [List.flatMap_cons, WrittenId.written, List.append_assoc, tokens_blank_append i.gap_blank,
      tokens_cons_word i.id_filled i.id_visible (begins_blank ids), ih, List.map_cons]

theorem id_begins (i : WrittenId) : BeginsVisible i.id :=
  begins_of_trim i.id_filled (trim_of_all_visible i.id_filled i.id_visible)

theorem id_ends (i : WrittenId) : EndsVisible i.id :=
  ends_of_trim i.id_filled (trim_of_all_visible i.id_filled i.id_visible)

/-- The ids are what stands behind the word "after". -/
theorem exists_afterText (first : WrittenId) (others : List WrittenId) :
    ∃ targets, afterKeyword? "after" (afterText (first :: others)) = some targets ∧
      tokens targets = (first :: others).map WrittenId.id := by
  refine ⟨first.id ++ others.flatMap WrittenId.written, ?_, ?_⟩
  · rw [afterText, List.flatMap_cons, WrittenId.written, List.append_assoc]
    exact afterKeyword?_written first.gap_filled first.gap_blank ((id_begins first).append _)
  · rw [tokens_cons_word first.id_filled first.id_visible (begins_blank others), tokens_ids, List.map_cons]

theorem ids_end (ends : EndsVisible t) (ids : List WrittenId) : EndsVisible (t ++ ids.flatMap WrittenId.written) := by
  induction ids generalizing t with
  | nil => simpa using ends
  | cons i ids ih =>
    have front : EndsVisible (t ++ i.written) := by
      rw [WrittenId.written, ← List.append_assoc]
      exact (id_ends i).append (t ++ i.gap)
    rw [List.flatMap_cons, ← List.append_assoc]
    exact ih front

theorem afterText_plain (ids : List WrittenId) : trim (afterText ids) = afterText ids ∧ ',' ∉ afterText ids := by
  constructor
  · exact trim_of_visible ⟨'a', _, rfl, by decide⟩ (ids_end ⟨"afte".toList, 'r', rfl, by decide⟩ ids)
  · have comma : isBlank ',' = false := by decide
    have gaps (i : WrittenId) : ',' ∉ i.gap := not_mem_of_blank i.gap_blank comma
    simp [afterText, WrittenId.written, gaps, WrittenId.id_plain]

theorem start_plain (start : WrittenStart) : trim start.written = start.written ∧ ',' ∉ start.written := by
  cases start with
  | date d => exact ⟨d.tight, d.plain⟩
  | after first others => exact afterText_plain (first :: others)

theorem startAndDependencies_written (start : WrittenStart) :
    startAndDependencies (some start.written) = (start.date?, start.dependencies) := by
  cases start with
  | date d => simp [startAndDependencies, WrittenStart.written, WrittenStart.date?, WrittenStart.dependencies, d.timed,
      trimmed?_of_tight d.filled d.tight]
  | after first others =>
    obtain ⟨targets, after, read⟩ := exists_afterText first others
    simp [startAndDependencies, WrittenStart.written, WrittenStart.date?, WrittenStart.dependencies, after, read]

/-! ### Fields -/

/-- No field has blanks at its ends or a comma. -/
theorem detailFields_plain (statuses : List Status) (fields : WrittenFields) :
    ∀ field ∈ detailFields statuses fields, trim field = field ∧ ',' ∉ field := by
  rw [detailFields, List.forall_mem_append]
  constructor
  · simpa using fun status _ => status_plain status
  · cases fields with
    | finish f => simpa [WrittenFields.written] using And.intro f.tight f.plain
    | after first others => simpa [WrittenFields.written] using afterText_plain (first :: others)
    | startFinish s f => simpa [WrittenFields.written] using And.intro (start_plain s) (And.intro f.tight f.plain)
    | idStartFinish i s f =>
      simpa [WrittenFields.written] using
        And.intro (And.intro i.tight i.plain) (And.intro (start_plain s) (And.intro f.tight f.plain))

/-- Texts between commas, with or without blanks around them, are cut apart again. -/
theorem fields_of_joined (spaced : raw.map trim = detailFields statuses fields) :
    (pieces ',' (join [','] raw)).map trim = detailFields statuses fields := by
  have plain : ∀ r ∈ raw, ',' ∉ r := by
    intro r member
    obtain ⟨-, absent⟩ := detailFields_plain statuses fields (trim r) (spaced ▸ List.mem_map_of_mem member)
    obtain ⟨b, b', same, blank, blank'⟩ := exists_trim r
    have comma : isBlank ',' = false := by decide
    rw [same]
    simp [absent, not_mem_of_blank blank comma, not_mem_of_blank blank' comma]
  have filled : raw ≠ [] := by
    rintro rfl
    have none_written : detailFields statuses fields = [] := spaced.symm
    cases fields <;> simp [detailFields, WrittenFields.written] at none_written
  rw [pieces_eq_splitOn, join, List.splitOn_intercalate ',' plain filled, spaced]

/-- The fields behind the statuses make the task. -/
theorem task_of_fields (line : Line) (name : Text) {details : Text}
    (other : ∀ field ∈ fields.written.head?, Status.ofName? field = none)
    (cut : (pieces ',' details).map trim = detailFields statuses fields) :
    Gantt.task line name details = .ok (fields.task name statuses line.position) := by
  have taken := takeStatuses_append other statuses
  rw [Gantt.task, cut, detailFields, taken]
  cases fields with
  | finish f =>
    simp [WrittenFields.written, WrittenFields.task, taskFields?, startAndFinish, startAndDependencies, f.timed,
      trimmed?_of_tight f.filled f.tight]
  | after first others =>
    obtain ⟨targets, after, read⟩ := exists_afterText first others
    simp [WrittenFields.written, WrittenFields.task, taskFields?, startAndFinish, startAndDependencies, after, read]
  | startFinish s f =>
    simp [WrittenFields.written, WrittenFields.task, taskFields?, startAndFinish, startAndDependencies_written,
      trimmed?_of_tight f.filled f.tight]
  | idStartFinish i s f =>
    simp [WrittenFields.written, WrittenFields.task, taskFields?, startAndFinish, startAndDependencies_written,
      trimmed?_of_tight i.filled i.tight, trimmed?_of_tight f.filled f.tight]

theorem start_or_dependencies (start : Option Text) :
    (startAndDependencies start).1 = none ∨ (startAndDependencies start).2 = [] := by
  cases start with
  | none => exact .inl rfl
  | some t =>
    rw [startAndDependencies]
    split
    · exact .inl rfl
    · exact .inr rfl

/-- No task that is read has both a date to start at and tasks to start after. -/
theorem one_start {name details : Text} {t : Task} (read : Gantt.task line name details = .ok t) :
    t.start = none ∨ t.dependencies = [] := by
  unfold Gantt.task at read
  dsimp only at read
  split at read
  · cases read
  · obtain rfl := Except.ok.inj read
    exact start_or_dependencies _

/-- A task is read as it is written, if its first field behind the statuses is no further status: it has the statuses, the
id, the end, and either the date or the tasks to start after. Blanks around the fields do not matter. -/
theorem written_task_read (other : ∀ field ∈ fields.written.head?, Status.ofName? field = none)
    (spaced : raw.map trim = detailFields statuses fields) (line : Line) (name : Text) :
    Gantt.task line name (join [','] raw) = .ok (fields.task name statuses line.position) ∧
      ((fields.task name statuses line.position).start = none ∨
        (fields.task name statuses line.position).dependencies = []) ∧
      Gantt.task line name (join [','] (detailFields statuses fields)) =
        .ok (fields.task name statuses line.position) := by
  have read := task_of_fields line name other (fields_of_joined spaced)
  have tight : (detailFields statuses fields).map trim = detailFields statuses fields := by
    conv_rhs => rw [← List.map_id (detailFields statuses fields)]
    exact List.map_congr_left fun field member => (detailFields_plain statuses fields field member).1
  exact ⟨read, one_start read, task_of_fields line name other (fields_of_joined tight)⟩

/-- An id, the word "after" with two ids, and an end. -/
def dependentFields : WrittenFields :=
  .idStartFinish ⟨"a1".toList, by decide, by decide, by decide⟩
    (.after ⟨"   ".toList, "b0".toList, by decide, by decide, by decide, by decide, by decide⟩
      [⟨" \t".toList, "b1".toList, by decide, by decide, by decide, by decide, by decide⟩])
    ⟨⟨"3d".toList, by decide, by decide, by decide⟩, by decide⟩

/-- A task with two statuses in front of these fields. -/
def dependentTask : Line := Line.ofRaw 4 " Cook: done, crit,a1 , after   b0 \tb1,3d".toList

theorem written_task_read_dependent :
    Gantt.task dependentTask "Cook".toList " done, crit,a1 , after   b0 \tb1,3d".toList =
      .ok ⟨"Cook".toList, some "a1".toList, [.done, .crit], none, some "3d".toList, ["b0".toList, "b1".toList], ⟨4, 2⟩⟩ :=
  have other : ∀ field ∈ dependentFields.written.head?, Status.ofName? field = none := by decide
  have spaced : [" done".toList, " crit".toList, "a1 ".toList, " after   b0 \tb1".toList, "3d".toList].map trim =
      detailFields [.done, .crit] dependentFields := by decide
  (written_task_read other spaced dependentTask "Cook".toList).1

end DiagramLint.Gantt
