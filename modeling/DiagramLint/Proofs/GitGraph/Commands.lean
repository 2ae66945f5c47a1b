import DiagramLint.Proofs.Coverage.Basic
import DiagramLint.Proofs.GitGraph.Options
import DiagramLint.Proofs.LineNumbers
import DiagramLint.Proofs.LineRule
import DiagramLint.Proofs.Results
import DiagramLint.Proofs.Text.Pieces
import Mathlib.Data.List.Nodup
import Mathlib.Data.List.Perm.Subperm

/-!
Commands with options. The options of a command may be written in any order (`written_command_read`). Of the options that
are read, the first one with each key is recorded, and the others are dropped, so none is lost exactly if no key is given
twice (`options_of_command`).
-/
namespace DiagramLint.GitGraph

open Text

/-- The options that set some fields, in the order of the fields. -/
def settings (fields : List (String × Option Text)) : List GitOption :=
  fields.filterMap fun (key, value) => value.map fun v => ⟨key.toList, v⟩

namespace Action

/-- The fields of a command that options set, with their keys; the order of a branch is written in decimal. -/
def fields : Action → List (String × Option Text)
  | .commit id message tag type => [("id", id), ("msg", message), ("tag", tag), ("type", type)]
  | .branch _ order => [("order", order.map fun n => (toString n).toList)]
  | .checkout _ => []
  | .merge _ id tag type => [("id", id), ("tag", tag), ("type", type)]
  | .cherryPick id parent => [("id", some id), ("parent", parent)]

/-- The options that a command records. -/
def options (a : Action) : List GitOption := settings a.fields

/-- What the option says is what the command holds; an order may be written in many ways. -/
def Records (a : Action) (o : GitOption) : Prop :=
  match a with
  | .branch _ order => o.key = "order".toList ∧ ∃ n, order = some n ∧ Integer.read? o.value = some n
  | a => o ∈ a.options

end Action

/-- How a command begins that options follow. -/
inductive Begins : Action → Text → Prop where
  | commit {id message tag type : Option Text} : Begins (.commit id message tag type) "commit".toList
  | merge {branch : Text} {id tag type : Option Text} (filled : branch ≠ []) (visible : ∀ c ∈ branch, isBlank c = false)
      (unquoted : '"' ∉ branch) : Begins (.merge branch id tag type) ("merge".toList ++ ' ' :: branch)
  | cherryPick {id : Text} {parent : Option Text} : Begins (.cherryPick id parent) "cherry-pick".toList

/-- What stands behind the beginning of a command, where its options are read. -/
inductive OptionsBehind (t : Text) : Action → Text → Prop where
  | commit {id message tag type : Option Text} {rest : Text} (after : afterKeyword? "commit" t = some rest) :
      OptionsBehind t (.commit id message tag type) rest
  | branch {name behind rest : Text} {order : Option Int} (after : afterKeyword? "branch" t = some behind)
      (named : nameAndRest behind = (name, rest)) : OptionsBehind t (.branch name order) rest
  | merge {branch behind rest : Text} {id tag type : Option Text} (after : afterKeyword? "merge" t = some behind)
      (named : nameAndRest behind = (branch, rest)) : OptionsBehind t (.merge branch id tag type) rest
  | cherryPick {id rest : Text} {parent : Option Text} (after : afterKeyword? "cherry-pick" t = some rest) :
      OptionsBehind t (.cherryPick id parent) rest

variable {commands commands' : List Command} {line : Line} {a : Action} {fields : List (String × Option Text)}
  {os before after : List GitOption} {o : GitOption} {key : String} {value : Option Text} {v t rest : Text}
  {ws : List WrittenOption} {allowed : List String}

/-! ### Options by key -/

theorem mem_settings : o ∈ settings fields ↔ ∃ key, (key, some o.value) ∈ fields ∧ key.toList = o.key := by
  rw [settings, List.mem_filterMap]
  constructor
  · rintro ⟨⟨key, value⟩, member, given⟩
    obtain ⟨v, rfl, rfl⟩ := Option.map_eq_some_iff.mp given
    exact ⟨key, member, rfl⟩
  · rintro ⟨key, member, same⟩
    exact ⟨(key, some o.value), member, by simp [same]⟩

theorem nodup_settings (distinct : (fields.map Prod.fst).Nodup) : ((settings fields).map GitOption.key).Nodup := by
  induction fields with
  | nil => exact List.nodup_nil
  | cons field fields ih =>
    obtain ⟨key, value⟩ := field
    obtain ⟨fresh, others⟩ := List.nodup_cons.mp distinct
    cases value with
    | none => simpa [settings] using ih others
    | some v =>
      have new : key.toList ∉ (settings fields).map GitOption.key := by
        intro member
        obtain ⟨o, inside, same⟩ := List.mem_map.mp member
        obtain ⟨key', listed, again⟩ := mem_settings.mp inside
        obtain rfl := String.toList_inj.mp (again.trans same)
        exact fresh (List.mem_map.mpr ⟨_, listed, rfl⟩)
      simpa [settings] using And.intro (by simpa [settings] using new) (by simpa [settings] using ih others)

/-- The value of a key is that of the first option with it. -/
theorem value?_eq_some_iff : value? os key = some v ↔
    ∃ before after, os = before ++ ⟨key.toList, v⟩ :: after ∧ key.toList ∉ before.map GitOption.key := by
  rw [value?, Option.map_eq_some_iff]
  constructor
  · rintro ⟨o, found, rfl⟩
    obtain ⟨same, before, after, split, others⟩ := List.find?_eq_some_iff_append.mp found
    have key_same : o.key = key.toList := by simpa using same
    refine ⟨before, after, by rw [← key_same]; exact split, ?_⟩
    simpa using others
  · rintro ⟨before, after, rfl, first⟩
    refine ⟨⟨key.toList, v⟩, List.find?_eq_some_iff_append.mpr ⟨by simp, before, after, rfl, ?_⟩, rfl⟩
    simpa using first

theorem value?_of_mem (distinct : (os.map GitOption.key).Nodup) (member : ⟨key.toList, v⟩ ∈ os) : value? os key = some v := by
  obtain ⟨before, after, rfl⟩ := List.append_of_mem member
  refine value?_eq_some_iff.mpr ⟨before, after, rfl, ?_⟩
  rw [List.map_append, List.map_cons, List.nodup_middle, List.nodup_cons] at distinct
  exact fun earlier => distinct.1 (List.mem_append_left _ earlier)

/-- Where no key is given twice, the order of the options does not matter. -/
theorem value?_of_perm (distinct : (fields.map Prod.fst).Nodup) (same : os.Perm (settings fields))
    (member : (key, value) ∈ fields) : value? os key = value := by
  ext v
  constructor
  · intro given
    obtain ⟨before, after, split, -⟩ := value?_eq_some_iff.mp given
    have inside : (⟨key.toList, v⟩ : GitOption) ∈ os := by simp [split]
    obtain ⟨key', listed, keyed⟩ := mem_settings.mp (same.mem_iff.mp inside)
    obtain rfl := String.toList_inj.mp keyed
    exact congrArg Prod.snd (List.inj_on_of_nodup_map distinct member listed rfl)
  · rintro rfl
    have keys : (os.map GitOption.key).Nodup := (same.map _).nodup_iff.mpr (nodup_settings distinct)
    exact value?_of_mem keys (same.mem_iff.mpr (mem_settings.mpr ⟨key, member, rfl⟩))

/-! ### Written commands -/

theorem fitting_of_closed (closed : ∀ w ∈ ws, w.quoted = true ∧ '"' ∉ w.value) (rest : Text) : Fitting rest ws := by
  induction ws with
  | nil => trivial
  | cons w ws ih =>
    obtain ⟨⟨quoted, absent⟩, others⟩ := List.forall_mem_cons.mp closed
    exact ⟨⟨fun _ => absent, fun bare => absurd (quoted.symm.trans bare) (by decide)⟩, ih others⟩

/-- Quoted options are read as they are written, with more or fewer spaces in front. -/
theorem options?_written (closed : ∀ w ∈ ws, w.quoted = true ∧ '"' ∉ w.value)
    (same : skipSpaces t = skipSpaces (optionText ws)) (empty : ws = [] → t = []) :
    options? t = some (ws.map WrittenOption.option) := by
  have fitting := fitting_of_closed closed []
  cases ws with
  | nil =>
    rw [empty rfl]
    exact options?_nil
  | cons w ws =>
    have found := w.option?_written fitting.1
    rw [List.append_nil] at found
    rw [options?_of_skipSpaces same found]
    exact options?_eq_some_iff.mpr ⟨w :: ws, fitting, rfl, rfl⟩

theorem exists_behind_key (w : WrittenOption) (ws : List WrittenOption) :
    ∃ tail, optionText (w :: ws) = w.before ++ (w.key ++ tail) ∧ BeginsVisible (w.key ++ tail) := by
  obtain ⟨c, key, same⟩ := List.exists_cons_of_ne_nil w.key_filled
  have visible : isBlank c = false := visible_of_key (w.key_solid c (by simp [same]))
  refine ⟨w.beforeColon ++ ':' :: (w.behindColon ++ (w.valueText ++ (w.behind ++ optionText ws))), ?_, ?_⟩
  · simp [optionText, WrittenOption.written, OptionHead.written]
  · rw [same]
    exact ⟨c, _, rfl, visible⟩

/-- Behind a keyword stand the options, without the spaces in front of them. -/
theorem exists_after_keyword (keyword : String) (apart : ∀ w ∈ ws, w.before ≠ []) :
    ∃ t, afterKeyword? keyword (keyword.toList ++ optionText ws) = some t ∧ skipSpaces t = skipSpaces (optionText ws) ∧
      (ws = [] → t = []) := by
  cases ws with
  | nil =>
    have start : dropStart? keyword.toList (keyword.toList ++ optionText []) = some [] := dropStart?_eq_some_iff.mpr rfl
    exact ⟨[], by rw [afterKeyword?, start], rfl, fun _ => rfl⟩
  | cons w ws =>
    obtain ⟨tail, split, begins⟩ := exists_behind_key w ws
    have blank : allBlank w.before = true := List.all_eq_true.mpr fun c member => blank_of_space (w.before_spaces c member)
    refine ⟨w.key ++ tail, ?_, ?_, fun empty => absurd empty (List.cons_ne_nil w ws)⟩
    · rw [split]
      exact afterKeyword?_written (apart w List.mem_cons_self) blank begins
    · rw [split, skipSpaces_append w.before_spaces]

/-- The name ends at the first space. -/
theorem exists_nameAndRest {branch : Text} (filled : branch ≠ []) (visible : ∀ c ∈ branch, isBlank c = false)
    (unquoted : '"' ∉ branch) (apart : ∀ w ∈ ws, w.before ≠ []) :
    ∃ t, nameAndRest (branch ++ optionText ws) = (branch, t) ∧ skipSpaces t = skipSpaces (optionText ws) ∧
      (ws = [] → t = []) := by
  have plain : (dropStart? ['"'] (branch ++ optionText ws)).bind (cut? ['"']) = none := by
    obtain ⟨c, others, rfl⟩ := List.exists_cons_of_ne_nil filled
    refine quoted_eq_none_iff.mpr fun u begins => ?_
    obtain ⟨rfl, -⟩ := List.cons.inj begins
    exact absurd List.mem_cons_self unquoted
  rw [nameAndRest, plain]
  cases ws with
  | nil =>
    exact ⟨[], by simp [optionText, cutBlank?_eq_none_iff.mpr visible], rfl, fun _ => rfl⟩
  | cons w ws =>
    obtain ⟨tail, split, -⟩ := exists_behind_key w ws
    obtain ⟨b, more, spaces⟩ := List.exists_cons_of_ne_nil (apart w List.mem_cons_self)
    obtain ⟨space, others⟩ := List.forall_mem_cons.mp (spaces ▸ w.before_spaces)
    refine ⟨more ++ (w.key ++ tail), ?_, ?_, fun empty => absurd empty (List.cons_ne_nil w ws)⟩
    · rw [split, spaces, List.cons_append, cutBlank?_written visible (blank_of_space space)]
      rfl
    · rw [split, skipSpaces_append w.before_spaces, skipSpaces_append others]

/-- Options that set the fields of a command are allowed if the keys of the fields are. -/
theorem options_of_perm (line : Line) (read : options? rest = some os) (same : os.Perm (settings fields))
    (listed : fields.map Prod.fst = allowed) : options line rest allowed = .ok os := by
  refine options_eq_ok_iff.mpr ⟨read, fun o member => ?_⟩
  obtain ⟨key, inside, keyed⟩ := mem_settings.mp (same.mem_iff.mp member)
  exact ⟨key, listed ▸ List.mem_map.mpr ⟨_, inside, rfl⟩, keyed⟩

/-- The keys of the fields of a command are different. -/
theorem distinct_fields (a : Action) : (a.fields.map Prod.fst).Nodup := by
  cases a <;> simp [Action.fields]

/-- A line that begins with another keyword is no commit, branch or checkout. -/
theorem passed_by_keyword (commands : List Command) {head : Text} (begins : head <+: line.text)
    (other : ∀ word ∈ ["commit", "branch", "checkout", "switch"], ¬ head <+: word.toList ∧ ¬ word.toList <+: head) :
    ∀ rule ∈ rules.take 3, rule.read commands line = pass := by
  simp only [List.forall_mem_cons] at other
  obtain ⟨commit, branch, checkout, switch, -⟩ := other
  simp only [rules, List.take_succ_cons, List.take_zero, List.forall_mem_cons]
  refine ⟨?_, ?_, ?_, List.forall_mem_nil _⟩
  · rw [commitLine, afterKeyword?_eq_none begins commit]
  · rw [branchLine, afterKeyword?_eq_none begins branch]
  · rw [checkoutLine, afterCheckout?, afterKeyword?_eq_none begins checkout, afterKeyword?_eq_none begins switch]

section Written

variable (closed : ∀ w ∈ ws, w.quoted = true ∧ '"' ∉ w.value) (apart : ∀ w ∈ ws, w.before ≠ [])
  (same : (ws.map WrittenOption.option).Perm a.options)

include closed apart same

/-- A command that is written with its options in any order is taken by its rule. -/
theorem readLine_written {head : Text} (begins : Begins a head) (text : line.text = head ++ optionText ws) :
    readLine rules commands line = .ok (add commands line a) := by
  have given {key : String} {value : Option Text} (member : (key, value) ∈ a.fields) :
      value? (ws.map WrittenOption.option) key = value := value?_of_perm (distinct_fields a) same member
  cases begins with
  | @commit id message tag type =>
    obtain ⟨t, after, spaces, empty⟩ := exists_after_keyword "commit" apart
    have read := options_of_perm line (options?_written closed spaces empty) same rfl
    have listed : ∀ field ∈ [("id", id), ("msg", message), ("tag", tag), ("type", type)],
        value? (ws.map WrittenOption.option) field.1 = field.2 := fun _ member => given member
    simp only [List.forall_mem_cons] at listed
    obtain ⟨id_given, message_given, tag_given, type_given, -⟩ := listed
    refine readLine_of_first rfl ?_
    rw [commitLine, text, after, ← id_given, ← message_given, ← tag_given, ← type_given]
    exact congrArg (Except.map _) read
  | @merge branch id tag type filled visible unquoted =>
    obtain ⟨t, named, spaces, empty⟩ := exists_nameAndRest filled visible unquoted apart
    have read := options_of_perm line (options?_written closed spaces empty) same rfl
    have listed : ∀ field ∈ [("id", id), ("tag", tag), ("type", type)],
        value? (ws.map WrittenOption.option) field.1 = field.2 := fun _ member => given member
    simp only [List.forall_mem_cons] at listed
    obtain ⟨id_given, tag_given, type_given, -⟩ := listed
    have begun : line.text = "merge".toList ++ ([' '] ++ (branch ++ optionText ws)) := by simpa using text
    have keyword : "merge".toList <+: line.text := ⟨_, begun.symm⟩
    have passed := passed_by_keyword commands keyword (by decide)
    have begins_visible : BeginsVisible (branch ++ optionText ws) := by
      obtain ⟨c, others, rfl⟩ := List.exists_cons_of_ne_nil filled
      exact ⟨c, _, rfl, visible c List.mem_cons_self⟩
    have after : afterKeyword? "merge" line.text = some (branch ++ optionText ws) := by
      rw [begun]
      exact afterKeyword?_written (by simp) allBlank_space begins_visible
    refine readLine_of_first (firstTaking_append_of_pass passed) ?_
    rw [mergeLine, after, ← id_given, ← tag_given, ← type_given]
    simp only [named, List.isEmpty_iff, filled, if_false]
    exact congrArg (Except.map _) read
  | @cherryPick id parent =>
    obtain ⟨t, after, spaces, empty⟩ := exists_after_keyword "cherry-pick" apart
    have read := options_of_perm line (options?_written closed spaces empty) same rfl
    have listed : ∀ field ∈ [("id", some id), ("parent", parent)],
        value? (ws.map WrittenOption.option) field.1 = field.2 := fun _ member => given member
    simp only [List.forall_mem_cons] at listed
    obtain ⟨id_given, parent_given, -⟩ := listed
    have begun : "cherry-pick".toList <+: line.text := ⟨optionText ws, text.symm⟩
    have passed := passed_by_keyword commands begun (by decide)
    have unmerged : mergeLine commands line = pass := by
      rw [mergeLine, afterKeyword?_eq_none begun (by decide)]
    refine readLine_of_first ((firstTaking_append_of_pass passed).trans (firstTaking_cons_of_pass unmerged)) ?_
    have allowed : options line t ["id", "parent"] = .ok (ws.map WrittenOption.option) := read
    rw [cherryPickLine, text, after]
    simp only [allowed, id_given, parent_given]
    rfl

end Written

/-- A commit, a merge or a picked commit that is written with its options in double quotes, in any order and with spaces
around them, is read as this command and nothing else. -/
theorem written_command_read {head : Text} (begins : Begins a head)
    (closed : ∀ w ∈ ws, w.quoted = true ∧ '"' ∉ w.value) (apart : ∀ w ∈ ws, w.before ≠ [])
    (same : (ws.map WrittenOption.option).Perm a.options) (commands : List Command) (number : Nat) {raw : Text}
    (written : trim raw = head ++ optionText ws) :
    Zone.content.line? number raw = some (.ofRaw number raw) ∧
      readLine rules commands (.ofRaw number raw) = .ok (commands ++ [⟨a, (Line.ofRaw number raw).position⟩]) := by
  refine ⟨?_, readLine_written closed apart same begins written⟩
  have spoken : ¬ IsSilent raw := by
    cases begins with
    | commit => exact not_silent_of_begins written (by decide)
    | merge => exact not_silent_of_begins written (by decide)
    | cherryPick => exact not_silent_of_begins written (by decide)
  exact Zone.content_line? spoken number

/-- An option in double quotes, with one space in front of its key and one behind its colon. -/
def quotedOption (key value : Text) (filled : key ≠ []) (solid : ∀ c ∈ key, isKeyChar c = true) : WrittenOption where
  before := [' ']
  key := key
  beforeColon := []
  behindColon := [' ']
  value := value
  quoted := true
  behind := []
  before_spaces := single_space
  key_filled := filled
  key_solid := solid
  beforeColon_spaces := no_spaces
  behindColon_spaces := single_space
  behind_spaces := no_spaces

/-- Options out of their order, with values that are empty or look like other options. -/
def disorderedOptions : List WrittenOption :=
  [quotedOption "type".toList "id: 'x' tag:".toList (by decide) (by decide +kernel),
   quotedOption "tag".toList [] (by decide) (by decide +kernel),
   quotedOption "id".toList " x : y".toList (by decide) (by decide +kernel)]

theorem written_command_read_disordered :
    (trim "  merge a:b type: \"id: 'x' tag:\" tag: \"\" id: \" x : y\" ".toList =
      "merge".toList ++ ' ' :: "a:b".toList ++ optionText disorderedOptions) ∧
    readLine rules [] (.ofRaw 2 "  merge a:b type: \"id: 'x' tag:\" tag: \"\" id: \" x : y\" ".toList) = .ok
      [⟨.merge "a:b".toList (some " x : y".toList) (some []) (some "id: 'x' tag:".toList), ⟨2, 3⟩⟩] := by
  have written : trim "  merge a:b type: \"id: 'x' tag:\" tag: \"\" id: \" x : y\" ".toList =
      "merge".toList ++ ' ' :: "a:b".toList ++ optionText disorderedOptions := by decide
  have begins : Begins (.merge "a:b".toList (some " x : y".toList) (some []) (some "id: 'x' tag:".toList))
      ("merge".toList ++ ' ' :: "a:b".toList) := .merge (by decide) (by decide +kernel) (by decide)
  have closed : ∀ w ∈ disorderedOptions, w.quoted = true ∧ '"' ∉ w.value := by
    simp only [disorderedOptions, List.forall_mem_cons]
    exact ⟨by decide, by decide, by decide, List.forall_mem_nil _⟩
  have apart : ∀ w ∈ disorderedOptions, w.before ≠ [] := by
    simp [disorderedOptions, quotedOption]
  exact ⟨written, (written_command_read begins closed apart (by decide) [] 2 written).2⟩

/-! ### Options that are recorded -/

/-- The fields of a command are set as some options with allowed keys say. -/
structure SetBy (os : List GitOption) (allowed : List String) (a : Action) : Prop where
  keys : a.fields.map Prod.fst = allowed
  set_iff : ∀ key value, (key, value) ∈ a.fields → value.isSome = (value? os key).isSome
  records : ∀ key ∈ allowed, ∀ v, value? os key = some v → a.Records ⟨key.toList, v⟩

/-- A line makes a command, whose fields are set by the options that are read behind its beginning. -/
def MakesCommand (commands : List Command) (line : Line) (commands' : List Command) : Prop :=
  ∃ a rest allowed os, commands' = add commands line a ∧ OptionsBehind line.text a rest ∧
    GitGraph.options line rest allowed = .ok os ∧ SetBy os allowed a

theorem setBy_of_fields (given : a.fields = allowed.map fun key => (key, value? os key))
    (plain : ∀ o ∈ a.options, a.Records o) : SetBy os allowed a where
  keys := by simp [given, Function.comp_def]
  set_iff := by
    intro key value member
    rw [given] at member
    obtain ⟨key, -, ⟨rfl, rfl⟩⟩ := List.mem_map.mp member
    rfl
  records := by
    intro key member v found
    refine plain _ (mem_settings.mpr ⟨key, ?_, rfl⟩)
    rw [given]
    exact List.mem_map.mpr ⟨key, member, by rw [found]⟩

theorem setBy_order {name : Text} {order : Option Int} (ordered : branchOrder line os = .ok order) :
    SetBy os ["order"] (.branch name order) := by
  unfold branchOrder at ordered
  split at ordered
  · next absent =>
    obtain rfl := Except.ok.inj ordered
    refine ⟨rfl, ?_, ?_⟩
    · simp [Action.fields, absent]
    · simp [absent]
  · next v found =>
    split at ordered
    · next n read =>
      obtain rfl := Except.ok.inj ordered
      refine ⟨rfl, ?_, ?_⟩
      · simp [Action.fields, found]
      · simp [Action.Records, found, read]
    · cases ordered

theorem commitLine_makes (taken : commitLine commands line = .ok (some commands')) : MakesCommand commands line commands' := by
  unfold commitLine at taken
  split at taken
  · cases taken
  · next rest after =>
    obtain ⟨os, read, made⟩ := exists_of_map_ok taken
    exact ⟨_, rest, _, os, (Option.some.inj made).symm, .commit after, read, setBy_of_fields rfl fun _ => id⟩

theorem branchLine_makes (taken : branchLine commands line = .ok (some commands')) : MakesCommand commands line commands' := by
  unfold branchLine at taken
  split at taken
  · cases taken
  · next behind after =>
    dsimp only at taken
    split at taken
    · cases taken
    · split at taken
      · cases taken
      · next os read =>
        obtain ⟨order, ordered, made⟩ := exists_of_map_ok taken
        exact ⟨_, _, _, os, (Option.some.inj made).symm, .branch after rfl, read, setBy_order ordered⟩

theorem checkoutLine_makes (taken : checkoutLine commands line = .ok (some commands')) :
    ∃ branch, commands' = add commands line (.checkout branch) := by
  unfold checkoutLine at taken
  split at taken
  · cases taken
  · dsimp only at taken
    split at taken
    · cases taken
    · exact ⟨_, eq_of_take taken⟩

theorem mergeLine_makes (taken : mergeLine commands line = .ok (some commands')) : MakesCommand commands line commands' := by
  unfold mergeLine at taken
  split at taken
  · cases taken
  · next behind after =>
    dsimp only at taken
    split at taken
    · cases taken
    · obtain ⟨os, read, made⟩ := exists_of_map_ok taken
      exact ⟨_, _, _, os, (Option.some.inj made).symm, .merge after rfl, read, setBy_of_fields rfl fun _ => id⟩

theorem cherryPickLine_makes (taken : cherryPickLine commands line = .ok (some commands')) :
    MakesCommand commands line commands' := by
  unfold cherryPickLine at taken
  split at taken
  · cases taken
  · next rest after =>
    split at taken
    · cases taken
    · next os read =>
      split at taken
      · cases taken
      · next id given =>
        refine ⟨_, rest, _, os, eq_of_take taken, .cherryPick after, read, setBy_of_fields ?_ fun _ member => member⟩
        simp [Action.fields, given]

theorem isSome_value? : (value? os key).isSome = true ↔ key.toList ∈ os.map GitOption.key := by
  rw [value?, Option.isSome_map, List.find?_isSome]
  simp

/-- A key is among the options that are recorded exactly if it is among those that are read. -/
theorem keys_recorded (set : SetBy os allowed a) (listed : ∀ o ∈ os, ∃ key ∈ allowed, key.toList = o.key) (k : Text) :
    k ∈ a.options.map GitOption.key ↔ k ∈ os.map GitOption.key := by
  constructor
  · intro recorded
    obtain ⟨o, member, rfl⟩ := List.mem_map.mp recorded
    obtain ⟨key, field, keyed⟩ := mem_settings.mp member
    rw [← keyed, ← isSome_value?, ← set.set_iff key _ field, Option.isSome_some]
  · intro read
    obtain ⟨o, member, rfl⟩ := List.mem_map.mp read
    obtain ⟨key, allowed_key, keyed⟩ := listed o member
    rw [← set.keys] at allowed_key
    obtain ⟨⟨key, value⟩, field, rfl⟩ := List.mem_map.mp allowed_key
    have given := set.set_iff key value field
    rw [isSome_value?.mpr (keyed ▸ read)] at given
    obtain ⟨v, rfl⟩ := Option.isSome_iff_exists.mp given
    exact List.mem_map.mpr ⟨⟨key.toList, v⟩, mem_settings.mpr ⟨key, field, rfl⟩, keyed⟩

/-- No more options are recorded than are read, and as many exactly if no key is read twice. -/
theorem length_recorded (same : ∀ k, k ∈ a.options.map GitOption.key ↔ k ∈ os.map GitOption.key) :
    a.options.length ≤ os.length ∧ (a.options.length = os.length ↔ (os.map GitOption.key).Nodup) := by
  have distinct : (a.options.map GitOption.key).Nodup := nodup_settings (distinct_fields a)
  -- The keys that are recorded are all different, so they fit among those that are read.
  have inside := distinct.subperm fun k => (same k).mp
  have fewer := inside.length_le
  simp only [List.length_map] at fewer
  refine ⟨fewer, ?_, ?_⟩
  · intro equal
    have perm := inside.perm_of_length_le (by simp [equal])
    exact perm.nodup_iff.mp distinct
  · intro once
    have more := (once.subperm fun k => (same k).mpr).length_le
    simp only [List.length_map] at more
    omega

/-- Every command of a line that is read, but for checkouts, is set by the options behind its beginning. -/
theorem makesCommand_of_read {c : Command} (read : readLine rules commands line = .ok (commands ++ [c]))
    (other : ∀ branch, c.action ≠ .checkout branch) : MakesCommand commands line (commands ++ [c]) := by
  rw [readLine_eq_ok_iff] at read
  simp only [rules, firstTaking_cons, not_taken_by_none, and_false, or_false] at read
  rcases read with committed | ⟨_, branched | ⟨_, changed | ⟨_, merged | ⟨_, picked⟩⟩⟩⟩
  · exact commitLine_makes committed
  · exact branchLine_makes branched
  · obtain ⟨branch, made⟩ := checkoutLine_makes changed
    obtain rfl := List.singleton_inj.mp (List.append_cancel_left made)
    exact absurd rfl (other branch)
  · exact mergeLine_makes merged
  · exact cherryPickLine_makes picked

/-- A command with options records the first option with each key, and no other; so it records as many options as are read
exactly if no key is given twice. -/
theorem options_of_command {c : Command} (read : readLine rules commands line = .ok (commands ++ [c]))
    (other : ∀ branch, c.action ≠ .checkout branch) : ∃ rest os,
      OptionsBehind line.text c.action rest ∧ options? rest = some os ∧
      (∀ before o after, os = before ++ o :: after → o.key ∉ before.map GitOption.key → c.action.Records o) ∧
      (∀ key, key ∈ c.action.options.map GitOption.key ↔ key ∈ os.map GitOption.key) ∧
      c.action.options.length ≤ os.length ∧
      (c.action.options.length = os.length ↔ (os.map GitOption.key).Nodup) := by
  obtain ⟨a, rest, allowed, os, made, behind, accepted, set⟩ := makesCommand_of_read read other
  obtain rfl := List.singleton_inj.mp (List.append_cancel_left made)
  obtain ⟨readable, listed⟩ := options_eq_ok_iff.mp accepted
  have same := keys_recorded set listed
  refine ⟨rest, os, behind, readable, ?_, same, length_recorded same⟩
  rintro before o after rfl first
  obtain ⟨key, allowed_key, keyed⟩ := listed o (by simp)
  have found : value? (before ++ o :: after) key = some o.value :=
    value?_eq_some_iff.mpr ⟨before, after, by rw [keyed], keyed ▸ first⟩
  have recorded := set.records key allowed_key o.value found
  rwa [keyed] at recorded

/-- A commit with two ids. -/
def repeatedKey : Line := .ofRaw 2 "commit id: \"a\" tag: b id: c".toList

/-- The commit that is made of the first id and the tag. -/
def firstOfRepeated : Command := ⟨.commit (some "a".toList) none (some "b".toList) none, ⟨2, 1⟩⟩

theorem options_of_command_repeatedKey :
    (readLine rules [] repeatedKey = .ok ([] ++ [firstOfRepeated]) ∧
      ∀ branch, firstOfRepeated.action ≠ .checkout branch) ∧
    ∃ rest os, OptionsBehind repeatedKey.text firstOfRepeated.action rest ∧ options? rest = some os ∧
      (∀ before o after, os = before ++ o :: after → o.key ∉ before.map GitOption.key → firstOfRepeated.action.Records o) ∧
      (∀ key, key ∈ firstOfRepeated.action.options.map GitOption.key ↔ key ∈ os.map GitOption.key) ∧
      firstOfRepeated.action.options.length ≤ os.length ∧
      (firstOfRepeated.action.options.length = os.length ↔ (os.map GitOption.key).Nodup) := by
  have read : readLine rules [] repeatedKey = .ok ([] ++ [firstOfRepeated]) :=
    (eq_ok_get (by decide +kernel)).trans (congrArg Except.ok (by decide +kernel))
  have other : ∀ branch, firstOfRepeated.action ≠ .checkout branch := nofun
  exact ⟨⟨read, other⟩, options_of_command read other⟩

/-- A commit whose second id is dropped. -/
def twoIds : Text := "gitGraph\ncommit id: \"a\" id: \"b\"".toList

/-- Two options are read, and one field is set. -/
theorem twoIds_accepted : (∃ g, read (Source.ofText twoIds 0) = .ok g ∧
      g.commands = [⟨.commit (some "a".toList) none none none, ⟨2, 1⟩⟩]) ∧
    options? "id: \"a\" id: \"b\"".toList = some [⟨"id".toList, "a".toList⟩, ⟨"id".toList, "b".toList⟩] :=
  ⟨⟨_, eq_ok_get (by decide +kernel), by decide +kernel⟩, by decide +kernel⟩

end DiagramLint.GitGraph
