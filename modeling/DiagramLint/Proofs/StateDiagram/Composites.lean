import DiagramLint.Proofs.OpenEntries
import DiagramLint.Proofs.Reading.StateDiagram

/-!
Composite states. In front of a line of a state diagram a note may be open, over whose lines its text goes on,
and composite states, one in the other (`Surroundings`). They can be told from the lines alone: a brace at the end
of a state opens it, a brace on its own closes the innermost, and in a note no brace counts. A state and a
transition are in the innermost composite state that is open at their line. Reading stops at a brace or a
separator outside all composite states, or behind all lines for what is open there (`read_composites`).
-/
namespace DiagramLint.StateDiagram

open Text

/-- What is open in front of a line: a note, and composite states, the innermost first. -/
structure Surroundings where
  note : Option Position := none
  composites : List (Text × Position) := []
  deriving DecidableEq, Repr

namespace Surroundings

/-- What is open behind a line. A line in a note does nothing but end it. -/
def next (around : Surroundings) (line : Line) : Surroundings :=
  if around.note.isSome then
    if line.text = "end note".toList then { around with note := none } else around
  else if opensNote line.text then { around with note := some line.position }
  else if line.text = ['}'] then { around with composites := around.composites.tail }
  else
    let begun := (composite? line).map fun id => (id, line.position)
    { around with composites := begun.toList ++ around.composites }

/-- What is open behind some lines. -/
def behind (lines : List Line) : Surroundings := lines.foldl next {}

/-- The id of the innermost composite state. -/
def parent? (around : Surroundings) : Option Text := around.composites.head?.map Prod.fst

/-- Where the note stands that is open, or else the innermost composite state. -/
def unclosed? (around : Surroundings) : Option Position := around.note.or (around.composites.head?.map Prod.snd)

end Surroundings

open Surroundings

/-- The line closes or divides a composite state where none is open. -/
def IsStray (around : Surroundings) (line : Line) : Prop :=
  around = {} ∧ (line.text = ['}'] ∨ line.text = ['-', '-'])

/-- The line is one of the lines and stands outside notes, in this composite state if in any. -/
def StandsIn (lines : List Line) (parent : Option Text) (line : Line) : Prop :=
  ∃ before after, lines = before ++ line :: after ∧ (behind before).note = none ∧ (behind before).parent? = parent

/-- The composite states of a diagram are those of its lines: all of them are closed, no line is stray, and what
the diagram holds is in the composite state in which its line stands. A state is composite if its line begins a
composite state. -/
structure Composed (lines : List Line) (diagram : StateDiagram) : Prop where
  closed : behind lines = {}
  sound : ∀ before line after, lines = before ++ line :: after → ¬ IsStray (behind before) line
  states : ∀ s ∈ diagram.states, ∃ line, StandsIn lines s.parent line ∧ line.position = s.position ∧
    composite? line = if s.kind = .composite then some s.id else none
  transitions : ∀ t ∈ diagram.transitions, ∃ line, StandsIn lines t.parent line ∧ line.position = t.position

/-- The lines can be read. -/
def Accepted (lines : List Line) : Prop := ∃ d, readLines rules {} lines = .ok d

variable {d d' : Draft} {line : Line} {lines : List Line} {around : Surroundings} {p : Position} {e : ParseError}

/-! ### One line -/

theorem behind_concat (lines : List Line) (line : Line) : behind (lines ++ [line]) = (behind lines).next line :=
  List.foldl_concat ..

theorem ne_brace_of_unmarked {t : Text} (unmarked : isMark t = false) : t ≠ ['}'] := by
  rintro rfl
  exact absurd unmarked (by decide)

theorem next_of_opened (outside : around.note = none) (opened : opensNote line.text = true) :
    around.next line = { around with note := some line.position } := by
  simp [next, outside, opened]

theorem next_of_brace (outside : around.note = none) (brace : line.text = ['}']) :
    around.next line = { around with composites := around.composites.tail } := by
  have unopened : opensNote ['}'] = false := by decide
  simp [next, outside, brace, unopened]

theorem next_of_begins {id : Text} (outside : around.note = none) (unopened : opensNote line.text = false)
    (other : line.text ≠ ['}']) (begins : composite? line = some id) :
    around.next line = { around with composites := (id, line.position) :: around.composites } := by
  simp [next, outside, unopened, other, begins]

theorem next_of_plain (outside : around.note = none) (unopened : opensNote line.text = false)
    (other : line.text ≠ ['}']) (plain : composite? line = none) : around.next line = around := by
  obtain ⟨note, composites⟩ := around
  obtain rfl : note = none := outside
  simp [next, unopened, other, plain]

theorem next_of_separator (hyphens : line.text = ['-', '-']) (outside : around.note = none) :
    around.next line = around := by
  refine next_of_plain outside ?_ ?_ (composite?_of_none ?_)
  all_goals
    rw [hyphens]
    decide

theorem StandsIn.append {parent : Option Text} (stands : StandsIn lines parent line) (more : List Line) :
    StandsIn (lines ++ more) parent line := by
  obtain ⟨before, after, rfl, outside, inside⟩ := stands
  exact ⟨before, after ++ more, by simp, outside, inside⟩

theorem StandsIn.last (outside : (behind lines).note = none) :
    StandsIn (lines ++ [line]) (behind lines).parent? line :=
  ⟨lines, [], rfl, outside, rfl⟩

/-! ### What is read -/

/-- A draft goes with the lines that were read. -/
structure Tracks (lines : List Line) (d : Draft) : Prop where
  note : d.note.map Note.position = (behind lines).note
  stack : PointTo (d.states.map fun s => (s.id, s.position)) d.stack (behind lines).composites
  states : ∀ s ∈ d.states, ∃ line, StandsIn lines s.parent line ∧ line.position = s.position ∧
    composite? line = if s.kind = .composite then some s.id else none
  transitions : ∀ t ∈ d.transitions, ∃ line, StandsIn lines t.parent line ∧ line.position = t.position

namespace Tracks

theorem blank : Tracks [] {} := ⟨rfl, .nil, List.forall_mem_nil _, List.forall_mem_nil _⟩

theorem innermost (tracks : Tracks lines d) :
    (d.innermost?.map fun s => (s.id, s.position)) = (behind lines).composites.head? := by
  rw [← tracks.stack.innermost, Draft.innermost?, Option.map_bind]
  congr 1
  funext i
  simp

theorem parent? (tracks : Tracks lines d) : d.parent? = (behind lines).parent? := by
  rw [Surroundings.parent?, ← tracks.innermost, Option.map_map]
  rfl

/-- What a draft holds stays where it is, so a line adds but its own. -/
theorem extend (tracks : Tracks lines d) (note : d'.note.map Note.position = ((behind lines).next line).note)
    (stack : PointTo (d'.states.map fun s => (s.id, s.position)) d'.stack ((behind lines).next line).composites)
    (states : ∀ s ∈ d'.states, s ∈ d.states ∨ StandsIn (lines ++ [line]) s.parent line ∧ line.position = s.position ∧
      composite? line = if s.kind = .composite then some s.id else none)
    (transitions : ∀ t ∈ d'.transitions, t ∈ d.transitions ∨
      StandsIn (lines ++ [line]) t.parent line ∧ line.position = t.position) : Tracks (lines ++ [line]) d' := by
  refine ⟨?_, ?_, ?_, ?_⟩
  · rw [behind_concat, note]
  · rw [behind_concat]
    exact stack
  · intro s member
    rcases states s member with old | here
    · obtain ⟨place, stands, facts⟩ := tracks.states s old
      exact ⟨place, stands.append _, facts⟩
    · exact ⟨line, here⟩
  · intro t member
    rcases transitions t member with old | here
    · obtain ⟨place, stands, position⟩ := tracks.transitions t old
      exact ⟨place, stands.append _, position⟩
    · exact ⟨line, here⟩

/-- A line that begins and ends nothing leaves all as it is. -/
theorem pass (tracks : Tracks lines d) (same : (behind lines).next line = behind lines)
    (note : d'.note.map Note.position = d.note.map Note.position) (states : d'.states = d.states)
    (stack : d'.stack = d.stack) (transitions : d'.transitions = d.transitions) : Tracks (lines ++ [line]) d' := by
  refine tracks.extend ?_ ?_ ?_ ?_
  · rw [same, note, tracks.note]
  · rw [same, states, stack]
    exact tracks.stack
  · rw [states]
    exact fun s member => .inl member
  · rw [transitions]
    exact fun t member => .inl member

theorem declare (tracks : Tracks lines d) (outside : (behind lines).note = none) {s : Declaration}
    (unopened : opensNote line.text = false) (other : line.text ≠ ['}'])
    (begins : composite? line = if s.kind = .composite then some s.id else none) (parent : s.parent = d.parent?)
    (placed : s.position = line.position) : Tracks (lines ++ [line]) (d.declared s) := by
  have added : ∀ t ∈ d.states ++ [s], t ∈ d.states ∨ StandsIn (lines ++ [line]) t.parent line ∧
      line.position = t.position ∧ composite? line = if t.kind = .composite then some t.id else none := by
    intro t member
    rcases List.mem_append.mp member with old | new
    · exact .inl old
    · obtain rfl := List.mem_singleton.mp new
      rw [parent, tracks.parent?]
      exact .inr ⟨.last outside, placed.symm, begins⟩
  by_cases composite : s.kind = .composite
  · rw [if_pos composite] at begins
    have opened := next_of_begins outside unopened other begins
    refine tracks.extend ?_ ?_ added fun t member => .inl member
    · rw [opened]
      exact tracks.note
    · have pushed := tracks.stack.push (s.id, s.position)
      rw [opened]
      simpa [Draft.declared, composite, placed] using pushed
  · rw [if_neg composite] at begins
    have same := next_of_plain outside unopened other begins
    refine tracks.extend ?_ ?_ added fun t member => .inl member
    · rw [same]
      exact tracks.note
    · have kept := tracks.stack.append [(s.id, s.position)]
      rw [same]
      simpa [Draft.declared, composite] using kept

/-- Outside notes a line does to a draft what it does to the surroundings. -/
theorem outer_step (tracks : Tracks lines d) (closed : d.note = none) (step : OuterStep d line d') :
    Tracks (lines ++ [line]) d' := by
  have outside : (behind lines).note = none := by rw [← tracks.note, closed]; rfl
  cases step with
  | state s unmarked unopened begins parent placed =>
    exact tracks.declare outside unopened (ne_brace_of_unmarked unmarked) begins parent placed
  | close i stack top brace =>
    have popped := tracks.stack
    rw [top] at popped
    refine tracks.extend ?_ ?_ (fun s member => .inl member) fun t member => .inl member
    · rw [next_of_brace outside brace]
      exact tracks.note
    · rw [next_of_brace outside brace]
      exact popped.pop
  | remark n unmarked unopened plain placed =>
    exact tracks.pass (next_of_plain outside unopened (ne_brace_of_unmarked unmarked) plain) rfl rfl rfl rfl
  | note n unmarked opened placed =>
    refine tracks.extend ?_ ?_ (fun s member => .inl member) fun t member => .inl member
    · rw [next_of_opened outside opened]
      exact congrArg some placed
    · rw [next_of_opened outside opened]
      exact tracks.stack
  | transition t unmarked unopened plain parent placed =>
    have same := next_of_plain outside unopened (ne_brace_of_unmarked unmarked) plain
    refine tracks.extend ?_ ?_ (fun s member => .inl member) ?_
    · rw [same]
      exact tracks.note
    · rw [same]
      exact tracks.stack
    · intro u member
      rcases List.mem_append.mp member with old | new
      · exact .inl old
      · obtain rfl := List.mem_singleton.mp new
        rw [parent, tracks.parent?]
        exact .inr ⟨.last outside, placed.symm⟩
  | direction direction names unopened plain =>
    have other : line.text ≠ ['}'] := by
      intro brace
      rw [brace] at names
      exact absurd names (by decide)
    exact tracks.pass (next_of_plain outside unopened other plain) rfl rfl rfl rfl
  | separator inside hyphens => exact tracks.pass (next_of_separator hyphens outside) rfl rfl rfl rfl
  | description t unmarked unopened plain placed =>
    exact tracks.pass (next_of_plain outside unopened (ne_brace_of_unmarked unmarked) plain) rfl rfl rfl rfl

/-- In a note a line does nothing but end it. -/
theorem note_step (tracks : Tracks lines d) {n : Note} (opened : d.note = some n)
    (taken : readLine noteRules d line = .ok d') : Tracks (lines ++ [line]) d' := by
  have inside : (behind lines).note = some n.position := by rw [← tracks.note, opened]; rfl
  obtain rfl := Except.ok.inj ((readLine_noteRules d line).symm.trans taken)
  by_cases finish : line.text = "end note".toList
  · have ended : (behind lines).next line = { behind lines with note := none } := by
      rw [next, inside, Option.isSome_some, if_pos rfl, if_pos finish]
    rw [if_pos finish]
    refine tracks.extend ?_ ?_ (fun s member => .inl member) fun t member => .inl member
    · rw [ended]
      rfl
    · rw [ended]
      exact tracks.stack
  · have same : (behind lines).next line = behind lines := by
      rw [next, inside, Option.isSome_some, if_pos rfl, if_neg finish]
    rw [if_neg finish]
    refine tracks.pass same ?_ rfl rfl rfl
    rw [opened]
    rfl

theorem step (tracks : Tracks lines d) (taken : readLine (rules d) d line = .ok d') : Tracks (lines ++ [line]) d' := by
  unfold rules at taken
  cases opened : d.note with
  | none =>
    rw [opened] at taken
    exact tracks.outer_step opened (outerStep_of_read taken)
  | some n =>
    rw [opened] at taken
    exact tracks.note_step opened taken

theorem of_run (run : readLines rules {} lines = .ok d) : Tracks lines d :=
  readLines_holds (P := Tracks) Tracks.step blank run

end Tracks

/-! ### Refusals -/

theorem declare_forWording (d : Draft) (line : Line) (id : Text) (kind : StateKind) (description : Option Text) :
    ForWording (declare d line id kind description) := by
  unfold declare
  split
  · trivial
  · exact .inl rfl

theorem markedLine_forWording (d : Draft) (line : Line) : ForWording (markedLine d line) := by
  unfold markedLine
  split
  · trivial
  · exact declare_forWording ..

theorem stateParts_forWording (line : Line) (t : Text) : ForWording (stateParts line t) := by
  unfold stateParts
  split
  · split
    · exact .inl rfl
    · split
      · exact .inl rfl
      · trivial
  · trivial

theorem stateLine_forWording (d : Draft) (line : Line) : ForWording (stateLine d line) := by
  unfold stateLine
  split
  · trivial
  · dsimp only
    split
    · next failed => exact (stateParts_forWording line _).of_error failed
    · exact declare_forWording ..

theorem noteLine_forWording (d : Draft) (line : Line) : ForWording (noteLine d line) := by
  unfold noteLine
  split
  · trivial
  · split
    · exact .inl rfl
    · dsimp only
      split
      · split
        · trivial
        · trivial
      · exact .inl rfl

theorem endpoint_forWording (line : Line) (t : Text) : ForWording (endpoint line t) := by
  unfold endpoint
  split
  · trivial
  · split
    · trivial
    · exact .inl rfl

theorem transitionLine_forWording (d : Draft) (line : Line) : ForWording (transitionLine d line) := by
  unfold transitionLine
  dsimp only
  split
  · trivial
  · refine ForWording.map ?_ _
    refine (endpoint_forWording line _).bind ?_
    intro source
    refine (endpoint_forWording line _).bind ?_
    exact fun target => trivial

theorem directionLine_forWording (d : Draft) (line : Line) : ForWording (directionLine d line) := by
  unfold directionLine
  split
  · trivial
  · exact (ForWording.direction line _).map _

theorem descriptionLine_forWording (d : Draft) (line : Line) : ForWording (descriptionLine d line) := by
  unfold descriptionLine
  split
  · trivial
  · split
    · trivial
    · trivial

theorem nameLine_forWording (d : Draft) (line : Line) : ForWording (nameLine d line) := by
  unfold nameLine
  split
  · exact declare_forWording ..
  · trivial

theorem closeLine_refused (refused : closeLine d line = .error e) :
    e.code = .e201 ∧ d.stack = [] ∧ (line.text = ['}'] ∨ line.text = ['-', '-']) := by
  unfold closeLine at refused
  split at refused
  · next brace =>
    split at refused
    · next empty =>
      obtain rfl := Except.error.inj refused
      exact ⟨rfl, empty, .inl brace⟩
    · cases refused
  · cases refused

theorem separatorLine_refused (refused : separatorLine d line = .error e) :
    e.code = .e201 ∧ d.stack = [] ∧ (line.text = ['}'] ∨ line.text = ['-', '-']) := by
  unfold separatorLine at refused
  split at refused
  · next hyphens =>
    split at refused
    · next empty =>
      obtain rfl := Except.error.inj refused
      exact ⟨rfl, List.isEmpty_iff.mp empty, .inr hyphens⟩
    · cases refused
  · cases refused

/-- A line outside notes is refused for its wording, or for the composite states that are missing at it. -/
theorem outer_refused (refused : readLine outerRules d line = .error e) : (e.code = .e100 ∨ e.code = .e101) ∨
    e.code = .e201 ∧ d.stack = [] ∧ (line.text = ['}'] ∨ line.text = ['-', '-']) := by
  rcases refused_by refused with ⟨rule, member, refused⟩ | rfl
  · simp only [outerRules, List.mem_cons, List.not_mem_nil, or_false] at member
    rcases member with rfl | rfl | rfl | rfl | rfl | rfl | rfl | rfl | rfl
    · exact .inl ((markedLine_forWording d line).of_error refused)
    · exact .inl ((stateLine_forWording d line).of_error refused)
    · exact .inr (closeLine_refused refused)
    · exact .inl ((noteLine_forWording d line).of_error refused)
    · exact .inl ((transitionLine_forWording d line).of_error refused)
    · exact .inl ((directionLine_forWording d line).of_error refused)
    · exact .inr (separatorLine_refused refused)
    · exact .inl ((descriptionLine_forWording d line).of_error refused)
    · exact .inl ((nameLine_forWording d line).of_error refused)
  · exact .inl (.inl rfl)

theorem readLine_stray_brace (empty : d.stack = []) (brace : line.text = ['}']) :
    readLine outerRules d line = .error (line.fail .compositeCloseStray) := by
  have passed : ∀ rule ∈ outerRules.take 2, rule.read d line = pass := by
    obtain ⟨number, column, indent, raw, text⟩ := line
    obtain rfl : text = _ := brace
    exact List.forall_mem_cons.mpr ⟨rfl, List.forall_mem_singleton.mpr rfl⟩
  refine readLine_of_first (firstTaking_append_of_pass passed) ?_
  show closeLine d line = _
  rw [closeLine, if_pos brace, empty]
  rfl

theorem readLine_stray_separator (empty : d.stack = []) (hyphens : line.text = ['-', '-']) :
    readLine outerRules d line = .error (line.fail .separatorStray) := by
  have passed : ∀ rule ∈ outerRules.take 6, rule.read d line = pass := by
    obtain ⟨number, column, indent, raw, text⟩ := line
    obtain rfl : text = _ := hyphens
    simp only [outerRules, List.take_succ_cons, List.take_zero, List.forall_mem_cons]
    exact ⟨rfl, rfl, rfl, rfl, rfl, rfl, List.forall_mem_nil _⟩
  refine readLine_of_first (firstTaking_append_of_pass passed) ?_
  show separatorLine d line = _
  rw [separatorLine, if_pos hyphens, empty]
  rfl

theorem code_of_refused (refused : readLine (rules d) d line = .error e) :
    (e.code = .e100 ∨ e.code = .e101) ∨ e.code = .e201 := by
  unfold rules at refused
  split at refused
  · rw [readLine_noteRules] at refused
    cases refused
  · exact (outer_refused refused).imp_right And.left

/-- Stray lines are refused for the composite states, and no others. -/
theorem refused_iff_stray (tracks : Tracks lines d) :
    (∃ e, readLine (rules d) d line = .error e ∧ e.code = .e201) ↔ IsStray (behind lines) line := by
  have outside : d.note = none ∧ d.stack = [] ↔ behind lines = {} := by
    have empty := tracks.stack.eq_nil_iff
    rw [← Option.map_eq_none_iff (f := Note.position), tracks.note, empty]
    cases behind lines
    simp
  constructor
  · rintro ⟨e, refused, code⟩
    unfold rules at refused
    split at refused
    · rw [readLine_noteRules] at refused
      cases refused
    · next closed =>
      rcases outer_refused refused with (other | other) | ⟨-, empty, stray⟩
      · simp [code] at other
      · simp [code] at other
      · exact ⟨outside.mp ⟨by simpa using closed, empty⟩, stray⟩
  · rintro ⟨around, stray⟩
    obtain ⟨closed, empty⟩ := outside.mpr around
    have outer : rules d = outerRules := by rw [rules, closed]; rfl
    rw [outer]
    rcases stray with brace | hyphens
    · exact ⟨_, readLine_stray_brace empty brace, rfl⟩
    · exact ⟨_, readLine_stray_separator empty hyphens, rfl⟩

/-! ### Sources -/

/-- The source has the header of a state diagram. -/
def Headed (s : Source) : Prop :=
  ∃ header keyword, s.headerWith ["stateDiagram-v2", "stateDiagram"] = .ok (header, keyword, [])

/-- What is wrong behind all lines. -/
def Draft.unclosed? (d : Draft) : Option ParseError :=
  (d.note.map fun n => (Fault.noteUnclosed n.target).at n.position).or
    (d.innermost?.map fun s => (Fault.compositeUnclosed s.id).at s.position)

variable {s : Source}

theorem headed_of_ok {diagram : StateDiagram} (accepted : read s = .ok diagram) : Headed s := by
  obtain ⟨⟨header, keyword, rest⟩, found, made⟩ := exists_of_bind_ok accepted
  dsimp only at made
  split at made
  · next bare =>
    obtain rfl := List.isEmpty_iff.mp bare
    exact ⟨header, keyword, found⟩
  · cases made

theorem headed_of_unclosed (failed : read s = .error e) (code : e.code = .e200 ∨ e.code = .e201) : Headed s := by
  rcases bind_error failed with other | ⟨⟨header, keyword, rest⟩, found, made⟩
  · have unheaded := code_of_headerWith other
    rcases code with code | code
    all_goals simp [code] at unheaded
  · dsimp only at made
    split at made
    · next bare =>
      obtain rfl := List.isEmpty_iff.mp bare
      exact ⟨header, keyword, found⟩
    · obtain rfl := Except.error.inj made
      simp [Fault.code] at code

/-- With its header, a source is at fault in a line, or in what is open behind all lines. -/
theorem read_eq_error_iff (headed : Headed s) : read s = .error e ↔ readLines rules {} s.body = .error e ∨
    ∃ d, readLines rules {} s.body = .ok d ∧ d.unclosed? = some e := by
  obtain ⟨header, keyword, found⟩ := headed
  rw [read, found]
  cases readLines rules {} s.body with
  | error e' => simp [bind, Except.bind]
  | ok d =>
    cases note : d.note with
    | some n => simp [bind, Except.bind, note, Draft.unclosed?]
    | none =>
      cases innermost : d.innermost? with
      | none => simp [bind, Except.bind, note, innermost, Draft.unclosed?]
      | some composite => simp [bind, Except.bind, note, innermost, Draft.unclosed?]

theorem code_of_unclosed (unclosed : d.unclosed? = some e) : e.code = .e200 := by
  rcases Option.or_eq_some_iff.mp unclosed with note | ⟨-, composite⟩
  · obtain ⟨n, -, rfl⟩ := Option.map_eq_some_iff.mp note
    rfl
  · obtain ⟨s, -, rfl⟩ := Option.map_eq_some_iff.mp composite
    rfl

theorem faultsIn (s : Source) : FaultsIn (read s) (fun d => Headed s ∧ d = {}) rules s.body Draft.unclosed? where
  started_of_ok accepted := ⟨{}, headed_of_ok accepted, rfl⟩
  started_of_error failed code := ⟨{}, headed_of_unclosed failed code, rfl⟩
  error_iff := by
    rintro d e ⟨headed, rfl⟩
    exact read_eq_error_iff headed
  line_code refused := by
    rcases code_of_refused refused with (code | code) | code
    all_goals simp [code]
  line_place {d _ _} refused := ((Marks.readLine (rules_mark d)).of_error refused).1
  unclosed_code := code_of_unclosed

theorem exists_of_read {diagram : StateDiagram} (accepted : read s = .ok diagram) :
    ∃ d, readLines rules {} s.body = .ok d ∧ d.note = none ∧ d.innermost? = none ∧ diagram.states = d.states ∧
      diagram.transitions = d.transitions := by
  obtain ⟨⟨header, keyword, rest⟩, -, made⟩ := exists_of_bind_ok accepted
  dsimp only at made
  split at made
  · obtain ⟨d, run, made⟩ := exists_of_bind_ok made
    split at made
    · cases made
    · cases made
    · next closed none_open =>
      obtain rfl := Except.ok.inj made
      exact ⟨d, run, closed, none_open, rfl, rfl⟩
  · cases made

theorem Tracks.unclosed? (tracks : Tracks lines d) :
    d.unclosed?.map ParseError.position = (behind lines).unclosed? := by
  rw [Surroundings.unclosed?, ← tracks.note, ← tracks.innermost, Draft.unclosed?, Option.map_or]
  simp only [Option.map_map]
  rfl

/-- No line is stray where all lines can be read. -/
theorem not_stray_of_accepted (accepted : Accepted lines) {before after : List Line}
    (split : lines = before ++ line :: after) : ¬ IsStray (behind before) line := by
  intro stray
  obtain ⟨d, run⟩ := accepted
  rw [split] at run
  obtain ⟨between, next, ahead, taken⟩ := readLines_split_ok run
  obtain ⟨e, refused, -⟩ := (refused_iff_stray (.of_run ahead)).mpr stray
  rw [refused] at taken
  cases taken

theorem composed_of_read {diagram : StateDiagram} (accepted : read s = .ok diagram) : Composed s.body diagram := by
  obtain ⟨d, run, closed, none_open, states, transitions⟩ := exists_of_read accepted
  have tracks := Tracks.of_run run
  refine ⟨?_, ?_, ?_, ?_⟩
  · have note := tracks.note
    have composites := tracks.innermost
    rw [closed, Option.map_none] at note
    rw [none_open, Option.map_none] at composites
    rw [← List.head?_eq_none_iff.mp composites.symm, note]
  · exact fun before line after split => not_stray_of_accepted ⟨d, run⟩ split
  · rw [states]
    exact tracks.states
  · rw [transitions]
    exact tracks.transitions

/-- A diagram is read where all lines can be read and nothing is open behind them. -/
theorem read_ok_iff : (∃ diagram, read s = .ok diagram) ↔
    Headed s ∧ Accepted s.body ∧ (behind s.body).unclosed? = none := by
  rw [(faultsIn s).ok_iff]
  constructor
  · rintro ⟨_, ⟨headed, rfl⟩, d, run, closed⟩
    rw [← (Tracks.of_run run).unclosed?, closed]
    exact ⟨headed, ⟨d, run⟩, rfl⟩
  · rintro ⟨headed, ⟨d, run⟩, closed⟩
    rw [← (Tracks.of_run run).unclosed?, Option.map_eq_none_iff] at closed
    exact ⟨{}, ⟨headed, rfl⟩, d, run, closed⟩

/-- Reading stops for a stray line where all lines in front can be read. -/
theorem read_stray_iff : (∃ e, read s = .error e ∧ e.code = .e201 ∧ e.position = p) ↔
    Headed s ∧ ∃ before line after, s.body = before ++ line :: after ∧ Accepted before ∧
      IsStray (behind before) line ∧ line.position = p := by
  rw [(faultsIn s).stray_iff]
  constructor
  · rintro ⟨_, ⟨headed, rfl⟩, before, line, after, d, split, run, refused, position⟩
    exact ⟨headed, before, line, after, split, ⟨d, run⟩, (refused_iff_stray (.of_run run)).mp refused, position⟩
  · rintro ⟨headed, before, line, after, split, ⟨d, run⟩, stray, position⟩
    have refused := (refused_iff_stray (.of_run run)).mpr stray
    exact ⟨{}, ⟨headed, rfl⟩, before, line, after, d, split, run, refused, position⟩

/-- Reading stops behind all lines for the note that is open, or else for the innermost open composite state. -/
theorem read_unclosed_iff : (∃ e, read s = .error e ∧ e.code = .e200 ∧ e.position = p) ↔
    Headed s ∧ Accepted s.body ∧ (behind s.body).unclosed? = some p := by
  rw [(faultsIn s).unclosed_iff]
  constructor
  · rintro ⟨_, ⟨headed, rfl⟩, d, run, open_at⟩
    rw [(Tracks.of_run run).unclosed?] at open_at
    exact ⟨headed, ⟨d, run⟩, open_at⟩
  · rintro ⟨headed, ⟨d, run⟩, open_at⟩
    rw [← (Tracks.of_run run).unclosed?] at open_at
    exact ⟨{}, ⟨headed, rfl⟩, d, run, open_at⟩

/-- A diagram is read if nothing is open behind all lines, and its composite states are those of its lines. Reading
stops at the first line that closes or divides a composite state where none is open, or behind all lines for the note
or else the innermost composite state that is still open. -/
theorem read_composites (s : Source) :
    ((∃ diagram, read s = .ok diagram) ↔ Headed s ∧ Accepted s.body ∧ (behind s.body).unclosed? = none) ∧
    (∀ diagram, read s = .ok diagram → Composed s.body diagram) ∧
    (∀ p, (∃ e, read s = .error e ∧ e.code = .e201 ∧ e.position = p) ↔
      Headed s ∧ ∃ before line after, s.body = before ++ line :: after ∧ Accepted before ∧
        IsStray (behind before) line ∧ line.position = p) ∧
    (∀ p, (∃ e, read s = .error e ∧ e.code = .e200 ∧ e.position = p) ↔
      Headed s ∧ Accepted s.body ∧ (behind s.body).unclosed? = some p) :=
  ⟨read_ok_iff, fun _ accepted => composed_of_read accepted, fun _ => read_stray_iff, fun _ => read_unclosed_iff⟩

/-- Composite states in one another and behind one another, with a brace in a note. -/
def composedStates : Text :=
  "stateDiagram-v2\nstate A \x7b\n[*] --> b\nnote right of b\n\x7d\nend note\n--\nstate \"C\" as c \x7b\nb --> d\n\x7d\n\x7d\nA --> [*]".toList

/-- A brace in a note and a brace too many. -/
def strayBrace : Text := "stateDiagram\nnote left of a\n\x7d\nend note\n\x7d".toList

/-- A note in a composite state, and neither is closed. -/
def unclosedNote : Text := "stateDiagram\nstate A \x7b\nnote left of A\n\x7d".toList

theorem read_composites_nested :
    (∃ diagram, read (Source.ofText composedStates 0) = .ok diagram ∧
      Composed (Source.ofText composedStates 0).body diagram) ∧
    (∃ e, read (Source.ofText strayBrace 0) = .error e ∧ e.code = .e201 ∧ e.position = ⟨5, 1⟩) ∧
    ∃ e, read (Source.ofText unclosedNote 0) = .error e ∧ e.code = .e200 ∧ e.position = ⟨3, 1⟩ := by
  refine ⟨?_, ?_, ?_⟩
  · obtain ⟨diagram, accepted⟩ := exists_of_isOk (x := read (Source.ofText composedStates 0)) (by decide)
    exact ⟨diagram, accepted, (read_composites (Source.ofText composedStates 0)).2.1 diagram accepted⟩
  · have headed : Headed (Source.ofText strayBrace 0) := ⟨_, _, rfl⟩
    have accepted := exists_of_isOk (x := readLines rules {} ((Source.ofText strayBrace 0).body.take 3)) (by decide)
    have stray : IsStray (behind ((Source.ofText strayBrace 0).body.take 3)) (.ofRaw 5 ['}']) := ⟨by decide, .inl rfl⟩
    exact ((read_composites (Source.ofText strayBrace 0)).2.2.1 ⟨5, 1⟩).mpr
      ⟨headed, _, _, [], by decide, accepted, stray, rfl⟩
  · have headed : Headed (Source.ofText unclosedNote 0) := ⟨_, _, rfl⟩
    have accepted := exists_of_isOk (x := readLines rules {} (Source.ofText unclosedNote 0).body) (by decide)
    exact ((read_composites (Source.ofText unclosedNote 0)).2.2.2 ⟨3, 1⟩).mpr ⟨headed, accepted, by decide⟩

end DiagramLint.StateDiagram
