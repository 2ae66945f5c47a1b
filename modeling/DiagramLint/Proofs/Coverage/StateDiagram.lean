import DiagramLint.Proofs.Coverage.Basic
import DiagramLint.Proofs.LineRule
import DiagramLint.Proofs.Results
import DiagramLint.StateDiagram.Reader

/-!
The lines of state diagrams: each is a state, a transition, a description or a note, but for
directions, closing braces, separators, and the lines over which the text of a note goes on.
-/
namespace DiagramLint.StateDiagram

open Text

/-- What a diagram records: states, transitions, descriptions and notes. -/
def account (diagram : StateDiagram) : Account :=
  ⟨[diagram.states.map Declaration.position, diagram.transitions.map Transition.position,
    diagram.descriptions.map Description.position, diagram.notes.map Note.position], []⟩

/-- The line begins a note without text. -/
def opensNote (t : Text) : Bool :=
  match (afterKeyword? "note" t).bind side? with
  | some (_, rest) => (headAndLabel rest).2.isNone
  | none => false

/-- Outside notes these lines are passed over. -/
def isMark (t : Text) : Bool := namesDirection t || t = ['}'] || t = ['-', '-']

/-- A note without text goes on up to its end, over lines that are all passed over. -/
def plan : Plan Bool where
  next inside t := if inside then t ≠ "end note".toList else opensNote t
  passes inside t := if inside then true else isMark t

/-- What a draft records. The note whose text is being read comes last. -/
def Draft.account (d : Draft) : Account :=
  ⟨[d.states.map Declaration.position, d.transitions.map Transition.position,
    d.descriptions.map Description.position, (d.notes ++ d.note.toList).map Note.position], []⟩

/-! ### Lines outside notes -/

theorem opensNote_of_none {t : Text} (other : afterKeyword? "note" t = none) : opensNote t = false := by
  rw [opensNote, other]
  rfl

/-- A line that begins with another keyword is no mark. -/
theorem not_isMark {a t : Text} (first : a <+: t)
    (apart : ¬ a <+: "direction".toList ∧ ¬ "direction".toList <+: a) (no_brace : ¬ a <+: ['}'])
    (no_hyphens : ¬ a <+: ['-', '-']) : isMark t = false := by
  have other : t ≠ ['}'] := by
    rintro rfl
    exact no_brace first
  have no_separator : t ≠ ['-', '-'] := by
    rintro rfl
    exact no_hyphens first
  rw [isMark, not_namesDirection first apart, decide_eq_false other, decide_eq_false no_separator]
  rfl

/-- The id of the composite state that a line begins. -/
def composite? (line : Line) : Option Text :=
  ((afterKeyword? "state" line.text).bind (dropEnd? ['{'])).bind fun before =>
    (stateParts line (trimEnd before)).toOption.map Prod.fst

/-- The draft with one more state; a composite state begins. -/
def Draft.declared (d : Draft) (s : Declaration) : Draft :=
  { d with
    states := d.states ++ [s]
    stack := if s.kind = .composite then d.states.length :: d.stack else d.stack }

/-- What the lines outside notes do to a draft. -/
inductive OuterStep (d : Draft) (line : Line) : Draft → Prop where
  | state (s : Declaration) (unmarked : isMark line.text = false) (unopened : opensNote line.text = false)
      (begins : composite? line = if s.kind = .composite then some s.id else none) (parent : s.parent = d.parent?)
      (placed : s.position = line.position) : OuterStep d line (d.declared s)
  | close (i : Nat) (stack : List Nat) (top : d.stack = i :: stack) (brace : line.text = ['}']) :
      OuterStep d line { d with stack := stack }
  | remark (n : Note) (unmarked : isMark line.text = false) (unopened : opensNote line.text = false)
      (plain : composite? line = none) (placed : n.position = line.position) :
      OuterStep d line { d with notes := d.notes ++ [n] }
  | note (n : Note) (unmarked : isMark line.text = false) (opened : opensNote line.text = true)
      (placed : n.position = line.position) : OuterStep d line { d with note := some n }
  | transition (t : Transition) (unmarked : isMark line.text = false) (unopened : opensNote line.text = false)
      (plain : composite? line = none) (parent : t.parent = d.parent?) (placed : t.position = line.position) :
      OuterStep d line { d with transitions := d.transitions ++ [t] }
  | direction (direction : Direction) (names : namesDirection line.text = true)
      (unopened : opensNote line.text = false) (plain : composite? line = none) :
      OuterStep d line { d with direction := some direction }
  | separator (inside : d.stack ≠ []) (hyphens : line.text = ['-', '-']) : OuterStep d line d
  | description (t : Description) (unmarked : isMark line.text = false) (unopened : opensNote line.text = false)
      (plain : composite? line = none) (placed : t.position = line.position) :
      OuterStep d line { d with descriptions := d.descriptions ++ [t] }

variable {d d' : Draft} {line : Line}

theorem composite?_of_none (other : afterKeyword? "state" line.text = none) : composite? line = none := by
  rw [composite?, other]
  rfl

/-- A text with a mark behind it has no brace there. -/
theorem dropEnd?_of_markedState? {t id : Text} {kind : StateKind} (marked : markedState? t = some (id, kind)) :
    dropEnd? ['{'] t = none ∧ kind ≠ .composite := by
  obtain ⟨sort, member, found⟩ := List.exists_of_findSome?_eq_some marked
  obtain ⟨mark, written, found⟩ := Option.bind_eq_some_iff.mp found
  obtain ⟨before, ends, same⟩ := Option.map_eq_some_iff.mp found
  obtain ⟨rfl, rfl⟩ := Prod.mk.inj same
  have whole := append_of_dropEnd? ends
  have finish : mark.toList.getLast? = some '>' ∧ sort ≠ .composite := by
    cases sort with
    | simple => cases written
    | composite => cases written
    | fork | join | choice =>
      obtain rfl := Option.some.inj written
      decide
  refine ⟨?_, finish.2⟩
  by_contra braced
  obtain ⟨others, braced⟩ := Option.ne_none_iff_exists'.mp braced
  have last := congrArg List.getLast? (whole.symm.trans (append_of_dropEnd? braced))
  simp [List.getLast?_append, finish.1] at last

theorem declare_taken {id : Text} {kind : StateKind} {description : Option Text}
    (taken : declare d line id kind description = .ok (some d')) :
    ∃ s : Declaration, (s.id = id ∧ s.kind = kind) ∧ s.parent = d.parent? ∧ s.position = line.position ∧
      d' = d.declared s := by
  unfold declare at taken
  split at taken
  · exact ⟨⟨id, kind, description, d.parent?, line.position⟩, ⟨rfl, rfl⟩, rfl, rfl, eq_of_take taken⟩
  · cases taken

theorem declare_not_passed {id : Text} {kind : StateKind} {description : Option Text} :
    declare d line id kind description ≠ .ok none := by
  unfold declare
  split
  · simp [take]
  · simp

/-- A line that declares a state behind the keyword is neither a mark nor a note. -/
theorem keyword_of_state {t rest : Text} (after : afterKeyword? "state" t = some rest) :
    isMark t = false ∧ opensNote t = false := by
  have first := prefix_of_afterKeyword? after
  exact ⟨not_isMark first (by decide) (by decide) (by decide),
    opensNote_of_none (afterKeyword?_eq_none first (by decide))⟩

theorem markedLine_taken (taken : markedLine d line = .ok (some d')) : OuterStep d line d' := by
  unfold markedLine at taken
  split at taken
  · cases taken
  · next found =>
    obtain ⟨rest, after, marked⟩ := Option.bind_eq_some_iff.mp found
    obtain ⟨unmarked, unopened⟩ := keyword_of_state after
    obtain ⟨unbraced, other⟩ := dropEnd?_of_markedState? marked
    obtain ⟨s, ⟨rfl, rfl⟩, parent, placed, rfl⟩ := declare_taken taken
    refine .state s unmarked unopened ?_ parent placed
    rw [if_neg other, composite?, after, Option.bind_some, unbraced]
    rfl

theorem stateLine_taken (taken : stateLine d line = .ok (some d')) : OuterStep d line d' := by
  unfold stateLine at taken
  split at taken
  · cases taken
  · next rest after =>
    obtain ⟨unmarked, unopened⟩ := keyword_of_state after
    cases braced : dropEnd? ['{'] rest with
    | none =>
      simp only [braced] at taken
      split at taken
      · cases taken
      · obtain ⟨s, ⟨rfl, simple⟩, parent, placed, rfl⟩ := declare_taken taken
        refine .state s unmarked unopened ?_ parent placed
        rw [if_neg (by simp [simple]), composite?, after, Option.bind_some, braced]
        rfl
    | some before =>
      simp only [braced] at taken
      split at taken
      · cases taken
      · next parts =>
        obtain ⟨s, ⟨rfl, composite⟩, parent, placed, rfl⟩ := declare_taken taken
        refine .state s unmarked unopened ?_ parent placed
        rw [if_pos composite, composite?, after, Option.bind_some, braced, Option.bind_some, parts]
        rfl

theorem stateLine_passed (passed : stateLine d line = .ok none) : afterKeyword? "state" line.text = none := by
  unfold stateLine at passed
  split at passed
  · next other => exact other
  · dsimp only at passed
    split at passed
    · cases passed
    · exact absurd passed declare_not_passed

theorem closeLine_taken (taken : closeLine d line = .ok (some d')) : OuterStep d line d' := by
  unfold closeLine at taken
  split at taken
  · next brace =>
    split at taken
    · cases taken
    · next i stack top =>
      obtain rfl := eq_of_take taken
      exact .close i stack top brace
  · cases taken

theorem closeLine_passed (passed : closeLine d line = .ok none) : line.text ≠ ['}'] := by
  unfold closeLine at passed
  split at passed
  · split at passed
    · cases passed
    · cases passed
  · next other => exact other

/-- A note stays open if its line has no text for it. -/
theorem noteLine_taken (plain : composite? line = none) (taken : noteLine d line = .ok (some d')) :
    OuterStep d line d' := by
  unfold noteLine at taken
  split at taken
  · cases taken
  · next after =>
    have unmarked := not_isMark (prefix_of_afterKeyword? after) (by decide) (by decide) (by decide)
    split at taken
    · cases taken
    · next side rest sided =>
      have opened : opensNote line.text = (headAndLabel rest).2.isNone := by
        rw [opensNote, after]
        show (match side? _ with | some (_, rest) => _ | none => _) = _
        rw [sided]
      dsimp only at taken
      split at taken
      · split at taken
        · next text labelled =>
          rw [labelled] at opened
          obtain rfl := eq_of_take taken
          exact .remark _ unmarked opened plain rfl
        · next unlabelled =>
          rw [unlabelled] at opened
          obtain rfl := eq_of_take taken
          exact .note _ unmarked opened rfl
      · cases taken

theorem noteLine_passed (passed : noteLine d line = .ok none) : opensNote line.text = false := by
  unfold noteLine at passed
  split at passed
  · next other => exact opensNote_of_none other
  · split at passed
    · cases passed
    · dsimp only at passed
      split at passed
      · split at passed
        · cases passed
        · cases passed
      · cases passed

theorem transition_made {before after : Text} {label : Option Text} {t : Transition}
    (made : transition d line before after label = .ok t) : t.parent = d.parent? ∧ t.position = line.position := by
  obtain ⟨source, -, made⟩ := exists_of_bind_ok made
  obtain ⟨target, -, made⟩ := exists_of_bind_ok made
  obtain rfl := Except.ok.inj made
  exact ⟨rfl, rfl⟩

/-- An arrow holds a character that no mark has. -/
theorem transitionLine_taken (unopened : opensNote line.text = false) (plain : composite? line = none)
    (taken : transitionLine d line = .ok (some d')) : OuterStep d line d' := by
  unfold transitionLine at taken
  dsimp only at taken
  split at taken
  · cases taken
  · next before after arrow =>
    obtain ⟨t, made, same⟩ := exists_of_map_ok taken
    obtain rfl := Option.some.inj same
    obtain ⟨parent, placed⟩ := transition_made made
    have point : '>' ∈ line.text := by
      refine mem_of_mem_head _ ?_
      rw [← append_of_cut? arrow]
      simp
    have undirected : namesDirection line.text = false := by
      by_contra names
      have names : namesDirection line.text = true := by simpa using names
      exact not_mem_of_namesDirection names (by decide) (by decide) point
    have unmarked : isMark line.text = false := by
      rw [isMark, undirected, Bool.false_or, Bool.or_eq_false_iff]
      constructor
      all_goals
        refine decide_eq_false ?_
        intro same
        rw [same] at point
        exact absurd point (by decide)
    exact .transition t unmarked unopened plain parent placed

theorem directionLine_taken (unopened : opensNote line.text = false) (plain : composite? line = none)
    (taken : directionLine d line = .ok (some d')) : OuterStep d line d' := by
  unfold directionLine at taken
  split at taken
  · cases taken
  · next rest after =>
    obtain ⟨names, direction, rfl⟩ := set_direction_taken after taken
    exact .direction direction names unopened plain

theorem directionLine_passed (passed : directionLine d line = .ok none) : namesDirection line.text = false := by
  unfold directionLine at passed
  split at passed
  · next other => exact not_namesDirection_of_none other
  · obtain ⟨direction, -, same⟩ := exists_of_map_ok passed
    cases same

theorem separatorLine_taken (taken : separatorLine d line = .ok (some d')) : OuterStep d line d' := by
  unfold separatorLine at taken
  split at taken
  · next hyphens =>
    split at taken
    · cases taken
    · next inside =>
      obtain rfl := eq_of_take taken
      exact .separator (by simpa using inside) hyphens
  · cases taken

theorem separatorLine_passed (passed : separatorLine d line = .ok none) : line.text ≠ ['-', '-'] := by
  unfold separatorLine at passed
  split at passed
  · split at passed
    · cases passed
    · cases passed
  · next other => exact other

theorem descriptionLine_taken (unmarked : isMark line.text = false) (unopened : opensNote line.text = false)
    (plain : composite? line = none) (taken : descriptionLine d line = .ok (some d')) : OuterStep d line d' := by
  unfold descriptionLine at taken
  split at taken
  · cases taken
  · split at taken
    · obtain rfl := eq_of_take taken
      exact .description _ unmarked unopened plain rfl
    · cases taken

theorem nameLine_taken (unmarked : isMark line.text = false) (unopened : opensNote line.text = false)
    (plain : composite? line = none) (taken : nameLine d line = .ok (some d')) : OuterStep d line d' := by
  unfold nameLine at taken
  split at taken
  · obtain ⟨s, ⟨-, simple⟩, parent, placed, rfl⟩ := declare_taken taken
    exact .state s unmarked unopened (by simp [plain, simple]) parent placed
  · cases taken

theorem outerStep_of_read (taken : readLine outerRules d line = .ok d') : OuterStep d line d' := by
  rw [readLine_eq_ok_iff] at taken
  simp only [outerRules, firstTaking_cons, not_taken_by_none, and_false, or_false] at taken
  rcases taken with marked | ⟨_, declared | ⟨undeclared, closing | ⟨unclosed, others⟩⟩⟩
  · exact markedLine_taken marked
  · exact stateLine_taken declared
  · exact closeLine_taken closing
  · have plain := composite?_of_none (stateLine_passed undeclared)
    rcases others with noted | ⟨unnoted, moved | ⟨_, directed | ⟨undirected, others⟩⟩⟩
    · exact noteLine_taken plain noted
    · exact transitionLine_taken (noteLine_passed unnoted) plain moved
    · exact directionLine_taken (noteLine_passed unnoted) plain directed
    · rcases others with separated | ⟨unseparated, others⟩
      · exact separatorLine_taken separated
      · have unmarked : isMark line.text = false := by
          rw [isMark, directionLine_passed undirected, decide_eq_false (closeLine_passed unclosed),
            decide_eq_false (separatorLine_passed unseparated)]
          rfl
        rcases others with described | ⟨_, named⟩
        · exact descriptionLine_taken unmarked (noteLine_passed unnoted) plain described
        · exact nameLine_taken unmarked (noteLine_passed unnoted) plain named

/-- Outside notes every line that is taken makes an entry, but for marks. -/
theorem outer_step (closed : d.note = none) (taken : readLine outerRules d line = .ok d') :
    d'.note.isSome = opensNote line.text ∧ d.account.Step line.position (isMark line.text) d'.account := by
  have still_closed : d.note.isSome = false := by rw [closed]; rfl
  cases outerStep_of_read taken with
  | state s unmarked unopened begins parent placed =>
    rw [unmarked, unopened]
    exact ⟨still_closed, .once (.entry placed (.refl _))⟩
  | close i stack top brace =>
    rw [brace]
    exact ⟨still_closed, .passed rfl⟩
  | remark n unmarked unopened plain placed =>
    rw [unmarked, unopened]
    refine ⟨still_closed, .once (.keep (.keep (.keep ?_)))⟩
    show Adds _ 1 [(d.notes ++ d.note.toList).map _] [(d.notes ++ [n] ++ d.note.toList).map _]
    rw [closed]
    simpa using Adds.entry placed .nil
  | note n unmarked opened placed =>
    rw [unmarked, opened]
    refine ⟨rfl, .once (.keep (.keep (.keep ?_)))⟩
    show Adds _ 1 [(d.notes ++ d.note.toList).map _] [(d.notes ++ [n]).map _]
    rw [closed]
    simpa using Adds.entry placed .nil
  | transition t unmarked unopened plain parent placed =>
    rw [unmarked, unopened]
    exact ⟨still_closed, .once (.keep (.entry placed (.refl _)))⟩
  | direction direction names unopened plain =>
    rw [isMark, names, unopened]
    exact ⟨still_closed, .passed rfl⟩
  | separator inside hyphens =>
    rw [hyphens]
    exact ⟨still_closed, .passed rfl⟩
  | description t unmarked unopened plain placed =>
    rw [unmarked, unopened]
    exact ⟨still_closed, .once (.keep (.keep (.entry placed (.refl _))))⟩

/-! ### Lines of notes -/

/-- Inside notes every line is taken. -/
theorem readLine_noteRules (d : Draft) (line : Line) : readLine noteRules d line =
    .ok (if line.text = "end note".toList then { d with notes := d.notes ++ d.note.toList, note := none }
      else { d with note := d.note.map fun n => n.addLine line.text }) := by
  by_cases finish : line.text = "end note".toList
  · rw [if_pos finish]
    exact readLine_of_first rfl (if_pos finish)
  · rw [if_neg finish]
    exact readLine_of_first (firstTaking_cons_of_pass (if_neg finish)) rfl

/-- Inside notes no line makes an entry. -/
theorem note_step {n : Note} (opened : d.note = some n) (taken : readLine noteRules d line = .ok d') :
    d'.note.isSome = decide (line.text ≠ "end note".toList) ∧ d.account.Step line.position true d'.account := by
  obtain rfl := Except.ok.inj ((readLine_noteRules d line).symm.trans taken)
  by_cases finish : line.text = "end note".toList
  · rw [if_pos finish, decide_eq_false (not_not_intro finish)]
    exact ⟨rfl, .passed (by simp [Draft.account])⟩
  · rw [if_neg finish, decide_eq_true finish]
    exact ⟨by simp [opened], .passed (by simp [Draft.account, opened, Note.addLine])⟩

theorem step (taken : readLine (rules d) d line = .ok d') :
    d'.note.isSome = plan.next d.note.isSome line.text ∧
      d.account.Step line.position (plan.passes d.note.isSome line.text) d'.account := by
  unfold rules at taken
  cases opened : d.note with
  | none =>
    rw [opened] at taken
    exact outer_step opened taken
  | some n =>
    rw [opened] at taken
    exact note_step opened taken

/-- Every line of a state diagram is a state, a transition, a description or a note, but for directions,
closing braces, separators and the text of notes. -/
theorem read_covers {s : Source} {diagram : StateDiagram} (read : StateDiagram.read s = .ok diagram) :
    diagram.account.Covers ((plan.recorded false s.body).map Line.position) := by
  obtain ⟨⟨header, keyword, rest⟩, -, read⟩ := exists_of_bind_ok read
  dsimp only at read
  split at read
  · obtain ⟨d, run, read⟩ := exists_of_bind_ok read
    have blank : Account.Covers (Draft.account {}) [] := ⟨.refl _, by simp [Draft.account]⟩
    have covers := readLines_covers plan (fun d => d.note.isSome) Draft.account step run blank
    split at read
    · exact nomatch read
    · exact nomatch read
    · next closed _ =>
      obtain rfl := Except.ok.inj read
      have same : d.account = ⟨[d.states.map Declaration.position, d.transitions.map Transition.position,
          d.descriptions.map Description.position, d.notes.map Note.position], []⟩ := by
        simp [Draft.account, closed]
      rw [same] at covers
      exact covers
  · exact nomatch read

end DiagramLint.StateDiagram
