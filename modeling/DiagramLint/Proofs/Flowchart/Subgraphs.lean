import DiagramLint.Proofs.OpenEntries
import DiagramLint.Proofs.Reading.Flowchart
import Mathlib.Data.List.Induction

/-!
Subgraphs. In front of a statement of a flowchart subgraphs are open, one in the other: a beginning opens one, and
an end closes the innermost (`openSubgraphs`). The subgraph around another one is the innermost that is open at
its beginning, and a direction is one of the innermost subgraph that is open at it, or of the whole chart. So every
subgraph is told by the statements alone (`described`). Reading stops at an end where no subgraph is open, or behind
all statements at the innermost open one (`read_subgraphs`).
-/
namespace DiagramLint.Flowchart

open Text

/-- The beginning of a subgraph: its place among the statements, and what it says. -/
structure Opening where
  index : Nat
  id : Text
  title : Option Text
  position : Position
  deriving DecidableEq, Repr

/-- The subgraph that a statement begins. -/
def opening? (entry : Line × Nat) : Option Opening :=
  match mark? entry.1.text with
  | some (.begin id title) => some ⟨entry.2, id, title, entry.1.position⟩
  | _ => none

/-- The direction that a statement sets. -/
def turn? (statement : Line) : Option Direction :=
  match mark? statement.text with
  | some (.turn direction) => some direction
  | _ => none

/-- The open subgraphs behind a statement, the innermost first. -/
def openStep (opens : List Opening) (entry : Line × Nat) : List Opening :=
  if entry.1.text = "end".toList then opens.tail else (opening? entry).toList ++ opens

/-- The open subgraphs behind some statements, the innermost first. -/
def openSubgraphs (statements : List Line) : List Opening := statements.zipIdx.foldl openStep []

/-- The directions that are set where a subgraph is the innermost open one, or where none is open. -/
def turnsIn (place : Option Opening) (statements : List Line) : List Direction :=
  statements.zipIdx.filterMap fun (statement, i) =>
    if (openSubgraphs (statements.take i)).head? = place then turn? statement else none

/-- All subgraphs that statements begin. -/
def openings (statements : List Line) : List Opening := statements.zipIdx.filterMap opening?

/-- The subgraph as the statements tell it: the one around it is the innermost at its beginning, and of the
directions that are set in it the last one counts. -/
def described (statements : List Line) (o : Opening) : Subgraph where
  id := o.id
  title := o.title
  parent := (openSubgraphs (statements.take o.index)).head?.map Opening.id
  direction := (turnsIn (some o) statements).getLast?
  position := o.position

/-- The statement ends a subgraph where none is open. -/
def IsStray (opens : List Opening) (statement : Line) : Prop := opens = [] ∧ statement.text = "end".toList

/-- The subgraphs of a chart are those of its statements: all of them are closed, no end is stray, and each one is
as the statements tell it. A direction outside all subgraphs counts for the chart more than one in the header. -/
structure Nested (given : Option Direction) (statements : List Line) (chart : Flowchart) : Prop where
  closed : openSubgraphs statements = []
  sound : ∀ before statement after, statements = before ++ statement :: after →
    ¬ IsStray (openSubgraphs before) statement
  subgraphs : chart.subgraphs = (openings statements).map (described statements)
  direction : chart.direction = (turnsIn none statements).getLast?.or given

/-- The source has the header of a flowchart, with this direction if with any. -/
def Headed (s : Source) (given : Option Direction) : Prop :=
  ∃ header keyword rest, s.headerWith ["flowchart", "graph"] = .ok (header, keyword, rest) ∧
    headerDirection header keyword rest = .ok given

/-- The statements can be read behind a header with this direction, if with any. -/
def Accepted (given : Option Direction) (statements : List Line) : Prop :=
  ∃ d, readLines (fun _ => rules) { direction := given } statements = .ok d

variable {d d' : Draft} {statements : List Line} {statement : Line} {given : Option Direction} {o : Opening}
  {p : Position} {e : ParseError}

/-! ### One more statement -/

theorem openSubgraphs_concat (statements : List Line) (statement : Line) :
    openSubgraphs (statements ++ [statement]) = openStep (openSubgraphs statements) (statement, statements.length) := by
  simp [openSubgraphs, List.zipIdx_append]

theorem openings_concat (statements : List Line) (statement : Line) :
    openings (statements ++ [statement]) = openings statements ++ (opening? (statement, statements.length)).toList := by
  rw [openings, List.zipIdx_append, List.filterMap_append]
  simp only [List.zipIdx_singleton, Nat.zero_add, List.filterMap_cons, List.filterMap_nil]
  cases opening? (statement, statements.length) <;> rfl

theorem openings_of_unbegun (unbegun : opening? (statement, statements.length) = none) :
    openings (statements ++ [statement]) = openings statements := by
  rw [openings_concat, unbegun]
  exact List.append_nil _

theorem turnsIn_concat (place : Option Opening) (statements : List Line) (statement : Line) :
    turnsIn place (statements ++ [statement]) = turnsIn place statements ++
      (if (openSubgraphs statements).head? = place then turn? statement else none).toList := by
  -- The statements in front of an earlier one are the same with one more behind all.
  have earlier : (statements.zipIdx.filterMap fun (s, i) =>
      if (openSubgraphs ((statements ++ [statement]).take i)).head? = place then turn? s else none) =
        turnsIn place statements := by
    refine List.filterMap_congr ?_
    rintro ⟨s, i⟩ member
    have inside := List.snd_lt_of_mem_zipIdx member
    simp only at inside
    simp only [List.take_append_of_le_length inside.le]
  rw [turnsIn, List.zipIdx_append, List.filterMap_append, earlier]
  congr 1
  simp only [List.zipIdx_singleton, Nat.zero_add, List.filterMap_cons, List.filterMap_nil, List.take_left]
  split
  · next found => rw [found]; rfl
  · next found => rw [found]; rfl

theorem getLast?_turnsIn_concat (place : Option Opening) (statements : List Line) (statement : Line) :
    (turnsIn place (statements ++ [statement])).getLast? =
      (if (openSubgraphs statements).head? = place then turn? statement else none).or
        (turnsIn place statements).getLast? := by
  rw [turnsIn_concat, List.getLast?_append]
  cases (if (openSubgraphs statements).head? = place then turn? statement else none) <;> rfl

theorem index_of_opening? {entry : Line × Nat} (found : opening? entry = some o) : o.index = entry.2 := by
  unfold opening? at found
  split at found
  · obtain rfl := Option.some.inj found
    rfl
  · cases found

theorem index_lt_of_mem_openings (member : o ∈ openings statements) : o.index < statements.length := by
  obtain ⟨entry, inside, found⟩ := List.mem_filterMap.mp member
  rw [index_of_opening? found]
  simpa using List.snd_lt_of_mem_zipIdx inside

theorem index_lt_of_open (member : o ∈ openSubgraphs statements) : o.index < statements.length := by
  induction statements using List.reverseRecOn with
  | nil => cases member
  | append_singleton statements statement ih =>
    rw [List.length_append, List.length_singleton]
    rw [openSubgraphs_concat, openStep] at member
    split at member
    · exact Nat.lt_succ_of_lt (ih (List.mem_of_mem_tail member))
    · rcases List.mem_append.mp member with new | old
      · rw [index_of_opening? (Option.mem_toList.mp new)]
        exact Nat.lt_succ_self _
      · exact Nat.lt_succ_of_lt (ih old)

theorem nodup_openings (statements : List Line) : (openings statements).Nodup := by
  induction statements using List.reverseRecOn with
  | nil => exact List.nodup_nil
  | append_singleton statements statement ih =>
    rw [openings_concat]
    cases found : opening? (statement, statements.length) with
    | none => simpa using ih
    | some o =>
      refine List.nodup_append.mpr ⟨ih, List.nodup_singleton o, ?_⟩
      rintro other member _ new rfl
      obtain rfl := List.mem_singleton.mp new
      have before := index_lt_of_mem_openings member
      rw [index_of_opening? found] at before
      exact Nat.lt_irrefl _ before

/-- No direction is set in a subgraph before it begins. -/
theorem turnsIn_eq_nil (later : statements.length ≤ o.index) : turnsIn (some o) statements = [] := by
  refine List.filterMap_eq_nil_iff.mpr ?_
  rintro ⟨statement, i⟩ member
  refine if_neg ?_
  intro innermost
  have inside := index_lt_of_open (List.mem_of_head? innermost)
  rw [List.length_take] at inside
  omega

/-- What is told of a subgraph changes only with a direction that is set in it. -/
theorem described_concat (member : o ∈ openings statements) (statement : Line) :
    described (statements ++ [statement]) o =
      if (openSubgraphs statements).head? = some o ∧ (turn? statement).isSome then
        { described statements o with direction := turn? statement }
      else described statements o := by
  have inside := index_lt_of_mem_openings member
  unfold described
  rw [getLast?_turnsIn_concat, List.take_append_of_le_length inside.le]
  by_cases innermost : (openSubgraphs statements).head? = some o
  · cases turn? statement with
    | none => simp [innermost]
    | some direction => simp [innermost]
  · simp [innermost]

theorem described_of_unturned (member : o ∈ openings statements) (unturned : turn? statement = none) :
    described (statements ++ [statement]) o = described statements o := by
  rw [described_concat member, unturned]
  exact if_neg (by simp)

theorem opening?_of_other {entry : Line × Nat} {m : Option Mark} (marked : mark? entry.1.text = m)
    (other : ∀ id title, m ≠ some (.begin id title)) : opening? entry = none := by
  unfold opening?
  split
  · next found => exact absurd (marked.symm.trans found) (other _ _)
  · rfl

theorem turn?_of_other {m : Option Mark} (marked : mark? statement.text = m)
    (other : ∀ direction, m ≠ some (.turn direction)) : turn? statement = none := by
  unfold turn?
  split
  · next found => exact absurd (marked.symm.trans found) (other _)
  · rfl

theorem mark?_eq_finish_iff {t : Text} : mark? t = some .finish ↔ t = "end".toList := by
  constructor
  · intro marked
    unfold mark? at marked
    split at marked
    · cases marked
    · split at marked
      · assumption
      · obtain ⟨direction, -, other⟩ := Option.map_eq_some_iff.mp marked
        cases other
  · rintro rfl
    decide

theorem ne_end_of_other {t : Text} {m : Option Mark} (marked : mark? t = m) (other : m ≠ some .finish) :
    t ≠ "end".toList := by
  intro finish
  exact other (marked.symm.trans (mark?_eq_finish_iff.mpr finish))

theorem mark?_of_spoken {t : Text} (spoken : isCommand t = false) : mark? t = none := by
  by_contra marked
  obtain ⟨m, marked⟩ := Option.ne_none_iff_exists'.mp marked
  rw [isCommand_of_mark marked] at spoken
  cases spoken

/-- A change of one of distinct things. -/
theorem modify_map_of_nodup {α β : Type} {as : List α} (distinct : as.Nodup) {i : Nat} {a : α} (here : as[i]? = some a)
    {f : β → β} {g g' : α → β} (changed : g' a = f (g a)) (others : ∀ b ∈ as, b ≠ a → g' b = g b) :
    (as.map g).modify i f = as.map g' := by
  induction as generalizing i with
  | nil => cases here
  | cons b as ih =>
    obtain ⟨apart, distinct⟩ := List.nodup_cons.mp distinct
    cases i with
    | zero =>
      obtain rfl : b = a := Option.some.inj here
      have same : as.map g = as.map g' := by
        refine List.map_congr_left ?_
        intro c member
        refine (others c (List.mem_cons_of_mem _ member) ?_).symm
        rintro rfl
        exact apart member
      rw [List.map_cons, List.modify_zero_cons, List.map_cons, changed, same]
    | succ i =>
      have inside : as[i]? = some a := here
      have differs : b ≠ a := by
        rintro rfl
        exact apart (List.mem_of_getElem? inside)
      have later := ih distinct inside fun c member => others c (List.mem_cons_of_mem _ member)
      rw [List.map_cons, List.modify_succ_cons, List.map_cons, later, others b List.mem_cons_self differs]

/-- A direction in the innermost subgraph is told of this one and of no other. -/
theorem modify_described {i : Nat} {direction : Direction} (here : (openings statements)[i]? = some o)
    (innermost : (openSubgraphs statements).head? = some o) (turned : turn? statement = some direction) :
    ((openings statements).map (described statements)).modify i (fun s => { s with direction := some direction }) =
      (openings statements).map (described (statements ++ [statement])) := by
  refine modify_map_of_nodup (nodup_openings statements) here ?_ ?_
  · rw [described_concat (List.mem_of_getElem? here), if_pos ⟨innermost, by rw [turned]; rfl⟩, turned]
  · intro other member differs
    rw [described_concat member, innermost]
    refine if_neg ?_
    rintro ⟨same, -⟩
    exact differs (Option.some.inj same).symm

/-! ### What is read -/

/-- A draft goes with the statements that were read. -/
structure Tracks (given : Option Direction) (statements : List Line) (d : Draft) : Prop where
  stack : PointTo (openings statements) d.stack (openSubgraphs statements)
  subgraphs : d.subgraphs = (openings statements).map (described statements)
  direction : d.direction = (turnsIn none statements).getLast?.or given

namespace Tracks

theorem blank : Tracks given [] { direction := given } := ⟨.nil, rfl, rfl⟩

theorem innermost (tracks : Tracks given statements d) :
    d.innermost? = (openSubgraphs statements).head?.map (described statements) := by
  rw [← tracks.stack.innermost, Draft.innermost?, tracks.subgraphs, Option.map_bind]
  congr 1
  funext i
  simp

theorem begin (tracks : Tracks given statements d) {id : Text} {title : Option Text}
    (marked : mark? statement.text = some (.begin id title)) : Tracks given (statements ++ [statement]) { d with
      subgraphs := d.subgraphs ++ [⟨id, title, d.innermost?.map Subgraph.id, none, statement.position⟩]
      stack := d.subgraphs.length :: d.stack } := by
  have begun : opening? (statement, statements.length) = some ⟨statements.length, id, title, statement.position⟩ := by
    rw [opening?, marked]
  have unturned : turn? statement = none := turn?_of_other marked (by simp)
  have unfinished := ne_end_of_other marked (by simp)
  have all : openings (statements ++ [statement]) =
      openings statements ++ [⟨statements.length, id, title, statement.position⟩] := by
    rw [openings_concat, begun]
    rfl
  have size : d.subgraphs.length = (openings statements).length := by rw [tracks.subgraphs, List.length_map]
  refine ⟨?_, ?_, ?_⟩
  · rw [openSubgraphs_concat, openStep, if_neg unfinished, begun, all, size]
    exact tracks.stack.push _
  · have old : (openings statements).map (described (statements ++ [statement])) = d.subgraphs := by
      rw [tracks.subgraphs]
      exact List.map_congr_left fun o member => described_of_unturned member unturned
    have parent : d.innermost?.map Subgraph.id = (openSubgraphs statements).head?.map Opening.id := by
      rw [tracks.innermost, Option.map_map]
      rfl
    have new : described (statements ++ [statement]) ⟨statements.length, id, title, statement.position⟩ =
        ⟨id, title, d.innermost?.map Subgraph.id, none, statement.position⟩ := by
      unfold described
      rw [getLast?_turnsIn_concat, turnsIn_eq_nil le_rfl, List.take_left, unturned, parent, ite_self]
      rfl
    rw [all, List.map_append, old, List.map_singleton, new]
  · rw [getLast?_turnsIn_concat, unturned, ite_self]
    exact tracks.direction

/-- A statement that begins no subgraph and sets no direction changes at most what is open. -/
theorem keep (tracks : Tracks given statements d) (unbegun : opening? (statement, statements.length) = none)
    (unturned : turn? statement = none) (subgraphs : d'.subgraphs = d.subgraphs) (direction : d'.direction = d.direction)
    (stack : PointTo (openings statements) d'.stack (openStep (openSubgraphs statements) (statement, statements.length))) :
    Tracks given (statements ++ [statement]) d' := by
  have all := openings_of_unbegun unbegun
  refine ⟨?_, ?_, ?_⟩
  · rw [openSubgraphs_concat, all]
    exact stack
  · rw [subgraphs, tracks.subgraphs, all]
    exact List.map_congr_left fun o member => (described_of_unturned member unturned).symm
  · rw [direction, tracks.direction, getLast?_turnsIn_concat, unturned, ite_self]
    rfl

theorem pass (tracks : Tracks given statements d) (unmarked : mark? statement.text = none)
    (subgraphs : d'.subgraphs = d.subgraphs) (direction : d'.direction = d.direction) (stack : d'.stack = d.stack) :
    Tracks given (statements ++ [statement]) d' := by
  have unbegun : opening? (statement, statements.length) = none := opening?_of_other unmarked (by simp)
  have unfinished := ne_end_of_other unmarked (by simp)
  refine tracks.keep unbegun (turn?_of_other unmarked (by simp)) subgraphs direction ?_
  rw [openStep, if_neg unfinished, unbegun, stack]
  exact tracks.stack

theorem finish (tracks : Tracks given statements d) {i : Nat} {stack : List Nat} (top : d.stack = i :: stack)
    (marked : mark? statement.text = some .finish) :
    Tracks given (statements ++ [statement]) { d with stack := stack } := by
  have unbegun : opening? (statement, statements.length) = none := opening?_of_other marked (by simp)
  refine tracks.keep unbegun (turn?_of_other marked (by simp)) rfl rfl ?_
  have points := tracks.stack
  rw [top] at points
  rw [openStep, if_pos (mark?_eq_finish_iff.mp marked)]
  exact points.pop

theorem turn (tracks : Tracks given statements d) {direction : Direction}
    (marked : mark? statement.text = some (.turn direction)) :
    Tracks given (statements ++ [statement]) (d.turned direction) := by
  have unbegun : opening? (statement, statements.length) = none := opening?_of_other marked (by simp)
  have turned : turn? statement = some direction := by rw [turn?, marked]
  have unfinished := ne_end_of_other marked (by simp)
  have all := openings_of_unbegun unbegun
  have opens : openSubgraphs (statements ++ [statement]) = openSubgraphs statements := by
    rw [openSubgraphs_concat, openStep, if_neg unfinished, unbegun]
    rfl
  have points := tracks.stack
  cases top : d.stack with
  | nil =>
    have none_open : openSubgraphs statements = [] := points.eq_nil_iff.mp top
    rw [Draft.turned, top]
    refine ⟨?_, ?_, ?_⟩
    · rw [all, opens, none_open]
      exact .nil
    · rw [all]
      refine tracks.subgraphs.trans (List.map_congr_left ?_)
      intro o member
      rw [described_concat member, none_open]
      exact (if_neg (by simp)).symm
    · rw [getLast?_turnsIn_concat, none_open, turned]
      rfl
  | cons i stack =>
    rw [top] at points
    obtain ⟨o, around, here, -, nested⟩ := List.forall₂_cons_left_iff.mp points
    have first : (openSubgraphs statements).head? = some o := by rw [nested]; rfl
    rw [Draft.turned, top]
    refine ⟨?_, ?_, ?_⟩
    · rw [all, opens]
      exact points
    · rw [all, tracks.subgraphs]
      exact modify_described here first turned
    · rw [getLast?_turnsIn_concat, first]
      exact tracks.direction

theorem step (tracks : Tracks given statements d) (taken : readLine rules d statement = .ok d') :
    Tracks given (statements ++ [statement]) d' := by
  cases step_of_read taken with
  | begin id title marked => exact tracks.begin marked
  | finish i stack marked top => exact tracks.finish top marked
  | turn direction marked => exact tracks.turn marked
  | directive x commanded unmarked => exact tracks.pass unmarked rfl rfl rfl
  | chain source hops spoken found =>
    exact tracks.pass (mark?_of_spoken spoken) (addChain_subgraphs d source hops) (addChain_direction d source hops)
      (addChain_stack d source hops)
  | node n spoken unchained found => exact tracks.pass (mark?_of_spoken spoken) rfl rfl rfl

theorem of_run (run : readLines (fun _ => rules) { direction := given } statements = .ok d) :
    Tracks given statements d :=
  readLines_holds (P := Tracks given) Tracks.step blank run

end Tracks

/-! ### Refusals -/

theorem subgraphLine_forWording (d : Draft) (line : Line) : ForWording (subgraphLine d line) := by
  unfold subgraphLine
  split
  · trivial
  · exact .inl rfl
  · trivial

theorem directionLine_forWording (d : Draft) (line : Line) : ForWording (directionLine d line) := by
  unfold directionLine
  split
  · trivial
  · exact (ForWording.direction line _).map _

theorem directiveLine_forWording (kind : DirectiveKind) (d : Draft) (line : Line) :
    ForWording (directiveLine kind d line) := by
  unfold directiveLine
  split
  · trivial
  · dsimp only
    split <;> split
    case h_1.isTrue | h_2.isTrue => exact .inl rfl
    case h_1.isFalse | h_2.isFalse => trivial

theorem edgeLine_forWording (d : Draft) (line : Line) : ForWording (edgeLine d line) := by
  unfold edgeLine
  split
  · trivial
  · trivial

theorem nodeLine_forWording (d : Draft) (line : Line) : ForWording (nodeLine d line) := by
  unfold nodeLine
  split
  · trivial
  · trivial

theorem endLine_refused (refused : endLine d statement = .error e) :
    e.code = .e201 ∧ d.stack = [] ∧ statement.text = "end".toList := by
  unfold endLine at refused
  split at refused
  · next finish =>
    split at refused
    · next empty =>
      obtain rfl := Except.error.inj refused
      exact ⟨rfl, empty, finish⟩
    · cases refused
  · cases refused

/-- A statement is refused for its wording, or for the subgraph that is missing at it. -/
theorem refused_cases (refused : readLine rules d statement = .error e) : (e.code = .e100 ∨ e.code = .e101) ∨
    e.code = .e201 ∧ d.stack = [] ∧ statement.text = "end".toList := by
  rcases refused_by refused with ⟨rule, member, refused⟩ | rfl
  · simp only [rules, directiveRule, List.mem_cons, List.not_mem_nil, or_false] at member
    rcases member with rfl | rfl | rfl | rfl | rfl | rfl | rfl | rfl | rfl | rfl
    · exact .inl ((subgraphLine_forWording d statement).of_error refused)
    · exact .inr (endLine_refused refused)
    · exact .inl ((directionLine_forWording d statement).of_error refused)
    · exact .inl ((directiveLine_forWording _ d statement).of_error refused)
    · exact .inl ((directiveLine_forWording _ d statement).of_error refused)
    · exact .inl ((directiveLine_forWording _ d statement).of_error refused)
    · exact .inl ((directiveLine_forWording _ d statement).of_error refused)
    · exact .inl ((directiveLine_forWording _ d statement).of_error refused)
    · exact .inl ((edgeLine_forWording d statement).of_error refused)
    · exact .inl ((nodeLine_forWording d statement).of_error refused)
  · exact .inl (.inl rfl)

theorem readLine_stray (empty : d.stack = []) (finish : statement.text = "end".toList) :
    readLine rules d statement = .error (statement.fail .subgraphEndStray) := by
  have passed : subgraphLine d statement = pass := by rw [subgraphLine, finish]; rfl
  refine readLine_of_first (firstTaking_cons_of_pass passed) ?_
  rw [endLine, if_pos finish, empty]
  rfl

/-- Stray ends are refused for the subgraphs, and no other statements. -/
theorem refused_iff_stray (tracks : Tracks given statements d) :
    (∃ e, readLine rules d statement = .error e ∧ e.code = .e201) ↔ IsStray (openSubgraphs statements) statement := by
  rw [IsStray, ← tracks.stack.eq_nil_iff]
  constructor
  · rintro ⟨e, refused, code⟩
    rcases refused_cases refused with (other | other) | ⟨-, stray⟩
    · simp [code] at other
    · simp [code] at other
    · exact stray
  · rintro ⟨empty, finish⟩
    exact ⟨_, readLine_stray empty finish, rfl⟩

/-! ### Sources -/

/-- What is wrong behind all statements. -/
def Draft.unclosed? (d : Draft) : Option ParseError :=
  d.innermost?.map fun s => (Fault.subgraphUnclosed s.id).at s.position

variable {s : Source}

theorem headed_of_ok {chart : Flowchart} (accepted : read s = .ok chart) : ∃ given, Headed s given := by
  obtain ⟨⟨header, keyword, rest⟩, found, accepted⟩ := exists_of_bind_ok accepted
  obtain ⟨given, directed, -⟩ := exists_of_bind_ok accepted
  exact ⟨given, header, keyword, rest, found, directed⟩

theorem headed_of_unclosed (failed : read s = .error e) (code : e.code = .e200 ∨ e.code = .e201) :
    ∃ given, Headed s given := by
  rcases bind_error failed with other | ⟨⟨header, keyword, rest⟩, found, failed⟩
  · have unheaded := code_of_headerWith other
    rcases code with code | code
    all_goals simp [code] at unheaded
  · rcases bind_error failed with other | ⟨given, directed, -⟩
    · unfold headerDirection at other
      split at other
      · cases other
      · split at other
        · cases other
        · obtain rfl := Except.error.inj other
          simp [Fault.code] at code
    · exact ⟨given, header, keyword, rest, found, directed⟩

/-- With its header, a source is at fault in a statement, or in what is open behind all statements. -/
theorem read_eq_error_iff (headed : Headed s given) : read s = .error e ↔
    readLines (fun _ => rules) { direction := given } (s.body.flatMap statementLines) = .error e ∨
      ∃ d, readLines (fun _ => rules) { direction := given } (s.body.flatMap statementLines) = .ok d ∧
        d.unclosed? = some e := by
  obtain ⟨header, keyword, rest, found, directed⟩ := headed
  rw [read, found]
  simp only [bind, Except.bind, directed]
  cases readLines (fun _ => rules) { direction := given } (s.body.flatMap statementLines) with
  | error e' => simp
  | ok d =>
    cases innermost : d.innermost? with
    | none => simp [innermost, Draft.unclosed?]
    | some subgraph => simp [innermost, Draft.unclosed?]

theorem faultsIn (s : Source) : FaultsIn (read s) (fun d => ∃ given, Headed s given ∧ d = { direction := given })
    (fun _ => rules) (s.body.flatMap statementLines) Draft.unclosed? where
  started_of_ok accepted := by
    obtain ⟨given, headed⟩ := headed_of_ok accepted
    exact ⟨_, given, headed, rfl⟩
  started_of_error failed code := by
    obtain ⟨given, headed⟩ := headed_of_unclosed failed code
    exact ⟨_, given, headed, rfl⟩
  error_iff := by
    rintro d e ⟨given, headed, rfl⟩
    exact read_eq_error_iff headed
  line_code refused := by
    rcases refused_cases refused with (code | code) | ⟨code, -⟩
    all_goals simp [code]
  line_place {d _ _} refused := ((Marks.readLine (rules_mark d)).of_error refused).1
  unclosed_code unclosed := by
    obtain ⟨s, -, rfl⟩ := Option.map_eq_some_iff.mp unclosed
    rfl

theorem Tracks.unclosed? (tracks : Tracks given statements d) :
    d.unclosed?.map ParseError.position = (openSubgraphs statements).head?.map Opening.position := by
  rw [Draft.unclosed?, tracks.innermost]
  simp only [Option.map_map]
  rfl

/-- No end is stray where all statements can be read. -/
theorem not_stray_of_accepted (accepted : Accepted given statements) {before after : List Line}
    (split : statements = before ++ statement :: after) : ¬ IsStray (openSubgraphs before) statement := by
  intro stray
  obtain ⟨d, run⟩ := accepted
  rw [split] at run
  obtain ⟨between, next, ahead, taken⟩ := readLines_split_ok run
  obtain ⟨e, refused, -⟩ := (refused_iff_stray (.of_run ahead)).mpr stray
  rw [refused] at taken
  cases taken

theorem nested_of_read {chart : Flowchart} (accepted : read s = .ok chart) :
    ∃ given, Headed s given ∧ Nested given (s.body.flatMap statementLines) chart := by
  obtain ⟨⟨header, keyword, rest⟩, found, accepted⟩ := exists_of_bind_ok accepted
  obtain ⟨given, directed, accepted⟩ := exists_of_bind_ok accepted
  obtain ⟨d, run, accepted⟩ := exists_of_bind_ok accepted
  have tracks := Tracks.of_run run
  refine ⟨given, ⟨header, keyword, rest, found, directed⟩, ?_⟩
  split at accepted
  · cases accepted
  · next none_open =>
    obtain rfl := Except.ok.inj accepted
    refine ⟨?_, ?_, tracks.subgraphs, tracks.direction⟩
    · rw [tracks.innermost, Option.map_eq_none_iff] at none_open
      exact List.head?_eq_none_iff.mp none_open
    · exact fun before statement after split => not_stray_of_accepted ⟨d, run⟩ split

/-- A chart is read where all statements can be read and no subgraph is open behind them. -/
theorem read_ok_iff : (∃ chart, read s = .ok chart) ↔ ∃ given, Headed s given ∧
    Accepted given (s.body.flatMap statementLines) ∧ openSubgraphs (s.body.flatMap statementLines) = [] := by
  rw [(faultsIn s).ok_iff]
  constructor
  · rintro ⟨_, ⟨given, headed, rfl⟩, d, run, closed⟩
    have position := (Tracks.of_run run).unclosed?
    rw [closed, Option.map_none, eq_comm, Option.map_eq_none_iff] at position
    exact ⟨given, headed, ⟨d, run⟩, List.head?_eq_none_iff.mp position⟩
  · rintro ⟨given, headed, ⟨d, run⟩, closed⟩
    have position := (Tracks.of_run run).unclosed?
    rw [closed, List.head?_nil, Option.map_none, Option.map_eq_none_iff] at position
    exact ⟨_, ⟨given, headed, rfl⟩, d, run, position⟩

/-- Reading stops for a stray end where all statements in front can be read. -/
theorem read_stray_iff : (∃ e, read s = .error e ∧ e.code = .e201 ∧ e.position = p) ↔
    ∃ given, Headed s given ∧ ∃ before statement after, s.body.flatMap statementLines = before ++ statement :: after ∧
      Accepted given before ∧ IsStray (openSubgraphs before) statement ∧ statement.position = p := by
  rw [(faultsIn s).stray_iff]
  constructor
  · rintro ⟨_, ⟨given, headed, rfl⟩, before, statement, after, d, split, run, refused, position⟩
    have stray := (refused_iff_stray (.of_run run)).mp refused
    exact ⟨given, headed, before, statement, after, split, ⟨d, run⟩, stray, position⟩
  · rintro ⟨given, headed, before, statement, after, split, ⟨d, run⟩, stray, position⟩
    have refused := (refused_iff_stray (.of_run run)).mpr stray
    exact ⟨_, ⟨given, headed, rfl⟩, before, statement, after, d, split, run, refused, position⟩

/-- Reading stops behind all statements for the innermost subgraph that is open. -/
theorem read_unclosed_iff : (∃ e, read s = .error e ∧ e.code = .e200 ∧ e.position = p) ↔
    ∃ given, Headed s given ∧ Accepted given (s.body.flatMap statementLines) ∧
      (openSubgraphs (s.body.flatMap statementLines)).head?.map Opening.position = some p := by
  rw [(faultsIn s).unclosed_iff]
  constructor
  · rintro ⟨_, ⟨given, headed, rfl⟩, d, run, open_at⟩
    rw [(Tracks.of_run run).unclosed?] at open_at
    exact ⟨given, headed, ⟨d, run⟩, open_at⟩
  · rintro ⟨given, headed, ⟨d, run⟩, open_at⟩
    rw [← (Tracks.of_run run).unclosed?] at open_at
    exact ⟨_, ⟨given, headed, rfl⟩, d, run, open_at⟩

/-- A chart is read if no subgraph is open behind all statements, and its subgraphs and its direction are those of its
statements. Reading stops at the first end where no subgraph is open, or behind all statements at the innermost
subgraph that is still open. -/
theorem read_subgraphs (s : Source) :
    ((∃ chart, read s = .ok chart) ↔ ∃ given, Headed s given ∧ Accepted given (s.body.flatMap statementLines) ∧
      openSubgraphs (s.body.flatMap statementLines) = []) ∧
    (∀ chart, read s = .ok chart → ∃ given, Headed s given ∧ Nested given (s.body.flatMap statementLines) chart) ∧
    (∀ p, (∃ e, read s = .error e ∧ e.code = .e201 ∧ e.position = p) ↔ ∃ given, Headed s given ∧
      ∃ before statement after, s.body.flatMap statementLines = before ++ statement :: after ∧
        Accepted given before ∧ IsStray (openSubgraphs before) statement ∧ statement.position = p) ∧
    (∀ p, (∃ e, read s = .error e ∧ e.code = .e200 ∧ e.position = p) ↔ ∃ given, Headed s given ∧
      Accepted given (s.body.flatMap statementLines) ∧
        (openSubgraphs (s.body.flatMap statementLines)).head?.map Opening.position = some p) :=
  ⟨read_ok_iff, fun _ accepted => nested_of_read accepted, fun _ => read_stray_iff, fun _ => read_unclosed_iff⟩

/-- Directions before, between and behind subgraphs in one another, two of them in one line. -/
def nestedSubgraphs : Text :=
  "graph LR\nsubgraph a [A]\ndirection TB\nsubgraph b; direction RL; end; subgraph c\nend\ndirection BT\nend\ndirection TD".toList

/-- An end too many. -/
def strayEnd : Text := "graph\nsubgraph a\nend; end".toList

/-- A subgraph in another one, and neither is closed. -/
def unclosedSubgraphs : Text := "graph\nsubgraph a\nsubgraph b\nend\nsubgraph c".toList

theorem read_subgraphs_nested :
    (∃ chart given, read (Source.ofText nestedSubgraphs 0) = .ok chart ∧ Headed (Source.ofText nestedSubgraphs 0) given ∧
      Nested given ((Source.ofText nestedSubgraphs 0).body.flatMap statementLines) chart) ∧
    (∃ e, read (Source.ofText strayEnd 0) = .error e ∧ e.code = .e201 ∧ e.position = ⟨3, 1⟩) ∧
    ∃ e, read (Source.ofText unclosedSubgraphs 0) = .error e ∧ e.code = .e200 ∧ e.position = ⟨5, 1⟩ := by
  refine ⟨?_, ?_, ?_⟩
  · obtain ⟨chart, accepted⟩ := exists_of_isOk (x := read (Source.ofText nestedSubgraphs 0)) (by decide +kernel)
    obtain ⟨given, nested⟩ := (read_subgraphs (Source.ofText nestedSubgraphs 0)).2.1 chart accepted
    exact ⟨chart, given, accepted, nested⟩
  · have headed : Headed (Source.ofText strayEnd 0) none := ⟨_, _, _, rfl, rfl⟩
    have cut : (Source.ofText strayEnd 0).body.flatMap statementLines =
        [.ofRaw 2 "subgraph a".toList, ⟨3, 1, 0, "end; end".toList, "end".toList⟩,
          ⟨3, 1, 0, "end; end".toList, "end".toList⟩] := by decide +kernel
    have accepted := exists_of_isOk (x := readLines (fun _ => rules) {}
      [.ofRaw 2 "subgraph a".toList, ⟨3, 1, 0, "end; end".toList, "end".toList⟩]) (by decide)
    exact ((read_subgraphs (Source.ofText strayEnd 0)).2.2.1 ⟨3, 1⟩).mpr
      ⟨none, headed, _, _, [], cut, accepted, ⟨by decide, rfl⟩, rfl⟩
  · have headed : Headed (Source.ofText unclosedSubgraphs 0) none := ⟨_, _, _, rfl, rfl⟩
    have cut : (Source.ofText unclosedSubgraphs 0).body.flatMap statementLines =
        [.ofRaw 2 "subgraph a".toList, .ofRaw 3 "subgraph b".toList, .ofRaw 4 "end".toList,
          .ofRaw 5 "subgraph c".toList] := by decide +kernel
    refine ((read_subgraphs (Source.ofText unclosedSubgraphs 0)).2.2.2 ⟨5, 1⟩).mpr ⟨none, headed, ?_⟩
    rw [cut]
    exact ⟨exists_of_isOk (by decide), by decide⟩

end DiagramLint.Flowchart
