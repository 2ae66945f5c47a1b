import DiagramLint.Proofs.C4Diagram.BraceStack

/-!
Lines of C4 diagrams and what is recorded for them. A line is a title, an opening brace that belongs
to the boundary called on the line before, a line that begins with a closing brace and closes a
boundary, or a call, and each call is one thing in the diagram, at the position of its line
(`read_lines`). No text behind a closing brace is looked at.
-/
namespace DiagramLint.C4Diagram

open Text

/-! ### What a diagram holds -/

/-- What a call makes. -/
inductive Entity where
  | element (element : Element)
  | boundary (frame : Frame)
  | relationship (relationship : Relationship)
  | style (style : Style)
  deriving DecidableEq, Repr

/-- Where the call of an entity stands. -/
def Entity.position : Entity → Position
  | .element e => e.position
  | .boundary f => f.position
  | .relationship r => r.position
  | .style s => s.position

namespace Boundary

mutual

/-- A boundary, its elements and what is in its boundaries. -/
def entities : Boundary → List Entity
  | .around frame elements boundaries =>
    .boundary frame :: (elements.map .element ++ entitiesOfAll boundaries)

/-- What some boundaries are and hold. -/
def entitiesOfAll : List Boundary → List Entity
  | [] => []
  | b :: rest => entities b ++ entitiesOfAll rest

end

theorem entitiesOfAll_append (bs bs' : List Boundary) :
    entitiesOfAll (bs ++ bs') = entitiesOfAll bs ++ entitiesOfAll bs' := by
  induction bs with
  | nil => rfl
  | cons b bs ih => rw [List.cons_append, entitiesOfAll, entitiesOfAll, ih, List.append_assoc]

end Boundary

/-- All that a draft holds, at every depth. -/
def Draft.entities (d : Draft) : List Entity :=
  d.elements.map .element ++ Boundary.entitiesOfAll d.boundaries ++ d.relationships.map .relationship ++
    d.styles.map .style

/-- All that a diagram holds, at every depth. -/
def entities (d : C4Diagram) : List Entity :=
  Draft.entities ⟨d.title, d.relationships, d.styles, d.elements, d.boundaries⟩

/-- What a diagram holds of a position. -/
def entitiesAt (d : C4Diagram) (p : Position) : List Entity := d.entities.filter fun e => e.position = p

/-- What the call of a line makes. -/
def Visit.entity? (v : Visit) : Option Entity :=
  v.opened?.map .boundary <|> v.element?.map .element <|> v.relationship?.map .relationship <|>
    v.style?.map .style

/-! ### What lines are -/

/-- What a line is behind the line before it, and what is recorded for it. -/
inductive Stands (previous : Option Visit) (v : Visit) : Option Entity → Prop where
  | title (titled : (afterKeywordColon? "title" v.line.text).isSome) : Stands previous v none
  /-- The opening brace of the boundary that is called on the line before. -/
  | brace {opener : Visit} {frame : Frame} (lone : v.line.text = ['{']) (before : previous = some opener)
      (unbraced : opens opener.line = false) (opened : opener.opened? = some frame)
      (inside : v.stack = frame :: opener.stack) : Stands previous v none
  /-- The end of the boundary on top; what follows the brace is not looked at. -/
  | close {frame : Frame} {around : List Frame} (closing : closes v.line = true)
      (inside : v.stack = frame :: around) : Stands previous v none
  | call {e : Entity} (made : v.entity? = some e) (placed : e.position = v.line.position) :
      Stands previous v (some e)

/-- What lines one behind the other are, and what is recorded for them. -/
inductive Recorded : Option Visit → List Visit → List Entity → Prop where
  | nil {previous : Option Visit} : Recorded previous [] []
  | cons {previous : Option Visit} {v : Visit} {vs : List Visit} {e : Option Entity} {es : List Entity}
      (here : Stands previous v e) (later : Recorded (some v) vs es) :
      Recorded previous (v :: vs) (e.toList ++ es)

section

variable {previous : Option Visit} {v : Visit} {vs vs' : List Visit} {es es' : List Entity} {d d' mid inner : Draft}
  {frame : Frame}

theorem Recorded.append (first : Recorded previous vs es) (later : ∀ last, Recorded last vs' es') :
    Recorded previous (vs ++ vs') (es ++ es') := by
  induction first with
  | nil => exact later _
  | cons here _ ih =>
    rw [List.append_assoc]
    exact .cons here ih

theorem Recorded.positions (recorded : Recorded previous vs es) :
    (es.map Entity.position).Sublist (vs.map fun v => v.line.position) := by
  induction recorded with
  | nil => exact .slnil
  | @cons previous v vs e es here _ ih =>
    cases here with
    | title | brace | close => exact ih.cons _
    | call _ placed =>
      rw [Option.toList_some, List.singleton_append, List.map_cons, List.map_cons, placed]
      exact ih.cons_cons _

/-- Nothing is recorded but what a line makes. -/
theorem Recorded.made (recorded : Recorded previous vs es) : ∀ x ∈ es, ∃ v ∈ vs, v.entity? = some x := by
  induction recorded with
  | nil => exact List.forall_mem_nil _
  | @cons previous v vs e es here _ ih =>
    intro x member
    rcases List.mem_append.mp member with first | later
    · cases here with
      | title | brace | close => cases first
      | call made _ =>
        obtain rfl := List.mem_singleton.mp first
        exact ⟨v, List.mem_cons_self, made⟩
    · obtain ⟨w, inside, made⟩ := ih x later
      exact ⟨w, List.mem_cons_of_mem v inside, made⟩

/-- What a line stands for is at the position of the line. -/
theorem Stands.filter {e : Option Entity} (stands : Stands previous v e) (p : Position) :
    e.toList.filter (fun x => x.position = p) = if v.line.position = p then e.toList else [] := by
  cases stands with
  | title | brace | close => simp
  | call _ placed =>
    rw [Option.toList_some, List.filter_singleton, placed]
    by_cases here : v.line.position = p <;> simp [here]

/-- With every line at a position of its own, each one has just what is recorded for it. -/
theorem Recorded.at (recorded : Recorded previous (vs ++ v :: vs') es)
    (distinct : ((vs ++ v :: vs').map fun v => v.line.position).Nodup) :
    ∃ e, Stands (vs.getLast?.or previous) v e ∧ es.filter (fun x => x.position = v.line.position) = e.toList := by
  induction vs generalizing previous es with
  | nil =>
    cases recorded with
    | @cons _ _ _ e es here later =>
      have apart : es.filter (fun x => x.position = v.line.position) = [] := by
        refine List.filter_eq_nil_iff.mpr fun x member same => ?_
        have inside := later.positions.subset (List.mem_map_of_mem member)
        rw [of_decide_eq_true same] at inside
        exact (List.nodup_cons.mp distinct).1 inside
      exact ⟨e, here, by rw [List.filter_append, here.filter, if_pos rfl, apart, List.append_nil]⟩
  | cons w vs ih =>
    cases recorded with
    | @cons _ _ _ e_w es here later =>
      obtain ⟨other, distinct⟩ := List.nodup_cons.mp distinct
      have different : w.line.position ≠ v.line.position := by
        intro same
        refine other ?_
        show w.line.position ∈ (vs ++ v :: vs').map fun v => v.line.position
        rw [same, List.map_append, List.map_cons]
        exact List.mem_append_right _ List.mem_cons_self
      obtain ⟨e, stands, at_line⟩ := ih later distinct
      refine ⟨e, ?_, ?_⟩
      · rw [List.getLast?_cons]
        cases behind : vs.getLast? with
        | none => simpa [behind] using stands
        | some last => simpa [behind] using stands
      · rw [List.filter_append, here.filter, if_neg different, at_line, List.nil_append]

/-! ### Drafts -/

/-- What is added behind some lists of a draft is what the draft holds more. -/
theorem Draft.entities_grown (d : Draft) (es : List Element) (rs : List Relationship) (ss : List Style) :
    (Draft.entities { d with
      elements := d.elements ++ es
      relationships := d.relationships ++ rs
      styles := d.styles ++ ss }).Perm
      (d.entities ++ (es.map .element ++ (rs.map .relationship ++ ss.map .style))) := by
  rw [List.perm_iff_count]
  intro x
  simp only [Draft.entities, List.map_append, List.count_append]
  omega

/-- A call without a body makes one entity. -/
theorem readCall_entity {c : Call} (called : v.call? = some c) (bodiless : c.hasBody = false)
    (made : readCall d v.line c = .ok mid) :
    ∃ e, v.entity? = some e ∧ e.position = v.line.position ∧ mid.entities.Perm (d.entities ++ [e]) := by
  have unopened : v.opened? = none := made?_of_other_body called (by simp [bodiless])
  simp only [Visit.entity?, unopened, Visit.element?, Visit.relationship?, Visit.style?, made?_of_call called bodiless]
  unfold readCall at made
  split at made
  · next kind keyword =>
    obtain ⟨e, built, rfl⟩ := exists_of_map_ok made
    refine ⟨.element e, ?_, position_of_element built, ?_⟩
    · simp [keyword, built, Except.toOption]
    · simpa using d.entities_grown [e] [] []
  · next no_element =>
    split at made
    · next kind keyword =>
      obtain ⟨r, built, rfl⟩ := exists_of_map_ok made
      refine ⟨.relationship r, ?_, position_of_relationship built, ?_⟩
      · simp [no_element, keyword, built, Except.toOption]
      · simpa using d.entities_grown [] [r] []
    · next no_relationship =>
      split at made
      · next kind keyword =>
        obtain ⟨s, built, rfl⟩ := exists_of_map_ok made
        refine ⟨.style s, ?_, position_of_style built, ?_⟩
        · simp [no_element, no_relationship, keyword, built, Except.toOption]
        · simpa using d.entities_grown [] [] [s]
      · cases made

/-- A boundary adds itself and what is read in it. -/
theorem entities_leave (frame : Frame) (inside : inner.entities.Perm (d.enter.entities ++ es)) :
    (d.leave frame inner).entities.Perm (d.entities ++ .boundary frame :: es) := by
  rw [List.perm_iff_count] at inside ⊢
  intro e
  have within := inside e
  simp only [Draft.entities, Draft.enter, Draft.leave, Boundary.entitiesOfAll_append, Boundary.entitiesOfAll,
    Boundary.entities, List.count_append, List.count_cons, List.map_nil, List.append_nil, List.nil_append] at within ⊢
  omega

/-! ### Derivations -/

/-- What is recorded for lines that are read, beside a run of the stack over them. -/
structure Records (stack : List Frame) (lines : List Line) (d d' : Draft) (visits : List Visit)
    (es : List Entity) : Prop where
  run : visits? stack lines = some (visits, stack)
  recorded : ∀ previous, Recorded previous visits es
  entities : d'.entities.Perm (d.entities ++ es)

namespace Records

variable {stack : List Frame} {line : Line} {rest : List Line} {visits : List Visit}

/-- A line that opens and closes no boundary. -/
theorem line_alone {e : Option Entity} (later : Records stack rest mid d' visits es)
    (open_line : closes line = false) (unopened : Visit.opened? ⟨line, braceFollows rest, stack⟩ = none)
    (here : ∀ previous, Stands previous ⟨line, braceFollows rest, stack⟩ e)
    (added : mid.entities.Perm (d.entities ++ e.toList)) :
    Records stack (line :: rest) d d' (⟨line, braceFollows rest, stack⟩ :: visits) (e.toList ++ es) where
  run := visits?_cons (next?_of_not_opened open_line unopened) later.run
  recorded previous := .cons (here previous) (later.recorded _)
  entities := by
    rw [← List.append_assoc]
    exact later.entities.trans (added.append_right es)

/-- The opening brace alone that a boundary takes, in front of what is in it. -/
theorem brace_lines {opener : Visit} (within : Records (frame :: stack) rest d d' visits es)
    (opened : opener.opened? = some frame) (around : opener.stack = stack) (behind : List Line) :
    ∃ visits', visits? (frame :: stack) (braceLines opener.line behind ++ rest) = some (visits', frame :: stack) ∧
      Recorded (some opener) visits' es := by
  rcases braceLines_cases opener.line behind with none_taken | ⟨brace, taken, lone, unbraced⟩
  · rw [none_taken]
    exact ⟨visits, within.run, within.recorded _⟩
  · have open_line : closes brace = false := by
      rw [closes, lone]
      rfl
    have unopened : Visit.opened? ⟨brace, braceFollows rest, frame :: stack⟩ = none :=
      made?_of_no_call (call?_of_lone_brace lone)
    rw [taken]
    refine ⟨_, visits?_cons (next?_of_not_opened open_line unopened) within.run, ?_⟩
    exact .cons (e := none) (.brace lone rfl unbraced opened (by rw [around])) (within.recorded _)

/-- A boundary, the scope behind its brace, the closing brace and what follows. -/
theorem boundary {within after : List Line} {close : Line} {visits_in visits_after : List Visit}
    {es_in : List Entity} (open_line : closes line = false)
    (opened : Visit.opened? ⟨line, braceFollows (within ++ close :: after), stack⟩ = some frame)
    (run_in : visits? (frame :: stack) within = some (visits_in, frame :: stack))
    (recorded_in : Recorded (some ⟨line, braceFollows (within ++ close :: after), stack⟩) visits_in es_in)
    (inside : inner.entities.Perm (d.enter.entities ++ es_in)) (closing : closes close = true)
    (later : Records stack after (d.leave frame inner) d' visits_after es) :
    Records stack (line :: (within ++ close :: after)) d d'
      (⟨line, braceFollows (within ++ close :: after), stack⟩ ::
        (visits_in ++ ⟨close, braceFollows after, frame :: stack⟩ :: visits_after))
      (.boundary frame :: (es_in ++ es)) where
  run := visits?_boundary open_line opened closing run_in later.run
  recorded previous := by
    have made : Visit.entity? ⟨line, braceFollows (within ++ close :: after), stack⟩ = some (.boundary frame) := by
      simp [Visit.entity?, opened]
    refine .cons (e := some (.boundary frame)) (.call made (position_of_opened? opened)) (recorded_in.append ?_)
    intro last
    exact .cons (e := none) (.close closing rfl) (later.recorded _)
  entities := by
    have left := (entities_leave frame inside).append_right es
    rw [List.append_assoc] at left
    exact later.entities.trans left

end Records

/-- Every derivation goes along with a run of the stack and what is recorded on it, whatever is open
around it. -/
theorem records_of_reads {lines : List Line} (reads : Reads d lines d') (stack : List Frame) :
    ∃ visits es, Records stack lines d d' visits es := by
  induction reads generalizing stack with
  | done d => exact ⟨[], [], rfl, fun _ => .nil, by simp⟩
  | @title d d' line rest title open_line titled _ ih =>
    obtain ⟨visits, es, later⟩ := ih stack
    have here : ∀ previous, Stands previous ⟨line, braceFollows rest, stack⟩ none :=
      fun previous => .title (by simp [titled])
    exact ⟨_, _, later.line_alone open_line (made?_of_no_call (call?_of_title titled)) here
      (by simp [Draft.entities])⟩
  | @boundary d inner d' line rest within after called kind frame open_line untitled reads_call keyword body
      framed scope _ _ ih_within ih_after =>
    obtain ⟨visits_in, es_in, inside⟩ := ih_within (frame :: stack)
    obtain ⟨visits_after, es, later⟩ := ih_after stack
    obtain ⟨close, closing, split⟩ := scopeBelow?_split scope
    rw [← List.append_assoc] at split
    have called_here : Visit.call? ⟨line, braceFollows rest, stack⟩ = some called :=
      call?_of_call open_line untitled reads_call
    have opened : Visit.opened? ⟨line, braceFollows rest, stack⟩ = some frame :=
      opened?_of_call called_here body keyword framed
    obtain ⟨visits', run, recorded⟩ := inside.brace_lines opened rfl rest
    generalize braceLines line rest = braces at split run
    subst split
    exact ⟨_, _, .boundary open_line opened run recorded inside.entities closing later⟩
  | @call d mid d' line rest called open_line untitled reads_call bodiless made _ ih =>
    obtain ⟨visits, es, later⟩ := ih stack
    have called_here : Visit.call? ⟨line, braceFollows rest, stack⟩ = some called :=
      call?_of_call open_line untitled reads_call
    obtain ⟨e, makes, placed, added⟩ := readCall_entity called_here bodiless made
    have unopened : Visit.opened? ⟨line, braceFollows rest, stack⟩ = none :=
      made?_of_other_body called_here (by simp [bodiless])
    exact ⟨_, _, later.line_alone open_line unopened (fun _ => .call makes placed) added⟩

end

/-! ### Diagrams -/

/-- Every line of a diagram is a title, the opening brace of the boundary called on the line before, a
line that closes a boundary and begins with its brace, or a call, and the calls are what the diagram
holds, each at its line. -/
theorem read_lines {text : Text} {offset : Nat} {d : C4Diagram}
    (accepted : read (Source.ofText text offset) = .ok d) :
    ∃ visits, visits? [] (Source.ofText text offset).body = some (visits, []) ∧
      (∀ x ∈ d.entities, ∃ v ∈ visits, v.entity? = some x) ∧
      ∀ before v after, visits = before ++ v :: after →
        ∃ e, Stands before.getLast? v e ∧ d.entitiesAt v.line.position = e.toList := by
  obtain ⟨⟨header, keyword, rest⟩, _, behind⟩ := exists_of_bind_ok accepted
  dsimp only at behind
  split at behind
  · obtain ⟨draft, scope, made⟩ := exists_of_bind_ok behind
    obtain rfl := Except.ok.inj made
    obtain ⟨visits, es, records⟩ := records_of_reads (reads_of_readScope scope) []
    refine ⟨visits, records.run, ?_, ?_⟩
    · intro x member
      exact (records.recorded none).made x (records.entities.mem_iff.mp member)
    · rintro before v after rfl
      have distinct : ((before ++ v :: after).map fun v => v.line.position).Nodup := by
        have lines := body_positions_nodup text offset
        rw [← lines_of_visits? records.run, List.map_map] at lines
        exact lines
      obtain ⟨e, stands, here⟩ := (records.recorded none).at distinct
      refine ⟨e, by simpa using stands, ?_⟩
      have held : (draft.entities.filter fun x => x.position = v.line.position).Perm e.toList := by
        rw [← here]
        exact records.entities.filter _
      cases e with
      | none => exact held.eq_nil
      | some e => exact List.perm_singleton.mp held
  · exact nomatch behind

/-- A title, a boundary with its brace on the line below, and calls in it and behind it. -/
def titledBoundary : Text :=
  "C4Context\ntitle A\nBoundary(b, \"B\")\n\x7b\nPerson(p, \"P\")\n\x7d\nRel(p, q)".toList

theorem read_lines_titledBoundary : ∃ d, read (Source.ofText titledBoundary 0) = .ok d ∧
    ∃ visits, visits? [] (Source.ofText titledBoundary 0).body = some (visits, []) ∧
      (∀ x ∈ d.entities, ∃ v ∈ visits, v.entity? = some x) ∧
      ∀ before v after, visits = before ++ v :: after →
        ∃ e, Stands before.getLast? v e ∧ d.entitiesAt v.line.position = e.toList := by
  obtain ⟨d, accepted⟩ := exists_of_isOk (x := read (Source.ofText titledBoundary 0)) (by decide +kernel)
  exact ⟨d, accepted, read_lines accepted⟩

/-- A call behind the brace that closes a boundary. -/
def callBehindBrace : Text := "C4Context\nBoundary(b, \"B\") \x7b\n\x7d Person(p, \"P\")".toList

/-- The line is none of those that are read in full, and nothing is recorded for it. -/
theorem callBehindBrace_dropped : ∃ d, read (Source.ofText callBehindBrace 0) = .ok d ∧
    ∃ line ∈ (Source.ofText callBehindBrace 0).body, line.text = "\x7d Person(p, \"P\")".toList ∧
      afterKeywordColon? "title" line.text = none ∧ d.entitiesAt line.position = [] := by
  let frame : Frame := ⟨.plain, "b".toList, none, ⟨some "B".toList, none, none, none, none⟩, ⟨2, 1⟩⟩
  let d : C4Diagram := ⟨⟨.c4Context, callBehindBrace, ⟨1, 1⟩⟩, none, [], [.around frame [] []], [], []⟩
  have accepted : read (Source.ofText callBehindBrace 0) = .ok d := by with_unfolding_all rfl
  refine ⟨d, accepted, .ofRaw 3 "\x7d Person(p, \"P\")".toList, ?_, ?_, ?_, ?_⟩
  · decide +kernel
  · decide +kernel
  · decide +kernel
  · decide +kernel

end DiagramLint.C4Diagram
