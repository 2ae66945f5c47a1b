import DiagramLint.Proofs.C4Diagram.Calls
import DiagramLint.Proofs.C4Diagram.Derivation
import DiagramLint.Proofs.LineNumbers

/-!
Boundaries and braces. A stack of boundaries is run over the body lines: a call of a boundary with a
brace behind it puts the boundary on top, and a closing brace takes the top away. A diagram that is
read holds every element and every boundary in the boundary that is on top at its line
(`read_follows_braces`).
-/
namespace DiagramLint.C4Diagram

open Text

/-- A body line with the boundaries that are open in front of it, the innermost first. -/
structure Visit where
  line : Line
  /-- The next line is an opening brace and nothing else. -/
  braceBelow : Bool
  stack : List Frame

namespace Visit

/-- The call that the line makes; a closing brace and a title make none. -/
def call? (v : Visit) : Option Call :=
  if closes v.line || (afterKeywordColon? "title" v.line.text).isSome then none
  else (call v.line v.braceBelow).toOption

/-- What the line makes if its call has, or has not, a brace behind it and a keyword of some sort. -/
def made? {κ α : Type} (braced : Bool) (ofKeyword? : Text → Option κ)
    (make : Call → Line → κ → Except ParseError α) (v : Visit) : Option α :=
  v.call?.bind fun c =>
    if c.hasBody = braced then (ofKeyword? c.name).bind fun kind => (make c v.line kind).toOption
    else none

/-- The boundary that the line opens. -/
def opened? : Visit → Option Frame := made? true BoundaryKind.ofKeyword? Call.frame

/-- The element that the line makes. -/
def element? : Visit → Option Element := made? false ElementKind.ofKeyword? Call.element

/-- The relationship that the line makes. -/
def relationship? : Visit → Option Relationship :=
  made? false RelationshipKind.ofKeyword? Call.relationship

/-- The style that the line makes. -/
def style? : Visit → Option Style := made? false StyleKind.ofKeyword? Call.style

/-- The stack behind the line; nothing can be taken from an empty stack. -/
def next? (v : Visit) : Option (List Frame) :=
  if closes v.line then
    match v.stack with
    | [] => none
    | _ :: rest => some rest
  else some (v.opened?.toList ++ v.stack)

/-- The stack behind a line that opens a boundary. -/
def openedPath? (v : Visit) : Option (List Frame) := v.opened?.map (· :: v.stack)

end Visit

/-- The run of a stack over some lines, and the stack behind them. -/
def visits? (stack : List Frame) : List Line → Option (List Visit × List Frame)
  | [] => some ([], stack)
  | line :: rest =>
    let visit : Visit := ⟨line, braceFollows rest, stack⟩
    visit.next?.bind fun next => (visits? next rest).map fun (visits, last) => (visit :: visits, last)

/-- What the lines make at which the stack is the path. -/
def placed {α : Type} (made? : Visit → Option α) (path : List Frame) (visits : List Visit) : List α :=
  (visits.filter fun v => v.stack = path).filterMap made?

/-- The greatest height of the stack. -/
def height (visits : List Visit) : Nat := (visits.map fun v => v.stack.length).foldr max 0

/-- A boundary or the whole diagram with what is directly in it. -/
structure Scope where
  /-- The boundary and those around it, the innermost first. -/
  path : List Frame
  elements : List Element
  frames : List Frame

namespace Boundary

mutual

/-- The scopes of a boundary and of all boundaries in it. -/
def scopes (around : List Frame) : Boundary → List Scope
  | .around frame elements boundaries =>
    ⟨frame :: around, elements, boundaries.map Boundary.frame⟩ :: scopesOfAll (frame :: around) boundaries

/-- The scopes of some boundaries and of all boundaries in them. -/
def scopesOfAll (around : List Frame) : List Boundary → List Scope
  | [] => []
  | b :: rest => scopes around b ++ scopesOfAll around rest

end

end Boundary

/-- The scopes of a diagram: the whole diagram first, and every boundary before those in it. -/
def scopes (d : C4Diagram) : List Scope :=
  ⟨[], d.elements, d.boundaries.map Boundary.frame⟩ :: Boundary.scopesOfAll [] d.boundaries

/-- What is directly in the scopes with a path. -/
def under {α : Type} (part : Scope → List α) (path : List Frame) (scopes : List Scope) : List α :=
  (scopes.filter fun s => s.path = path).flatMap part

/-! ### The run of the stack -/

theorem lines_of_visits? {stack last : List Frame} {lines : List Line} {visits : List Visit}
    (run : visits? stack lines = some (visits, last)) : visits.map Visit.line = lines := by
  induction lines generalizing stack visits with
  | nil =>
    obtain ⟨rfl, rfl⟩ : [] = visits ∧ stack = last := by simpa [visits?] using run
    rfl
  | cons line rest ih =>
    obtain ⟨next, _, later⟩ := Option.bind_eq_some_iff.mp run
    obtain ⟨⟨more, l⟩, tail, same⟩ := Option.map_eq_some_iff.mp later
    simp only [Prod.mk.injEq] at same
    obtain ⟨rfl, rfl⟩ := same
    rw [List.map_cons, ih tail]

/-- The run over one more line in front. -/
theorem visits?_cons {stack next last : List Frame} {line : Line} {rest : List Line} {visits : List Visit}
    (step : Visit.next? ⟨line, braceFollows rest, stack⟩ = some next)
    (run : visits? next rest = some (visits, last)) :
    visits? stack (line :: rest) = some (⟨line, braceFollows rest, stack⟩ :: visits, last) := by
  simp only [visits?, step, run, Option.bind_some, Option.map_some]

/-- What follows lines that end at a closing brace does not change the run over them: no line looks
further than the line behind it. -/
theorem visits?_append {stack mid last : List Frame} {lines after : List Line} {close : Line}
    {visits more : List Visit} (closing : closes close = true)
    (run : visits? stack lines = some (visits, mid))
    (later : visits? mid (close :: after) = some (more, last)) :
    visits? stack (lines ++ close :: after) = some (visits ++ more, last) := by
  induction lines generalizing stack visits with
  | nil =>
    obtain ⟨rfl, rfl⟩ : [] = visits ∧ stack = mid := by simpa [visits?] using run
    exact later
  | cons line rest ih =>
    obtain ⟨next, step, behind⟩ := Option.bind_eq_some_iff.mp run
    obtain ⟨⟨first, l⟩, tail, same⟩ := Option.map_eq_some_iff.mp behind
    simp only [Prod.mk.injEq] at same
    obtain ⟨rfl, rfl⟩ := same
    have below : braceFollows (rest ++ close :: after) = braceFollows rest := by
      cases rest with
      | nil => simpa [braceFollows] using not_opens_of_lone_close closing
      | cons _ _ => rfl
    rw [← below] at step ⊢
    exact visits?_cons step (ih tail)

/-- The run over a boundary, the scope behind its brace, the closing brace and what follows. -/
theorem visits?_boundary {stack last : List Frame} {frame : Frame} {line close : Line} {within after : List Line}
    {visits more : List Visit} (open_line : closes line = false)
    (opened : Visit.opened? ⟨line, braceFollows (within ++ close :: after), stack⟩ = some frame)
    (closing : closes close = true) (inside : visits? (frame :: stack) within = some (visits, frame :: stack))
    (later : visits? stack after = some (more, last)) :
    visits? stack (line :: (within ++ close :: after)) =
      some (⟨line, braceFollows (within ++ close :: after), stack⟩ ::
        (visits ++ ⟨close, braceFollows after, frame :: stack⟩ :: more), last) := by
  have closed : visits? (frame :: stack) (close :: after) =
      some (⟨close, braceFollows after, frame :: stack⟩ :: more, last) :=
    visits?_cons (by simp [Visit.next?, closing]) later
  exact visits?_cons (by simp [Visit.next?, open_line, opened]) (visits?_append closing inside closed)

/-! ### Lines by themselves -/

/-- A line that opens no boundary and closes none leaves the stack alone. -/
theorem next?_of_not_opened {v : Visit} (open_line : closes v.line = false) (unopened : v.opened? = none) :
    v.next? = some v.stack := by
  simp [Visit.next?, open_line, unopened]

theorem made?_of_no_call {κ α : Type} {braced : Bool} {ofKeyword? : Text → Option κ}
    {make : Call → Line → κ → Except ParseError α} {v : Visit} (silent : v.call? = none) :
    v.made? braced ofKeyword? make = none := by
  rw [Visit.made?, silent]
  rfl

theorem made?_of_call {κ α : Type} {braced : Bool} {ofKeyword? : Text → Option κ}
    {make : Call → Line → κ → Except ParseError α} {v : Visit} {c : Call} (called : v.call? = some c)
    (body : c.hasBody = braced) :
    v.made? braced ofKeyword? make = (ofKeyword? c.name).bind fun kind => (make c v.line kind).toOption := by
  rw [Visit.made?, called, Option.bind_some, if_pos body]

theorem made?_of_other_body {κ α : Type} {braced : Bool} {ofKeyword? : Text → Option κ}
    {make : Call → Line → κ → Except ParseError α} {v : Visit} {c : Call} (called : v.call? = some c)
    (body : c.hasBody ≠ braced) : v.made? braced ofKeyword? make = none := by
  rw [Visit.made?, called, Option.bind_some, if_neg body]

theorem call?_of_close {v : Visit} (closing : closes v.line = true) : v.call? = none := by
  rw [Visit.call?, closing]
  rfl

theorem call?_of_title {v : Visit} {title : Text}
    (titled : afterKeywordColon? "title" v.line.text = some title) : v.call? = none := by
  simp [Visit.call?, titled]

theorem call?_of_call {v : Visit} {c : Call} (open_line : closes v.line = false)
    (untitled : afterKeywordColon? "title" v.line.text = none) (called : call v.line v.braceBelow = .ok c) :
    v.call? = some c := by
  simp [Visit.call?, open_line, untitled, called, Except.toOption]

/-- A line that calls a boundary opens it. -/
theorem opened?_of_call {v : Visit} {c : Call} {kind : BoundaryKind} {frame : Frame} (called : v.call? = some c)
    (body : c.hasBody = true) (keyword : BoundaryKind.ofKeyword? c.name = some kind)
    (framed : c.frame v.line kind = .ok frame) : v.opened? = some frame := by
  rw [Visit.opened?, made?_of_call called body, keyword, Option.bind_some, framed]
  rfl

/-- An opening brace alone calls nothing. -/
theorem call?_of_lone_brace {v : Visit} (lone : v.line.text = ['{']) : v.call? = none := by
  have uncalled : ∃ e, call v.line v.braceBelow = .error e := by
    have bare : dropEnd? ['{'] ['{'] = some [] := rfl
    exact ⟨_, by rw [call, lone, bare]; rfl⟩
  obtain ⟨e, failed⟩ := uncalled
  rw [Visit.call?, failed]
  split <;> rfl

theorem position_of_opened? {v : Visit} {frame : Frame} (opened : v.opened? = some frame) :
    frame.position = v.line.position := by
  obtain ⟨c, _, made⟩ := Option.bind_eq_some_iff.mp opened
  split at made
  · obtain ⟨kind, _, framed⟩ := Option.bind_eq_some_iff.mp made
    cases built : c.frame v.line kind with
    | error e => rw [built] at framed; exact nomatch framed
    | ok f =>
      obtain rfl : f = frame := by simpa [built, Except.toOption] using framed
      exact position_of_frame built
  · exact nomatch made

/-! ### What calls add -/

/-- What a call without a body adds to a draft is what its line makes. -/
theorem readCall_adds {d mid : Draft} {v : Visit} {c : Call} (called : v.call? = some c)
    (bodiless : c.hasBody = false) (read : readCall d v.line c = .ok mid) :
    mid.elements = d.elements ++ v.element?.toList ∧ mid.boundaries = d.boundaries ∧
      mid.relationships = d.relationships ++ v.relationship?.toList ∧
      mid.styles = d.styles ++ v.style?.toList := by
  simp only [Visit.element?, Visit.relationship?, Visit.style?, made?_of_call called bodiless]
  unfold readCall at read
  split at read
  · next kind keyword =>
    obtain ⟨no_relationship, no_style⟩ := element_keyword_apart keyword
    obtain ⟨e, built, rfl⟩ := exists_of_map_ok read
    simp [keyword, no_relationship, no_style, built, Except.toOption]
  · next no_element =>
    split at read
    · next kind keyword =>
      have no_style := relationship_keyword_apart keyword
      obtain ⟨r, built, rfl⟩ := exists_of_map_ok read
      simp [keyword, no_element, no_style, built, Except.toOption]
    · next no_relationship =>
      split at read
      · next kind keyword =>
        obtain ⟨s, built, rfl⟩ := exists_of_map_ok read
        simp [keyword, no_element, no_relationship, built, Except.toOption]
      · exact nomatch read

/-! ### Scopes -/

mutual

theorem length_of_mem_scopes {around : List Frame} : ∀ (b : Boundary) {s : Scope},
    s ∈ b.scopes around → around.length < s.path.length
  | .around frame elements boundaries, s, member => by
    rw [Boundary.scopes] at member
    rcases List.mem_cons.mp member with rfl | inside
    · simp
    · have deeper := length_of_mem_scopesOfAll boundaries inside
      rw [List.length_cons] at deeper
      omega

theorem length_of_mem_scopesOfAll {around : List Frame} : ∀ (bs : List Boundary) {s : Scope},
    s ∈ Boundary.scopesOfAll around bs → around.length < s.path.length
  | [], s, member => by simp [Boundary.scopesOfAll] at member
  | b :: rest, s, member => by
    rw [Boundary.scopesOfAll] at member
    rcases List.mem_append.mp member with first | later
    · exact length_of_mem_scopes b first
    · exact length_of_mem_scopesOfAll rest later

end

section

variable {α : Type} (part : Scope → List α) (made? : Visit → Option α) (path : List Frame)

theorem under_cons (s : Scope) (ss : List Scope) :
    under part path (s :: ss) = (if s.path = path then part s else []) ++ under part path ss := by
  by_cases here : s.path = path
  · simp [under, here]
  · simp [under, here]

theorem under_append (ss ss' : List Scope) :
    under part path (ss ++ ss') = under part path ss ++ under part path ss' := by
  simp [under]

theorem placed_cons (v : Visit) (vs : List Visit) :
    placed made? path (v :: vs) = (if v.stack = path then (made? v).toList else []) ++ placed made? path vs := by
  by_cases here : v.stack = path
  · cases made : made? v <;> simp [placed, here, made]
  · simp [placed, here]

theorem placed_append (vs vs' : List Visit) :
    placed made? path (vs ++ vs') = placed made? path vs ++ placed made? path vs' := by
  simp [placed]

/-- Nothing within a boundary lies directly in a scope around it. -/
theorem under_boundary_around (frame : Frame) (es : List Element) (bs : List Boundary) :
    under part path ((Boundary.around frame es bs).scopes path) = [] := by
  have apart : ∀ s ∈ (Boundary.around frame es bs).scopes path, ¬ decide (s.path = path) = true := by
    intro s member same
    have deeper := length_of_mem_scopes _ member
    rw [of_decide_eq_true same] at deeper
    exact Nat.lt_irrefl _ deeper
  rw [under, List.filter_eq_nil_iff.mpr apart]
  rfl

end

theorem height_cons (v : Visit) (vs : List Visit) : height (v :: vs) = max v.stack.length (height vs) := rfl

theorem height_append (vs vs' : List Visit) : height (vs ++ vs') = max (height vs) (height vs') := by
  induction vs with
  | nil => simp [height]
  | cons v vs ih => rw [List.cons_append, height_cons, height_cons, ih, Nat.max_assoc]

/-! ### Derivations and runs -/

/-- What a derivation reads from the lines of a scope, beside a run of the stack over them that ends
where it began: the elements and boundaries are new directly in the scope. -/
structure Follows (stack : List Frame) (lines : List Line) (d d' : Draft) (visits : List Visit)
    (elements : List Element) (boundaries : List Boundary) : Prop where
  run : visits? stack lines = some (visits, stack)
  new_elements : d'.elements = d.elements ++ elements
  new_boundaries : d'.boundaries = d.boundaries ++ boundaries
  relationships : d'.relationships = d.relationships ++ visits.filterMap Visit.relationship?
  styles : d'.styles = d.styles ++ visits.filterMap Visit.style?
  elements_under : ∀ path, (if stack = path then elements else []) ++
    under Scope.elements path (Boundary.scopesOfAll stack boundaries) = placed Visit.element? path visits
  frames_under : ∀ path, (if stack = path then boundaries.map Boundary.frame else []) ++
    under Scope.frames path (Boundary.scopesOfAll stack boundaries) = placed Visit.opened? path visits
  paths : (Boundary.scopesOfAll stack boundaries).map Scope.path = visits.filterMap Visit.openedPath?
  high : max stack.length (height visits) = stack.length + Boundary.deepest boundaries

namespace Follows

variable {stack : List Frame} {line : Line} {rest : List Line} {d mid d' : Draft} {visits : List Visit}
  {elements : List Element} {boundaries : List Boundary}

theorem nil (stack : List Frame) (d : Draft) : Follows stack [] d d [] [] [] where
  run := rfl
  new_elements := (List.append_nil _).symm
  new_boundaries := (List.append_nil _).symm
  relationships := (List.append_nil _).symm
  styles := (List.append_nil _).symm
  elements_under path := by split <;> rfl
  frames_under path := by split <;> rfl
  paths := rfl
  high := Nat.max_zero _

private theorem filterMap_cons_toList {α : Type} (f : Visit → Option α) (v : Visit) (vs : List Visit) :
    (v :: vs).filterMap f = (f v).toList ++ vs.filterMap f := by
  cases made : f v <;> simp [made]

private theorem filterMap_between {α : Type} {f : Visit → Option α} {v w : Visit} (first : f v = none)
    (last : f w = none) (vs ws : List Visit) :
    (v :: (vs ++ w :: ws)).filterMap f = vs.filterMap f ++ ws.filterMap f := by
  simp [first, last]

/-- A line that leaves the stack alone and adds what it makes. -/
theorem line_alone (later : Follows stack rest mid d' visits elements boundaries)
    (open_line : closes line = false)
    (unopened : Visit.opened? ⟨line, braceFollows rest, stack⟩ = none)
    (elements_mid : mid.elements = d.elements ++ (Visit.element? ⟨line, braceFollows rest, stack⟩).toList)
    (boundaries_mid : mid.boundaries = d.boundaries)
    (relationships_mid : mid.relationships =
      d.relationships ++ (Visit.relationship? ⟨line, braceFollows rest, stack⟩).toList)
    (styles_mid : mid.styles = d.styles ++ (Visit.style? ⟨line, braceFollows rest, stack⟩).toList) :
    Follows stack (line :: rest) d d' (⟨line, braceFollows rest, stack⟩ :: visits)
      ((Visit.element? ⟨line, braceFollows rest, stack⟩).toList ++ elements) boundaries where
  run := visits?_cons (next?_of_not_opened open_line unopened) later.run
  new_elements := by rw [later.new_elements, elements_mid, List.append_assoc]
  new_boundaries := by rw [later.new_boundaries, boundaries_mid]
  relationships := by
    rw [later.relationships, relationships_mid, List.append_assoc, filterMap_cons_toList Visit.relationship?]
  styles := by rw [later.styles, styles_mid, List.append_assoc, filterMap_cons_toList Visit.style?]
  elements_under path := by
    rw [placed_cons, ← later.elements_under path]
    by_cases here : stack = path <;> simp [here]
  frames_under path := by
    rw [placed_cons, ← later.frames_under path, unopened]
    simp
  paths := by
    rw [later.paths, filterMap_cons_toList Visit.openedPath?, Visit.openedPath?, unopened]
    rfl
  high := by
    rw [height_cons, ← Nat.max_assoc, Nat.max_self]
    exact later.high

/-- A line that makes no call and closes nothing. -/
theorem silent (later : Follows stack rest mid d' visits elements boundaries)
    (open_line : closes line = false)
    (uncalled : Visit.call? ⟨line, braceFollows rest, stack⟩ = none)
    (same_elements : mid.elements = d.elements) (same_boundaries : mid.boundaries = d.boundaries)
    (same_relationships : mid.relationships = d.relationships) (same_styles : mid.styles = d.styles) :
    Follows stack (line :: rest) d d' (⟨line, braceFollows rest, stack⟩ :: visits) elements boundaries := by
  have no_element : Visit.element? ⟨line, braceFollows rest, stack⟩ = none := made?_of_no_call uncalled
  have added := later.line_alone (d := d) open_line (made?_of_no_call uncalled)
    (by rw [no_element, same_elements]; simp) same_boundaries
    (by rw [Visit.relationship?, made?_of_no_call uncalled, same_relationships]; simp)
    (by rw [Visit.style?, made?_of_no_call uncalled, same_styles]; simp)
  rw [no_element] at added
  exact added

/-- The opening brace alone that a boundary takes is passed over. -/
theorem brace_lines (opener : Line) (behind : List Line)
    (within : Follows stack rest d d' visits elements boundaries) :
    ∃ visits', Follows stack (braceLines opener behind ++ rest) d d' visits' elements boundaries := by
  rcases braceLines_cases opener behind with none_taken | ⟨brace, taken, lone, _⟩
  · rw [none_taken]
    exact ⟨visits, within⟩
  · have open_line : closes brace = false := by
      rw [closes, lone]
      rfl
    rw [taken]
    exact ⟨_, within.silent open_line (call?_of_lone_brace lone) rfl rfl rfl rfl⟩

/-- A boundary, the scope behind its brace, the closing brace and what follows. -/
theorem boundary {frame : Frame} {within after : List Line} {close : Line} {inner : Draft}
    {visits_in visits_after : List Visit} {elements_in : List Element} {boundaries_in : List Boundary}
    (open_line : closes line = false)
    (opened : Visit.opened? ⟨line, braceFollows (within ++ close :: after), stack⟩ = some frame)
    (no_element : Visit.element? ⟨line, braceFollows (within ++ close :: after), stack⟩ = none)
    (no_relationship : Visit.relationship? ⟨line, braceFollows (within ++ close :: after), stack⟩ = none)
    (no_style : Visit.style? ⟨line, braceFollows (within ++ close :: after), stack⟩ = none)
    (closing : closes close = true)
    (inside : Follows (frame :: stack) within d.enter inner visits_in elements_in boundaries_in)
    (later : Follows stack after (d.leave frame inner) d' visits_after elements boundaries) :
    Follows stack (line :: (within ++ close :: after)) d d'
      (⟨line, braceFollows (within ++ close :: after), stack⟩ ::
        (visits_in ++ ⟨close, braceFollows after, frame :: stack⟩ :: visits_after))
      elements (.around frame elements_in boundaries_in :: boundaries) := by
  have uncalled : Visit.call? ⟨close, braceFollows after, frame :: stack⟩ = none := call?_of_close closing
  have scopes_eq : Boundary.scopesOfAll stack (.around frame elements_in boundaries_in :: boundaries) =
      (Boundary.around frame elements_in boundaries_in).scopes stack ++
        Boundary.scopesOfAll stack boundaries := rfl
  have elements_within : ∀ path, under Scope.elements path
      ((Boundary.around frame elements_in boundaries_in).scopes stack) = placed Visit.element? path visits_in := by
    intro path
    rw [Boundary.scopes, under_cons]
    exact inside.elements_under path
  have frames_within : ∀ path, under Scope.frames path
      ((Boundary.around frame elements_in boundaries_in).scopes stack) = placed Visit.opened? path visits_in := by
    intro path
    rw [Boundary.scopes, under_cons]
    exact inside.frames_under path
  exact {
    run := visits?_boundary open_line opened closing inside.run later.run
    new_elements := later.new_elements
    new_boundaries := by
      have elements_inner : inner.elements = elements_in := inside.new_elements
      have boundaries_inner : inner.boundaries = boundaries_in := inside.new_boundaries
      rw [later.new_boundaries, Draft.leave, elements_inner, boundaries_inner, List.append_assoc]
      rfl
    relationships := by
      rw [filterMap_between no_relationship (made?_of_no_call uncalled), later.relationships, ← List.append_assoc]
      exact congrArg (· ++ _) inside.relationships
    styles := by
      rw [filterMap_between no_style (made?_of_no_call uncalled), later.styles, ← List.append_assoc]
      exact congrArg (· ++ _) inside.styles
    elements_under path := by
      rw [scopes_eq, under_append, placed_cons, placed_append, placed_cons, no_element,
        Visit.element?, made?_of_no_call uncalled, ← Visit.element?, ← elements_within path,
        ← later.elements_under path]
      -- in the scope around the boundary, nothing of the boundary is found
      by_cases here : stack = path
      · subst here
        simp [under_boundary_around]
      · simp [here]
    frames_under path := by
      rw [scopes_eq, under_append, placed_cons, placed_append, placed_cons, opened,
        Visit.opened?, made?_of_no_call uncalled, ← Visit.opened?, ← frames_within path,
        ← later.frames_under path]
      by_cases here : stack = path
      · subst here
        simp [under_boundary_around, Boundary.frame]
      · simp [here]
    paths := by
      have no_path : Visit.openedPath? ⟨close, braceFollows after, frame :: stack⟩ = none := by
        rw [Visit.openedPath?, Visit.opened?, made?_of_no_call uncalled]
        rfl
      have path : Visit.openedPath? ⟨line, braceFollows (within ++ close :: after), stack⟩ =
          some (frame :: stack) := by
        rw [Visit.openedPath?, opened]
        rfl
      rw [scopes_eq, Boundary.scopes, filterMap_cons_toList, List.filterMap_append, filterMap_cons_toList,
        path, no_path, ← inside.paths, ← later.paths]
      simp
    high := by
      have high_in := inside.high
      have high_after := later.high
      rw [height_cons, height_append, height_cons, Boundary.deepest, Boundary.depth]
      rw [List.length_cons] at high_in
      simp only [List.length_cons]
      omega }

end Follows

/-- Every derivation goes along with a run of the stack, whatever is open around it. -/
theorem follows_of_reads {d d' : Draft} {lines : List Line} (reads : Reads d lines d') (stack : List Frame) :
    ∃ visits elements boundaries, Follows stack lines d d' visits elements boundaries := by
  induction reads generalizing stack with
  | done d => exact ⟨[], [], [], .nil stack d⟩
  | title open_line titled _ ih =>
    obtain ⟨visits, elements, boundaries, later⟩ := ih stack
    exact ⟨_, elements, boundaries, later.silent open_line (call?_of_title titled) rfl rfl rfl rfl⟩
  | @boundary d inner d' line rest within after called kind frame open_line untitled reads_call keyword body
      framed scope _ _ ih_within ih_after =>
    obtain ⟨_, elements_in, boundaries_in, within_scope⟩ := ih_within (frame :: stack)
    obtain ⟨visits_in, inside⟩ := within_scope.brace_lines line rest
    obtain ⟨visits_after, elements, boundaries, later⟩ := ih_after stack
    obtain ⟨close, closing, split⟩ := scopeBelow?_split scope
    rw [← List.append_assoc] at split
    generalize braceLines line rest = braces at split inside
    subst split
    have called_here : Visit.call? ⟨line, braceFollows (braces ++ within ++ close :: after), stack⟩ = some called :=
      call?_of_call open_line untitled reads_call
    have opened : Visit.opened? ⟨line, braceFollows (braces ++ within ++ close :: after), stack⟩ = some frame :=
      opened?_of_call called_here body keyword framed
    have other : called.hasBody ≠ false := by simp [body]
    exact ⟨_, elements, _, .boundary open_line opened (made?_of_other_body called_here other)
      (made?_of_other_body called_here other) (made?_of_other_body called_here other) closing inside later⟩
  | call open_line untitled reads_call bodiless made _ ih =>
    obtain ⟨visits, elements, boundaries, later⟩ := ih stack
    have called_here := call?_of_call (v := ⟨_, _, stack⟩) open_line untitled reads_call
    obtain ⟨adds_elements, adds_boundaries, adds_relationships, adds_styles⟩ :=
      readCall_adds called_here bodiless made
    have unopened : Visit.opened? ⟨_, _, stack⟩ = none :=
      made?_of_other_body called_here (by simp [bodiless])
    exact ⟨_, _, boundaries, later.line_alone open_line unopened adds_elements adds_boundaries
      adds_relationships adds_styles⟩

/-! ### Diagrams -/

/-- A diagram and the run of the stack over its body lines. -/
structure MatchesBraces (body : List Line) (d : C4Diagram) (visits : List Visit) : Prop where
  /-- Nothing is taken from an empty stack, and the stack is empty at the end. -/
  run : visits? [] body = some (visits, [])
  /-- A path leads to one scope. -/
  paths : (d.scopes.map Scope.path).Nodup
  /-- The elements of a scope are those of the lines at which the scope is on top, in order. -/
  elements : ∀ path, under Scope.elements path d.scopes = placed Visit.element? path visits
  /-- The boundaries of a scope are those of the lines at which the scope is on top, in order. -/
  frames : ∀ path, under Scope.frames path d.scopes = placed Visit.opened? path visits
  /-- Relationships belong to the diagram, whatever is open at their lines. -/
  relationships : d.relationships = visits.filterMap Visit.relationship?
  /-- Styles belong to the diagram, whatever is open at their lines. -/
  styles : d.styles = visits.filterMap Visit.style?
  depth : d.depth = height visits

/-- No two lines open a boundary with the same path. -/
theorem openedPaths_nodup {stack last : List Frame} {lines : List Line} {visits : List Visit}
    (increasing : lines.Pairwise fun a b => a.number < b.number)
    (run : visits? stack lines = some (visits, last)) : (visits.filterMap Visit.openedPath?).Nodup := by
  rw [← lines_of_visits? run, List.pairwise_map] at increasing
  refine List.Pairwise.filterMap Visit.openedPath? ?_ increasing
  intro v w before path path_v path' path_w same
  subst same
  obtain ⟨f, opened_v, rfl⟩ := Option.map_eq_some_iff.mp path_v
  obtain ⟨g, opened_w, paths⟩ := Option.map_eq_some_iff.mp path_w
  obtain ⟨rfl, _⟩ := List.cons.inj paths
  have position := (position_of_opened? opened_v).symm.trans (position_of_opened? opened_w)
  exact Nat.ne_of_lt before (congrArg Position.line position)

/-- The boundaries of a diagram nest as the braces in its source do. -/
theorem read_matches_braces {text : Text} {offset : Nat} {d : C4Diagram}
    (accepted : read (Source.ofText text offset) = .ok d) :
    ∃ visits, MatchesBraces (Source.ofText text offset).body d visits := by
  obtain ⟨⟨header, keyword, rest⟩, _, behind⟩ := exists_of_bind_ok accepted
  dsimp only at behind
  split at behind
  · obtain ⟨draft, scope, made⟩ := exists_of_bind_ok behind
    obtain rfl := Except.ok.inj made
    obtain ⟨visits, elements, boundaries, follows⟩ := follows_of_reads (reads_of_readScope scope) []
    have elements_eq : draft.elements = elements := follows.new_elements
    have boundaries_eq : draft.boundaries = boundaries := follows.new_boundaries
    subst elements_eq boundaries_eq
    refine ⟨visits, follows.run, ?_, ?_, ?_, follows.relationships, follows.styles, ?_⟩
    · rw [scopes, List.map_cons, follows.paths, List.nodup_cons]
      refine ⟨?_, openedPaths_nodup (body_increasing text offset) follows.run⟩
      intro empty
      obtain ⟨v, _, path⟩ := List.mem_filterMap.mp empty
      obtain ⟨frame, _, nonempty⟩ := Option.map_eq_some_iff.mp path
      exact nomatch nonempty
    · intro path
      rw [scopes, under_cons]
      exact follows.elements_under path
    · intro path
      rw [scopes, under_cons]
      exact follows.frames_under path
    · have high := follows.high
      simp only [List.length_nil, Nat.zero_max, Nat.zero_add] at high
      exact high.symm
  · exact nomatch behind

/-- Two nested boundaries, the outer one with its brace on the line below. -/
def nestedBoundaries : Text :=
  "C4Context\nBoundary(b, \"B\")\n\x7b\n System_Boundary(c, \"C\") \x7b\n  Person(p, \"P\")\n  Rel(p, q)\n \x7d
 Person(q, \"Q\")\n\x7d".toList

theorem read_matches_braces_nested : ∃ d, read (Source.ofText nestedBoundaries 0) = .ok d ∧
    ∃ visits, MatchesBraces (Source.ofText nestedBoundaries 0).body d visits := by
  obtain ⟨d, accepted⟩ := exists_of_isOk (x := read (Source.ofText nestedBoundaries 0)) (by decide +kernel)
  exact ⟨d, accepted, read_matches_braces accepted⟩

end DiagramLint.C4Diagram
