import DiagramLint.C4Diagram.Call

/-!
Reading C4 diagrams. The lines of a boundary are found before they are read: the brace that closes
it is the first one with no other brace left to close, where a line that ends with an opening brace
opens one. A boundary and what follows it are read from fewer lines than those at hand.
-/
namespace DiagramLint.C4Diagram

open Text

/-- What has been read of a diagram: everything about the whole, and the elements and boundaries of
the scope that is being read. -/
structure Draft where
  title : Option Text := none
  relationships : List Relationship := []
  styles : List Style := []
  elements : List Element := []
  boundaries : List Boundary := []
  deriving Repr

namespace Draft

/-- The draft at the start of a scope. -/
def enter (d : Draft) : Draft := { d with elements := [], boundaries := [] }

/-- The draft of a scope after a boundary in it; `inner` is the draft at the boundary's end. -/
def leave (d : Draft) (frame : Frame) (inner : Draft) : Draft :=
  { inner with
    elements := d.elements
    boundaries := d.boundaries ++ [.around frame inner.elements inner.boundaries] }

end Draft

/-- The line ends with an opening brace. -/
def opens (line : Line) : Bool := endsWith ['{'] line.text

/-- The line begins with a closing brace. -/
def closes (line : Line) : Bool := startsWith ['}'] line.text

/-- The lines before and after the line that closes a scope; `pending` is the number of braces that
are closed before it. -/
def cutScope? (pending : Nat) : List Line → Option (List Line × List Line)
  | [] => none
  | line :: rest =>
    if opens line then
      (cutScope? (pending + 1) rest).map fun (inner, after) => (line :: inner, after)
    else if closes line then
      match pending with
      | 0 => some ([], rest)
      | n + 1 => (cutScope? n rest).map fun (inner, after) => (line :: inner, after)
    else (cutScope? pending rest).map fun (inner, after) => (line :: inner, after)

theorem length_of_cutScope? {pending : Nat} {lines inner after : List Line}
    (found : cutScope? pending lines = some (inner, after)) :
    inner.length + after.length < lines.length := by
  induction lines generalizing pending inner with
  | nil => simp [cutScope?] at found
  | cons line rest ih =>
    have step : ∀ {p : Nat}, (cutScope? p rest).map
        (fun (inner, after) => (line :: inner, after)) = some (inner, after) →
        inner.length + after.length < (line :: rest).length := by
      intro p extended
      obtain ⟨⟨i, a⟩, later, same⟩ := Option.map_eq_some_iff.1 extended
      simp only [Prod.mk.injEq] at same
      obtain ⟨rfl, rfl⟩ := same
      have := ih later
      simp only [List.length_cons]
      omega
    rw [cutScope?.eq_def] at found
    dsimp only at found
    split at found
    · exact step found
    · split at found
      · split at found
        · simp only [Option.some.injEq, Prod.mk.injEq] at found
          obtain ⟨rfl, rfl⟩ := found
          simp
        · exact step found
      · exact step found

/-- The draft after a call that opens no scope. -/
def readCall (d : Draft) (line : Line) (call : Call) : Except ParseError Draft :=
  match ElementKind.ofKeyword? call.name with
  | some kind => (call.element line kind).map fun e => { d with elements := d.elements ++ [e] }
  | none =>
    match RelationshipKind.ofKeyword? call.name with
    | some kind =>
      (call.relationship line kind).map fun r =>
        { d with relationships := d.relationships ++ [r] }
    | none =>
      match StyleKind.ofKeyword? call.name with
      | some kind => (call.style line kind).map fun s => { d with styles := d.styles ++ [s] }
      | none => .error (line.fail (.constructorUnknown call.name))

/-- The next line is an opening brace and nothing else. -/
def braceFollows (rest : List Line) : Bool := rest.head?.any fun next => next.text = ['{']

/-- The lines of the scope that a line opens and the lines behind it: the opening brace stands at
the end of the line or on the next line. -/
def scopeBelow? (line : Line) (rest : List Line) : Option (List Line × List Line) :=
  cutScope? 0 (if braceFollows rest && !opens line then rest.tail else rest)

theorem length_of_scopeBelow? {line : Line} {rest inner after : List Line}
    (found : scopeBelow? line rest = some (inner, after)) :
    inner.length + after.length < rest.length := by
  have shorter := length_of_cutScope? found
  split at shorter
  · simp only [List.length_tail] at shorter
    omega
  · exact shorter

/-- The draft after the lines of a scope. -/
def readScope (d : Draft) : List Line → Except ParseError Draft
  | [] => .ok d
  | line :: rest =>
    if closes line then .error (line.fail .boundaryCloseStray)
    else match afterKeywordColon? "title" line.text with
    | some title => readScope { d with title := trimmed? title } rest
    | none => do
      let call ← call line (braceFollows rest)
      match BoundaryKind.ofKeyword? call.name, call.hasBody with
      | some kind, true => do
        let frame ← call.frame line kind
        match _h : scopeBelow? line rest with
        | none => .error ((Fault.boundaryUnclosed frame.id).at line.position)
        | some (inner, after) => do
          let inner ← readScope d.enter inner
          readScope (d.leave frame inner) after
      | none, true => .error (line.fail (.scopeRefused call.name))
      | _, false => do
        let d ← readCall d line call
        readScope d rest
termination_by lines => lines.length
decreasing_by
  · simp
  · have := length_of_scopeBelow? (by assumption)
    simp only [List.length_cons]
    omega
  · have := length_of_scopeBelow? (by assumption)
    simp only [List.length_cons]
    omega
  · simp

/-- The C4 diagram of a source. -/
def read (s : Source) : Except ParseError C4Diagram := do
  let kinds := Kind.all.filter Kind.isC4
  let (header, keyword, rest) ← s.headerWith (kinds.map Kind.keyword)
  match rest, kinds.find? fun kind => kind.keyword = keyword with
  | [], some kind => do
    let d ← readScope {} s.body
    .ok ⟨s.header kind header, d.title, d.elements, d.boundaries, d.relationships, d.styles⟩
  | _, _ => .error ((Fault.headerModifier keyword rest).at header.position)

end DiagramLint.C4Diagram
