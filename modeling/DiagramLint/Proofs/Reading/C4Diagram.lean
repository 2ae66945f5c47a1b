import DiagramLint.Proofs.C4Diagram.Calls
import DiagramLint.Proofs.C4Diagram.Derivation
import DiagramLint.Proofs.Reading.Basic

/-!
How C4 diagrams are read. The lines of a boundary are read before those behind it, so everything stands
in the order of the lines, scope by scope. A boundary that is never closed is refused at its own line,
which is not the first line at fault.
-/
namespace DiagramLint.C4Diagram

open Text

namespace Boundary

mutual

/-- The positions inside a boundary, scope by scope. -/
def columns : Boundary → List (List Position)
  | .around _ elements boundaries =>
    [elements.map Element.position, boundaries.map fun b => b.frame.position] ++ columnsOfAll boundaries

/-- The positions inside some boundaries. -/
def columnsOfAll : List Boundary → List (List Position)
  | [] => []
  | b :: rest => columns b ++ columnsOfAll rest

end

theorem columnsOfAll_append (first second : List Boundary) :
    columnsOfAll (first ++ second) = columnsOfAll first ++ columnsOfAll second := by
  induction first with
  | nil => rfl
  | cons b first ih => simp [columnsOfAll, ih]

end Boundary

/-- The positions of what has been read. -/
def Draft.columns (d : Draft) : List (List Position) :=
  [d.relationships.map Relationship.position, d.styles.map Style.position, d.elements.map Element.position,
    d.boundaries.map fun b => b.frame.position] ++ Boundary.columnsOfAll d.boundaries

instance : Stored C4Diagram where
  header diagram := diagram.header
  withSource text diagram := { diagram with header := diagram.header.withSource text }
  columns diagram :=
    [diagram.relationships.map Relationship.position, diagram.styles.map Style.position,
      diagram.elements.map Element.position, diagram.boundaries.map fun b => b.frame.position] ++
        Boundary.columnsOfAll diagram.boundaries

/-! ### Calls -/

theorem call_ofLine (line : Line) (braceBelow : Bool) : OfLine line (call line braceBelow) fun _ => True := by
  unfold call
  dsimp only
  split
  · simp [Fault.code]
  · split
    · simp [Fault.code]
    · split <;> simp [Fault.code]

theorem mapError_ofLine {α : Type} {line : Line} {x : Except Fault α} {good : α → Prop}
    (known : ∀ fault, x = .error fault → fault.code ≠ .e001 ∧ fault.code ≠ .e002) (made : ∀ a, x = .ok a → good a) :
    OfLine line (x.mapError line.fail) good := by
  cases x with
  | error fault => exact ⟨rfl, known fault rfl⟩
  | ok a => exact made a rfl

theorem code_of_bindings {c : Call} {layout free : Layout} {arguments : List Text} {fault : Fault}
    (failed : bindings c layout free arguments = .error fault) : fault.code = .e101 := by
  induction arguments generalizing free with
  | nil => cases failed
  | cons argument rest ih =>
    have later {free : Layout} {slot : Slot × Option Text}
        (failed : (bindings c layout free rest).map (slot :: ·) = .error fault) : fault.code = .e101 := by
      cases found : bindings c layout free rest with
      | ok b =>
        rw [found] at failed
        cases failed
      | error other =>
        rw [found] at failed
        cases failed
        exact ih found
    unfold bindings at failed
    split at failed
    · split at failed
      · exact later failed
      · cases failed
        rfl
    · split at failed
      · cases failed
        rfl
      · exact later failed

theorem bind_ofLine (c : Call) (line : Line) (layout : Layout) : OfLine line (c.bind line layout) fun _ => True := by
  refine mapError_ofLine ?_ fun _ _ => trivial
  intro fault failed
  simp [code_of_bindings failed]

theorem require_ofLine (b : Bindings) (line : Line) (slot : Slot) :
    OfLine line (b.require line slot) fun _ => True := by
  unfold Bindings.require
  split <;> simp [Fault.code]

theorem element_ofLine (c : Call) (line : Line) (kind : ElementKind) :
    OfLine line (c.element line kind) fun e => e.position = line.position := by
  refine (bind_ofLine c line _).bind ?_
  intro b _
  refine (require_ofLine b line .id).bind ?_
  exact fun _ _ => rfl

theorem frame_ofLine (c : Call) (line : Line) (kind : BoundaryKind) :
    OfLine line (c.frame line kind) fun frame => frame.position = line.position := by
  refine (bind_ofLine c line _).bind ?_
  intro b _
  refine (require_ofLine b line .id).bind ?_
  exact fun _ _ => rfl

theorem relationship_ofLine (c : Call) (line : Line) (kind : RelationshipKind) :
    OfLine line (c.relationship line kind) fun r => r.position = line.position := by
  refine (bind_ofLine c line _).bind ?_
  intro b _
  refine (require_ofLine b line .source).bind ?_
  intro source _
  refine (require_ofLine b line .target).bind ?_
  exact fun _ _ => rfl

theorem code_of_addArgument {s : Style} {c : Call} {argument : Text} {fault : Fault}
    (failed : s.addArgument c argument = .error fault) : fault.code = .e101 := by
  unfold Style.addArgument at failed
  split at failed
  · cases failed
  · split at failed
    · cases failed
    · split at failed
      · cases failed
      · obtain rfl := Except.error.inj failed
        rfl

theorem code_of_arguments {s : Style} {c : Call} {arguments : List Text} {fault : Fault}
    (failed : arguments.foldlM (fun (s : Style) argument => s.addArgument c argument) s = .error fault) :
    fault.code = .e101 := by
  induction arguments generalizing s with
  | nil => cases failed
  | cons argument rest ih =>
    rcases bind_error failed with first | ⟨mid, -, later⟩
    · exact code_of_addArgument first
    · exact ih later

theorem style_ofLine (c : Call) (line : Line) (kind : StyleKind) :
    OfLine line (c.style line kind) fun s => s.position = line.position := by
  have arguments : OfLine line ((c.arguments.foldlM (fun (s : Style) argument => s.addArgument c argument)
      ⟨kind, [], [], line.position⟩).mapError line.fail) fun s => s.position = line.position := by
    refine mapError_ofLine ?_ fun s added => position_of_arguments added
    intro fault failed
    simp [code_of_arguments failed]
  refine arguments.bind ?_
  intro style position
  split
  · simp [Fault.code]
  · exact position

theorem readCall_ofLine (d : Draft) (line : Line) (c : Call) :
    OfLine line (readCall d line c) fun d' => Grows line.position d.columns d'.columns := by
  unfold readCall
  split
  · refine (element_ofLine c line _).map ?_
    intro e position
    exact .front (by simp [Grows, position]) _
  · split
    · refine (relationship_ofLine c line _).map ?_
      intro r position
      exact .front (by simp [Grows, position]) _
    · split
      · refine (style_ofLine c line _).map ?_
        intro s position
        exact .front (by simp [Grows, position]) _
      · simp [Fault.code]

/-! ### Scopes -/

/-- Behind a boundary stand the columns of its scope and those that were there, but for the boundary. -/
theorem columns_leave (d inner : Draft) (frame : Frame) :
    ∀ column ∈ (d.leave frame inner).columns, column ∈ inner.columns ∨ column ∈ d.columns ∨
      column = d.boundaries.map (fun b => b.frame.position) ++ [frame.position] := by
  refine List.forall_mem_append.mpr ⟨?_, ?_⟩
  · simp [Draft.leave, Draft.columns, Boundary.frame]
  · show ∀ column ∈ Boundary.columnsOfAll (d.boundaries ++ [.around frame inner.elements inner.boundaries]), _
    rw [Boundary.columnsOfAll_append]
    refine List.forall_mem_append.mpr ⟨?_, ?_⟩
    · exact fun column old => .inr (.inl (List.mem_append_right _ old))
    · intro column new
      rw [Boundary.columnsOfAll, Boundary.columns, Boundary.columnsOfAll, List.append_nil] at new
      left
      simp only [Draft.columns, List.mem_append, List.mem_cons] at new ⊢
      tauto

/-- What is read of the lines of a scope stands behind what was there, in the order of the lines. -/
theorem columns_along {d d' : Draft} {lines : List Line} (reads : Reads d lines d') {places : List Position}
    (order : InOrder (places ++ lines.map Line.position)) (along : ∀ column ∈ d.columns, Along places column) :
    ∀ column ∈ d'.columns, Along (places ++ lines.map Line.position) column := by
  induction reads generalizing places with
  | done d => simpa using along
  | @title d d' line rest title _ _ _ ih =>
    rw [List.map_cons, ← List.singleton_append, ← List.append_assoc] at order ⊢
    refine ih order ?_
    intro column member
    exact (along column member).mono fun _ => List.mem_append_left _
  | @call d mid d' line rest called _ _ _ _ made _ ih =>
    rw [List.map_cons, ← List.singleton_append, ← List.append_assoc] at order ⊢
    refine ih order ?_
    intro column member
    have last := (List.pairwise_append.mp (List.pairwise_append.mp order).1).2.2
    exact ((readCall_ofLine d line called).of_ok made column member).along
      (fun q inside => last q inside _ (List.mem_singleton_self _)) along
  | @boundary d inner d' line rest within after called kind frame _ _ _ _ _ framed scope _ _ inside later =>
    obtain ⟨close, -, split⟩ := scopeBelow?_split scope
    have lines : places ++ (line :: rest).map Line.position =
        (places ++ line.position :: (braceLines line rest).map Line.position ++ within.map Line.position ++
          [close.position]) ++ after.map Line.position := by
      conv_lhs => rw [split]
      simp
    rw [lines] at order ⊢
    have order_behind := (List.pairwise_append.mp order).1
    have order_inside := (List.pairwise_append.mp order_behind).1
    have entered : ∀ column ∈ d.enter.columns,
        Along (places ++ line.position :: (braceLines line rest).map Line.position) column := by
      intro column member
      have known : column = [] ∨ column ∈ d.columns := by
        simp only [Draft.enter, Draft.columns, Boundary.columnsOfAll, List.map_nil, List.append_nil, List.mem_append,
          List.mem_cons] at member ⊢
        tauto
      rcases known with rfl | old
      · exact .nil _
      · exact (along column old).mono fun _ => List.mem_append_left _
    have inner_along := inside order_inside entered
    refine later order ?_
    intro column member
    rcases columns_leave d inner frame column member with inner | old | rfl
    · exact (inner_along column inner).mono fun _ => List.mem_append_left _
    · refine (along column old).mono ?_
      intro p known
      simp [known]
    · have last := (List.pairwise_append.mp (List.pairwise_append.mp order_inside).1).2.2
      have longer : Longer line.position d.columns
          (d.boundaries.map (fun b => b.frame.position) ++ [frame.position]) := by
        rw [position_of_frame framed]
        exact .snoc (by simp [Draft.columns])
      refine (longer.along (fun q inside => last q inside _ List.mem_cons_self) along).mono ?_
      intro p known
      simp only [List.mem_append, List.mem_cons] at known ⊢
      tauto

theorem refused_of_readScope {d : Draft} {lines : List Line} {e : ParseError} (failed : readScope d lines = .error e) :
    (e.code ≠ .e001 ∧ e.code ≠ .e002) ∧ e.position ∈ lines.map Line.position := by
  induction size : lines.length using Nat.strongRecOn generalizing d lines with
  | ind n ih =>
    cases lines with
    | nil => simp [readScope] at failed
    | cons line rest =>
      have shorter : rest.length < n := by simp [← size]
      have here (blamed : e.position = line.position ∧ e.code ≠ .e001 ∧ e.code ≠ .e002) :
          (e.code ≠ .e001 ∧ e.code ≠ .e002) ∧ e.position ∈ (line :: rest).map Line.position := by
        refine ⟨blamed.2, ?_⟩
        rw [blamed.1]
        exact List.mem_cons_self
      have behind {lines : List Line} (known : ∀ line ∈ lines, line ∈ rest)
          (refused : (e.code ≠ .e001 ∧ e.code ≠ .e002) ∧ e.position ∈ lines.map Line.position) :
          (e.code ≠ .e001 ∧ e.code ≠ .e002) ∧ e.position ∈ (line :: rest).map Line.position := by
        obtain ⟨other, member, same⟩ := List.mem_map.mp refused.2
        exact ⟨refused.1, List.mem_cons_of_mem _ (List.mem_map.mpr ⟨other, known other member, same⟩)⟩
      rw [readScope] at failed
      split at failed
      · obtain rfl := Except.error.inj failed
        exact here ⟨rfl, by simp [Fault.code]⟩
      · split at failed
        · exact behind (fun _ => id) (ih _ shorter failed rfl)
        · rcases bind_error failed with uncalled | ⟨called, -, failed⟩
          · exact here ((call_ofLine line _).of_error uncalled)
          · split at failed
            · rcases bind_error failed with unframed | ⟨frame, -, failed⟩
              · exact here ((frame_ofLine called line _).of_error unframed)
              · split at failed
                · obtain rfl := Except.error.inj failed
                  exact here ⟨rfl, by simp [Fault.code]⟩
                · next within after scope =>
                  have bound := length_of_scopeBelow? scope
                  obtain ⟨close, -, split⟩ := scopeBelow?_split scope
                  rcases bind_error failed with inside | ⟨inner, -, later⟩
                  · refine behind ?_ (ih _ (by omega) inside rfl)
                    intro other member
                    rw [split]
                    simp [member]
                  · refine behind ?_ (ih _ (by omega) later rfl)
                    intro other member
                    rw [split]
                    simp [member]
            · obtain rfl := Except.error.inj failed
              exact here ⟨rfl, by simp [Fault.code]⟩
            · rcases bind_error failed with refused | ⟨mid, -, later⟩
              · exact here ((readCall_ofLine d line called).of_error refused)
              · exact behind (fun _ => id) (ih _ shorter later rfl)

/-! ### Diagrams -/

/-- The header of a diagram and what stands in front of its scope. -/
theorem read_eq (text : Text) (offset : Nat) (first : Line) (body : List Line) :
    read ⟨text, offset, first :: body⟩ =
      first.alone.headerWith ((Kind.all.filter Kind.isC4).map Kind.keyword) >>= fun header =>
        match header.2.2, (Kind.all.filter Kind.isC4).find? fun kind => kind.keyword = header.2.1 with
        | [], some kind => readScope {} body >>= fun d =>
          .ok ⟨⟨kind, text, header.1.position⟩, d.title, d.elements, d.boundaries, d.relationships, d.styles⟩
        | _, _ => .error ((Fault.headerModifier header.2.1 header.2.2).at header.1.position) := rfl

/-- How C4 diagrams are read. -/
theorem readsLines : ReadsLines read where
  anywhere text other offset elsewhere first body := by
    rw [read_eq, read_eq]
    cases first.alone.headerWith ((Kind.all.filter Kind.isC4).map Kind.keyword) with
    | error e => rfl
    | ok header =>
      dsimp only [bind, Except.bind]
      split
      · cases readScope {} body <;> rfl
      · rfl
  ordered := by
    intro text offset first body diagram made order
    rw [read_eq] at made
    obtain ⟨header, headed, made⟩ := exists_of_bind_ok made
    split at made
    · obtain ⟨d, scope, made⟩ := exists_of_bind_ok made
      obtain rfl := Except.ok.inj made
      have line := ((headerWith_ofHeader [] 0 first [] _).of_ok headed).2
      have empty : ∀ column ∈ ({} : Draft).columns, Along [] column := by
        simp [Draft.columns, Boundary.columnsOfAll, Along.nil]
      exact ⟨congrArg Line.position line, columns_along (reads_of_readScope scope) order empty⟩
    · cases made
  refused := by
    intro text offset first body e failed order
    have here (blamed : e.position = first.position ∧ e.code ≠ .e001) :
        e.code ≠ .e001 ∧ e.position ∈ (first :: body).map Line.position := by
      refine ⟨blamed.2, ?_⟩
      rw [blamed.1]
      exact List.mem_cons_self
    rw [read_eq] at failed
    rcases bind_error failed with unheaded | ⟨header, headed, failed⟩
    · obtain ⟨place, headed, -⟩ := (headerWith_ofHeader [] 0 first [] _).of_error unheaded
      exact here ⟨place, headed⟩
    · split at failed
      · rcases bind_error failed with stopped | ⟨d, -, made⟩
        · obtain ⟨⟨code, -⟩, place⟩ := refused_of_readScope stopped
          exact ⟨code, List.mem_cons_of_mem _ place⟩
        · cases made
      · obtain rfl := Except.error.inj failed
        have line := ((headerWith_ofHeader [] 0 first [] _).of_ok headed).2
        exact here ⟨congrArg Line.position line, by simp [Fault.code]⟩

/-- Of all lines only the header line is refused for its word. -/
theorem mismatch_iff {text : Text} {offset : Nat} {first : Line} {body : List Line} :
    Mismatched (read ⟨text, offset, first :: body⟩) ↔
      ¬ first.text.BeginsWith ((Kind.all.filter Kind.isC4).map Kind.keyword) := by
  have head := headerWith_ofHeader [] 0 first [] ((Kind.all.filter Kind.isC4).map Kind.keyword)
  rw [read_eq]
  constructor
  · rintro ⟨e, failed, mismatched⟩
    rcases bind_error failed with unheaded | ⟨header, headed, failed⟩
    · exact (head.of_error unheaded).2.2.mp mismatched
    · split at failed
      · rcases bind_error failed with stopped | ⟨d, -, made⟩
        · exact absurd mismatched (refused_of_readScope stopped).1.2
        · cases made
      · obtain rfl := Except.error.inj failed
        cases mismatched
  · intro unfit
    cases headed : first.alone.headerWith ((Kind.all.filter Kind.isC4).map Kind.keyword) with
    | error e => exact ⟨e, rfl, (head.of_error headed).2.2.mpr unfit⟩
    | ok header => exact absurd (head.of_ok headed).1 unfit

end DiagramLint.C4Diagram
