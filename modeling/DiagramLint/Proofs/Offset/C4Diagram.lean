import DiagramLint.C4Diagram.Checks
import DiagramLint.C4Diagram.Reader
import DiagramLint.Proofs.Offset.Checks
import DiagramLint.Proofs.Offset.LineRule

/-!
C4 diagrams further down in a document.
-/
namespace DiagramLint.C4Diagram

open Text
open Placed (shift)

variable {k : Move}

instance : Placed Element := ⟨fun k e => { e with position := shift k e.position }⟩

instance : Placed Frame := ⟨fun k f => { f with position := shift k f.position }⟩

instance : Placed Relationship := ⟨fun k r => { r with position := shift k r.position }⟩

instance : Placed Style := ⟨fun k s => { s with position := shift k s.position }⟩

namespace Boundary

mutual

/-- A boundary moved down with all that it holds. -/
def down (k : Move) : Boundary → Boundary
  | .around frame elements boundaries =>
    .around (shift k frame) (shift k elements) (downAll k boundaries)

/-- Some boundaries moved down. -/
def downAll (k : Move) : List Boundary → List Boundary
  | [] => []
  | b :: rest => down k b :: downAll k rest

end

instance : Placed Boundary := ⟨down⟩

theorem downAll_eq_shift (boundaries : List Boundary) : downAll k boundaries = shift k boundaries := by
  induction boundaries with
  | nil => rfl
  | cons b rest ih => exact congrArg (down k b :: ·) ih

theorem shift_around (frame : Frame) (elements : List Element) (boundaries : List Boundary) :
    shift k (Boundary.around frame elements boundaries) =
      .around (shift k frame) (shift k elements) (shift k boundaries) := by
  rw [← downAll_eq_shift]
  rfl

end Boundary

instance : Placed C4Diagram where
  shift k diagram :=
    { diagram with
      header := shift k diagram.header
      elements := shift k diagram.elements
      boundaries := shift k diagram.boundaries
      relationships := shift k diagram.relationships
      styles := shift k diagram.styles }

instance : Placed Draft where
  shift k d :=
    { d with
      relationships := shift k d.relationships
      styles := shift k d.styles
      elements := shift k d.elements
      boundaries := shift k d.boundaries }

/-! ### Calls -/

theorem call_shift (line : Line) (braceBelow : Bool) :
    call (shift k line) braceBelow = (call line braceBelow).mapError (shift k) := by
  unfold call
  rw [text_shift]
  dsimp only
  split
  · rfl
  · split
    · rfl
    · split
      · rfl
      · rfl

/-- The faults of arguments name no line. -/
theorem bindings_fault_stays {called : Call} {layout free : Layout} {arguments : List Text} {fault : Fault}
    (failed : bindings called layout free arguments = .error fault) : shift k fault = fault := by
  induction arguments generalizing free with
  | nil => exact nomatch failed
  | cons argument rest ih =>
    have later : ∀ {free : Layout} {slot : Slot × Option Text},
        (bindings called layout free rest).map (slot :: ·) = .error fault → shift k fault = fault := by
      intro free slot failed
      cases found : bindings called layout free rest with
      | ok b => rw [found] at failed; exact nomatch failed
      | error other =>
        rw [found] at failed
        cases failed
        exact ih found
    unfold bindings at failed
    split at failed
    · split at failed
      · exact later failed
      · cases failed; rfl
    · split at failed
      · cases failed; rfl
      · exact later failed

theorem bind_shift (called : Call) (line : Line) (layout : Layout) :
    called.bind (shift k line) layout = (called.bind line layout).mapError (shift k) := by
  unfold Call.bind
  cases found : bindings called layout layout called.arguments with
  | error fault => exact congrArg Except.error (fail_shift (bindings_fault_stays found) line)
  | ok b => rfl

theorem require_shift (b : Bindings) (line : Line) (slot : Slot) :
    b.require (shift k line) slot = (b.require line slot).mapError (shift k) := by
  unfold Bindings.require
  cases b.value? slot with
  | none => rfl
  | some t => rfl

theorem element_shift (called : Call) (line : Line) (kind : ElementKind) :
    called.element (shift k line) kind = shift k (called.element line kind) := by
  unfold Call.element
  rw [bind_shift]
  cases called.bind line kind.layout with
  | error e => rfl
  | ok b =>
    show (b.require (shift k line) .id >>= _) = shift k (b.require line .id >>= _)
    rw [require_shift]
    cases b.require line .id with
    | error e => rfl
    | ok id => rfl

theorem frame_shift (called : Call) (line : Line) (kind : BoundaryKind) :
    called.frame (shift k line) kind = shift k (called.frame line kind) := by
  unfold Call.frame
  rw [bind_shift]
  cases called.bind line kind.layout with
  | error e => rfl
  | ok b =>
    show (b.require (shift k line) .id >>= _) = shift k (b.require line .id >>= _)
    rw [require_shift]
    cases b.require line .id with
    | error e => rfl
    | ok id => rfl

theorem relationship_shift (called : Call) (line : Line) (kind : RelationshipKind) :
    called.relationship (shift k line) kind = shift k (called.relationship line kind) := by
  unfold Call.relationship
  rw [bind_shift]
  cases called.bind line relationshipLayout with
  | error e => rfl
  | ok b =>
    show (b.require (shift k line) .source >>= _) = shift k (b.require line .source >>= _)
    rw [require_shift]
    cases b.require line .source with
    | error e => rfl
    | ok source =>
      show (b.require (shift k line) .target >>= _) = shift k (b.require line .target >>= _)
      rw [require_shift]
      cases b.require line .target with
      | error e => rfl
      | ok target => rfl

theorem addArgument_shift (style : Style) (called : Call) (argument : Text) :
    (shift k style).addArgument called argument = shift k (style.addArgument called argument) := by
  have targets : (shift k style).targets = style.targets := rfl
  have kind : (shift k style).kind = style.kind := rfl
  have properties : (shift k style).properties = style.properties := rfl
  unfold Style.addArgument
  rw [targets, kind, properties]
  split
  · rfl
  · split
    · rfl
    · split
      · rfl
      · rfl

theorem addArguments_shift (style : Style) (called : Call) (arguments : List Text) :
    arguments.foldlM (fun (s : Style) argument => s.addArgument called argument) (shift k style) =
      shift k (arguments.foldlM (fun (s : Style) argument => s.addArgument called argument) style) := by
  induction arguments generalizing style with
  | nil => rfl
  | cons argument rest ih =>
    rw [List.foldlM_cons, List.foldlM_cons, addArgument_shift]
    cases style.addArgument called argument with
    | error fault => rfl
    | ok style => exact ih style

theorem style_shift (called : Call) (line : Line) (kind : StyleKind) :
    called.style (shift k line) kind = shift k (called.style line kind) := by
  have read := addArguments_shift (k := k) ⟨kind, [], [], line.position⟩ called called.arguments
  unfold Call.style
  rw [position_shift]
  show (Except.mapError _ (called.arguments.foldlM _ (shift k (⟨kind, [], [], line.position⟩ : Style))) >>= _) = _
  rw [read]
  cases called.arguments.foldlM (fun (s : Style) argument => s.addArgument called argument)
      ⟨kind, [], [], line.position⟩ with
  | error fault => rfl
  | ok style =>
    show (if style.targets.length < kind.targetCount then _ else _) =
      shift k (if style.targets.length < kind.targetCount then _ else _)
    split
    · rfl
    · rfl

/-! ### Scopes -/

theorem readCall_shift (d : Draft) (line : Line) (called : Call) :
    readCall (shift k d) (shift k line) called = shift k (readCall d line called) := by
  unfold readCall
  split
  · rw [element_shift]
    refine result_map_shift ?_ _
    intro e
    exact congrArg (fun elements => { shift k d with elements := elements }) (shift_append d.elements [e]).symm
  · split
    · rw [relationship_shift]
      refine result_map_shift ?_ _
      intro r
      exact congrArg (fun relationships => { shift k d with relationships := relationships })
        (shift_append d.relationships [r]).symm
    · split
      · rw [style_shift]
        refine result_map_shift ?_ _
        intro s
        exact congrArg (fun styles => { shift k d with styles := styles }) (shift_append d.styles [s]).symm
      · rfl

theorem opens_shift (line : Line) : opens (shift k line) = opens line := rfl

theorem closes_shift (line : Line) : closes (shift k line) = closes line := rfl

theorem braceFollows_shift (lines : List Line) : braceFollows (shift k lines) = braceFollows lines := by
  cases lines with
  | nil => rfl
  | cons line rest => rfl

theorem cutScope?_shift (pending : Nat) (lines : List Line) :
    cutScope? pending (shift k lines) = shift k (cutScope? pending lines) := by
  induction lines generalizing pending with
  | nil => rfl
  | cons line rest ih =>
    rw [shift_cons, cutScope?.eq_def, cutScope?.eq_def]
    dsimp only
    rw [opens_shift, closes_shift, ih]
    split
    · refine option_map_shift ?_ _
      intro scope
      rfl
    · split
      · cases pending with
        | zero => rfl
        | succ pending =>
          dsimp only
          rw [ih]
          refine option_map_shift ?_ _
          intro scope
          rfl
      · rw [ih]
        refine option_map_shift ?_ _
        intro scope
        rfl

theorem scopeBelow?_shift (line : Line) (rest : List Line) :
    scopeBelow? (shift k line) (shift k rest) = shift k (scopeBelow? line rest) := by
  have below : (if braceFollows rest && !opens line then (shift k rest).tail else shift k rest) =
      shift k (if braceFollows rest && !opens line then rest.tail else rest) := by
    split
    · exact List.map_tail.symm
    · rfl
  unfold scopeBelow?
  rw [braceFollows_shift, opens_shift, below, cutScope?_shift]

theorem leave_shift (d inner : Draft) (frame : Frame) :
    (shift k d).leave (shift k frame) (shift k inner) = shift k (d.leave frame inner) := by
  have one_more : shift k (d.boundaries ++ [.around frame inner.elements inner.boundaries]) =
      shift k d.boundaries ++ [.around (shift k frame) (shift k inner.elements) (shift k inner.boundaries)] := by
    rw [shift_append, shift_cons, Boundary.shift_around]
    rfl
  exact congrArg (fun boundaries => { shift k inner with elements := shift k d.elements, boundaries := boundaries })
    one_more.symm

theorem readScope_shift (d : Draft) (lines : List Line) :
    readScope (shift k d) (shift k lines) = shift k (readScope d lines) := by
  induction size : lines.length using Nat.strongRecOn generalizing d lines with
  | ind n ih =>
    cases lines with
    | nil =>
      rw [shift_nil, readScope, readScope]
      rfl
    | cons line rest =>
      have shorter : rest.length < n := by simp [← size]
      rw [shift_cons, readScope, readScope, closes_shift, text_shift, braceFollows_shift, call_shift]
      split
      · rfl
      · split
        · next title _ => exact ih _ shorter { d with title := trimmed? title } rest rfl
        · cases call line (braceFollows rest) with
          | error e => rfl
          | ok called =>
            have after_call : (readCall (shift k d) (shift k line) called >>= fun d => readScope d (shift k rest)) =
                shift k (readCall d line called >>= fun d => readScope d rest) := by
              rw [readCall_shift]
              exact result_bind_shift (fun d => ih _ shorter d rest rfl) _
            have moved : (Except.ok called : Except ParseError Call).mapError (shift k) = .ok called := rfl
            have next (f : Call → Except ParseError Draft) : (Except.ok called >>= f) = f called := rfl
            rw [moved, next, next]
            cases called.hasBody with
            | false =>
              cases BoundaryKind.ofKeyword? called.name with
              | none => exact after_call
              | some kind => exact after_call
            | true =>
              cases BoundaryKind.ofKeyword? called.name with
              | none => rfl
              | some kind =>
                dsimp only
                rw [frame_shift]
                refine result_bind_shift ?_ _
                intro frame
                have scope := scopeBelow?_shift (k := k) line rest
                split
                · next unclosed =>
                  rw [scope] at unclosed
                  split
                  · rfl
                  · next found => rw [found] at unclosed; cases unclosed
                · next found =>
                  rw [scope] at found
                  split
                  · next unclosed => rw [unclosed] at found; cases found
                  · next inner after below =>
                    have bound := length_of_scopeBelow? below
                    rw [below] at found
                    cases found
                    have inside := ih inner.length (by omega) d.enter inner rfl
                    show (readScope (shift k d.enter) (shift k inner) >>= _) = _
                    rw [inside]
                    refine result_bind_shift ?_ _
                    intro inner
                    rw [leave_shift]
                    exact ih after.length (by omega) _ after rfl

/-- A C4 diagram is read further down as it is read. -/
theorem read_shift (s : Source) : read (shift k s) = shift k (read s) := by
  unfold read
  dsimp only
  rw [headerWith_shift]
  refine result_bind_shift ?_ _
  rintro ⟨header, keyword, rest⟩
  have parts : shift k (header, keyword, rest) = (shift k header, keyword, rest) := rfl
  rw [parts]
  dsimp only
  generalize (Kind.all.filter Kind.isC4).find? (fun kind => kind.keyword = keyword) = found
  cases rest with
  | cons c rest => rfl
  | nil =>
    cases found with
    | none => rfl
    | some kind =>
      dsimp only
      rw [body_shift]
      show (readScope (shift k {}) (shift k s.body) >>= _) = _
      rw [readScope_shift]
      refine result_bind_shift ?_ _
      intro d
      rfl

/-! ### Checks -/

namespace Boundary

theorem elementIds_shift (elements : List Element) :
    elementIds (shift k elements) = shift k (elementIds elements) := by
  refine map_shift ?_ elements
  intro e
  rfl

mutual

theorem ids_shift : (b : Boundary) → ids (shift k b) = shift k (ids b)
  | .around frame elements boundaries => by
    rw [shift_around, ids, ids, elementIds_shift, idsOfAll_shift boundaries, shift_append, shift_cons]
    rfl

theorem idsOfAll_shift : (boundaries : List Boundary) → idsOfAll (shift k boundaries) = shift k (idsOfAll boundaries)
  | [] => rfl
  | b :: rest => by rw [shift_cons, idsOfAll, idsOfAll, ids_shift b, idsOfAll_shift rest, shift_append]

end

end Boundary

theorem identifiers_shift (diagram : C4Diagram) : (shift k diagram).identifiers = shift k diagram.identifiers := by
  unfold identifiers
  show List.mergeSort (Boundary.elementIds (shift k diagram.elements) ++
    Boundary.idsOfAll (shift k diagram.boundaries)) _ = _
  rw [Boundary.elementIds_shift, Boundary.idsOfAll_shift, ← shift_append]
  refine mergeSort_shift ?_ _
  intro place
  rfl

theorem duplicateIds_shift (diagram : C4Diagram) : duplicateIds (shift k diagram) = shift k (duplicateIds diagram) := by
  unfold duplicateIds
  rw [identifiers_shift]
  exact Duplicates.findings_shift (.empty "element") _

theorem known_shift (diagram : C4Diagram) : known (shift k diagram) = shift k (known diagram) := by
  unfold known
  rw [identifiers_shift]
  exact References.declareAll_shift (.empty "element") _

theorem relationshipReferences_shift (diagram : C4Diagram) :
    relationshipReferences (shift k diagram) = shift k (relationshipReferences diagram) := by
  unfold relationshipReferences
  refine flatMap_shift ?_ diagram.relationships
  intro r
  rw [known_shift, shift_filterMap]
  show [r.source, r.target].filterMap _ = [r.source, r.target].filterMap _
  simp only [← References.check_shift]
  rfl

theorem styleReferences_shift (diagram : C4Diagram) :
    styleReferences (shift k diagram) = shift k (styleReferences diagram) := by
  unfold styleReferences
  refine flatMap_shift ?_ diagram.styles
  intro s
  rw [known_shift, shift_filterMap]
  show s.targets.filterMap _ = s.targets.filterMap _
  simp only [← References.check_shift]
  rfl

end DiagramLint.C4Diagram
