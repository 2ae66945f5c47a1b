import DiagramLint.C4Diagram.Reader
import DiagramLint.Proofs.Results

/-!
Reading a scope as a derivation: a title, a boundary with the scope behind its brace, or a call that
opens nothing, and then the lines behind it. Every scope that is read has a derivation
(`reads_of_readScope`), in which the lines of a boundary end at a line with a closing brace.
-/
namespace DiagramLint.C4Diagram

open Text

theorem not_opens_of_lone_close {line : Line} (closing : closes line = true) : line.text ≠ ['{'] := by
  intro same
  rw [closes, same] at closing
  exact absurd closing (by decide)

/-- A scope that is cut off ends at a line with a closing brace. -/
theorem close_of_cutScope? {pending : Nat} {lines inner after : List Line}
    (found : cutScope? pending lines = some (inner, after)) :
    ∃ close, closes close = true ∧ lines = inner ++ close :: after := by
  induction lines generalizing pending inner with
  | nil => simp [cutScope?] at found
  | cons line rest ih =>
    have extend : ∀ {p : Nat} {f : List Line × List Line → List Line × List Line},
        (∀ i a, f (i, a) = (line :: i, a)) → (cutScope? p rest).map f = some (inner, after) →
        ∃ close, closes close = true ∧ line :: rest = inner ++ close :: after := by
      intro p f longer extended
      obtain ⟨⟨i, a⟩, later, same⟩ := Option.map_eq_some_iff.mp extended
      simp only [longer, Prod.mk.injEq] at same
      obtain ⟨rfl, rfl⟩ := same
      obtain ⟨close, closing, whole⟩ := ih later
      exact ⟨close, closing, by rw [whole]; rfl⟩
    rw [cutScope?.eq_def] at found
    dsimp only at found
    split at found
    · exact extend (fun _ _ => rfl) found
    · split at found
      · next closing =>
        split at found
        · simp only [Option.some.injEq, Prod.mk.injEq] at found
          obtain ⟨rfl, rfl⟩ := found
          exact ⟨line, closing, rfl⟩
        · exact extend (fun _ _ => rfl) found
      · exact extend (fun _ _ => rfl) found

/-- The line of an opening brace alone that a boundary takes, if its own line does not end with one. -/
def braceLines (line : Line) (rest : List Line) : List Line :=
  if braceFollows rest && !opens line then rest.take 1 else []

theorem braceLines_cases (line : Line) (rest : List Line) :
    braceLines line rest = [] ∨
      ∃ brace, braceLines line rest = [brace] ∧ brace.text = ['{'] ∧ opens line = false := by
  rw [braceLines]
  split
  · next lone =>
    obtain ⟨below, unbraced⟩ := Bool.and_eq_true_iff.mp lone
    cases rest with
    | nil => exact nomatch below
    | cons brace rest => exact .inr ⟨brace, rfl, by simpa [braceFollows] using below, by simpa using unbraced⟩
  · exact .inl rfl

theorem scopeBelow?_split {line : Line} {rest inner after : List Line}
    (found : scopeBelow? line rest = some (inner, after)) :
    ∃ close, closes close = true ∧ rest = braceLines line rest ++ (inner ++ close :: after) := by
  rw [scopeBelow?] at found
  obtain ⟨close, closing, whole⟩ := close_of_cutScope? found
  refine ⟨close, closing, ?_⟩
  rw [← whole, braceLines]
  split
  · next lone => cases rest <;> simp
  · rfl

/-! ### Reading line by line -/

section

variable {d : Draft} {line : Line} {rest : List Line} {c : Call}

theorem readScope_title {title : Text} (unclosed : closes line = false)
    (titled : afterKeywordColon? "title" line.text = some title) :
    readScope d (line :: rest) = readScope { d with title := trimmed? title } rest := by
  rw [readScope, if_neg (by simp [unclosed]), titled]

theorem readScope_call (unclosed : closes line = false) (untitled : afterKeywordColon? "title" line.text = none)
    (reads_call : call line (braceFollows rest) = .ok c) (bodiless : c.hasBody = false) :
    readScope d (line :: rest) = (readCall d line c).bind fun mid => readScope mid rest := by
  rw [readScope, if_neg (by simp [unclosed]), untitled, reads_call]
  dsimp only [bind, Except.bind]
  rw [bodiless]
  cases BoundaryKind.ofKeyword? c.name <;> rfl

theorem readScope_boundary {kind : BoundaryKind} {frame : Frame} (unclosed : closes line = false)
    (untitled : afterKeywordColon? "title" line.text = none)
    (reads_call : call line (braceFollows rest) = .ok c) (body : c.hasBody = true)
    (keyword : BoundaryKind.ofKeyword? c.name = some kind) (framed : c.frame line kind = .ok frame) :
    readScope d (line :: rest) = match scopeBelow? line rest with
      | none => .error ((Fault.boundaryUnclosed frame.id).at line.position)
      | some (within, after) =>
        (readScope d.enter within).bind fun inner => readScope (d.leave frame inner) after := by
  rw [readScope, if_neg (by simp [unclosed]), untitled, reads_call]
  dsimp only [bind, Except.bind]
  rw [keyword, body]
  dsimp only
  rw [framed]
  dsimp only
  split <;> simp_all

end

/-- How the lines of a scope turn one draft into another. -/
inductive Reads : Draft → List Line → Draft → Prop where
  | done (d : Draft) : Reads d [] d
  | title {d d' : Draft} {line : Line} {rest : List Line} {title : Text}
      (open_line : closes line = false) (titled : afterKeywordColon? "title" line.text = some title)
      (later : Reads { d with title := trimmed? title } rest d') : Reads d (line :: rest) d'
  | boundary {d inner d' : Draft} {line : Line} {rest within after : List Line} {called : Call}
      {kind : BoundaryKind} {frame : Frame}
      (open_line : closes line = false) (untitled : afterKeywordColon? "title" line.text = none)
      (reads_call : call line (braceFollows rest) = .ok called)
      (keyword : BoundaryKind.ofKeyword? called.name = some kind) (body : called.hasBody = true)
      (framed : called.frame line kind = .ok frame)
      (scope : scopeBelow? line rest = some (within, after))
      (inside : Reads d.enter within inner) (later : Reads (d.leave frame inner) after d') :
      Reads d (line :: rest) d'
  | call {d mid d' : Draft} {line : Line} {rest : List Line} {called : Call}
      (open_line : closes line = false) (untitled : afterKeywordColon? "title" line.text = none)
      (reads_call : C4Diagram.call line (braceFollows rest) = .ok called) (bodiless : called.hasBody = false)
      (made : readCall d line called = .ok mid) (later : Reads mid rest d') : Reads d (line :: rest) d'

/-- Every scope that is read has a derivation. -/
theorem reads_of_readScope {d d' : Draft} {lines : List Line} (read : readScope d lines = .ok d') :
    Reads d lines d' := by
  induction size : lines.length using Nat.strongRecOn generalizing d d' lines with
  | ind n ih =>
    cases lines with
    | nil =>
      obtain rfl : d = d' := by simpa [readScope] using read
      exact .done d
    | cons line rest =>
      have shorter : rest.length < n := by simp [← size]
      rw [readScope] at read
      split at read
      · cases read
      · next stays_open =>
        have open_line : closes line = false := by simpa using stays_open
        split at read
        · next title titled => exact .title open_line titled (ih _ shorter read rfl)
        · next untitled =>
          obtain ⟨called, reads_call, read⟩ := exists_of_bind_ok read
          split at read
          · next kind keyword body =>
            obtain ⟨frame, framed, read⟩ := exists_of_bind_ok read
            split at read
            · cases read
            · next within after scope =>
              obtain ⟨inner, inside, read⟩ := exists_of_bind_ok read
              have bound := length_of_scopeBelow? scope
              exact .boundary open_line untitled reads_call keyword body framed scope
                (ih _ (by omega) inside rfl) (ih _ (by omega) read rfl)
          · cases read
          · next bodiless =>
            obtain ⟨mid, made, read⟩ := exists_of_bind_ok read
            exact .call open_line untitled reads_call bodiless made (ih _ shorter read rfl)

end DiagramLint.C4Diagram
