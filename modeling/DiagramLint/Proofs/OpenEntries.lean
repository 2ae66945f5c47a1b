import DiagramLint.Proofs.Reading.Line
import Mathlib.Data.List.Forall2

/-!
Entries that stay open while lines are read. A reader holds them as indices into a list that grows at its
end, so an index points to the same entry behind further lines (`PointTo.append`). A line is refused for its
wording or for the entries that are open at it, and behind all lines no entry may be open (`FaultsIn`).
-/
namespace DiagramLint

open Text

/-! ### Indices into a list that grows -/

/-- The indices point to entries of a list, each to the one in its place. -/
def PointTo {α : Type} (entries : List α) (indices : List Nat) (found : List α) : Prop :=
  List.Forall₂ (fun i a => entries[i]? = some a) indices found

namespace PointTo

variable {α : Type} {entries found : List α} {indices : List Nat} {i : Nat}

theorem nil : PointTo entries [] [] := List.Forall₂.nil

theorem append (points : PointTo entries indices found) (more : List α) : PointTo (entries ++ more) indices found := by
  refine List.Forall₂.imp ?_ points
  intro i a here
  rw [List.getElem?_append_left (List.getElem?_eq_some_iff.mp here).1, here]

/-- The entry at the end of the list is the innermost. -/
theorem push (points : PointTo entries indices found) (a : α) :
    PointTo (entries ++ [a]) (entries.length :: indices) (a :: found) :=
  .cons List.getElem?_concat_length (points.append [a])

theorem pop (points : PointTo entries (i :: indices) found) : PointTo entries indices found.tail := by
  cases points with
  | cons _ behind => exact behind

theorem innermost (points : PointTo entries indices found) :
    (indices.head?.bind fun i => entries[i]?) = found.head? := by
  cases points with
  | nil => rfl
  | cons here _ => exact here

theorem eq_nil_iff (points : PointTo entries indices found) : indices = [] ↔ found = [] := by
  cases points with
  | nil => simp
  | cons _ _ => simp

end PointTo

/-! ### Refusals -/

/-- A refusal is one for the wording of a line. -/
def ForWording {α : Type} (x : Except ParseError α) : Prop :=
  match x with
  | .error e => e.code = .e100 ∨ e.code = .e101
  | .ok _ => True

namespace ForWording

variable {α β : Type} {x : Except ParseError α} {e : ParseError}

@[simp] theorem ok (a : α) : ForWording (.ok a : Except ParseError α) := trivial

@[simp] theorem error_iff : ForWording (.error e : Except ParseError α) ↔ e.code = .e100 ∨ e.code = .e101 := Iff.rfl

theorem of_error (worded : ForWording x) (failed : x = .error e) : e.code = .e100 ∨ e.code = .e101 := by
  rw [failed] at worded
  exact worded

theorem map (worded : ForWording x) (f : α → β) : ForWording (x.map f) := by
  cases x with
  | error e => exact worded
  | ok a => trivial

theorem bind (worded : ForWording x) {f : α → Except ParseError β} (behind : ∀ a, ForWording (f a)) :
    ForWording (x >>= f) := by
  cases x with
  | error e => exact worded
  | ok a => exact behind a

theorem direction (line : Line) (t : Text) : ForWording (line.direction t) := by
  unfold Line.direction
  split
  · trivial
  · exact .inr rfl

/-- A line is refused for its wording if no rule refuses it for anything else. -/
theorem readLine {σ : Type} {rules : List (LineRule σ)} {s : σ} {line : Line}
    (each : ∀ rule ∈ rules, ForWording (rule.read s line)) : ForWording (readLine rules s line) := by
  cases made : DiagramLint.readLine rules s line with
  | ok s' => trivial
  | error e =>
    rcases refused_by made with ⟨rule, member, refused⟩ | rfl
    · exact (each rule member).of_error refused
    · exact .inl rfl

end ForWording

/-! ### Faults of a source -/

/-- A reader starts behind the header in a state, reads the lines in turn, and is at fault in one of them or in
what is not closed behind all of them. -/
structure FaultsIn {α σ : Type} (result : Except ParseError α) (start : σ → Prop) (rules : σ → List (LineRule σ))
    (lines : List Line) (unclosed? : σ → Option ParseError) : Prop where
  started_of_ok : ∀ {a}, result = .ok a → ∃ d, start d
  started_of_error : ∀ {e}, result = .error e → e.code = .e200 ∨ e.code = .e201 → ∃ d, start d
  error_iff : ∀ {d e}, start d → (result = .error e ↔ readLines rules d lines = .error e ∨
    ∃ d', readLines rules d lines = .ok d' ∧ unclosed? d' = some e)
  line_code : ∀ {d line e}, readLine (rules d) d line = .error e → e.code ≠ .e200
  line_place : ∀ {d line e}, readLine (rules d) d line = .error e → e.position = line.position
  unclosed_code : ∀ {d e}, unclosed? d = some e → e.code = .e200

namespace FaultsIn

variable {α σ : Type} {result : Except ParseError α} {start : σ → Prop} {rules : σ → List (LineRule σ)}
  {lines : List Line} {unclosed? : σ → Option ParseError} {p : Position}

/-- A source is read where all lines can be read and nothing is open behind them. -/
theorem ok_iff (faults : FaultsIn result start rules lines unclosed?) : (∃ a, result = .ok a) ↔
    ∃ d, start d ∧ ∃ d', readLines rules d lines = .ok d' ∧ unclosed? d' = none := by
  constructor
  · rintro ⟨a, made⟩
    obtain ⟨d, started⟩ := faults.started_of_ok made
    have faultless (e : ParseError) := mt (faults.error_iff (e := e) started).mpr (by simp [made])
    cases run : readLines rules d lines with
    | error e => exact absurd (.inl run) (faultless e)
    | ok d' =>
      refine ⟨d, started, d', run, ?_⟩
      by_contra unclosed
      obtain ⟨e, unclosed⟩ := Option.ne_none_iff_exists'.mp unclosed
      exact faultless e (.inr ⟨d', run, unclosed⟩)
  · rintro ⟨d, started, d', run, closed⟩
    cases made : result with
    | ok a => exact ⟨a, rfl⟩
    | error e =>
      rcases (faults.error_iff started).mp made with stopped | ⟨other, also, unclosed⟩
      · cases run.symm.trans stopped
      · obtain rfl := Except.ok.inj (run.symm.trans also)
        cases closed.symm.trans unclosed

/-- A stray line is the first one at fault. -/
theorem stray_iff (faults : FaultsIn result start rules lines unclosed?) :
    (∃ e, result = .error e ∧ e.code = .e201 ∧ e.position = p) ↔ ∃ d, start d ∧ ∃ before line after d',
      lines = before ++ line :: after ∧ readLines rules d before = .ok d' ∧
        (∃ e, readLine (rules d') d' line = .error e ∧ e.code = .e201) ∧ line.position = p := by
  constructor
  · rintro ⟨e, failed, code, place⟩
    obtain ⟨d, started⟩ := faults.started_of_error failed (.inr code)
    rcases (faults.error_iff started).mp failed with stopped | ⟨d', -, unclosed⟩
    · exact ⟨d, started, (readLines_refused_iff faults.line_place).mp ⟨e, stopped, code, place⟩⟩
    · exact absurd ((faults.unclosed_code unclosed).symm.trans code) (by decide)
  · rintro ⟨d, started, stray⟩
    obtain ⟨e, stopped, code, place⟩ := (readLines_refused_iff faults.line_place).mpr stray
    exact ⟨e, (faults.error_iff started).mpr (.inl stopped), code, place⟩

/-- An entry is reported as not closed where all lines can be read. -/
theorem unclosed_iff (faults : FaultsIn result start rules lines unclosed?) :
    (∃ e, result = .error e ∧ e.code = .e200 ∧ e.position = p) ↔ ∃ d, start d ∧
      ∃ d', readLines rules d lines = .ok d' ∧ (unclosed? d').map ParseError.position = some p := by
  constructor
  · rintro ⟨e, failed, code, place⟩
    obtain ⟨d, started⟩ := faults.started_of_error failed (.inl code)
    rcases (faults.error_iff started).mp failed with stopped | ⟨d', run, unclosed⟩
    · obtain ⟨before, line, after, d', -, -, refused⟩ := readLines_eq_error_iff.mp stopped
      exact absurd code (faults.line_code refused)
    · exact ⟨d, started, d', run, Option.map_eq_some_iff.mpr ⟨e, unclosed, place⟩⟩
  · rintro ⟨d, started, d', run, position⟩
    obtain ⟨e, unclosed, place⟩ := Option.map_eq_some_iff.mp position
    exact ⟨e, (faults.error_iff started).mpr (.inr ⟨d', run, unclosed⟩), faults.unclosed_code unclosed, place⟩

end FaultsIn

end DiagramLint
