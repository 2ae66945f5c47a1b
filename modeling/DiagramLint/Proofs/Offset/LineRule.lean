import DiagramLint.Proofs.Offset.Basic

/-!
Rules that move with their lines. If every rule reads a line that is moved down as it reads the line,
then so do the rules in turn, line after line (`readLines_shift`).
-/
namespace DiagramLint

open Placed (shift)

variable {σ : Type} [Placed σ] {k : Move}

/-- What the reader makes of a line that is moved down is what it makes of the line, moved down. -/
def Moves (k : Move) (read : σ → Line → Taken σ) : Prop :=
  ∀ (s : σ) (line : Line), read (shift k s) (shift k line) = shift k (read s line)

@[simp] theorem shift_pass : shift k (pass : Taken σ) = pass := rfl

@[simp] theorem shift_take (s : σ) : shift k (take s) = take (shift k s) := rfl

theorem firstTaking_shift {rules : List (LineRule σ)} (moves : ∀ rule ∈ rules, Moves k rule.read) (s : σ)
    (line : Line) : firstTaking (shift k s) (shift k line) rules = shift k (firstTaking s line rules) := by
  induction rules with
  | nil => rfl
  | cons rule rules ih =>
    have first := moves rule List.mem_cons_self s line
    have others := ih fun later member => moves later (List.mem_cons_of_mem rule member)
    unfold firstTaking
    rw [first]
    cases rule.read s line with
    | error e => rfl
    | ok taken =>
      cases taken with
      | none => exact others
      | some s => rfl

theorem readLine_shift {rules : List (LineRule σ)} (moves : ∀ rule ∈ rules, Moves k rule.read) (s : σ)
    (line : Line) : readLine rules (shift k s) (shift k line) = shift k (readLine rules s line) := by
  unfold readLine
  rw [firstTaking_shift moves]
  cases firstTaking s line rules with
  | error e => rfl
  | ok taken =>
    cases taken with
    | none => rfl
    | some s => rfl

/-- Rules that move with their lines, and do not depend on where a line stands, read lines that are
moved down as they read the lines. -/
theorem readLines_shift {rules : σ → List (LineRule σ)}
    (moves : ∀ s, ∀ rule ∈ rules s, Moves k rule.read) (same : ∀ s, rules (shift k s) = rules s) (s : σ)
    (lines : List Line) : readLines rules (shift k s) (shift k lines) = shift k (readLines rules s lines) := by
  induction lines generalizing s with
  | nil => rfl
  | cons line lines ih =>
    rw [shift_cons]
    unfold readLines
    rw [same, readLine_shift (moves s)]
    cases readLine (rules s) s line with
    | error e => rfl
    | ok s => exact ih s

/-- A reader of a bare header and of the lines behind it reads a source that is moved down as it reads the
source, if it makes the same of what it has read, moved down. -/
theorem bareRead_shift {α : Type} [Placed α] {rules : σ → List (LineRule σ)} {start : σ}
    {there here : Line → σ → Except ParseError α} (moves : ∀ s, ∀ rule ∈ rules s, Moves k rule.read)
    (same : ∀ s, rules (shift k s) = rules s) (fixed : shift k start = start)
    (made : ∀ header d, there (shift k header) (shift k d) = shift k (here header d)) (keyword : String) (s : Source) :
    ((shift k s).bareHeader keyword >>= fun header => readLines rules start (shift k s).body >>= there header) =
      shift k (s.bareHeader keyword >>= fun header => readLines rules start s.body >>= here header) := by
  have lines := readLines_shift moves same start s.body
  rw [fixed] at lines
  rw [bareHeader_shift, body_shift, lines]
  refine result_bind_shift ?_ _
  intro header
  exact result_bind_shift (made header) _

end DiagramLint
