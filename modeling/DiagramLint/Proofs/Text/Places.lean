import DiagramLint.Proofs.Text.Nesting
import Mathlib.Data.List.Induction

/-!
Places outside quotes and brackets, told by counting: an even number of double quotes stands in front of such a place,
and of the brackets that these do not hold as many are closed as are opened. A scan that steps from character to
character sees the same places (`run_eq`, `isOutside_run`).
-/
namespace DiagramLint.Text

open Nesting

/-- A double quote is open behind a text that has an odd number of them. -/
def quoteOpen (t : Text) : Bool := t.count '"' % 2 == 1

/-- How many brackets are open behind a text whose last character comes first. The three kinds count together, those in
quotes do not count, and one that closes counts for nothing where none is open. -/
def bracketsOpenInReverse : Text → Nat
  | [] => 0
  | c :: front =>
    if quoteOpen front then bracketsOpenInReverse front
    else if c ∈ ['[', '(', '{'] then bracketsOpenInReverse front + 1
    else if c ∈ [']', ')', '}'] then bracketsOpenInReverse front - 1
    else bracketsOpenInReverse front

/-- How many brackets are open behind a text. -/
def bracketsOpen (t : Text) : Nat := bracketsOpenInReverse t.reverse

/-- Neither a quote nor a bracket is open behind the text. -/
def nothingOpen (t : Text) : Bool := !quoteOpen t && bracketsOpen t == 0

variable {t u : Text} {c : Char}

theorem quoteOpen_reverse (t : Text) : quoteOpen t.reverse = quoteOpen t := by
  rw [quoteOpen, quoteOpen, List.count_reverse]

/-- A quote opens or closes, and no other character does. -/
theorem quoteOpen_concat (t : Text) (c : Char) : quoteOpen (t ++ [c]) = if c = '"' then !quoteOpen t else quoteOpen t := by
  rw [quoteOpen, quoteOpen, List.count_append, List.count_singleton]
  by_cases quote : c = '"'
  · rcases Nat.mod_two_eq_zero_or_one (t.count '"') with even | odd
    · simp [quote, Nat.add_mod, even]
    · simp [quote, Nat.add_mod, odd]
  · simp [quote]

theorem bracketsOpen_concat (t : Text) (c : Char) : bracketsOpen (t ++ [c]) =
    if quoteOpen t then bracketsOpen t
    else if c ∈ ['[', '(', '{'] then bracketsOpen t + 1
    else if c ∈ [']', ')', '}'] then bracketsOpen t - 1
    else bracketsOpen t := by
  rw [bracketsOpen, List.reverse_append, List.reverse_singleton, List.singleton_append, bracketsOpenInReverse,
    quoteOpen_reverse, bracketsOpen]

/-- What a scan has open behind a text is what is open there by counting. -/
theorem run_eq (t : Text) : outermost.run t = ⟨quoteOpen t, bracketsOpen t⟩ := by
  induction t using List.reverseRecOn with
  | nil => rfl
  | append_singleton t c ih =>
    have one : outermost.run (t ++ [c]) = (outermost.run t).step c := by
      rw [run_append]
      rfl
    rw [one, ih, quoteOpen_concat, bracketsOpen_concat, Nesting.step]
    by_cases quote : c = '"'
    · simp [quote]
    · cases quoteOpen t with
      | true => simp [quote]
      | false => simp [quote, apply_ite (Nesting.mk false), or_assoc]

/-- A scan sees a place outside quotes and brackets if nothing is open in front of it. -/
theorem isOutside_run (t : Text) : (outermost.run t).isOutside = nothingOpen t := by
  rw [run_eq]
  rfl

end DiagramLint.Text
