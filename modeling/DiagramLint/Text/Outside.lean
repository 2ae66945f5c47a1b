import DiagramLint.Text.Basic

/-!
Searching outside quotes and brackets. A scan counts double quotes and the three kinds of brackets
together; a place is outside when no quote and no bracket is open before it. Main statements: what
precedes and follows a found place makes up the text, and what follows is not longer than it.
-/
namespace DiagramLint.Text

/-- What is open before a place: a double quote, and how many brackets. -/
structure Nesting where
  quoted : Bool
  depth : Nat
  deriving DecidableEq, Repr

namespace Nesting

/-- Nothing is open. -/
def outermost : Nesting := ⟨false, 0⟩

/-- Whether the place lies outside quotes and brackets. -/
def isOutside (n : Nesting) : Bool := !n.quoted && n.depth == 0

/-- One character later. Brackets inside quotes do not count, and a closing bracket with none open
is passed over. -/
def step (n : Nesting) (c : Char) : Nesting :=
  if c = '"' then { n with quoted := !n.quoted }
  else if n.quoted then n
  else if c = '[' || c = '(' || c = '{' then { n with depth := n.depth + 1 }
  else if c = ']' || c = ')' || c = '}' then { n with depth := n.depth - 1 }
  else n

end Nesting

/-- The text cut in front of the first place outside where the rest passes the test. Only places
in front of a character count. -/
def cutWhere? (test : Text → Bool) (n : Nesting) : Text → Option (Text × Text)
  | [] => none
  | c :: t =>
    if n.isOutside && test (c :: t) then some ([], c :: t)
    else (cutWhere? test (n.step c) t).map fun (before, rest) => (c :: before, rest)

theorem append_of_cutWhere? {test : Text → Bool} {n : Nesting} {t before rest : Text}
    (found : cutWhere? test n t = some (before, rest)) : before ++ rest = t := by
  induction t generalizing n before with
  | nil => simp [cutWhere?] at found
  | cons c t ih =>
    rw [cutWhere?] at found
    split at found
    · simp only [Option.some.injEq, Prod.mk.injEq] at found
      obtain ⟨rfl, rfl⟩ := found
      rfl
    · obtain ⟨⟨b, r⟩, later, same⟩ := Option.map_eq_some_iff.1 found
      simp only [Prod.mk.injEq] at same
      obtain ⟨rfl, rfl⟩ := same
      simp [ih later]

theorem test_of_cutWhere? {test : Text → Bool} {n : Nesting} {t before rest : Text}
    (found : cutWhere? test n t = some (before, rest)) : rest ≠ [] ∧ test rest = true := by
  induction t generalizing n before with
  | nil => simp [cutWhere?] at found
  | cons c t ih =>
    rw [cutWhere?] at found
    split at found
    · next outside =>
      simp only [Option.some.injEq, Prod.mk.injEq] at found
      obtain ⟨rfl, rfl⟩ := found
      exact ⟨by simp, (Bool.and_eq_true_iff.1 outside).2⟩
    · obtain ⟨⟨b, r⟩, later, same⟩ := Option.map_eq_some_iff.1 found
      simp only [Prod.mk.injEq] at same
      obtain ⟨rfl, rfl⟩ := same
      exact ih later

/-- The byte index of the first place outside quotes and brackets where the pattern begins. -/
def findOutside? (pattern t : Text) : Option Nat :=
  (cutWhere? (startsWith pattern) .outermost t).map fun (before, _) => byteSize before

/-- The texts before and after the first occurrence of a pattern outside quotes and brackets. -/
def cutOutside? (pattern t : Text) : Option (Text × Text) :=
  (cutWhere? (startsWith pattern) .outermost t).map
    fun (before, rest) => (before, rest.drop pattern.length)

theorem length_of_cutOutside? {mark : Char} {pattern t before rest : Text}
    (found : cutOutside? (mark :: pattern) t = some (before, rest)) : rest.length < t.length := by
  obtain ⟨⟨b, r⟩, place, same⟩ := Option.map_eq_some_iff.1 found
  simp only [Prod.mk.injEq] at same
  obtain ⟨rfl, rfl⟩ := same
  have whole := congrArg List.length (append_of_cutWhere? place)
  have filled := List.length_pos_iff.2 (test_of_cutWhere? place).1
  simp only [List.length_append, List.length_drop, List.length_cons] at whole ⊢
  omega

/-- The statements of a line: it is cut at semicolons outside quotes and brackets, and the pieces
are trimmed; blank pieces are no statements. -/
def statements (t : Text) : List Text :=
  match _h : cutOutside? [';'] t with
  | none => (trimmed? t).toList
  | some (before, rest) => (trimmed? before).toList ++ statements rest
termination_by t.length
decreasing_by exact length_of_cutOutside? (by assumption)

end DiagramLint.Text
