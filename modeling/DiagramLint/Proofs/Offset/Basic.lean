import DiagramLint.Finding
import DiagramLint.LineRule
import DiagramLint.Proofs.LineNumbers
import Mathlib.Tactic.Common

/-!
Sources further down in a document. A source that stands some lines further down has the same lines
there, and the lines of a diagram tell nothing of where they stand but their positions. What is
read from lines that are moved down is what is read from the lines, moved down. Nor does it matter
how far apart lines are, so the lines in front of some line may stay where they are.
-/
namespace DiagramLint

open Text

/-- How far lines go down. The number of a line that a fault quotes counts apart from positions. -/
structure Move where
  lines : Nat
  quoted : Nat
  /-- The first line that goes down; those in front of it stay. -/
  start : Nat

namespace Move

/-- All numbers of lines grow by the same number. -/
def down (lines : Nat) : Move := ⟨lines, lines, 0⟩

/-- How far a line goes down. -/
def distance (k : Move) (line : Nat) : Nat := if line < k.start then 0 else k.lines

/-- How far the number of a line goes down where a fault quotes it. -/
def quotedDistance (k : Move) (line : Nat) : Nat := if line < k.start then 0 else k.quoted

theorem distance_of_le {k : Move} {line : Nat} (behind : k.start ≤ line) : k.distance line = k.lines :=
  if_neg (Nat.not_lt.mpr behind)

theorem distance_of_lt {k : Move} {line : Nat} (before : line < k.start) : k.distance line = 0 := if_pos before

theorem quotedDistance_eq {k : Move} (quoting : k.quoted = k.lines) (line : Nat) :
    k.quotedDistance line = k.distance line := by
  rw [quotedDistance, quoting, distance]

end Move

/-- Values that hold positions. -/
class Placed (α : Type) where
  /-- The value with every position in it moved down. -/
  shift (k : Move) (value : α) : α

open Placed (shift)

variable {α β : Type} {k : Move}

/-! ### Positions, lines and faults -/

instance : Placed Position := ⟨fun k p => p.down (k.distance p.line)⟩

/-- A text holds no position. -/
instance : Placed Text := ⟨fun _ t => t⟩

/-- A string holds no position. -/
instance : Placed String := ⟨fun _ s => s⟩

/-- A repeated setting quotes the line of the earlier one; no other fault names a line. -/
instance : Placed Fault where
  shift k
    | .settingRepeated key line => .settingRepeated key (line + k.quotedDistance line)
    | fault => fault

instance : Placed ParseError where
  shift k e := { e with fault := shift k e.fault, position := shift k e.position }

instance : Placed Line := ⟨fun k line => { line with number := line.number + k.distance line.number }⟩

instance : Placed Header := ⟨fun k h => { h with position := shift k h.position }⟩

instance : Placed Label := ⟨fun k l => { l with position := shift k l.position }⟩

instance [Placed α] : Placed (List α) := ⟨fun k values => values.map (shift k)⟩

instance [Placed α] : Placed (Option α) := ⟨fun k value => value.map (shift k)⟩

instance [Placed α] [Placed β] : Placed (α × β) := ⟨fun k pair => (shift k pair.1, shift k pair.2)⟩

instance [Placed α] [Placed β] : Placed (Except α β) where
  shift k
    | .error e => .error (shift k e)
    | .ok value => .ok (shift k value)

/-- A finding has its positions in its labels. -/
instance : Placed Finding := ⟨fun k f => { f with labels := shift k f.labels }⟩

/-- A source goes down with its first line. -/
instance : Placed Source :=
  ⟨fun k s => { s with offset := s.offset + k.distance (s.offset + 1), lines := shift k s.lines }⟩

/-! ### Lists and results -/

@[simp] theorem shift_nil [Placed α] : shift k ([] : List α) = [] := rfl

@[simp] theorem shift_cons [Placed α] (a : α) (as : List α) : shift k (a :: as) = shift k a :: shift k as := rfl

@[simp] theorem shift_append [Placed α] (as bs : List α) : shift k (as ++ bs) = shift k as ++ shift k bs :=
  List.map_append

@[simp] theorem length_shift [Placed α] (as : List α) : (shift k as).length = as.length := List.length_map _

@[simp] theorem isEmpty_shift [Placed α] (as : List α) : (shift k as).isEmpty = as.isEmpty := by
  cases as with
  | nil => rfl
  | cons a as => rfl

@[simp] theorem isSome_shift [Placed α] (a : Option α) : (shift k a).isSome = a.isSome := by
  cases a with
  | none => rfl
  | some a => rfl

@[simp] theorem isNone_shift [Placed α] (a : Option α) : (shift k a).isNone = a.isNone := by
  cases a with
  | none => rfl
  | some a => rfl

@[simp] theorem toList_shift [Placed α] (a : Option α) : (shift k a).toList = shift k a.toList := by
  cases a with
  | none => rfl
  | some a => rfl

theorem flatMap_shift [Placed α] [Placed β] {f g : α → List β} (moves : ∀ a, g (shift k a) = shift k (f a))
    (as : List α) : (shift k as).flatMap g = shift k (as.flatMap f) := by
  induction as with
  | nil => rfl
  | cons a as ih => rw [shift_cons, List.flatMap_cons, List.flatMap_cons, shift_append, moves, ih]

theorem map_shift [Placed α] [Placed β] {f g : α → β} (moves : ∀ a, g (shift k a) = shift k (f a))
    (as : List α) : (shift k as).map g = shift k (as.map f) := by
  induction as with
  | nil => rfl
  | cons a as ih => rw [shift_cons, List.map_cons, List.map_cons, shift_cons, moves, ih]

theorem filterMap_shift [Placed α] [Placed β] {f g : α → Option β}
    (moves : ∀ a, g (shift k a) = shift k (f a)) (as : List α) :
    (shift k as).filterMap g = shift k (as.filterMap f) := by
  induction as with
  | nil => rfl
  | cons a as ih =>
    rw [shift_cons, List.filterMap_cons, List.filterMap_cons, moves, ih]
    cases f a with
    | none => rfl
    | some b => rfl

theorem shift_map [Placed β] (f : α → β) (as : List α) : shift k (as.map f) = as.map fun a => shift k (f a) :=
  List.map_map

theorem shift_filterMap [Placed β] (f : α → Option β) (as : List α) :
    shift k (as.filterMap f) = as.filterMap fun a => shift k (f a) := List.map_filterMap

theorem filter_shift [Placed α] {p : α → Bool} (stays : ∀ a, p (shift k a) = p a) (as : List α) :
    (shift k as).filter p = shift k (as.filter p) := by
  induction as with
  | nil => rfl
  | cons a as ih =>
    rw [shift_cons, List.filter_cons, List.filter_cons, stays, ih]
    split
    · rfl
    · rfl

theorem find?_shift [Placed α] {p : α → Bool} (stays : ∀ a, p (shift k a) = p a) (as : List α) :
    (shift k as).find? p = shift k (as.find? p) := by
  induction as with
  | nil => rfl
  | cons a as ih =>
    rw [shift_cons, List.find?_cons, List.find?_cons, stays, ih]
    split
    · rfl
    · rfl

@[simp] theorem getElem?_shift [Placed α] (as : List α) (i : Nat) : (shift k as)[i]? = shift k as[i]? :=
  List.getElem?_map

theorem modify_shift [Placed α] {f g : α → α} (moves : ∀ a, g (shift k a) = shift k (f a)) (as : List α)
    (i : Nat) : (shift k as).modify i g = shift k (as.modify i f) := by
  induction as generalizing i with
  | nil => cases i <;> rfl
  | cons a as ih =>
    cases i with
    | zero => simp [moves]
    | succ i => simp [ih]

theorem option_map_shift [Placed α] [Placed β] {f g : α → β} (moves : ∀ a, g (shift k a) = shift k (f a))
    (a : Option α) : (shift k a).map g = shift k (a.map f) := by
  cases a with
  | none => rfl
  | some a => exact congrArg some (moves a)

/-- A changed result. -/
theorem result_map_shift [Placed α] [Placed β] {f g : α → β} (moves : ∀ a, g (shift k a) = shift k (f a))
    (x : Except ParseError α) : (shift k x).map g = shift k (x.map f) := by
  cases x with
  | error e => rfl
  | ok a => exact congrArg Except.ok (moves a)

/-- A result in two steps. -/
theorem result_bind_shift [Placed α] [Placed β] {f g : α → Except ParseError β}
    (moves : ∀ a, g (shift k a) = shift k (f a)) (x : Except ParseError α) :
    (shift k x >>= g) = shift k (x >>= f) := by
  cases x with
  | error e => rfl
  | ok a => exact moves a

/-! ### Lines -/

@[simp] theorem text_shift (line : Line) : (shift k line).text = line.text := rfl

@[simp] theorem indent_shift (line : Line) : (shift k line).indent = line.indent := rfl

@[simp] theorem position_shift (line : Line) : (shift k line).position = shift k line.position := rfl

/-- A fault that names no line is the same in a line further down. -/
theorem fail_shift {fault : Fault} (stays : shift k fault = fault) (line : Line) :
    (shift k line).fail fault = shift k (line.fail fault) := by
  show ParseError.mk fault _ _ _ = ParseError.mk (shift k fault) _ _ _
  rw [stays]
  rfl

theorem direction_shift (line : Line) (t : Text) :
    (shift k line).direction t = (line.direction t).mapError (shift k) := by
  unfold Line.direction
  split
  · rfl
  · rfl

/-! ### Sources -/

theorem ofRaw_shift {number : Nat} (behind : k.start ≤ number) (raw : Text) :
    Line.ofRaw (number + k.lines) raw = shift k (Line.ofRaw number raw) := by
  show _ = Line.mk (number + k.distance number) _ _ _ _
  rw [Move.distance_of_le behind]
  rfl

theorem line?_shift (zone : Zone) {number : Nat} (behind : k.start ≤ number) (raw : Text) :
    zone.line? (number + k.lines) raw = shift k (zone.line? number raw) := by
  cases zone
  case frontMatter => rfl
  all_goals
    simp only [Zone.line?, ofRaw_shift behind]
    split
    · rfl
    · rfl

theorem significantLines_shift (zone : Zone) {number : Nat} (behind : k.start ≤ number) (raws : List Text) :
    significantLines zone (number + k.lines) raws = shift k (significantLines zone number raws) := by
  induction raws generalizing zone number with
  | nil => rfl
  | cons raw rest ih =>
    rw [significantLines_cons, significantLines_cons, line?_shift zone behind, Nat.add_right_comm,
      ih _ (Nat.le_add_right_of_le behind), shift_append, toList_shift]

/-- A text that stands further down has the same lines there. -/
theorem ofText_shift (text : Text) (lines : Nat) :
    Source.ofText text (Move.down lines).lines = shift (.down lines) (Source.ofText text 0) := by
  have moved : significantLines .start (lines + 1) (Text.lines text) =
      shift (.down lines) (significantLines .start 1 (Text.lines text)) := by
    rw [Nat.add_comm]
    exact significantLines_shift (k := .down lines) .start (Nat.zero_le 1) (Text.lines text)
  show Source.mk text lines (significantLines .start (lines + 1) _) = Source.mk text (0 + lines) _
  rw [moved, Nat.zero_add]
  rfl

theorem header?_shift (s : Source) : (shift k s).header? = shift k s.header? := List.head?_map ..

theorem body_shift (s : Source) : (shift k s).body = shift k s.body := List.map_tail.symm

theorem headerLine_shift (s : Source) : (shift k s).headerLine = shift k s.headerLine := by
  unfold Source.headerLine
  rw [header?_shift]
  cases s.header? with
  | none =>
    show Except.error (Fault.headerMissing.at ⟨s.offset + k.distance (s.offset + 1) + 1, 1⟩) =
      Except.error (Fault.headerMissing.at ⟨s.offset + 1 + k.distance (s.offset + 1), 1⟩)
    rw [Nat.add_right_comm]
  | some line => rfl

theorem headerWith_shift (s : Source) (keywords : List String) :
    (shift k s).headerWith keywords = shift k (s.headerWith keywords) := by
  unfold Source.headerWith
  rw [headerLine_shift]
  refine result_bind_shift ?_ _
  intro line
  rw [text_shift]
  split
  · rfl
  · rfl

theorem bareHeader_shift (s : Source) (keyword : String) :
    (shift k s).bareHeader keyword = shift k (s.bareHeader keyword) := by
  unfold Source.bareHeader
  rw [headerWith_shift]
  refine result_bind_shift ?_ _
  rintro ⟨line, found, rest⟩
  show (if rest.isEmpty then _ else _) = shift k (if rest.isEmpty then _ else _)
  split
  · rfl
  · rfl

end DiagramLint
