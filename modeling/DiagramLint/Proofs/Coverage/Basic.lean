import DiagramLint.LineRule
import DiagramLint.Proofs.Results
import DiagramLint.Proofs.Text.Keywords
import Mathlib.Data.List.Basic
import Mathlib.Tactic.Common

/-!
Lines and what is recorded for them. Readers put what they read in lists, where every entry has the
position of its line. If each line that is not passed over adds one entry at the end of one list,
then the entries are the lines that are not passed over, each once, and every list has them in the
order of the lines (`readLines_covers`).
-/
namespace DiagramLint

/-! ### Lines that are passed over -/

/-- How the lines of a body are told apart by their texts alone: a mode goes from line to line, and
in each mode some texts are passed over. -/
structure Plan (μ : Type) where
  next : μ → Text → μ
  passes : μ → Text → Bool

/-- The lines that are not passed over. -/
def Plan.recorded {μ : Type} (plan : Plan μ) (m : μ) : List Line → List Line
  | [] => []
  | line :: rest =>
    if plan.passes m line.text then recorded plan (plan.next m line.text) rest
    else line :: recorded plan (plan.next m line.text) rest

theorem Plan.recorded_sublist {μ : Type} (plan : Plan μ) (m : μ) (lines : List Line) :
    (plan.recorded m lines).Sublist lines := by
  induction lines generalizing m with
  | nil => exact .slnil
  | cons line rest ih =>
    unfold recorded
    split
    · exact (ih _).cons line
    · exact (ih _).cons_cons line

/-- No line is passed over. -/
def Plan.everyLine : Plan Unit := ⟨fun _ _ => (), fun _ _ => false⟩

theorem recorded_everyLine (m : Unit) (lines : List Line) : Plan.everyLine.recorded m lines = lines := by
  induction lines generalizing m with
  | nil => rfl
  | cons line rest ih => exact congrArg (line :: ·) (ih _)

/-! ### Entries -/

/-- The positions of the entries of some lists. -/
abbrev Columns := List (List Position)

/-- A number of the lists have one more entry each; an empty list may be new. -/
inductive Adds (p : Position) : Nat → Columns → Columns → Prop where
  | nil : Adds p 0 [] []
  | opened : Adds p 0 [] [[]]
  | keep {n : Nat} {columns columns' : Columns} {column : List Position} (later : Adds p n columns columns') :
      Adds p n (column :: columns) (column :: columns')
  | add {n : Nat} {columns columns' : Columns} {column : List Position} (later : Adds p n columns columns') :
      Adds p (n + 1) (column :: columns) ((column ++ [p]) :: columns')

namespace Adds

variable {p : Position} {n : Nat} {columns columns' : Columns}

/-- The list of entries has one more. -/
theorem entry {α : Type} {place : α → Position} {entries : List α} {entry : α} (placed : place entry = p)
    (later : Adds p n columns columns') :
    Adds p (n + 1) (entries.map place :: columns) ((entries ++ [entry]).map place :: columns') := by
  rw [List.map_append, List.map_singleton, placed]
  exact .add later

theorem refl (columns : Columns) : Adds p 0 columns columns := by
  induction columns with
  | nil => exact .nil
  | cons column columns ih => exact .keep ih

/-- A list without entries is new behind the others. -/
theorem opening (columns : Columns) : Adds p 0 columns (columns ++ [[]]) := by
  induction columns with
  | nil => exact .opened
  | cons column columns ih => exact .keep ih

/-- The list of one thing has one more entry. -/
theorem modify {α : Type} {place : α → List Position} {f : α → α} {as : List α} {i : Nat} {a : α}
    (here : as[i]? = some a) (grown : place (f a) = place a ++ [p]) :
    Adds p 1 (as.map place) ((as.modify i f).map place) := by
  induction as generalizing i with
  | nil => exact nomatch here
  | cons first as ih =>
    cases i with
    | zero =>
      obtain rfl : first = a := Option.some.inj here
      rw [List.modify_zero_cons, List.map_cons, List.map_cons, grown]
      exact .add (.refl _)
    | succ i => exact .keep (ih here)

theorem flatten (adds : Adds p n columns columns') :
    columns'.flatten.Perm (columns.flatten ++ List.replicate n p) := by
  induction adds with
  | nil => exact .refl _
  | opened => exact .refl _
  | @keep n columns columns' column _ ih =>
    show (column ++ columns'.flatten).Perm (column ++ columns.flatten ++ List.replicate n p)
    rw [List.append_assoc]
    exact ih.append_left column
  | @add n columns columns' column _ ih =>
    show (column ++ [p] ++ columns'.flatten).Perm (column ++ columns.flatten ++ List.replicate (n + 1) p)
    rw [List.append_assoc, List.append_assoc, List.replicate_succ']
    refine List.Perm.append_left column (List.perm_append_comm.trans ?_)
    rw [← List.append_assoc]
    exact ih.append_right [p]

theorem column (adds : Adds p n columns columns') :
    ∀ column' ∈ columns', column' = [] ∨ ∃ column ∈ columns, column' = column ∨ column' = column ++ [p] := by
  induction adds with
  | nil => exact nofun
  | opened =>
    intro column' member
    exact .inl (List.mem_singleton.mp member)
  | @keep n columns columns' column _ ih =>
    intro column' member
    rcases List.mem_cons.mp member with rfl | other
    · exact .inr ⟨column', List.mem_cons_self, .inl rfl⟩
    · rcases ih column' other with empty | ⟨before, inside, grown⟩
      · exact .inl empty
      · exact .inr ⟨before, List.mem_cons_of_mem _ inside, grown⟩
  | @add n columns columns' column _ ih =>
    intro column' member
    rcases List.mem_cons.mp member with rfl | other
    · exact .inr ⟨column, List.mem_cons_self, .inr rfl⟩
    · rcases ih column' other with empty | ⟨before, inside, grown⟩
      · exact .inl empty
      · exact .inr ⟨before, List.mem_cons_of_mem _ inside, grown⟩

end Adds

/-- What has been recorded. -/
structure Account where
  columns : Columns
  /-- The places that are recorded a second time. -/
  doubled : List Position

namespace Account

/-- What a line does to an account: nothing if it is passed over, and else it is recorded once, or in
two lists and among the doubled places. -/
inductive Step (p : Position) (a : Account) : Bool → Account → Prop where
  | passed {columns : Columns} (same : columns = a.columns) : Step p a true ⟨columns, a.doubled⟩
  | once {columns : Columns} (added : Adds p 1 a.columns columns) : Step p a false ⟨columns, a.doubled⟩
  | twice {columns : Columns} (added : Adds p 2 a.columns columns) :
      Step p a false ⟨columns, a.doubled ++ [p]⟩

/-- The account has each place once, but those that are doubled twice, and every list has its places
in order. -/
structure Covers (a : Account) (places : List Position) : Prop where
  once : a.columns.flatten.Perm (places ++ a.doubled)
  ordered : ∀ column ∈ a.columns, column.Sublist places

variable {p : Position} {a a' : Account} {places : List Position}

theorem ordered_of_adds {n : Nat} {columns columns' : Columns} (adds : Adds p n columns columns')
    (ordered : ∀ column ∈ columns, column.Sublist places) :
    ∀ column ∈ columns', column.Sublist (places ++ [p]) := by
  intro column' member
  rcases adds.column column' member with rfl | ⟨column, inside, rfl | rfl⟩
  · exact List.nil_sublist _
  · exact (ordered column' inside).trans (List.sublist_append_left _ _)
  · exact (ordered column inside).append_right [p]

/-- A line that is recorded is covered. -/
theorem Covers.step {passes : Bool} (covers : a.Covers places) (step : Step p a passes a') :
    a'.Covers (places ++ if passes then [] else [p]) := by
  cases step with
  | passed same =>
    subst same
    simpa using covers
  | @once columns added =>
    refine ⟨?_, ordered_of_adds added covers.ordered⟩
    have grown := added.flatten.trans (covers.once.append_right [p])
    show columns.flatten.Perm (places ++ [p] ++ a.doubled)
    refine grown.trans ?_
    rw [List.append_assoc, List.append_assoc]
    exact List.perm_append_comm.append_left places
  | @twice columns added =>
    refine ⟨?_, ordered_of_adds added covers.ordered⟩
    have grown := added.flatten.trans (covers.once.append_right [p, p])
    show columns.flatten.Perm (places ++ [p] ++ (a.doubled ++ [p]))
    refine grown.trans ?_
    rw [List.append_assoc, List.append_assoc]
    refine List.Perm.append_left places ?_
    show (a.doubled ++ ([p] ++ [p])).Perm ([p] ++ (a.doubled ++ [p]))
    rw [← List.append_assoc, ← List.append_assoc]
    exact List.perm_append_comm.append_right [p]

/-- One list that covers places, none of them twice, has just these places in order. -/
theorem Covers.eq_of_column {column : List Position} (covers : Covers ⟨[column], []⟩ places) : column = places := by
  have inside := covers.ordered column List.mem_cons_self
  have together := covers.once.length_eq
  simp only [List.flatten_cons, List.flatten_nil, List.append_nil] at together
  exact inside.eq_of_length together

end Account

/-- A change of one thing that others do not see. -/
theorem map_modify_of_eq {α β : Type} {g : α → β} {f : α → α} (same : ∀ a, g (f a) = g a) (as : List α) (i : Nat) :
    (as.modify i f).map g = as.map g := by
  induction as generalizing i with
  | nil => cases i <;> rfl
  | cons a as ih =>
    cases i with
    | zero => rw [List.modify_zero_cons, List.map_cons, List.map_cons, same]
    | succ i => rw [List.modify_succ_cons, List.map_cons, List.map_cons, ih]

/-! ### Rules -/

open Text in
/-- A line behind the keyword sets the direction that it names. -/
theorem set_direction_taken {σ : Type} {line : Line} {rest : Text} {set : Direction → σ} {s' : σ}
    (after : afterKeyword? "direction" line.text = some rest)
    (taken : ((line.direction rest).map fun direction => some (set direction)) = .ok (some s')) :
    namesDirection line.text = true ∧ ∃ direction, s' = set direction := by
  obtain ⟨direction, named, same⟩ := exists_of_map_ok taken
  refine ⟨?_, direction, (Option.some.inj same).symm⟩
  unfold Line.direction at named
  split at named
  · next found =>
    rw [namesDirection, after, Option.bind_some, found]
    rfl
  · cases named

section Rules

variable {σ : Type} {s s' : σ} {line : Line} {rules : List (LineRule σ)}

theorem eq_of_take (taken : take s = .ok (some s')) : s' = s := (Option.some.inj (Except.ok.inj taken)).symm

theorem not_taken_by_none : firstTaking s line [] ≠ .ok (some s') := nofun

/-- A line that is taken is taken by the first rule, or by the others when the first leaves it to them. -/
theorem firstTaking_cons {name : String} {read : σ → Line → Taken σ} :
    firstTaking s line (⟨name, read⟩ :: rules) = .ok (some s') ↔
      read s line = .ok (some s') ∨ read s line = .ok none ∧ firstTaking s line rules = .ok (some s') := by
  rw [firstTaking]
  dsimp only
  cases read s line with
  | error e => simp
  | ok taken =>
    cases taken with
    | none => simp
    | some after => simp

theorem readLine_eq_ok_iff : readLine rules s line = .ok s' ↔ firstTaking s line rules = .ok (some s') := by
  unfold readLine
  cases firstTaking s line rules with
  | error e => simp
  | ok taken =>
    cases taken with
    | none => simp
    | some after => simp

end Rules

/-- What every line keeps is kept by all of them. -/
theorem readLines_keep {σ : Type} {rules : σ → List (LineRule σ)} {P : σ → Prop}
    (step : ∀ {d : σ} {line : Line} {d' : σ}, P d → readLine (rules d) d line = .ok d' → P d')
    {d d' : σ} {lines : List Line} (run : readLines rules d lines = .ok d') (start : P d) : P d' := by
  induction lines generalizing d with
  | nil =>
    obtain rfl : d = d' := Except.ok.inj run
    exact start
  | cons line rest ih =>
    unfold readLines at run
    split at run
    · next between read => exact ih run (step start read)
    · exact nomatch run

/-- Where every line takes the account and the mode one step, all lines that are not passed over are
covered. -/
theorem readLines_covers {σ μ : Type} {rules : σ → List (LineRule σ)} (plan : Plan μ) (modeOf : σ → μ)
    (account : σ → Account)
    (step : ∀ {d : σ} {line : Line} {d' : σ}, readLine (rules d) d line = .ok d' →
      modeOf d' = plan.next (modeOf d) line.text ∧
        (account d).Step line.position (plan.passes (modeOf d) line.text) (account d'))
    {d d' : σ} {lines : List Line} {places : List Position} (run : readLines rules d lines = .ok d')
    (covers : (account d).Covers places) :
    (account d').Covers (places ++ (plan.recorded (modeOf d) lines).map Line.position) := by
  induction lines generalizing d places with
  | nil =>
    obtain rfl : d = d' := Except.ok.inj run
    simpa [Plan.recorded] using covers
  | cons line rest ih =>
    unfold readLines at run
    split at run
    · next between read =>
      obtain ⟨next, taken⟩ := step read
      have covered := ih run (covers.step taken)
      rw [next] at covered
      unfold Plan.recorded
      split at covered
      · next passed =>
        rw [if_pos passed]
        simpa using covered
      · next spoken =>
        rw [if_neg spoken]
        simpa using covered
    · exact nomatch run

end DiagramLint
