import DiagramLint.Proofs.OpenEntries
import Mathlib.Data.List.Forall2
import Mathlib.Data.List.TakeWhile
import Mathlib.Data.Option.Basic
import Mathlib.Tactic.Common

/-!
Bodies between braces. Some lines begin a body, which goes on to the next closing brace, whatever its lines look
like; bodies do not stand in one another. So the lines alone tell the parts that they make (`parts`). A reader that
fills an entry from the lines of its body, and takes a line for the end of a body where it is a closing brace, has an
entry for every part that makes one, with just the lines of its body in it (`BodyReader.Laws.reads_of_run`).
-/
namespace DiagramLint

open Text

/-! ### Parts -/

/-- The line is a closing brace and nothing else. -/
def Line.isBrace (line : Line) : Bool := line.text = ['}']

/-- A line outside bodies, with the lines of the body that it begins and the brace that closes it. -/
structure Part where
  first : Line
  inside : List Line := []
  last : Option Line := none
  deriving DecidableEq, Repr

/-- All lines of a part. -/
def Part.lines (p : Part) : List Line := p.first :: (p.inside ++ p.last.toList)

/-- What the lines of a part say. -/
def Part.texts (p : Part) : List Text := p.lines.map Line.text

/-- Lines cut into parts, where some lines begin a body that goes on to the next closing brace. -/
def parts (opens : Text → Bool) : List Line → List Part
  | [] => []
  | line :: rest =>
    if opens line.text then
      let behind := rest.dropWhile fun l => !l.isBrace
      ⟨line, rest.takeWhile fun l => !l.isBrace, behind.head?⟩ :: parts opens behind.tail
    else ⟨line, [], none⟩ :: parts opens rest
termination_by lines => lines.length
decreasing_by
  · have shorter := (List.dropWhile_sublist (l := rest) fun l => !l.isBrace).length_le
    simp only [List.length_tail, List.length_cons]
    omega
  · simp

/-- The line that begins a body that no brace closes. -/
def unclosed? (opens : Text → Bool) (lines : List Line) : Option Line :=
  ((parts opens lines).find? fun p => opens p.first.text && p.last.isNone).map Part.first

section

variable {opens : Text → Bool} {line last : Line} {inside rest lines : List Line}

theorem parts_cons_of_plain (plain : opens line.text = false) (rest : List Line) :
    parts opens (line :: rest) = ⟨line, [], none⟩ :: parts opens rest := by
  rw [parts, if_neg (by simp [plain])]

/-- A body is all that stands in front of the brace. -/
theorem parts_cons_of_closed (opened : opens line.text = true) (open_inside : ∀ l ∈ inside, l.isBrace = false)
    (brace : last.isBrace = true) (rest : List Line) : parts opens (line :: (inside ++ last :: rest)) =
      ⟨line, inside, some last⟩ :: parts opens rest := by
  have others : ∀ l ∈ inside, (!l.isBrace) = true := by simpa using open_inside
  rw [parts, if_pos opened]
  simp [List.takeWhile_append_of_pos others, List.dropWhile_append_of_pos others, brace]

theorem parts_cons_of_unclosed (opened : opens line.text = true) (open_inside : ∀ l ∈ inside, l.isBrace = false) :
    parts opens (line :: inside) = [⟨line, inside, none⟩] := by
  have others : ∀ l ∈ inside, (!l.isBrace) = true := by simpa using open_inside
  rw [parts, if_pos opened]
  simp [List.takeWhile_eq_self_iff.mpr others, List.dropWhile_eq_nil_iff.mpr others, parts]

theorem unclosed?_cons_of_plain (plain : opens line.text = false) (rest : List Line) :
    unclosed? opens (line :: rest) = unclosed? opens rest := by
  simp [unclosed?, parts_cons_of_plain plain, plain]

theorem unclosed?_cons_of_closed (opened : opens line.text = true) (open_inside : ∀ l ∈ inside, l.isBrace = false)
    (brace : last.isBrace = true) (rest : List Line) :
    unclosed? opens (line :: (inside ++ last :: rest)) = unclosed? opens rest := by
  simp [unclosed?, parts_cons_of_closed opened open_inside brace]

theorem unclosed?_cons_of_unclosed (opened : opens line.text = true)
    (open_inside : ∀ l ∈ inside, l.isBrace = false) : unclosed? opens (line :: inside) = some line := by
  simp [unclosed?, parts_cons_of_unclosed opened open_inside, opened]

/-- Induction over the parts of lines. -/
theorem parts_induction {P : List Line → Prop} (opens : Text → Bool) (nil : P [])
    (plain : ∀ line rest, opens line.text = false → P rest → P (line :: rest))
    (closed : ∀ line inside last rest, opens line.text = true → (∀ l ∈ inside, l.isBrace = false) →
      last.isBrace = true → P rest → P (line :: (inside ++ last :: rest)))
    (unclosed : ∀ line inside, opens line.text = true → (∀ l ∈ inside, l.isBrace = false) → P (line :: inside))
    (lines : List Line) : P lines := by
  induction lines using parts.induct opens with
  | case1 => exact nil
  | case2 line rest opened behind ih =>
    have inside : ∀ l ∈ rest.takeWhile fun l => !l.isBrace, l.isBrace = false := by
      intro l member
      simpa using List.mem_takeWhile_imp member
    have whole : rest.takeWhile (fun l => !l.isBrace) ++ behind = rest := List.takeWhile_append_dropWhile
    cases found : behind with
    | nil =>
      rw [← whole, found, List.append_nil]
      exact unclosed line _ opened inside
    | cons last after =>
      rw [found, List.tail_cons] at ih
      have brace : last.isBrace = true := by
        have first := List.head?_dropWhile_not (fun l : Line => !l.isBrace) rest
        simpa [show rest.dropWhile (fun l => !l.isBrace) = last :: after from found] using first
      rw [← whole, found]
      exact closed line _ last after opened inside brace ih
  | case3 line rest plain_line ih => exact plain line rest (by simpa using plain_line) ih

/-- The parts hold all lines in order. -/
theorem lines_of_parts (opens : Text → Bool) (lines : List Line) : (parts opens lines).flatMap Part.lines = lines := by
  induction lines using parts_induction opens with
  | nil => simp [parts]
  | plain line rest plain ih => simp [parts_cons_of_plain plain, Part.lines, ih]
  | closed line inside last rest opened open_inside brace ih =>
    simp [parts_cons_of_closed opened open_inside brace, Part.lines, ih]
  | unclosed line inside opened open_inside => simp [parts_cons_of_unclosed opened open_inside, Part.lines]

end

/-! ### Readers with bodies -/

/-- A reader of lines that puts entries in a list and fills the last one from the lines of its body. -/
structure BodyReader (σ α : Type) where
  rules : σ → List (LineRule σ)
  entries : σ → List α
  /-- The entry whose body is being read. -/
  body : σ → Option α
  opens : Text → Bool
  /-- The line makes an entry. -/
  enters : Line → Bool
  /-- The entry is the one that a line makes, with a body of some lines. -/
  Holds : Line → List Line → α → Prop

namespace BodyReader

variable {σ α : Type}

/-- What a line outside bodies does. -/
inductive Outside (r : BodyReader σ α) (d : σ) (line : Line) (d' : σ) : Prop where
  | begins {a : α} (opened : r.opens line.text = true) (enters : r.enters line = true) (holds : r.Holds line [] a)
      (entries : r.entries d' = r.entries d) (body : r.body d' = some a)
  | entry {a : α} (plain : r.opens line.text = false) (enters : r.enters line = true) (holds : r.Holds line [] a)
      (entries : r.entries d' = r.entries d ++ [a]) (body : r.body d' = none)
  | other (plain : r.opens line.text = false) (enters : r.enters line = false)
      (entries : r.entries d' = r.entries d) (body : r.body d' = none)

/-- What a line does in the body of an entry. -/
inductive Inside (r : BodyReader σ α) (d : σ) (a : α) (line : Line) (d' : σ) : Prop where
  | closes (brace : line.isBrace = true) (entries : r.entries d' = r.entries d ++ [a]) (body : r.body d' = none)
  | fills {a' : α} (other : line.isBrace = false)
      (holds : ∀ first inside, r.Holds first inside a → r.Holds first (inside ++ [line]) a')
      (entries : r.entries d' = r.entries d) (body : r.body d' = some a')

/-- Every line that is read does what a line outside bodies or in a body does. -/
structure Laws (r : BodyReader σ α) : Prop where
  outside : ∀ {d line d'}, r.body d = none → readLine (r.rules d) d line = .ok d' → r.Outside d line d'
  inside : ∀ {d a line d'}, r.body d = some a → readLine (r.rules d) d line = .ok d' → r.Inside d a line d'

/-- The parts of some lines that make entries. -/
def own (r : BodyReader σ α) (lines : List Line) : List Part := (parts r.opens lines).filter fun p => r.enters p.first

/-- The entries and the open one are those that the parts of some lines make, behind others. -/
structure Reads (r : BodyReader σ α) (lines : List Line) (before : List α) (d : σ) : Prop where
  entries : ∃ added, r.entries d ++ (r.body d).toList = before ++ added ∧
    List.Forall₂ (fun p a => r.Holds p.first p.inside a) (r.own lines) added
  unclosed : Option.Rel (fun a first => ∃ inside, r.Holds first inside a) (r.body d) (unclosed? r.opens lines)

/-- All bodies of some lines are closed, and the entries are those that the parts of the lines make. -/
structure Fills (r : BodyReader σ α) (lines : List Line) (entries : List α) : Prop where
  closed : unclosed? r.opens lines = none
  held : List.Forall₂ (fun p a => r.Holds p.first p.inside a) (r.own lines) entries

variable {r : BodyReader σ α} {d d' : σ} {a : α} {first line last : Line} {before inside rest lines : List Line}
  {earlier : List α}

/-! ### One part -/

theorem own_cons_of_plain (plain : r.opens line.text = false) (rest : List Line) :
    r.own (line :: rest) = (if r.enters line then [⟨line, [], none⟩] else []) ++ r.own rest := by
  rw [own, parts_cons_of_plain plain, List.filter_cons]
  split <;> rfl

theorem own_cons_of_closed (opened : r.opens line.text = true) (enters : r.enters line = true)
    (open_inside : ∀ l ∈ inside, l.isBrace = false) (brace : last.isBrace = true) (rest : List Line) :
    r.own (line :: (inside ++ last :: rest)) = ⟨line, inside, some last⟩ :: r.own rest := by
  rw [own, parts_cons_of_closed opened open_inside brace, List.filter_cons_of_pos (by exact enters), own]

theorem own_cons_of_unclosed (opened : r.opens line.text = true) (enters : r.enters line = true)
    (open_inside : ∀ l ∈ inside, l.isBrace = false) : r.own (line :: inside) = [⟨line, inside, none⟩] := by
  rw [own, parts_cons_of_unclosed opened open_inside, List.filter_cons_of_pos (by exact enters), List.filter_nil]

namespace Laws

/-- Lines without a closing brace fill the open entry. -/
theorem filled (laws : r.Laws) (open_inside : ∀ l ∈ inside, l.isBrace = false) (opened : r.body d = some a)
    (holds : r.Holds first before a) (run : readLines r.rules d inside = .ok d') :
    r.entries d' = r.entries d ∧ ∃ a', r.body d' = some a' ∧ r.Holds first (before ++ inside) a' := by
  induction inside generalizing d a before with
  | nil =>
    obtain rfl : d = d' := Except.ok.inj run
    exact ⟨rfl, a, opened, by simpa using holds⟩
  | cons line inside ih =>
    obtain ⟨other, others⟩ := List.forall_mem_cons.mp open_inside
    obtain ⟨between, taken, run⟩ := exists_of_readLines_cons run
    rcases laws.inside opened taken with ⟨brace, -, -⟩ | ⟨-, grows, entries, body⟩
    · rw [brace] at other
      cases other
    · obtain ⟨kept, filled⟩ := ih others body (grows first before holds) run
      exact ⟨kept.trans entries, by simpa using filled⟩

/-- Behind lines that are read outside bodies, the entries are those of the parts of the lines. -/
theorem reads_of_run (laws : r.Laws) (closed : r.body d = none) (run : readLines r.rules d lines = .ok d') :
    r.Reads lines (r.entries d) d' := by
  induction lines using parts_induction r.opens generalizing d with
  | nil =>
    obtain rfl : d = d' := Except.ok.inj run
    refine ⟨⟨[], by simp [closed], ?_⟩, ?_⟩
    · simp [own, parts]
    · rw [closed, show unclosed? r.opens [] = none by simp [unclosed?, parts]]
      exact .none
  | plain line rest plain ih =>
    obtain ⟨between, taken, run⟩ := exists_of_readLines_cons run
    rcases laws.outside closed taken with
      ⟨opened, -, -, -, -⟩ | ⟨-, enters, holds, entries, body⟩ | ⟨-, enters, entries, body⟩
    · rw [plain] at opened
      cases opened
    · obtain ⟨⟨added, all, held⟩, unclosed⟩ := ih body run
      refine ⟨⟨_ :: added, by rw [all, entries, List.append_assoc, List.singleton_append], ?_⟩, ?_⟩
      · rw [own_cons_of_plain plain, if_pos enters]
        exact .cons holds held
      · rwa [unclosed?_cons_of_plain plain]
    · obtain ⟨⟨added, all, held⟩, unclosed⟩ := ih body run
      refine ⟨⟨added, by rw [all, entries], ?_⟩, ?_⟩
      · rwa [own_cons_of_plain plain, if_neg (by simp [enters]), List.nil_append]
      · rwa [unclosed?_cons_of_plain plain]
  | closed line inside last rest opened open_inside brace ih =>
    obtain ⟨begun, taken, run⟩ := exists_of_readLines_cons run
    obtain ⟨full, run_inside, run⟩ := exists_of_readLines_append run
    obtain ⟨ended, closing, run⟩ := exists_of_readLines_cons run
    rcases laws.outside closed taken with ⟨-, enters, holds, entries, body⟩ | ⟨plain, -, -, -, -⟩ | ⟨plain, -, -, -⟩
    · obtain ⟨kept, filled, body, holds⟩ := laws.filled open_inside body holds run_inside
      rcases laws.inside body closing with ⟨-, closed_entries, body⟩ | ⟨other, -, -, -⟩
      · obtain ⟨⟨added, all, held⟩, unclosed⟩ := ih body run
        refine ⟨⟨filled :: added, ?_, ?_⟩, ?_⟩
        · rw [all, closed_entries, kept, entries, List.append_assoc, List.singleton_append]
        · rw [own_cons_of_closed opened enters open_inside brace]
          exact .cons holds held
        · rwa [unclosed?_cons_of_closed opened open_inside brace]
      · rw [brace] at other
        cases other
    · rw [opened] at plain
      cases plain
    · rw [opened] at plain
      cases plain
  | unclosed line inside opened open_inside =>
    obtain ⟨begun, taken, run⟩ := exists_of_readLines_cons run
    rcases laws.outside closed taken with ⟨-, enters, holds, entries, body⟩ | ⟨plain, -, -, -, -⟩ | ⟨plain, -, -, -⟩
    · obtain ⟨kept, filled, body, holds⟩ := laws.filled open_inside body holds run
      refine ⟨⟨[filled], by rw [kept, entries, body, Option.toList_some], ?_⟩, ?_⟩
      · rw [own_cons_of_unclosed opened enters open_inside]
        exact .cons holds .nil
      · rw [body, unclosed?_cons_of_unclosed opened open_inside]
        exact .some ⟨inside, holds⟩
    · rw [opened] at plain
      cases plain
    · rw [opened] at plain
      cases plain

end Laws

namespace Reads

/-- An entry is open if the body of a part is. -/
theorem closed_iff (reads : r.Reads lines earlier d) : r.body d = none ↔ unclosed? r.opens lines = none := by
  have unclosed := reads.unclosed
  generalize r.body d = entry, unclosed? r.opens lines = begun at unclosed ⊢
  cases unclosed <;> simp

/-- The open entry stands where the body begins that no brace closes. -/
theorem place_of_open (reads : r.Reads lines earlier d) {place : α → Position}
    (placed : ∀ {first inside a}, r.Holds first inside a → place a = first.position) :
    (r.body d).map place = (unclosed? r.opens lines).map Line.position := by
  have unclosed := reads.unclosed
  generalize r.body d = entry, unclosed? r.opens lines = begun at unclosed ⊢
  cases unclosed with
  | none => rfl
  | some holds =>
    obtain ⟨inside, holds⟩ := holds
    exact congrArg some (placed holds)

theorem fills (reads : r.Reads lines [] d) (closed : r.body d = none) : r.Fills lines (r.entries d) := by
  obtain ⟨added, all, held⟩ := reads.entries
  rw [closed, Option.toList_none, List.append_nil, List.nil_append] at all
  exact ⟨reads.closed_iff.mp closed, all ▸ held⟩

end Reads

/-! ### Parts in turn -/

/-- Parts of lines are read one behind the other, and no body is open between them. -/
inductive Runs (r : BodyReader σ α) : σ → List Part → σ → Prop where
  | nil {d : σ} (closed : r.body d = none) : Runs r d [] d
  | cons {d between d' : σ} {p : Part} {ps : List Part} (closed : r.body d = none)
      (run : readLines r.rules d p.lines = .ok between) (later : Runs r between ps d') : Runs r d (p :: ps) d'

theorem Laws.runs (laws : r.Laws) (closed : r.body d = none) (run : readLines r.rules d lines = .ok d')
    (ended : r.body d' = none) : r.Runs d (parts r.opens lines) d' := by
  induction lines using parts_induction r.opens generalizing d with
  | nil =>
    obtain rfl : d = d' := Except.ok.inj run
    rw [parts]
    exact .nil closed
  | plain line rest plain ih =>
    obtain ⟨between, taken, run⟩ := exists_of_readLines_cons run
    have body : r.body between = none := by
      rcases laws.outside closed taken with ⟨opened, -, -, -, -⟩ | ⟨-, -, -, -, body⟩ | ⟨-, -, -, body⟩
      · rw [plain] at opened
        cases opened
      · exact body
      · exact body
    rw [parts_cons_of_plain plain]
    exact .cons closed (readLines_cons_ok taken) (ih body run)
  | closed line inside last rest opened open_inside brace ih =>
    rw [parts_cons_of_closed opened open_inside brace]
    have whole : line :: (inside ++ last :: rest) = (line :: (inside ++ [last])) ++ rest := by simp
    rw [whole] at run
    obtain ⟨between, ahead, run⟩ := exists_of_readLines_append run
    -- The brace ends the body of the part, so the part is read as lines with all bodies closed.
    have body : r.body between = none := by
      refine (laws.reads_of_run closed ahead).closed_iff.mpr ?_
      rw [unclosed?_cons_of_closed opened open_inside brace]
      simp [unclosed?, parts]
    exact .cons closed ahead (ih body run)
  | unclosed line inside opened open_inside =>
    have all_closed := (laws.reads_of_run closed run).closed_iff.mp ended
    rw [unclosed?_cons_of_unclosed opened open_inside] at all_closed
    cases all_closed

/-! ### Sources -/

/-- All lines can be read from a state at the start. -/
def Accepts (r : BodyReader σ α) (start : σ → Prop) (lines : List Line) : Prop :=
  ∃ d, start d ∧ ∃ d', readLines r.rules d lines = .ok d'

/-- A source is read where all its lines can be read and no body is open behind them. Then its entries are those of
its lines; and where a body is open, reading stops for the line that begins it. -/
structure Describes {β : Type} (r : BodyReader σ α) (start : σ → Prop) (lines : List Line)
    (result : Except ParseError β) (entries : β → List α) : Prop where
  ok_iff : (∃ b, result = .ok b) ↔ r.Accepts start lines ∧ unclosed? r.opens lines = none
  fills : ∀ b, result = .ok b → r.Fills lines (entries b)
  unclosed_iff : ∀ p, (∃ e, result = .error e ∧ e.code = .e200 ∧ e.position = p) ↔
    r.Accepts start lines ∧ (unclosed? r.opens lines).map Line.position = some p

theorem Laws.describes {β : Type} {start : σ → Prop} {result : Except ParseError β} {entries : β → List α}
    {fault : α → ParseError} (laws : r.Laws)
    (faults : FaultsIn result start r.rules lines fun d => (r.body d).map fault)
    (placed : ∀ {first inside a}, r.Holds first inside a → (fault a).position = first.position)
    (fresh : ∀ {d}, start d → r.body d = none ∧ r.entries d = [])
    (finished : ∀ {b}, result = .ok b → ∃ d, start d ∧ ∃ d', readLines r.rules d lines = .ok d' ∧
      r.body d' = none ∧ r.entries d' = entries b) : r.Describes start lines result entries := by
  have reads {d d' : σ} (started : start d) (run : readLines r.rules d lines = .ok d') : r.Reads lines [] d' := by
    obtain ⟨closed, empty⟩ := fresh started
    exact empty ▸ laws.reads_of_run closed run
  refine ⟨?_, ?_, ?_⟩
  · rw [faults.ok_iff]
    constructor
    · rintro ⟨d, started, d', run, closed⟩
      exact ⟨⟨d, started, d', run⟩, (reads started run).closed_iff.mp (Option.map_eq_none_iff.mp closed)⟩
    · rintro ⟨⟨d, started, d', run⟩, closed⟩
      exact ⟨d, started, d', run, Option.map_eq_none_iff.mpr ((reads started run).closed_iff.mpr closed)⟩
  · intro b made
    obtain ⟨d, started, d', run, closed, same⟩ := finished made
    exact same ▸ (reads started run).fills closed
  · intro p
    rw [faults.unclosed_iff]
    simp only [Option.map_map]
    constructor
    · rintro ⟨d, started, d', run, open_at⟩
      exact ⟨⟨d, started, d', run⟩, ((reads started run).place_of_open placed).symm.trans open_at⟩
    · rintro ⟨⟨d, started, d', run⟩, open_at⟩
      exact ⟨d, started, d', run, ((reads started run).place_of_open placed).trans open_at⟩

end BodyReader

end DiagramLint
