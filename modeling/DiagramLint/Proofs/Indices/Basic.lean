import DiagramLint.Proofs.LineRule
import DiagramLint.Proofs.Results
import Mathlib.Data.List.Forall2
import Mathlib.Data.List.Pairwise
import Mathlib.Tactic.Common

/-!
Reading with checked indices. What is open while lines are read is known by indices into lists. Here to look an entry
up is a step of its own, which misses if its index is beyond the list, and then nothing is read at all (`Checked`). A
checked reader keeps an entry whose lines are still being read in its list from its first line on, and knows it by its
index too (`Indexed`). If the checked rules mirror the rules of a reader wherever its indices are in range, and every
line leaves them in range, the checked reader gets wherever the reader gets, and no lookup misses
(`Mirroring.neverMisses`).
-/
namespace DiagramLint

/-! ### Lookups -/

/-- What is made with lookups by index: nothing at all if one of them misses its list, and else a result or a fault. -/
abbrev Checked (α : Type) := ExceptT ParseError Option α

namespace Checked

variable {α β : Type} {entries : List α} {stack : List Nat} {i : Nat} {a : α}

/-- A result or a fault without a lookup that misses. -/
def hit (x : Except ParseError α) : Checked α := ExceptT.mk (some x)

/-- The entry at an index. -/
def entry (entries : List α) (i : Nat) : Checked α := ExceptT.mk (entries[i]?.map .ok)

/-- The entry at the first of some indices, if there are any. -/
def innermost (entries : List α) : List Nat → Checked (Option α)
  | [] => pure none
  | i :: _ => some <$> entry entries i

/-- The entries with a change of the one at an index. -/
def change (entries : List α) (i : Nat) (f : α → α) : Checked (List α) := do
  let _ ← entry entries i
  pure (entries.modify i f)

theorem hit_inj {x y : Except ParseError α} : hit x = hit y ↔ x = y :=
  ⟨fun same => Option.some.inj same, congrArg hit⟩

theorem pure_eq (a : α) : (pure a : Checked α) = hit (.ok a) := rfl

theorem lift_eq (x : Except ParseError α) : (liftM x : Checked α) = hit x := rfl

theorem hit_ok_bind (a : α) (f : α → Checked β) : (hit (.ok a) >>= f) = f a := rfl

/-- Steps without a lookup that misses, one behind the other. -/
theorem hit_bind {x : Except ParseError α} {f : α → Checked β} {g : α → Except ParseError β}
    (behind : ∀ a, f a = hit (g a)) : (hit x >>= f) = hit (x >>= g) := by
  cases x with
  | error e => rfl
  | ok a => exact behind a

theorem map_hit (f : α → β) (x : Except ParseError α) : f <$> hit x = hit (x.map f) := by
  cases x <;> rfl

theorem hit_bind_map {x : Except ParseError α} {f : α → Checked β} {g : α → β} (behind : ∀ a, f a = hit (.ok (g a))) :
    (hit x >>= f) = hit (x.map g) := by
  cases x with
  | error e => rfl
  | ok a => exact behind a

theorem entry_eq (here : entries[i]? = some a) : entry entries i = hit (.ok a) := by
  rw [entry, here]
  rfl

theorem innermost_eq (inRange : ∀ i ∈ stack, i < entries.length) :
    innermost entries stack = hit (.ok (stack.head?.bind fun i => entries[i]?)) := by
  cases stack with
  | nil => rfl
  | cons i stack =>
    have here := List.getElem?_eq_getElem (inRange i List.mem_cons_self)
    rw [innermost, entry_eq here, List.head?_cons, Option.bind_some, here]
    rfl

theorem change_eq (inside : i < entries.length) (f : α → α) : change entries i f = hit (.ok (entries.modify i f)) := by
  rw [change, entry_eq (List.getElem?_eq_getElem inside), hit_ok_bind, pure_eq]

end Checked

open Checked

/-! ### Rules -/

variable {σ τ : Type}

/-- A named rule for body lines that may look entries up by index. -/
structure CheckedRule (σ : Type) where
  name : String
  read : σ → Line → Checked (Option σ)

/-- A rule that looks nothing up by index. -/
def LineRule.checked (rule : LineRule σ) : CheckedRule σ := ⟨rule.name, fun s line => hit (rule.read s line)⟩

/-- What the first rule that does not pass makes of the line. -/
def firstTakingChecked (s : σ) (line : Line) : List (CheckedRule σ) → Checked (Option σ)
  | [] => pure none
  | rule :: rules => do
    match ← rule.read s line with
    | none => firstTakingChecked s line rules
    | some after => pure (some after)

/-- The state after a line. -/
def readLineChecked (rules : List (CheckedRule σ)) (s : σ) (line : Line) : Checked σ := do
  match ← firstTakingChecked s line rules with
  | some after => pure after
  | none => throw { line.fail (.lineUnrecognised line.text) with expected := rules.map CheckedRule.name }

/-- The state after some lines. -/
def readLinesChecked (rules : σ → List (CheckedRule σ)) (s : σ) : List Line → Checked σ
  | [] => pure s
  | line :: lines => do
    let after ← readLineChecked (rules s) s line
    readLinesChecked rules after lines

/-! ### Checked readers -/

/-- A checked rule makes of what stands for a state what the rule makes of the state, and misses nothing. -/
structure Mirrors (view : σ → τ) (s : σ) (line : Line) (rule : LineRule σ) (checked : CheckedRule τ) : Prop where
  name : checked.name = rule.name
  read : checked.read (view s) line = hit ((rule.read s line).map (Option.map view))

/-- Wherever the indices of a state are in range, checked rules mirror the rules, and a line leaves them in range. -/
structure Mirroring (view : σ → τ) (rules : σ → List (LineRule σ)) (checked : τ → List (CheckedRule τ))
    (InRange : σ → Prop) : Prop where
  mirrors : ∀ {s}, InRange s → ∀ line, List.Forall₂ (Mirrors view s line) (rules s) (checked (view s))
  keeps : ∀ {s line s'}, InRange s → readLine (rules s) s line = .ok s' → InRange s'

section

variable {view : σ → τ} {s : σ} {line : Line} {rule : LineRule σ} {rules : List (LineRule σ)}
  {checked : List (CheckedRule τ)}

/-- Where a reader holds indices as a checked reader does, the two see the same states. -/
theorem mirrors_of_eq {name : String} {read : σ → Line → Taken σ} {readChecked : σ → Line → Checked (Option σ)}
    (same : readChecked s line = hit (read s line)) : Mirrors id s line ⟨name, read⟩ ⟨name, readChecked⟩ :=
  ⟨rfl, by simpa [Except.map_id] using same⟩

theorem mirrors_checked (s : σ) (line : Line) (rule : LineRule σ) : Mirrors id s line rule rule.checked :=
  mirrors_of_eq rfl

theorem mirrors_all_checked (s : σ) (line : Line) (rules : List (LineRule σ)) :
    List.Forall₂ (Mirrors id s line) rules (rules.map LineRule.checked) :=
  List.forall₂_map_right_iff.mpr (List.forall₂_same.mpr fun rule _ => mirrors_checked s line rule)

theorem names_of_mirrors (mirrors : List.Forall₂ (Mirrors view s line) rules checked) :
    checked.map CheckedRule.name = rules.map LineRule.name := by
  induction mirrors with
  | nil => rfl
  | cons first _ ih => rw [List.map_cons, List.map_cons, first.name, ih]

theorem firstTakingChecked_eq (mirrors : List.Forall₂ (Mirrors view s line) rules checked) :
    firstTakingChecked (view s) line checked = hit ((firstTaking s line rules).map (Option.map view)) := by
  induction mirrors with
  | nil => rfl
  | @cons rule checkedRule rules checked first _ ih =>
    rw [firstTakingChecked, firstTaking, first.read]
    cases rule.read s line with
    | error e => rfl
    | ok taken =>
      cases taken with
      | none => exact ih
      | some after => rfl

theorem readLineChecked_eq (mirrors : List.Forall₂ (Mirrors view s line) rules checked) :
    readLineChecked checked (view s) line = hit ((readLine rules s line).map view) := by
  rw [readLineChecked, readLine, firstTakingChecked_eq mirrors, names_of_mirrors mirrors]
  cases firstTaking s line rules with
  | error e => rfl
  | ok taken => cases taken <;> rfl

end

/-- A reader, and one like it that looks entries up by index. -/
structure CheckedReader (σ τ α : Type) where
  /-- The states behind a header. -/
  Starts : σ → Prop
  rules : σ → List (LineRule σ)
  read : Source → Except ParseError α
  /-- What the checked reader has of a state. -/
  view : σ → τ
  checkedRules : τ → List (CheckedRule τ)
  readChecked : Source → Checked α

/-- The checked reader looks up nothing that is not there, at no line behind whatever lines and not behind all of them,
and reads what the reader reads. The indices of the states that it gets to are in range. -/
structure CheckedReader.NeverMisses {α : Type} (r : CheckedReader σ τ α) (InRange : τ → Prop) : Prop where
  inRange : ∀ {s lines x}, r.Starts s → readLinesChecked r.checkedRules (r.view s) lines = hit (.ok x) → InRange x
  lines : ∀ {s}, r.Starts s → ∀ lines,
    readLinesChecked r.checkedRules (r.view s) lines = hit ((readLines r.rules s lines).map r.view)
  sources : ∀ s, r.readChecked s = hit (r.read s)

namespace Mirroring

variable {view : σ → τ} {rules : σ → List (LineRule σ)} {checked : τ → List (CheckedRule τ)} {InRange : σ → Prop}
  {s s' : σ} {lines : List Line}

theorem keeps_run (mirroring : Mirroring view rules checked InRange) (start : InRange s)
    (run : readLines rules s lines = .ok s') : InRange s' :=
  @readLines_holds σ rules s s' lines (fun _ s => InRange s) mirroring.keeps [] start run

theorem run (mirroring : Mirroring view rules checked InRange) (start : InRange s) (lines : List Line) :
    readLinesChecked checked (view s) lines = hit ((readLines rules s lines).map view) := by
  induction lines generalizing s with
  | nil => rfl
  | cons line lines ih =>
    rw [readLinesChecked, readLines, readLineChecked_eq (mirroring.mirrors start line)]
    cases taken : readLine (rules s) s line with
    | error e => rfl
    | ok between => exact ih (mirroring.keeps start taken)

/-- What is made behind all lines is made without a lookup that misses if it is so wherever the indices are in range. -/
theorem behind_lines {α : Type} {f : τ → Checked α} {g : σ → Except ParseError α}
    (mirroring : Mirroring view rules checked InRange) (start : InRange s)
    (ends : ∀ s', InRange s' → f (view s') = hit (g s')) (lines : List Line) :
    (readLinesChecked checked (view s) lines >>= f) = hit (readLines rules s lines >>= g) := by
  rw [mirroring.run start]
  cases run : readLines rules s lines with
  | error e => rfl
  | ok s' => exact ends s' (mirroring.keeps_run start run)

/-- If the indices are in range at the start, and where the checked reader ends it looks up what is there, no lookup
misses at all. -/
theorem neverMisses {α : Type} {r : CheckedReader σ τ α} {Seen : τ → Prop}
    (mirroring : Mirroring r.view r.rules r.checkedRules InRange) (start : ∀ s, r.Starts s → InRange s)
    (seen : ∀ s, InRange s → Seen (r.view s)) (sources : ∀ s, r.readChecked s = hit (r.read s)) :
    r.NeverMisses Seen := by
  refine ⟨?_, fun starts lines => mirroring.run (start _ starts) lines, sources⟩
  intro s lines x starts reached
  rw [mirroring.run (start s starts), hit_inj] at reached
  obtain ⟨s', run, rfl⟩ := exists_of_map_ok reached
  exact seen s' (mirroring.keeps_run (start s starts) run)

end Mirroring

/-! ### Open entries -/

/-- The indices of entries that are open one in the other, the innermost first: each is in range, and on the way in
they increase. -/
structure Stacked {α : Type} (entries : List α) (stack : List Nat) : Prop where
  inRange : ∀ i ∈ stack, i < entries.length
  increasing : stack.reverse.Pairwise (· < ·)

namespace Stacked

variable {α : Type} {entries : List α} {stack : List Nat} {i : Nat}

theorem nil : Stacked entries [] := ⟨nofun, .nil⟩

theorem of_length {others : List α} (stacked : Stacked entries stack) (longer : entries.length ≤ others.length) :
    Stacked others stack :=
  ⟨fun i member => Nat.lt_of_lt_of_le (stacked.inRange i member) longer, stacked.increasing⟩

theorem append (stacked : Stacked entries stack) (more : List α) : Stacked (entries ++ more) stack :=
  stacked.of_length (by simp)

theorem modify (stacked : Stacked entries stack) (i : Nat) (f : α → α) : Stacked (entries.modify i f) stack :=
  stacked.of_length (by simp)

/-- The entry at the end of the list is the innermost. -/
theorem push (stacked : Stacked entries stack) (a : α) : Stacked (entries ++ [a]) (entries.length :: stack) := by
  refine ⟨List.forall_mem_cons.mpr ⟨by simp, (stacked.append [a]).inRange⟩, ?_⟩
  rw [List.reverse_cons, List.pairwise_append]
  refine ⟨stacked.increasing, List.pairwise_singleton _ _, ?_⟩
  -- The others are in range, and the new index is the length of the list.
  intro i member last same
  rw [List.mem_singleton.mp same]
  exact stacked.inRange i (List.mem_reverse.mp member)

theorem pop (stacked : Stacked entries (i :: stack)) : Stacked entries stack := by
  refine ⟨(List.forall_mem_cons.mp stacked.inRange).2, ?_⟩
  have increasing := stacked.increasing
  rw [List.reverse_cons, List.pairwise_append] at increasing
  exact increasing.1

end Stacked

/-! ### Entries under way -/

/-- A draft keeps entries in a list and, apart from them, the one whose lines are being read. -/
class Keeps (σ : Type) (ε : outParam Type) where
  entries : σ → List ε
  current : σ → Option ε
  /-- The draft with these entries and this one apart. -/
  keep : List ε → Option ε → σ → σ
  entries_keep : ∀ es e d, entries (keep es e d) = es
  current_keep : ∀ es e d, current (keep es e d) = e
  keep_keep : ∀ es e es' e' d, keep es e (keep es' e' d) = keep es e d
  keep_self : ∀ d, keep (entries d) (current d) d = d

/-- A draft that has the entry whose lines are being read in the list of all, and its index. -/
structure Indexed (σ : Type) where
  /-- It keeps no entry apart. -/
  draft : σ
  openAt : Option Nat

namespace Indexed

open Keeps

variable {ε : Type} [Keeps σ ε] {d : σ} {e : ε} {line : Line} {rule : LineRule σ} {name : String}

/-- The draft with the entry that it keeps apart at the end of the list. -/
def ofDraft (d : σ) : Indexed σ where
  draft := keep (entries d ++ (current d).toList) none d
  openAt := (current d).map fun _ => (entries d).length

/-- The entry whose lines are being read, looked up. -/
def openEntry (x : Indexed σ) : Checked (Option ε) := innermost (entries x.draft) x.openAt.toList

/-- A rule for lines outside entries. An entry that begins is put to the others at once. -/
def outer (rule : CheckedRule σ) : CheckedRule (Indexed σ) :=
  ⟨rule.name, fun x line => Option.map ofDraft <$> rule.read x.draft line⟩

/-- A rule for the line that ends an entry, which stays where it is. -/
def closing (name : String) (text : Text) : CheckedRule (Indexed σ) :=
  ⟨name, fun x line => pure (if line.text = text then some { x with openAt := none } else none)⟩

/-- A rule for the lines of an entry, which is looked up and changed where it is. -/
def filling (name : String) (fill : ε → Line → Taken ε) : CheckedRule (Indexed σ) :=
  ⟨name, fun x line => do
    let i ← x.openAt
    let e ← entry (entries x.draft) i
    let filled ← fill e line
    pure (filled.map fun e => { x with draft := keep ((entries x.draft).set i e) none x.draft })⟩

theorem ofDraft_of_closed (closed : current d = none) : ofDraft d = ⟨d, none⟩ := by
  have same := keep_self d
  rw [closed] at same
  rw [ofDraft, closed, Option.toList_none, List.append_nil, same]
  rfl

theorem ofDraft_of_open (opened : current d = some e) :
    ofDraft d = ⟨keep (entries d ++ [e]) none d, some (entries d).length⟩ := by
  rw [ofDraft, opened]
  rfl

theorem openAt_ofDraft (d : σ) : ∀ i ∈ (ofDraft d).openAt, i < (entries (ofDraft d).draft).length := by
  cases opened : current d with
  | none => simp [ofDraft, opened]
  | some e => simp [ofDraft, opened, entries_keep]

theorem openEntry_ofDraft (d : σ) : (ofDraft d).openEntry = hit (.ok (current d)) := by
  cases opened : current d with
  | none =>
    rw [ofDraft_of_closed opened]
    rfl
  | some e =>
    have here : (entries d ++ [e])[(entries d).length]? = some e := List.getElem?_concat_length
    rw [ofDraft_of_open opened, openEntry, entries_keep]
    show some <$> entry _ _ = _
    rw [entry_eq here]
    rfl

theorem mirrors_outer {checked : CheckedRule σ} (closed : current d = none) (mirrors : Mirrors id d line rule checked) :
    Mirrors ofDraft d line rule (outer checked) := by
  refine ⟨mirrors.name, ?_⟩
  have read : checked.read d line = hit (rule.read d line) := by simpa [Except.map_id] using mirrors.read
  rw [ofDraft_of_closed closed]
  show Option.map ofDraft <$> checked.read d line = _
  rw [read, map_hit]

theorem mirrors_outers {rules : List (LineRule σ)} {checked : List (CheckedRule σ)} (closed : current d = none)
    (mirrors : List.Forall₂ (Mirrors id d line) rules checked) :
    List.Forall₂ (Mirrors ofDraft d line) rules (checked.map outer) :=
  List.forall₂_map_right_iff.mpr (mirrors.imp fun _ _ => mirrors_outer closed)

theorem mirrors_closing {text : Text} (opened : current d = some e) (closes : rule.read d line =
    if line.text = text then take (keep (entries d ++ [e]) none d) else pass) :
    Mirrors ofDraft d line rule (closing rule.name text) := by
  refine ⟨rfl, ?_⟩
  rw [closes, ofDraft_of_open opened]
  show (pure (if line.text = text then some (Indexed.mk (keep (entries d ++ [e]) none d) none) else none) : Checked _) = _
  by_cases ended : line.text = text
  -- The entry is in the list from its first line on, so at its end only its index goes.
  · rw [if_pos ended, if_pos ended, take, ← ofDraft_of_closed (current_keep (entries d ++ [e]) none d)]
    rfl
  · rw [if_neg ended, if_neg ended]
    rfl

theorem mirrors_filling {fill : ε → Line → Taken ε} (opened : current d = some e) (fills : rule.read d line =
    (fill e line).map (Option.map fun e => keep (entries d) (some e) d)) :
    Mirrors ofDraft d line rule (filling rule.name fill) := by
  refine ⟨rfl, ?_⟩
  have here : (entries d ++ [e])[(entries d).length]? = some e := List.getElem?_concat_length
  have filled (e' : ε) : ofDraft (keep (entries d) (some e') d) =
      ⟨keep (entries d ++ [e']) none d, some (entries d).length⟩ := by
    rw [ofDraft_of_open (current_keep _ _ _), entries_keep, keep_keep]
  rw [fills, ofDraft_of_open opened, filling]
  show (entry (entries (keep (entries d ++ [e]) none d)) (entries d).length >>= _) = _
  rw [entries_keep, entry_eq here, hit_ok_bind]
  cases fill e line with
  | error fault => rfl
  | ok taken =>
    cases taken with
    | none => rfl
    | some e' =>
      simp only [Except.map, Option.map_some, filled]
      simp [lift_eq, hit_ok_bind, pure_eq, keep_keep]

end Indexed

end DiagramLint
