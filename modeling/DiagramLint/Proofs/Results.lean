import DiagramLint.Source
import Mathlib.Data.List.Forall2

/-!
Results of readers taken apart: what a result in two steps says about the first one.
-/
namespace DiagramLint

/-- A result in two steps comes from a result of the first. -/
theorem exists_of_bind_ok {ε α β : Type} {first : Except ε α} {next : α → Except ε β} {b : β}
    (result : first >>= next = .ok b) : ∃ a, first = .ok a ∧ next a = .ok b := by
  cases first with
  | error e => exact nomatch result
  | ok a => exact ⟨a, rfl, result⟩

/-- A fault in two steps is one of the first, or one behind a result of the first. -/
theorem bind_error {ε α β : Type} {first : Except ε α} {next : α → Except ε β} {e : ε}
    (failed : first >>= next = .error e) : first = .error e ∨ ∃ a, first = .ok a ∧ next a = .error e := by
  cases first with
  | error e' => exact .inl (congrArg Except.error (Except.error.inj failed))
  | ok a => exact .inr ⟨a, rfl, failed⟩

/-- A changed result comes from a result. -/
theorem exists_of_map_ok {ε α β : Type} {first : Except ε α} {f : α → β} {b : β}
    (result : first.map f = .ok b) : ∃ a, first = .ok a ∧ f a = b := by
  cases first with
  | error e => exact nomatch result
  | ok a => exact ⟨a, rfl, Except.ok.inj result⟩

/-- There are results for all entries of a list if there is one for each. -/
theorem mapM_eq_ok_iff {ε α β : Type} {f : α → Except ε β} {as : List α} {bs : List β} :
    as.mapM f = .ok bs ↔ List.Forall₂ (fun a b => f a = .ok b) as bs := by
  induction as generalizing bs with
  | nil => simp [pure, Except.pure, eq_comm]
  | cons a as ih =>
    rw [List.mapM_cons, List.forall₂_cons_left_iff]
    constructor
    · intro made
      obtain ⟨b, first, made⟩ := exists_of_bind_ok made
      obtain ⟨bs, others, made⟩ := exists_of_bind_ok made
      exact ⟨b, bs, first, ih.mp others, (Except.ok.inj made).symm⟩
    · rintro ⟨b, bs, first, others, rfl⟩
      rw [first, ih.mpr others]
      rfl

theorem exists_of_mapM_ok {ε α β : Type} {f : α → Except ε β} {as : List α} {bs : List β} {a : α} (made : as.mapM f = .ok bs)
    (member : a ∈ as) : ∃ b, f a = .ok b := by
  have each := mapM_eq_ok_iff.mp made
  clear made
  induction each with
  | nil => cases member
  | cons first _ ih =>
    rcases List.mem_cons.mp member with rfl | later
    · exact ⟨_, first⟩
    · exact ih later

/-- A fault for a list is one for an entry. -/
theorem exists_of_mapM_error {ε α β : Type} {f : α → Except ε β} {as : List α} {e : ε} (failed : as.mapM f = .error e) :
    ∃ a ∈ as, f a = .error e := by
  induction as with
  | nil => cases failed
  | cons a as ih =>
    rw [List.mapM_cons] at failed
    rcases bind_error failed with first | ⟨b, -, failed⟩
    · exact ⟨a, List.mem_cons_self, first⟩
    · rcases bind_error failed with others | ⟨bs, -, made⟩
      · obtain ⟨other, member, found⟩ := ih others
        exact ⟨other, List.mem_cons_of_mem a member, found⟩
      · cases made

theorem eq_ok_of_toOption {ε α : Type} {x : Except ε α} {a : α} (found : x.toOption = some a) : x = .ok a := by
  cases x with
  | error e => exact nomatch found
  | ok a' => exact congrArg Except.ok (Option.some.inj found)

theorem exists_error_of_toOption {ε α : Type} {x : Except ε α} (missing : x.toOption = none) : ∃ e, x = .error e := by
  cases x with
  | error e => exact ⟨e, rfl⟩
  | ok a => exact nomatch missing

/-- What can be seen to be a result is one. -/
theorem exists_of_isOk {ε α : Type} {x : Except ε α} (seen : x.isOk = true) : ∃ a, x = .ok a := by
  cases x with
  | error e => exact nomatch seen
  | ok a => exact ⟨a, rfl⟩

theorem eq_ok_get {ε α : Type} {x : Except ε α} (seen : x.toOption.isSome) : x = .ok (x.toOption.get seen) := by
  cases x with
  | error e => exact nomatch seen
  | ok a => rfl

/-- What can be seen to be a fault is one. -/
theorem eq_error_of_seen {ε α : Type} [DecidableEq ε] {x : Except ε α} {e : ε}
    (seen : (match x with
      | .error other => decide (other = e)
      | .ok _ => false) = true) : x = .error e := by
  cases x with
  | error other => exact congrArg Except.error (of_decide_eq_true seen)
  | ok a => exact nomatch seen

/-- A header is refused for want of a line, or for its word. -/
theorem code_of_headerWith {s : Source} {keywords : List String} {e : ParseError}
    (failed : s.headerWith keywords = .error e) : e.code = .e001 ∨ e.code = .e002 := by
  rcases bind_error failed with missing | ⟨header, -, mismatched⟩
  · unfold Source.headerLine at missing
    split at missing
    · cases missing
    · obtain rfl := Except.error.inj missing
      exact .inl rfl
  · split at mismatched
    · cases mismatched
    · obtain rfl := Except.error.inj mismatched
      exact .inr rfl

/-- A header of one word is refused for want of a line, for its word or for what follows. -/
theorem code_of_bareHeader {s : Source} {keyword : String} {e : ParseError}
    (failed : s.bareHeader keyword = .error e) : e.code = .e001 ∨ e.code = .e002 ∨ e.code = .e003 := by
  rcases bind_error failed with other | ⟨⟨header, word, rest⟩, -, modified⟩
  · exact (code_of_headerWith other).imp_right .inl
  · dsimp only at modified
    split at modified
    · cases modified
    · obtain rfl := Except.error.inj modified
      exact .inr (.inr rfl)

end DiagramLint
