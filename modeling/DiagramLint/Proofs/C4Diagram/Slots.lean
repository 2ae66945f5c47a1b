import DiagramLint.C4Diagram.Reader
import DiagramLint.Proofs.Results
import Mathlib.Data.List.Nodup

/-!
Slots and the arguments that fill them. An argument fills the slot that its key names, or the first one that is left for
arguments without a key. Of the arguments for one slot the last one counts, so the value behind a key is lost where the
argument without a key for the same slot comes later (`value_of_slot`).
-/
namespace DiagramLint.C4Diagram

open Text

variable {call : Call} {line : Line} {layout free free' : Layout} {arguments front back : List Text} {argument value : Text}
  {b b' : Bindings} {slot other : Slot} {v : Option Text} {i : Nat}

/-! ### Slots and layouts -/

theorem Slot.key_injective (same : slot.key.toList = other.key.toList) : slot = other := by
  revert same
  cases slot <;> cases other <;> decide

/-- The argument has the key of the slot. -/
def Slot.NamedBy (slot : Slot) (argument : Text) : Prop := (keyed? argument).map Prod.fst = some slot.key.toList

instance (slot : Slot) (argument : Text) : Decidable (slot.NamedBy argument) :=
  inferInstanceAs (Decidable ((keyed? argument).map Prod.fst = some slot.key.toList))

theorem namedBy_of_keyed (keyed : keyed? argument = some (slot.key.toList, value)) : slot.NamedBy argument := by
  rw [Slot.NamedBy, keyed]
  rfl

/-- The layout is that of an element, a boundary or a relationship. -/
def IsLayout (layout : Layout) : Prop :=
  (∃ kind : ElementKind, layout = kind.layout) ∨ (∃ kind : BoundaryKind, layout = kind.layout) ∨ layout = relationshipLayout

theorem ElementKind.isLayout (kind : ElementKind) : IsLayout kind.layout := .inl ⟨kind, rfl⟩

/-- No layout has a slot twice. -/
theorem IsLayout.nodup (known : IsLayout layout) : layout.Nodup := by
  rcases known with ⟨kind, rfl⟩ | ⟨kind, rfl⟩ | rfl
  · cases kind <;> decide
  · cases kind <;> decide
  · decide

/-! ### One argument -/

/-- The arguments without a key. -/
def unkeyed (arguments : List Text) : List Text := arguments.filter fun argument => (keyed? argument).isNone

theorem unkeyed_cons_of_keyed {key : Text} (keyed : keyed? argument = some (key, value)) :
    unkeyed (argument :: arguments) = unkeyed arguments := by
  simp [unkeyed, keyed]

theorem unkeyed_cons_of_none (keyless : keyed? argument = none) :
    unkeyed (argument :: arguments) = argument :: unkeyed arguments := by
  simp [unkeyed, keyless]

theorem unkeyed_append : unkeyed (front ++ back) = unkeyed front ++ unkeyed back := List.filter_append ..

/-- What an argument gives to which slot, and the slots that are left for arguments without a key before and after it. -/
inductive Fills (layout : Layout) (argument : Text) : Layout → Slot → Option Text → Layout → Prop where
  | named {free : Layout} {slot : Slot} {value : Text} (listed : slot ∈ layout)
      (keyed : keyed? argument = some (slot.key.toList, value)) : Fills layout argument free slot (trimmed? value) free
  | placed {slot : Slot} {free : Layout} (keyless : keyed? argument = none) :
      Fills layout argument (slot :: free) slot (trimmed? argument) free

/-- The first argument fills a slot, and the others are bound behind it. -/
theorem bindings_cons (bound : bindings call layout free (argument :: arguments) = .ok b) :
    ∃ slot v free' b', Fills layout argument free slot v free' ∧ bindings call layout free' arguments = .ok b' ∧
      b = (slot, v) :: b' := by
  unfold bindings at bound
  split at bound
  · next key value keyed =>
    split at bound
    · next slot found =>
      obtain ⟨b', later, rfl⟩ := exists_of_map_ok bound
      have same : slot.key.toList = key := by simpa using List.find?_some found
      exact ⟨slot, _, free, b', .named (List.mem_of_find?_eq_some found) (same ▸ keyed), later, rfl⟩
    · cases bound
  · next keyless =>
    split at bound
    · cases bound
    · next slot free =>
      obtain ⟨b', later, rfl⟩ := exists_of_map_ok bound
      exact ⟨slot, _, free, b', .placed keyless, later, rfl⟩

/-- Every argument without a key uses up a slot. -/
theorem Fills.left (fills : Fills layout argument free slot v free') :
    free' = free.drop (unkeyed [argument]).length := by
  cases fills with
  | named listed keyed => simp [unkeyed, keyed]
  | placed keyless => simp [unkeyed, keyless]

/-- An argument with the key of a slot fills that slot. -/
theorem Fills.of_keyed (fills : Fills layout argument free other v free') (keyed : keyed? argument = some (slot.key.toList, value)) :
    other = slot ∧ v = trimmed? value ∧ free' = free := by
  cases fills with
  | placed keyless => simp [keyless] at keyed
  | named listed found =>
    obtain ⟨key, rfl⟩ : other.key.toList = slot.key.toList ∧ _ = value := by simpa [found] using keyed
    exact ⟨Slot.key_injective key, rfl, rfl⟩

/-- The arguments behind others are bound to the slots that are left by those. -/
theorem bindings_append (bound : bindings call layout free (front ++ back) = .ok b) :
    ∃ b₁ b₂, bindings call layout (free.drop (unkeyed front).length) back = .ok b₂ ∧ b = b₁ ++ b₂ := by
  induction front generalizing free b with
  | nil => exact ⟨[], b, bound, rfl⟩
  | cons argument front ih =>
    obtain ⟨slot, v, free', b', fills, later, rfl⟩ := bindings_cons bound
    obtain ⟨b₁, b₂, behind, rfl⟩ := ih later
    refine ⟨(slot, v) :: b₁, b₂, ?_, rfl⟩
    rw [← behind, fills.left, List.drop_drop, ← List.length_append, ← unkeyed_append]
    rfl

/-! ### The last argument for a slot -/

/-- The last that is given to a slot, which may be nothing. -/
def Bindings.given? (b : Bindings) (slot : Slot) : Option (Option Text) := b.reverse.lookup slot

theorem Bindings.value?_eq (b : Bindings) (slot : Slot) : b.value? slot = (b.given? slot).join := rfl

theorem Bindings.given?_append (b b' : Bindings) (slot : Slot) :
    (b ++ b').given? slot = (b'.given? slot).or (b.given? slot) := by
  rw [given?, List.reverse_append, List.lookup_append]
  rfl

theorem Bindings.given?_cons_self (b : Bindings) (slot : Slot) (v : Option Text) :
    given? ((slot, v) :: b) slot = (b.given? slot).or (some v) := by
  have split : (slot, v) :: b = [(slot, v)] ++ b := rfl
  rw [split, given?_append]
  simp [given?]

theorem Bindings.given?_cons_other (b : Bindings) (v : Option Text) (apart : slot ≠ other) :
    given? ((other, v) :: b) slot = b.given? slot := by
  have split : (other, v) :: b = [(other, v)] ++ b := rfl
  rw [split, given?_append]
  simp [given?, List.lookup_cons, beq_false_of_ne apart]

/-- Arguments that do not name a slot, none of which it is left for, give it nothing. -/
theorem given?_of_absent (bound : bindings call layout free arguments = .ok b)
    (unnamed : ∀ argument ∈ arguments, ¬ slot.NamedBy argument) (absent : slot ∉ free) : b.given? slot = none := by
  induction arguments generalizing free b with
  | nil =>
    obtain rfl : [] = b := Except.ok.inj bound
    rfl
  | cons argument rest ih =>
    obtain ⟨first, others⟩ := List.forall_mem_cons.mp unnamed
    obtain ⟨other, v, free', b', fills, later, rfl⟩ := bindings_cons bound
    cases fills with
    | named listed keyed =>
      have apart : slot ≠ other := by
        rintro rfl
        exact first (namedBy_of_keyed keyed)
      rw [Bindings.given?_cons_other b' _ apart]
      exact ih later others absent
    | placed keyless =>
      obtain ⟨apart, elsewhere⟩ : slot ≠ other ∧ slot ∉ free' := by simpa using absent
      rw [Bindings.given?_cons_other b' _ apart]
      exact ih later others elsewhere

/-- A slot that no argument names is given the argument without a key at its place. -/
theorem given?_of_unnamed (bound : bindings call layout free arguments = .ok b) (distinct : free.Nodup)
    (unnamed : ∀ argument ∈ arguments, ¬ slot.NamedBy argument) (place : free[i]? = some slot) :
    b.given? slot = (unkeyed arguments)[i]?.map trimmed? := by
  induction arguments generalizing free b i with
  | nil =>
    obtain rfl : [] = b := Except.ok.inj bound
    rfl
  | cons argument rest ih =>
    obtain ⟨first, others⟩ := List.forall_mem_cons.mp unnamed
    obtain ⟨other, v, free', b', fills, later, rfl⟩ := bindings_cons bound
    cases fills with
    | named listed keyed =>
      have apart : slot ≠ other := by
        rintro rfl
        exact first (namedBy_of_keyed keyed)
      rw [Bindings.given?_cons_other b' _ apart, unkeyed_cons_of_keyed keyed]
      exact ih later distinct others place
    | placed keyless =>
      obtain ⟨fresh, distinct'⟩ := List.nodup_cons.mp distinct
      rw [unkeyed_cons_of_none keyless]
      cases i with
      | zero =>
        obtain rfl : other = slot := by simpa using place
        rw [Bindings.given?_cons_self, given?_of_absent later others fresh]
        rfl
      | succ i =>
        have behind : free'[i]? = some slot := by simpa using place
        have apart : slot ≠ other := by
          rintro rfl
          exact fresh (List.mem_of_getElem? behind)
        rw [Bindings.given?_cons_other b' _ apart]
        exact ih later distinct' others behind

/-! ### Values -/

/-- The slot at a place is not left where more arguments than that are placed. -/
theorem not_mem_drop {n : Nat} (distinct : layout.Nodup) (place : layout[i]? = some slot) (passed : i < n) :
    slot ∉ layout.drop n := by
  intro member
  obtain ⟨j, here⟩ := List.mem_iff_getElem?.mp member
  rw [List.getElem?_drop] at here
  have inside : i < layout.length := (List.getElem?_eq_some_iff.mp place).1
  have same := (List.getElem?_inj inside distinct).mp (place.trans here.symm)
  omega

theorem value?_of_last_key (bound : bindings call layout layout (front ++ argument :: back) = .ok b) (distinct : layout.Nodup)
    (place : layout[i]? = some slot) (keyed : keyed? argument = some (slot.key.toList, value))
    (last : ∀ later ∈ back, ¬ slot.NamedBy later) :
    b.value? slot = if i < (unkeyed front).length then trimmed? value
      else ((unkeyed (front ++ argument :: back))[i]?.map trimmed?).getD (trimmed? value) := by
  obtain ⟨b₁, b₂, behind, rfl⟩ := bindings_append bound
  obtain ⟨other, v, free', b', fills, later, rfl⟩ := bindings_cons behind
  obtain ⟨rfl, rfl, rfl⟩ := fills.of_keyed keyed
  rw [Bindings.value?_eq, Bindings.given?_append, Bindings.given?_cons_self]
  split
  · next passed =>
    rw [given?_of_absent later last (not_mem_drop distinct place passed)]
    rfl
  · next reached =>
    have left : (unkeyed front).length ≤ i := Nat.le_of_not_lt reached
    have here : (layout.drop (unkeyed front).length)[i - (unkeyed front).length]? = some other := by
      rw [List.getElem?_drop, Nat.add_sub_cancel' left, place]
    rw [given?_of_unnamed later (distinct.sublist (List.drop_sublist _ _)) last here, unkeyed_append,
      unkeyed_cons_of_keyed keyed, List.getElem?_append_right left]
    cases (unkeyed back)[i - (unkeyed front).length]? <;> rfl

/-- A call that is bound binds its arguments to all slots of the layout. -/
theorem bindings_of_bind (bound : call.bind line layout = .ok b) : bindings call layout layout call.arguments = .ok b := by
  unfold Call.bind Except.mapError at bound
  split at bound
  · cases bound
  · next found =>
    obtain rfl := Except.ok.inj bound
    exact found

/-- The value of a slot. A key gives it, the last one if there are several, unless the argument without a key at the place of
the slot stands behind that key and counts instead. A slot without a key has the argument without a key at its place. -/
theorem value_of_slot (known : IsLayout layout) (bound : call.bind line layout = .ok b) (place : layout[i]? = some slot) :
    (∀ front argument back value, call.arguments = front ++ argument :: back →
      keyed? argument = some (slot.key.toList, value) → (∀ later ∈ back, ¬ slot.NamedBy later) →
      (i < (unkeyed front).length ∨ (unkeyed call.arguments).length ≤ i → b.value? slot = trimmed? value) ∧
      ∀ placed, (unkeyed front).length ≤ i → (unkeyed call.arguments)[i]? = some placed → b.value? slot = trimmed? placed) ∧
    ((∀ argument ∈ call.arguments, ¬ slot.NamedBy argument) →
      b.value? slot = (unkeyed call.arguments)[i]?.bind trimmed?) := by
  have distinct := known.nodup
  have found := bindings_of_bind bound
  constructor
  · intro front argument back value split keyed last
    rw [split] at found ⊢
    have whole := value?_of_last_key found distinct place keyed last
    constructor
    · rintro (passed | missing)
      · rw [whole, if_pos passed]
      · rw [whole, List.getElem?_eq_none missing]
        exact ite_self _
    · intro placed reached here
      rw [whole, if_neg (Nat.not_lt_of_le reached), here]
      rfl
  · intro unnamed
    rw [Bindings.value?_eq, given?_of_unnamed found distinct unnamed place]
    cases (unkeyed call.arguments)[i]? <;> rfl

/-- A call with two keys, the first of them for the slot of the argument without a key behind them. -/
def keyedPerson : Call :=
  ⟨"Person".toList, ["p", "P", "$descr=\"kw\"", "$sprite=\"s\"", "pos"].map String.toList, false⟩

theorem value_of_slot_keyed : ∃ b, keyedPerson.bind (.ofRaw 2 []) ElementKind.person.layout = .ok b ∧
    b.value? .sprite = some ['s'] ∧ b.value? .description = some "pos".toList ∧ b.value? .label = some ['P'] := by
  have seen : (keyedPerson.bind (.ofRaw 2 []) ElementKind.person.layout).toOption.isSome := by decide +kernel
  have bound := eq_ok_get seen
  have places : ElementKind.person.layout[3]? = some .sprite ∧ ElementKind.person.layout[2]? = some .description ∧
      ElementKind.person.layout[1]? = some .label := by decide
  have sprite := value_of_slot ElementKind.person.isLayout bound places.1
  have description := value_of_slot ElementKind.person.isLayout bound places.2.1
  have label := value_of_slot ElementKind.person.isLayout bound places.2.2
  refine ⟨_, bound, ?_, ?_, ?_⟩
  · exact (sprite.1 (keyedPerson.arguments.take 3) _ _ ['s'] rfl (by decide) (by decide)).1 (.inr (by decide))
  · exact (description.1 (keyedPerson.arguments.take 2) _ _ "kw".toList rfl (by decide) (by decide)).2 "pos".toList
      (by decide) (by decide)
  · exact label.2 (by decide)

/-- A call whose last argument has no key and stands at the place of a slot with a key, as a text or empty. -/
def overwrittenKeys : Text := "C4Context\nPerson(p, \"P\", $descr=\"kw\", \"pos\")\nPerson(q, \"Q\", $descr=\"kw\", \"\")".toList

/-- The description behind the key is lost. -/
theorem keyedDescription_lost : (read (Source.ofText overwrittenKeys 0)).toOption.map elements =
    some [⟨.person, ['p'], none, ⟨some ['P'], some "pos".toList, none, none, none⟩, ⟨2, 1⟩⟩,
      ⟨.person, ['q'], none, ⟨some ['Q'], none, none, none, none⟩, ⟨3, 1⟩⟩] := by
  decide +kernel

end DiagramLint.C4Diagram
