import DiagramLint.Proofs.C4Diagram.Calls
import DiagramLint.Proofs.C4Diagram.Derivation
import DiagramLint.Proofs.C4Diagram.Slots
import DiagramLint.Proofs.Text.QuotedFields
import Mathlib.Algebra.Order.BigOperators.Group.List
import Mathlib.Algebra.Order.Ring.Nat
import Mathlib.Data.List.Perm.Subperm

/-!
Elements whose arguments are written in quotes. A quoted argument is read back as it was, but without its quotes it may still
begin like a key. The slots of the element hold the quoted texts exactly if none of them does (`quoted_element_read`).
-/
namespace DiagramLint.C4Diagram

open Text

variable {call : Call} {line : Line} {layout free : Layout} {arguments : List Text} {argument key value : Text}
  {b : Bindings} {slot : Slot} {kind : ElementKind} {e : Element}

/-! ### The text of a call -/

/-- The call of an element with quoted arguments. -/
def quotedCall (kind : ElementKind) (fs : List QuotedField) : Text :=
  kind.keyword.toList ++ '(' :: (join [','] (fs.map QuotedField.written) ++ [')'])

/-- What is called. -/
def calledElement (kind : ElementKind) (fs : List QuotedField) : Call :=
  ⟨kind.keyword.toList, fs.map QuotedField.value, false⟩

theorem callStart?_of_keyword (kind : ElementKind) (t : Text) :
    callStart? (kind.keyword.toList ++ '(' :: t) = some (kind.keyword.toList, t) := by
  have named : ∀ c ∈ kind.keyword.toList, isNameChar c = true := by cases kind <;> decide
  have bracket : isNameChar '(' = false := by decide
  have filled : kind.keyword.toList.isEmpty = false := by cases kind <;> rfl
  unfold callStart? spanWhile
  simp [List.takeWhile_append_of_pos named, List.dropWhile_append_of_pos named, bracket, filled]

theorem call_of_quoted (f : QuotedField) (fs : List QuotedField) (text : line.text = quotedCall kind (f :: fs)) :
    C4Diagram.call line false = .ok (calledElement kind (f :: fs)) := by
  have whole : quotedCall kind (f :: fs) =
      kind.keyword.toList ++ '(' :: (join [','] ((f :: fs).map QuotedField.written) ++ [')']) := rfl
  have unbraced : dropEnd? ['{'] (quotedCall kind (f :: fs)) = none := by
    rw [whole, ← List.cons_append, ← List.append_assoc]
    exact dropEnd?_of_other (by decide)
  have ends : EndsVisible (join [','] ((f :: fs).map QuotedField.written) ++ [')']) := ⟨_, ')', rfl, by decide⟩
  have trimmed := trimEnd_of_ends ends allBlank_nil
  rw [List.append_nil] at trimmed
  unfold C4Diagram.call
  rw [text, unbraced]
  simp only [whole, callStart?_of_keyword, trimmed, dropEnd?_append, fields, not_allBlank_of_quoted, readAll_of_quoted]
  rfl

/-! ### Keys -/

/-- The text begins like a key: with a dollar sign, and an equals sign stands behind it. -/
def BeginsLikeKey (t : Text) : Prop := ∃ rest, t = '$' :: rest ∧ '=' ∈ rest

theorem keyed?_eq_none_iff {t : Text} : keyed? t = none ↔ ¬ BeginsLikeKey t := by
  cases start : dropStart? ['$'] t with
  | none =>
    have other : ¬ BeginsLikeKey t := by
      rintro ⟨rest, rfl, -⟩
      simp [dropStart?] at start
    simp [keyed?, start, other]
  | some rest =>
    have same : t = '$' :: rest := dropStart?_eq_some_iff.mp start
    have like : BeginsLikeKey t ↔ '=' ∈ rest := by simp [BeginsLikeKey, same]
    rw [keyed?, start, Option.bind_some, Option.map_eq_none_iff, cut?_eq_none_iff, List.singleton_infix_iff, like]

/-! ### Values without keys -/

/-- Values without keys are bound if there is a slot for each of them. -/
theorem exists_bindings (call : Call) (keyless : ∀ argument ∈ arguments, keyed? argument = none)
    (short : arguments.length ≤ free.length) : ∃ b, bindings call layout free arguments = .ok b := by
  induction arguments generalizing free with
  | nil => exact ⟨[], rfl⟩
  | cons argument arguments ih =>
    obtain ⟨first, others⟩ := List.forall_mem_cons.mp keyless
    obtain ⟨slot, free, rfl⟩ : ∃ slot later, free = slot :: later :=
      List.exists_cons_of_length_pos (by rw [List.length_cons] at short; omega)
    obtain ⟨b, later⟩ := ih others (by simpa using short)
    exact ⟨(slot, trimmed? argument) :: b, by simp [bindings, first, later, Except.map]⟩

theorem unkeyed_of_keyless (keyless : ∀ argument ∈ arguments, keyed? argument = none) : unkeyed arguments = arguments := by
  refine List.filter_eq_self.mpr ?_
  intro argument member
  simp [keyless argument member]

theorem not_namedBy_of_keyless (keyless : keyed? argument = none) : ¬ slot.NamedBy argument := by
  simp [Slot.NamedBy, keyless]

/-- Values without keys stand in the slots in order. -/
theorem value?_of_keyless (bound : bindings call layout layout arguments = .ok b) (distinct : layout.Nodup)
    (keyless : ∀ argument ∈ arguments, keyed? argument = none)
    (tight : ∀ argument ∈ arguments, argument ≠ [] ∧ trim argument = argument) (short : arguments.length ≤ layout.length)
    (slot : Slot) : b.value? slot = arguments[layout.idxOf slot]? := by
  have unnamed : ∀ argument ∈ arguments, ¬ slot.NamedBy argument :=
    fun argument member => not_namedBy_of_keyless (keyless argument member)
  by_cases member : slot ∈ layout
  · have place : layout[layout.idxOf slot]? = some slot := List.getElem?_idxOf member
    rw [Bindings.value?_eq, given?_of_unnamed bound distinct unnamed place, unkeyed_of_keyless keyless]
    cases found : arguments[layout.idxOf slot]? with
    | none => rfl
    | some argument =>
      obtain ⟨filled, trimmed⟩ := tight argument (List.mem_of_getElem? found)
      exact trimmed?_of_tight filled trimmed
  · rw [Bindings.value?_eq, given?_of_absent bound unnamed member, List.idxOf_eq_length member,
      List.getElem?_eq_none short]
    rfl

/-! ### Elements -/

/-- The element whose slots hold some values in order. -/
def elementWith (kind : ElementKind) (id : Text) (more : List Text) (position : Position) : Element :=
  let value (slot : Slot) : Option Text := (id :: more)[kind.layout.idxOf slot]?
  ⟨kind, id, (value .type).or (value .technology),
    ⟨value .label, value .description, value .sprite, value .tags, value .link⟩, position⟩

/-- An element has a type or a technology, and not both. -/
theorem technology_slot (kind : ElementKind) :
    kind.isNode = true ∧ .technology ∉ kind.layout ∨ kind.isNode = false ∧ .type ∉ kind.layout := by
  cases kind <;> decide

theorem id_first (kind : ElementKind) : kind.layout.idxOf .id = 0 := by
  cases kind <;> rfl

/-- The element has the values that are bound. -/
theorem element_of_values {id : Text} {more : List Text} (bound : call.bind line kind.layout = .ok b)
    (short : (id :: more).length ≤ kind.layout.length)
    (values : ∀ slot, b.value? slot = (id :: more)[kind.layout.idxOf slot]?) :
    call.element line kind = .ok (elementWith kind id more line.position) := by
  have named : b.require line .id = .ok id := by
    rw [Bindings.require, values, id_first]
    rfl
  unfold Call.element
  rw [bound]
  show (b.require line .id).bind _ = _
  rw [named]
  simp only [Except.bind, Bindings.details, values, elementWith, Except.ok.injEq, Element.mk.injEq, true_and, and_true]
  rcases technology_slot kind with ⟨node, absent⟩ | ⟨other, absent⟩
  · rw [if_pos node, List.idxOf_eq_length absent, List.getElem?_eq_none short, Option.or_none]
  · rw [if_neg (by simp [other]), List.idxOf_eq_length absent, List.getElem?_eq_none short, Option.none_or]

theorem value?_of_require {id : Text} (named : b.require line slot = .ok id) : b.value? slot = some id := by
  unfold Bindings.require at named
  split at named
  · next found =>
    obtain rfl := Except.ok.inj named
    exact found
  · cases named

/-- The slots of an element are bound to its values. -/
theorem values_of_element {id : Text} {more : List Text} (short : (id :: more).length ≤ kind.layout.length)
    (made : call.element line kind = .ok (elementWith kind id more line.position)) :
    ∃ b, call.bind line kind.layout = .ok b ∧
      ∀ slot ∈ kind.layout, b.value? slot = (id :: more)[kind.layout.idxOf slot]? := by
  obtain ⟨b, bound, made⟩ := exists_of_bind_ok made
  obtain ⟨first, named, made⟩ := exists_of_bind_ok made
  refine ⟨b, bound, ?_⟩
  simp only [Except.ok.injEq, elementWith, Element.mk.injEq, Bindings.details, Details.mk.injEq, true_and, and_true] at made
  obtain ⟨rfl, technology, label, description, sprite, tags, link⟩ := made
  have foreign : .source ∉ kind.layout ∧ .target ∉ kind.layout := by cases kind <;> decide
  intro slot member
  cases slot with
  | id => rw [value?_of_require named, id_first]; rfl
  | source => exact absurd member foreign.1
  | target => exact absurd member foreign.2
  | label => exact label
  | description => exact description
  | sprite => exact sprite
  | tags => exact tags
  | link => exact link
  | type =>
    rcases technology_slot kind with ⟨node, absent⟩ | ⟨-, absent⟩
    · rwa [if_pos node, List.idxOf_eq_length absent, List.getElem?_eq_none short, Option.or_none] at technology
    · exact absurd member absent
  | technology =>
    rcases technology_slot kind with ⟨-, absent⟩ | ⟨other, absent⟩
    · exact absurd member absent
    · rwa [if_neg (by simp [other]), List.idxOf_eq_length absent, List.getElem?_eq_none short, Option.none_or] at technology

/-! ### Values with keys -/

theorem length_unquote_le (t : Text) : (unquote t).length ≤ t.length := by
  unfold unquote
  cases inner : between? ['"'] ['"'] t with
  | none => exact Nat.le_refl _
  | some u =>
    obtain ⟨rest, start, finish⟩ := Option.bind_eq_some_iff.mp inner
    rw [dropStart?_eq_some_iff.mp start, append_of_dropEnd? finish]
    simp only [Option.getD_some, List.length_append, List.length_singleton]
    omega

/-- The value behind a key is shorter than the argument. -/
theorem length_lt_of_keyed (keyed : keyed? argument = some (key, value)) : value.length < argument.length := by
  obtain ⟨rest, start, cut⟩ := Option.bind_eq_some_iff.mp keyed
  obtain ⟨⟨before, after⟩, found, same⟩ := Option.map_eq_some_iff.mp cut
  obtain ⟨-, rfl⟩ := Prod.mk.inj same
  have whole := append_of_cut? found
  have inner := (length_unquote_le (trim after)).trans (length_trim_le after)
  rw [dropStart?_eq_some_iff.mp start, ← whole]
  simp only [List.length_append, List.length_cons]
  omega

/-- The length of all that is bound. -/
def Bindings.size (b : Bindings) : Nat := (b.map fun entry => (entry.2.getD []).length).sum

theorem Bindings.size_cons (slot : Slot) (v : Option Text) (b : Bindings) :
    size ((slot, v) :: b) = (v.getD []).length + b.size := List.sum_cons

theorem length_trimmed?_le (t : Text) : ((trimmed? t).getD []).length ≤ t.length := by
  have trimmed := length_trim_le t
  unfold trimmed?
  split
  · exact Nat.zero_le _
  · next found => rwa [found] at trimmed

/-- Every key takes something away from what is bound. -/
theorem size_of_bindings (bound : bindings call layout free arguments = .ok b) :
    b.size + (arguments.countP fun argument => (keyed? argument).isSome) ≤ (arguments.map List.length).sum := by
  induction arguments generalizing free b with
  | nil =>
    obtain rfl : [] = b := Except.ok.inj bound
    exact Nat.le_refl _
  | cons argument arguments ih =>
    obtain ⟨slot, v, free', b', fills, later, rfl⟩ := bindings_cons bound
    have behind := ih later
    rw [Bindings.size_cons, List.map_cons, List.sum_cons]
    cases fills with
    | @named free slot value listed keyed =>
      have shorter := length_lt_of_keyed keyed
      have trimmed := length_trimmed?_le value
      rw [List.countP_cons_of_pos (by simp [keyed])]
      omega
    | placed keyless =>
      have trimmed := length_trimmed?_le argument
      rw [List.countP_cons_of_neg (by simp [keyless])]
      omega

theorem mem_of_value? {t : Text} (found : b.value? slot = some t) : (slot, some t) ∈ b := by
  have given : b.reverse.lookup slot = some (some t) := Option.join_eq_some_iff.mp found
  obtain ⟨front, back, split, -⟩ := List.lookup_eq_some_iff.mp given
  have member : (slot, some t) ∈ b.reverse := by simp [split]
  exact List.mem_reverse.mp member

/-- What is bound is no shorter than the values of some slots. -/
theorem sum_le_size {entries : List (Slot × Text)} (distinct : (entries.map Prod.fst).Nodup)
    (found : ∀ entry ∈ entries, b.value? entry.1 = some entry.2) : (entries.map fun entry => entry.2.length).sum ≤ b.size := by
  let given := entries.map fun entry => (entry.1, some entry.2)
  have slots : given.map Prod.fst = entries.map Prod.fst := by simp [given]
  have inside : given ⊆ b := by
    intro entry member
    obtain ⟨entry, listed, rfl⟩ := List.mem_map.mp member
    exact mem_of_value? (found entry listed)
  obtain ⟨part, same, kept⟩ := List.subperm_of_subset (List.Nodup.of_map Prod.fst (slots ▸ distinct)) inside
  calc (entries.map fun entry => entry.2.length).sum
      = (given.map fun entry => (entry.2.getD []).length).sum := by simp [given, Function.comp_def]
    _ = (part.map fun entry => (entry.2.getD []).length).sum := (same.map _).sum_eq.symm
    _ ≤ b.size := (kept.map _).sum_le_sum fun _ _ => Nat.zero_le _

/-- Values that all stand in the slots in order have no keys. -/
theorem keyless_of_values (bound : bindings call layout layout arguments = .ok b) (distinct : layout.Nodup)
    (short : arguments.length ≤ layout.length)
    (values : ∀ slot ∈ layout, b.value? slot = arguments[layout.idxOf slot]?) : ∀ argument ∈ arguments, keyed? argument = none := by
  have slots : ((layout.zip arguments).map Prod.fst).Nodup := by
    rw [List.zip_eq_zip_take_min, List.map_fst_zip (by simp)]
    exact distinct.sublist (List.take_sublist _ _)
  have found : ∀ entry ∈ layout.zip arguments, b.value? entry.1 = some entry.2 := by
    intro entry member
    obtain ⟨i, here⟩ := List.mem_iff_getElem?.mp member
    obtain ⟨place, value⟩ := List.getElem?_zip_eq_some.mp here
    have listed : entry.1 ∈ layout := List.mem_of_getElem? place
    have inside : layout.idxOf entry.1 < layout.length := List.idxOf_lt_length_iff.mpr listed
    have same := (List.getElem?_inj inside distinct).mp ((List.getElem?_idxOf listed).trans place.symm)
    rw [values entry.1 listed, same, value]
  have lengths : (layout.zip arguments).map (fun entry => entry.2.length) = arguments.map List.length := by
    rw [← Function.comp_def List.length Prod.snd, ← List.map_map, List.map_snd_zip short]
  have enough := sum_le_size slots found
  have keys := size_of_bindings bound
  rw [lengths] at enough
  have none_keyed : arguments.countP (fun argument => (keyed? argument).isSome) = 0 := by omega
  intro argument member
  simpa using List.countP_eq_zero.mp none_keyed argument member

/-! ### The line of an element -/

variable {d : Draft} {rest : List Line} {f : QuotedField} {fs : List QuotedField}

theorem ofKeyword?_keyword (kind : ElementKind) : ElementKind.ofKeyword? kind.keyword.toList = some kind := by
  cases kind <;> decide

theorem readScope_of_quoted (text : line.text = quotedCall kind (f :: fs)) (alone : braceFollows rest = false) :
    readScope d (line :: rest) = ((calledElement kind (f :: fs)).element line kind).bind fun e =>
      readScope { d with elements := d.elements ++ [e] } rest := by
  have called := call_of_quoted f fs text
  obtain ⟨unclosed, untitled, -⟩ := apart_of_call called (beginsUpper_keyword kind)
  rw [readScope_call unclosed untitled (alone ▸ called) rfl, readCall]
  simp only [calledElement, ofKeyword?_keyword]
  cases Call.element _ line kind <;> rfl

/-- An element is called with trimmed texts in quotes that are not empty and for each of which it has a slot. If none of them
begins like a key, then its slots hold these texts in order and nothing else. If one does, then the line is refused or read as
another element. -/
theorem quoted_element_read (text : line.text = quotedCall kind (f :: fs))
    (short : (f :: fs).length ≤ kind.layout.length) (tight : ∀ g ∈ f :: fs, g.value ≠ [] ∧ trim g.value = g.value)
    (alone : braceFollows rest = false) :
    ((∀ g ∈ f :: fs, ¬ BeginsLikeKey g.value) → readScope d (line :: rest) = readScope { d with
      elements := d.elements ++ [elementWith kind f.value (fs.map QuotedField.value) line.position] } rest) ∧
    ((∃ g ∈ f :: fs, BeginsLikeKey g.value) →
      readScope d (line :: rest) = ((calledElement kind (f :: fs)).element line kind).bind
        (fun e => readScope { d with elements := d.elements ++ [e] } rest) ∧
      (calledElement kind (f :: fs)).element line kind ≠
        .ok (elementWith kind f.value (fs.map QuotedField.value) line.position)) := by
  have distinct := kind.isLayout.nodup
  have slots : ((f :: fs).map QuotedField.value).length ≤ kind.layout.length := by simpa using short
  constructor
  · intro plain
    have keyless : ∀ argument ∈ (f :: fs).map QuotedField.value, keyed? argument = none := by
      intro argument member
      obtain ⟨g, listed, rfl⟩ := List.mem_map.mp member
      exact keyed?_eq_none_iff.mpr (plain g listed)
    have trimmed : ∀ argument ∈ (f :: fs).map QuotedField.value, argument ≠ [] ∧ trim argument = argument := by
      intro argument member
      obtain ⟨g, listed, rfl⟩ := List.mem_map.mp member
      exact tight g listed
    obtain ⟨b, found⟩ := exists_bindings (calledElement kind (f :: fs)) keyless slots
    have bound : (calledElement kind (f :: fs)).bind line kind.layout = .ok b := by
      rw [Call.bind]
      exact congrArg (Except.mapError line.fail) found
    rw [readScope_of_quoted text alone, element_of_values bound slots (value?_of_keyless found distinct keyless trimmed slots)]
    rfl
  · rintro ⟨g, listed, like⟩
    refine ⟨readScope_of_quoted text alone, ?_⟩
    intro made
    obtain ⟨b, bound, values⟩ := values_of_element slots made
    have keyless := keyless_of_values (bindings_of_bind bound) distinct slots values
    exact keyed?_eq_none_iff.mp (keyless g.value (List.mem_map_of_mem listed)) like

/-- A text in quotes, with a blank in front of the quotes. -/
def quotedText (value : Text) : QuotedField := ⟨[' '], value, [], allBlank_space, allBlank_nil⟩

/-- A call with quotes, commas, parentheses and a backslash in its texts. -/
def busyContainer : Line := .ofRaw 2 "Container( \"web\", \"a \\\"b\\\", (c\", \"x)\\\\\")".toList

/-- A call with a text that begins like a key. -/
def keyLikeLine : Line := .ofRaw 2 "Person( \"p\", \"$a=b\")".toList

theorem quoted_element_read_busy :
    readScope {} [busyContainer] = .ok { elements :=
      [⟨.container, "web".toList, some "x)\\".toList, ⟨some "a \"b\", (c".toList, none, none, none, none⟩, ⟨2, 1⟩⟩] } ∧
    (calledElement .person [quotedText ['p'], quotedText "$a=b".toList]).element keyLikeLine .person ≠
      .ok (elementWith .person ['p'] ["$a=b".toList] ⟨2, 1⟩) := by
  have alone : braceFollows [] = false := rfl
  have busy : busyContainer.text = quotedCall .container
      [quotedText "web".toList, quotedText "a \"b\", (c".toList, quotedText "x)\\".toList] := by decide +kernel
  have keyLike : keyLikeLine.text = quotedCall .person [quotedText ['p'], quotedText "$a=b".toList] := by decide +kernel
  have begins : BeginsLikeKey "$a=b".toList := ⟨"a=b".toList, rfl, by decide⟩
  constructor
  · have plain : ∀ g ∈ [quotedText "web".toList, quotedText "a \"b\", (c".toList, quotedText "x)\\".toList],
        ¬ BeginsLikeKey g.value := by simp [BeginsLikeKey, quotedText]
    exact ((quoted_element_read (d := {}) busy (by decide) (by decide) alone).1 plain).trans (by rw [readScope]; rfl)
  · exact ((quoted_element_read (d := {}) keyLike (by decide) (by decide) alone).2 ⟨quotedText "$a=b".toList, by simp, begins⟩).2

/-- The text in quotes is taken for a key: of no slot, or of the slot in which only what stands behind the key is put. -/
theorem keyLikeLabel_lost :
    read (Source.ofText "C4Context\nPerson( \"p\", \"$a=b\")".toList 0) =
      .error (keyLikeLine.fail (.parameterUnknown "Person".toList ['a'])) ∧
    (read (Source.ofText "C4Context\nPerson(\"p\", \"$label=b\")".toList 0)).toOption.map elements =
      some [⟨.person, ['p'], none, ⟨some ['b'], none, none, none, none⟩, ⟨2, 1⟩⟩] :=
  ⟨eq_error_of_seen (by decide +kernel), by decide +kernel⟩

end DiagramLint.C4Diagram
