import DiagramLint.Proofs.Flowchart.Arrows
import DiagramLint.Proofs.Text.Places

/-!
The first arrow of a text. Arrows may overlap: one may begin another one, or begin inside it. A chain is cut at the
first place outside quotes and brackets where an arrow begins, by the longest arrow that begins there. Searching for
each arrow on its own, and keeping of all that are found the one furthest in front and of those at one place the longest,
finds the same arrow (`first_arrow_found`).
-/
namespace DiagramLint.Flowchart

open Text

/-- An arrow begins at a place in front of which neither a quote nor a bracket is open. -/
structure ArrowAt (t : Text) (place : Nat) (entry : Text × Arrow) : Prop where
  listed : entry ∈ arrows
  outside : nothingOpen (t.take place) = true
  begins : entry.1 <+: t.drop place

/-- No arrow begins in front of the place, and none that begins there is longer. -/
structure FirstArrow (t : Text) (place : Nat) (entry : Text × Arrow) : Prop extends ArrowAt t place entry where
  leftmost : ∀ i other, ArrowAt t i other → place ≤ i
  longest : ∀ other, ArrowAt t place other → other.1.length ≤ entry.1.length

/-- One more arrow is searched for: it is kept if it begins in front of the one found so far, or at the same place and
is longer. -/
def nearer (t : Text) (found : Option (Nat × Text × Arrow)) (entry : Text × Arrow) : Option (Nat × Text × Arrow) :=
  match findOutside? entry.1 t, found with
  | none, found => found
  | some p, none => some (p, entry)
  | some p, some (best, kept) =>
    if best < p ∨ p = best ∧ entry.1.length ≤ kept.1.length then some (best, kept) else some (p, entry)

/-- The byte index of the first arrow and the arrow, by a search for each arrow of the list. -/
def nearestArrow? (t : Text) : Option (Nat × Text × Arrow) := arrows.foldl (nearer t) none

variable {t w rest before : Text} {arrow : Arrow} {entry other : Text × Arrow} {place i p : Nat}
  {searched : List (Text × Arrow)} {found : Option (Nat × Text × Arrow)}

/-! ### Places -/

theorem ArrowAt.inside (here : ArrowAt t place entry) : place < t.length := by
  by_contra behind
  have nothing : t.drop place = [] := List.drop_eq_nil_iff.mpr (by omega)
  have begins := here.begins
  rw [nothing] at begins
  exact arrow_ne_nil here.listed (List.prefix_nil.mp begins)

/-- Arrows of one length at one place are the same. -/
theorem ArrowAt.eq_of_length (here : ArrowAt t place entry) (there : ArrowAt t place other)
    (same : entry.1.length = other.1.length) : entry = other := by
  have distinct : ∀ a ∈ arrows, ∀ b ∈ arrows, a.1 = b.1 → a = b := by decide
  have written : entry.1 = other.1 :=
    (List.prefix_of_prefix_length_le here.begins there.begins same.le).eq_of_length same
  exact distinct _ here.listed _ there.listed written

theorem FirstArrow.unique (one : FirstArrow t place entry) (two : FirstArrow t i other) : place = i ∧ entry = other := by
  have same : place = i := Nat.le_antisymm (one.leftmost i other two.toArrowAt) (two.leftmost place entry one.toArrowAt)
  subst same
  refine ⟨rfl, one.eq_of_length two.toArrowAt ?_⟩
  exact Nat.le_antisymm (two.longest entry one.toArrowAt) (one.longest other two.toArrowAt)

/-! ### One scan for all arrows -/

theorem startsWith_iff {start : Text} : startsWith start t = true ↔ start <+: t := by
  rw [startsWith, Option.isSome_iff_exists]
  exact exists_congr fun rest => dropStart?_eq_some_iff.trans eq_comm

/-- No arrow begins one further down in the list. -/
theorem arrows_longer_first : arrows.Pairwise fun a b => ¬ a.1 <+: b.1 := by decide

theorem isSome_arrowStart?_iff : (arrowStart? t).isSome = true ↔ ∃ entry ∈ arrows, entry.1 <+: t := by
  rw [arrowStart?, List.isSome_findSome?, List.any_eq_true]
  simp only [Option.isSome_map, ← startsWith_iff, startsWith]

theorem arrowStart?_longest (begun : arrowStart? t = some (arrow, rest)) :
    ∃ w, (w, arrow) ∈ arrows ∧ t = w ++ rest ∧ ∀ other ∈ arrows, other.1 <+: t → other.1.length ≤ w.length := by
  obtain ⟨front, ⟨w, a⟩, behind, list, here, passed⟩ := List.findSome?_eq_some_iff.mp begun
  obtain ⟨r, start, same⟩ := Option.map_eq_some_iff.mp here
  obtain ⟨rfl, rfl⟩ := Prod.mk.inj same
  have whole := dropStart?_eq_some_iff.mp start
  refine ⟨w, by simp [list], whole, ?_⟩
  intro other listed begins
  rw [list, List.mem_append, List.mem_cons] at listed
  rcases listed with ahead | rfl | later
  · -- An arrow further up would have been found.
    obtain ⟨r, same⟩ := begins
    have missed : (dropStart? other.1 t).map (fun rest => (other.2, rest)) = none := passed other ahead
    rw [dropStart?_eq_some_iff.mpr same.symm] at missed
    cases missed
  · exact Nat.le_refl _
  · have order := arrows_longer_first
    rw [list] at order
    have apart := (List.pairwise_cons.mp (List.pairwise_append.mp order).2.1).1 other later
    rcases List.prefix_or_prefix_of_prefix begins ⟨r, whole.symm⟩ with shorter | longer
    · exact shorter.length_le
    · exact absurd longer apart

theorem cutArrow?_eq_none_iff : cutArrow? t = none ↔ ∀ place entry, ¬ ArrowAt t place entry := by
  have cut : cutArrow? t = none ↔ cutWhere? (fun rest => (arrowStart? rest).isSome) .outermost t = none := by
    rw [cutArrow?, Option.bind_eq_none_iff]
    constructor
    · intro stopped
      by_contra found
      obtain ⟨⟨before, rest⟩, place⟩ := Option.ne_none_iff_exists'.mp found
      obtain ⟨⟨arrow, behind⟩, begun⟩ := Option.isSome_iff_exists.mp (test_of_cutWhere? place).2
      have missing : arrowStart? rest = none := Option.map_eq_none_iff.mp (stopped _ place)
      rw [begun] at missing
      cases missing
    · intro missed part place
      rw [missed] at place
      cases place
  rw [cut, cutWhere?_eq_none_iff]
  simp only [isOutside_run, isSome_arrowStart?_iff]
  constructor
  · intro quiet place entry here
    exact quiet place here.inside here.outside ⟨entry, here.listed, here.begins⟩
  · rintro none_there place - outside ⟨entry, listed, begins⟩
    exact none_there place entry ⟨listed, outside, begins⟩

theorem firstArrow_of_cutArrow? (cut : cutArrow? t = some (before, arrow, rest)) :
    ∃ w, t = before ++ (w ++ rest) ∧ FirstArrow t before.length (w, arrow) := by
  obtain ⟨⟨b, r⟩, found, here⟩ := Option.bind_eq_some_iff.mp cut
  obtain ⟨⟨a, behind⟩, begun, same⟩ := Option.map_eq_some_iff.mp here
  obtain ⟨rfl, rfl, rfl⟩ : b = before ∧ a = arrow ∧ behind = rest := by simpa using same
  have whole := append_of_cutWhere? found
  obtain ⟨w, listed, rfl, longest⟩ := arrowStart?_longest begun
  obtain ⟨i, inside, rfl, remaining, outside, -, first⟩ := cutWhere?_eq_some_iff.mp found
  simp only [isOutside_run] at outside first
  have place : (t.take i).length = i := List.length_take_of_le (Nat.le_of_lt inside)
  rw [place]
  refine ⟨w, whole.symm, ⟨listed, outside, remaining ▸ List.prefix_append w behind⟩, ?_, ?_⟩
  · intro j other there
    by_contra earlier
    exact first j (by omega) there.outside (isSome_arrowStart?_iff.mpr ⟨other, there.listed, there.begins⟩)
  · intro other there
    exact longest other there.listed (remaining ▸ there.begins)

theorem cutArrow?_eq_some_iff : cutArrow? t = some (before, arrow, rest) ↔
    ∃ w, t = before ++ (w ++ rest) ∧ FirstArrow t before.length (w, arrow) := by
  constructor
  · exact firstArrow_of_cutArrow?
  · rintro ⟨w, whole, first⟩
    cases cut : cutArrow? t with
    | none => exact absurd first.toArrowAt (cutArrow?_eq_none_iff.mp cut _ _)
    | some parts =>
      obtain ⟨b, a, r⟩ := parts
      obtain ⟨w', whole', first'⟩ := firstArrow_of_cutArrow? cut
      obtain ⟨length, same⟩ := first'.unique first
      obtain ⟨rfl, rfl⟩ := Prod.mk.inj same
      obtain ⟨rfl, behind⟩ := List.append_inj (whole'.symm.trans whole) length
      rw [List.append_cancel_left behind]

/-! ### A search for each arrow -/

theorem byteSize_append (t u : Text) : byteSize (t ++ u) = byteSize t + byteSize u := by
  induction t with
  | nil => simp [byteSize]
  | cons c t ih => rw [List.cons_append, byteSize, ih, byteSize, Nat.add_assoc]

/-- A place further in front has a smaller byte index. -/
theorem byteSize_take_lt {j : Nat} (below : i < j) (inside : i < t.length) : byteSize (t.take i) < byteSize (t.take j) := by
  have more : t.take j = t.take i ++ (t.drop i).take (j - i) := by
    rw [← List.take_add, Nat.add_sub_cancel' below.le]
  obtain ⟨c, behind, filled⟩ : ∃ c behind, (t.drop i).take (j - i) = c :: behind := by
    refine List.exists_cons_of_ne_nil fun empty => ?_
    have length := congrArg List.length empty
    simp only [List.length_take, List.length_drop, List.length_nil] at length
    omega
  have positive := c.utf8Size_pos
  rw [more, byteSize_append, filled, byteSize]
  omega

theorem findOutside?_eq_none_iff (listed : entry ∈ arrows) :
    findOutside? entry.1 t = none ↔ ∀ place, ¬ ArrowAt t place entry := by
  rw [findOutside?, Option.map_eq_none_iff, cutWhere?_eq_none_iff]
  simp only [isOutside_run, startsWith_iff]
  constructor
  · intro quiet place here
    exact quiet place here.inside here.outside here.begins
  · intro none_there place _ outside begins
    exact none_there place ⟨listed, outside, begins⟩

theorem findOutside?_first (listed : entry ∈ arrows) (sought : findOutside? entry.1 t = some p) :
    ∃ place, p = byteSize (t.take place) ∧ ArrowAt t place entry ∧ ∀ i, ArrowAt t i entry → place ≤ i := by
  obtain ⟨⟨before, rest⟩, cut, rfl⟩ := Option.map_eq_some_iff.mp sought
  obtain ⟨place, -, rfl, rfl, outside, begins, first⟩ := cutWhere?_eq_some_iff.mp cut
  simp only [isOutside_run] at outside first
  refine ⟨place, rfl, ⟨listed, outside, startsWith_iff.mp begins⟩, ?_⟩
  intro i here
  by_contra earlier
  exact first i (by omega) here.outside (startsWith_iff.mpr here.begins)

/-- What the searches for some arrows come to. -/
def Nearest (t : Text) (searched : List (Text × Arrow)) : Option (Nat × Text × Arrow) → Prop
  | none => ∀ other ∈ searched, findOutside? other.1 t = none
  | some (p, entry) => entry ∈ searched ∧ findOutside? entry.1 t = some p ∧
      ∀ other ∈ searched, ∀ q, findOutside? other.1 t = some q → p ≤ q ∧ (p = q → other.1.length ≤ entry.1.length)

theorem Nearest.step (nearest : Nearest t searched found) (entry : Text × Arrow) :
    Nearest t (searched ++ [entry]) (nearer t found entry) := by
  unfold nearer
  cases sought : findOutside? entry.1 t with
  | none =>
    -- The arrow does not occur, so what was found is still the best.
    cases found with
    | none => exact List.forall_mem_append.mpr ⟨nearest, by simpa using sought⟩
    | some best =>
      obtain ⟨listed, kept, first⟩ := nearest
      refine ⟨List.mem_append_left _ listed, kept, List.forall_mem_append.mpr ⟨first, ?_⟩⟩
      simp [sought]
  | some p =>
    cases found with
    | none =>
      refine ⟨List.mem_append_right _ (List.mem_singleton_self entry), sought, List.forall_mem_append.mpr ⟨?_, ?_⟩⟩
      · intro other listed q there
        rw [nearest other listed] at there
        cases there
      · simp [sought]
    | some best =>
      obtain ⟨best, kept⟩ := best
      obtain ⟨listed, held, first⟩ := nearest
      dsimp only
      split
      · next worse =>
        refine ⟨List.mem_append_left _ listed, held, List.forall_mem_append.mpr ⟨first, ?_⟩⟩
        simp only [List.mem_singleton, forall_eq, sought, Option.some.injEq]
        omega
      · next better =>
        refine ⟨List.mem_append_right _ (List.mem_singleton_self entry), sought, List.forall_mem_append.mpr ⟨?_, ?_⟩⟩
        · intro other member q there
          have behind := first other member q there
          omega
        · simp [sought]

theorem nearest_foldl (nearest : Nearest t searched found) (more : List (Text × Arrow)) :
    Nearest t (searched ++ more) (more.foldl (nearer t) found) := by
  induction more generalizing searched found with
  | nil => rwa [List.append_nil]
  | cons entry more ih => simpa using ih (nearest.step entry)

theorem nearest_arrows (t : Text) : Nearest t arrows (nearestArrow? t) := by
  have start : Nearest t [] none := List.forall_mem_nil _
  exact nearest_foldl start arrows

theorem firstArrow_of_nearest (nearest : Nearest t arrows (some (p, entry))) :
    ∃ place, FirstArrow t place entry ∧ p = byteSize (t.take place) := by
  obtain ⟨listed, sought, best⟩ := nearest
  obtain ⟨place, rfl, here, -⟩ := findOutside?_first listed sought
  have front (i : Nat) (other : Text × Arrow) (there : ArrowAt t i other) :
      place ≤ i ∧ (place = i → other.1.length ≤ entry.1.length) := by
    obtain ⟨q, found⟩ := Option.ne_none_iff_exists'.mp fun missed => (findOutside?_eq_none_iff there.listed).mp missed i there
    obtain ⟨k, rfl, other_here, first⟩ := findOutside?_first there.listed found
    obtain ⟨below, shorter⟩ := best other there.listed _ found
    have ahead : place ≤ k := by
      by_contra later
      have smaller := byteSize_take_lt (Nat.lt_of_not_le later) other_here.inside
      omega
    have until_there := first i there
    refine ⟨ahead.trans until_there, ?_⟩
    rintro rfl
    exact shorter (by rw [Nat.le_antisymm ahead until_there])
  exact ⟨place, ⟨here, fun i other there => (front i other there).1, fun other there => (front place other there).2 rfl⟩, rfl⟩

theorem nearestArrow?_eq_none_iff : nearestArrow? t = none ↔ ∀ place entry, ¬ ArrowAt t place entry := by
  have nearest := nearest_arrows t
  constructor
  · intro missed place entry here
    rw [missed] at nearest
    exact (findOutside?_eq_none_iff here.listed).mp (nearest entry here.listed) place here
  · intro none_there
    by_contra kept
    obtain ⟨⟨p, entry⟩, kept⟩ := Option.ne_none_iff_exists'.mp kept
    rw [kept] at nearest
    obtain ⟨place, first, -⟩ := firstArrow_of_nearest nearest
    exact none_there place entry first.toArrowAt

theorem nearestArrow?_eq_some_iff :
    nearestArrow? t = some (p, entry) ↔ ∃ place, FirstArrow t place entry ∧ p = byteSize (t.take place) := by
  have nearest := nearest_arrows t
  constructor
  · intro kept
    rw [kept] at nearest
    exact firstArrow_of_nearest nearest
  · rintro ⟨place, first, rfl⟩
    cases kept : nearestArrow? t with
    | none => exact absurd first.toArrowAt (nearestArrow?_eq_none_iff.mp kept _ _)
    | some best =>
      rw [kept] at nearest
      obtain ⟨i, first', same⟩ := firstArrow_of_nearest nearest
      obtain ⟨rfl, rfl⟩ := first'.unique first
      rw [← same]

/-- No arrow is found if none begins at a place outside quotes and brackets. Otherwise it is the longest of those at the
first place where one does, and so it is if each arrow is searched for on its own. -/
theorem first_arrow_found (t : Text) :
    (cutArrow? t = none ↔ ∀ place entry, ¬ ArrowAt t place entry) ∧
    (∀ before arrow rest, cutArrow? t = some (before, arrow, rest) ↔
      ∃ w, t = before ++ (w ++ rest) ∧ FirstArrow t before.length (w, arrow)) ∧
    (nearestArrow? t = none ↔ ∀ place entry, ¬ ArrowAt t place entry) ∧
    ∀ p entry, nearestArrow? t = some (p, entry) ↔ ∃ place, FirstArrow t place entry ∧ p = byteSize (t.take place) :=
  ⟨cutArrow?_eq_none_iff, fun _ _ _ => cutArrow?_eq_some_iff, nearestArrow?_eq_none_iff,
    fun _ _ => nearestArrow?_eq_some_iff⟩

/-- The arrow in brackets does not count, and of the two that overlap behind them the one that begins first does. -/
example : nearestArrow? "a(-->)<-->b".toList = some (6, "<-->".toList, .bidirectional) := by decide +kernel

end DiagramLint.Flowchart
