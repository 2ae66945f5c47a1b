import DiagramLint.Proofs.LineRule
import DiagramLint.Proofs.Results

/-!
What one line gives. A line that is refused is refused at its own place, and what a line that is taken
adds to the lists of a diagram stands behind what is there, at the place of the line. So the lists are
in the order of the lines.
-/
namespace DiagramLint

open Text

variable {α β σ : Type} {line : Line} {e : ParseError}

/-! ### Refusals -/

@[simp] theorem position_fail (line : Line) (fault : Fault) : (line.fail fault).position = line.position := rfl

@[simp] theorem code_fail (line : Line) (fault : Fault) : (line.fail fault).code = fault.code := rfl

@[simp] theorem position_at (fault : Fault) (p : Position) : (fault.at p).position = p := rfl

@[simp] theorem code_at (fault : Fault) (p : Position) : (fault.at p).code = fault.code := rfl

/-- A refusal is one of the line, neither for want of a header nor for the word of one, and a result is as
it should be. -/
def OfLine (line : Line) (x : Except ParseError α) (good : α → Prop) : Prop :=
  match x with
  | .error e => e.position = line.position ∧ e.code ≠ .e001 ∧ e.code ≠ .e002
  | .ok a => good a

namespace OfLine

variable {good : α → Prop} {better : β → Prop} {x : Except ParseError α}

@[simp] theorem ok_iff {a : α} : OfLine line (.ok a) good ↔ good a := Iff.rfl

@[simp] theorem error_iff :
    OfLine line (.error e) good ↔ e.position = line.position ∧ e.code ≠ .e001 ∧ e.code ≠ .e002 := Iff.rfl

theorem of_error (given : OfLine line x good) (failed : x = .error e) :
    e.position = line.position ∧ e.code ≠ .e001 ∧ e.code ≠ .e002 := by
  rw [failed] at given
  exact given

theorem of_ok {a : α} (given : OfLine line x good) (made : x = .ok a) : good a := by
  rw [made] at given
  exact given

theorem map (given : OfLine line x good) {f : α → β} (made : ∀ a, good a → better (f a)) :
    OfLine line (x.map f) better := by
  cases x with
  | error e => exact given
  | ok a => exact made a given

theorem bind (given : OfLine line x good) {f : α → Except ParseError β}
    (behind : ∀ a, good a → OfLine line (f a) better) : OfLine line (x >>= f) better := by
  cases x with
  | error e => exact given
  | ok a => exact behind a given

theorem mapM {f : α → Except ParseError β} {as : List α} (each : ∀ a ∈ as, OfLine line (f a) better) :
    OfLine line (as.mapM f) fun bs => ∀ b ∈ bs, better b := by
  induction as with
  | nil => exact fun _ => nofun
  | cons a as ih =>
    rw [List.mapM_cons]
    refine (each a List.mem_cons_self).bind ?_
    intro b first
    refine (ih fun later member => each later (List.mem_cons_of_mem a member)).bind ?_
    intro bs others
    exact List.forall_mem_cons.mpr ⟨first, others⟩

end OfLine

theorem direction_ofLine (line : Line) (t : Text) : OfLine line (line.direction t) fun _ => True := by
  unfold Line.direction
  split
  · trivial
  · simp [Fault.code]

/-! ### Columns -/

/-- A column of positions with some more copies of a position behind one that was there, or behind none. -/
def Longer (p : Position) (before : List (List Position)) (column : List Position) : Prop :=
  ∃ old ∈ [] :: before, ∃ n, column = old ++ List.replicate n p

namespace Longer

variable {p : Position} {before : List (List Position)} {column : List Position}

@[simp] theorem empty : Longer p before [] := ⟨[], List.mem_cons_self, 0, rfl⟩

@[simp] theorem single : Longer p before [p] := ⟨[], List.mem_cons_self, 1, rfl⟩

@[simp] theorem same (member : column ∈ before) : Longer p before column :=
  ⟨column, List.mem_cons_of_mem _ member, 0, (List.append_nil column).symm⟩

@[simp] theorem copies (member : column ∈ before) (n : Nat) : Longer p before (column ++ List.replicate n p) :=
  ⟨column, List.mem_cons_of_mem _ member, n, rfl⟩

@[simp] theorem snoc (member : column ∈ before) : Longer p before (column ++ [p]) := copies member 1

end Longer

/-- Every column behind is longer than one in front. -/
def Grows (p : Position) (before after : List (List Position)) : Prop := ∀ column ∈ after, Longer p before column

@[simp] theorem Grows.refl (p : Position) (columns : List (List Position)) : Grows p columns columns :=
  fun _ member => .same member

theorem Grows.trans {p : Position} {before between after : List (List Position)} (first : Grows p before between)
    (second : Grows p between after) : Grows p before after := by
  intro column member
  obtain ⟨old, inside, n, rfl⟩ := second column member
  rcases List.mem_cons.mp inside with rfl | inside
  · exact ⟨[], List.mem_cons_self, n, rfl⟩
  · obtain ⟨older, known, m, rfl⟩ := first old inside
    refine ⟨older, known, m + n, ?_⟩
    rw [List.append_assoc, List.replicate_append_replicate]

theorem Grows.mono {p : Position} {before more after : List (List Position)} (grows : Grows p before after)
    (known : ∀ column ∈ before, column ∈ more) : Grows p more after := by
  intro column member
  obtain ⟨old, inside, n, rfl⟩ := grows column member
  rcases List.mem_cons.mp inside with rfl | inside
  · exact ⟨[], List.mem_cons_self, n, rfl⟩
  · exact ⟨old, List.mem_cons_of_mem _ (known old inside), n, rfl⟩

theorem Grows.first (p : Position) (column : List Position) (others : List (List Position)) :
    Grows p (column :: others) ((column ++ [p]) :: others) := by
  refine List.forall_mem_cons.mpr ⟨.snoc List.mem_cons_self, ?_⟩
  exact fun _ member => .same (List.mem_cons_of_mem _ member)

/-- Columns behind the others may stay as they are. -/
theorem Grows.front {p : Position} {before after : List (List Position)} (grows : Grows p before after)
    (others : List (List Position)) : Grows p (before ++ others) (after ++ others) := by
  refine List.forall_mem_append.mpr ⟨?_, ?_⟩
  · exact grows.mono fun _ member => List.mem_append_left _ member
  · exact fun _ member => .same (List.mem_append_right _ member)

/-- Things that have columns of their own: each has those of a thing that was there, or longer ones. -/
theorem Grows.each {p : Position} {inner : α → List (List Position)} {before : List (List Position)}
    {as bs : List α} (grown : ∀ b ∈ bs, Grows p [] (inner b) ∨ ∃ a ∈ as, Grows p (inner a) (inner b))
    (known : ∀ a ∈ as, ∀ column ∈ inner a, column ∈ before) : Grows p before (bs.flatMap inner) := by
  intro column member
  obtain ⟨b, there, inside⟩ := List.mem_flatMap.mp member
  rcases grown b there with new | ⟨a, here, longer⟩
  · exact new.mono nofun column inside
  · exact longer.mono (known a here) column inside

theorem mem_modify {f : α → α} {as : List α} {i : Nat} {b : α} (member : b ∈ as.modify i f) :
    b ∈ as ∨ ∃ a ∈ as, b = f a := by
  induction as generalizing i with
  | nil => cases i <;> cases member
  | cons a as ih =>
    cases i with
    | zero =>
      rcases List.mem_cons.mp member with rfl | later
      · exact .inr ⟨a, List.mem_cons_self, rfl⟩
      · exact .inl (List.mem_cons_of_mem a later)
    | succ i =>
      rcases List.mem_cons.mp member with rfl | later
      · exact .inl List.mem_cons_self
      · rcases ih later with same | ⟨a', inside, changed⟩
        · exact .inl (List.mem_cons_of_mem a same)
        · exact .inr ⟨a', List.mem_cons_of_mem a inside, changed⟩

/-- A change of one thing makes the columns of all longer that it makes longer. -/
theorem Grows.modify {p : Position} {inner : α → List (List Position)} {before : List (List Position)}
    {f : α → α} (grown : ∀ a, Grows p (inner a) (inner (f a))) (as : List α) (i : Nat)
    (known : ∀ a ∈ as, ∀ column ∈ inner a, column ∈ before) :
    Grows p before ((as.modify i f).flatMap inner) := by
  refine .each ?_ known
  intro b member
  rcases mem_modify member with same | ⟨a, inside, rfl⟩
  · exact .inr ⟨b, same, .refl p _⟩
  · exact .inr ⟨a, inside, grown a⟩

/-- No position is behind a later one. -/
abbrev InOrder (positions : List Position) : Prop := positions.Pairwise fun p q => p.le q

/-- The column stands in the order of some places, and at no other places. -/
structure Along (places column : List Position) : Prop where
  sorted : InOrder column
  within : ∀ p ∈ column, p ∈ places

theorem Along.mono {places more column : List Position} (along : Along places column)
    (known : ∀ p ∈ places, p ∈ more) : Along more column :=
  ⟨along.sorted, fun p inside => known p (along.within p inside)⟩

theorem Along.nil (places : List Position) : Along places [] := ⟨List.Pairwise.nil, List.forall_mem_nil _⟩

theorem Along.sublist {places column part : List Position} (along : Along places column)
    (sub : part.Sublist column) : Along places part :=
  ⟨along.sorted.sublist sub, fun p inside => along.within p (sub.subset inside)⟩

theorem Position.le_refl (p : Position) : p.le p := by
  simp [Position.le]

/-- Things at the places of others are in the order of the others. -/
theorem Along.flatMap {place : α → Position} {inner : β → Position} {parts : α → List β} {as : List α}
    {places : List Position} (along : Along places (as.map place)) (here : ∀ a, ∀ b ∈ parts a, inner b = place a) :
    Along places ((as.flatMap parts).map inner) := by
  have at_place (a : α) : ∀ p ∈ (parts a).map inner, p = place a := by
    intro p inside
    obtain ⟨b, member, rfl⟩ := List.mem_map.mp inside
    exact here a b member
  rw [List.map_flatMap]
  constructor
  · refine List.pairwise_flatMap.mpr ⟨?_, (List.pairwise_map.mp along.sorted).imp ?_⟩
    · intro a _
      refine List.pairwise_of_forall_mem_list ?_
      intro p inside q other
      rw [at_place a p inside, at_place a q other]
      exact (place a).le_refl
    · intro a b before p inside q other
      rw [at_place a p inside, at_place b q other]
      exact before
  · intro p inside
    obtain ⟨a, member, inside⟩ := List.mem_flatMap.mp inside
    rw [at_place a p inside]
    exact along.within _ (List.mem_map_of_mem member)

/-- A column that grows by the last of the places runs along them. -/
theorem Longer.along {p : Position} {places : List Position} {before : List (List Position)}
    {column : List Position} (longer : Longer p before column) (behind : ∀ q ∈ places, q.le p)
    (along : ∀ old ∈ before, Along places old) : Along (places ++ [p]) column := by
  obtain ⟨old, member, n, rfl⟩ := longer
  have old_along : Along places old := by
    rcases List.mem_cons.mp member with rfl | member
    · exact .nil places
    · exact along old member
  constructor
  · refine List.pairwise_append.mpr ⟨old_along.sorted, List.pairwise_replicate.mpr (.inr p.le_refl), ?_⟩
    intro q inside last copy
    obtain rfl := List.eq_of_mem_replicate copy
    exact behind q (old_along.within q inside)
  · intro q inside
    rcases List.mem_append.mp inside with inside | copy
    · exact List.mem_append_left _ (old_along.within q inside)
    · simp [List.eq_of_mem_replicate copy]

/-! ### Lines in turn -/

/-- A line that is taken makes the columns grow by its place. -/
def Marks (columns : σ → List (List Position)) (s : σ) (line : Line) (x : Taken σ) : Prop :=
  OfLine line x fun taken => ∀ s' ∈ taken, Grows line.position (columns s) (columns s')

namespace Marks

variable {columns : σ → List (List Position)} {s s' : σ} {rules : List (LineRule σ)}

@[simp] theorem pass : Marks columns s line pass := nofun

@[simp] theorem error_iff :
    Marks columns s line (.error e) ↔ e.position = line.position ∧ e.code ≠ .e001 ∧ e.code ≠ .e002 := Iff.rfl

@[simp] theorem take_iff : Marks columns s line (take s') ↔ Grows line.position (columns s) (columns s') := by
  constructor
  · intro marks
    exact marks s' rfl
  · rintro grows _ ⟨⟩
    exact grows

/-- The state behind a line is made of what the line holds. -/
theorem made {x : Except ParseError α} {good : α → Prop} (given : OfLine line x good) {f : α → σ}
    (grows : ∀ a, good a → Grows line.position (columns s) (columns (f a))) :
    Marks columns s line (x.map fun a => some (f a)) := by
  refine given.map ?_
  rintro a fine _ ⟨⟩
  exact grows a fine

theorem readLine (mark : ∀ rule ∈ rules, ∀ line, Marks columns s line (rule.read s line)) :
    OfLine line (readLine rules s line) fun s' => Grows line.position (columns s) (columns s') := by
  have first : Marks columns s line (firstTaking s line rules) := by
    induction rules with
    | nil => exact pass
    | cons rule rules ih =>
      have others := ih fun later member => mark later (List.mem_cons_of_mem rule member)
      unfold firstTaking
      split
      · exact others
      · exact mark rule List.mem_cons_self line
  unfold DiagramLint.readLine
  split
  · next taken => exact first.of_ok taken _ rfl
  · exact ⟨rfl, nofun, nofun⟩
  · next failed => exact first.of_error failed

/-- If every line makes the columns grow by its place, they run along the places of all lines. -/
theorem readLines {rules : σ → List (LineRule σ)} {lines : List Line}
    (mark : ∀ s, ∀ rule ∈ rules s, ∀ line, Marks columns s line (rule.read s line))
    (empty : ∀ column ∈ columns s, column = []) (run : readLines rules s lines = .ok s')
    (order : InOrder (lines.map Line.position)) :
    ∀ column ∈ columns s', Along (lines.map Line.position) column := by
  have start : InOrder (List.map Line.position []) →
      ∀ column ∈ columns s, Along (List.map Line.position []) column := by
    intro _ column member
    rw [empty column member]
    exact .nil _
  have all : InOrder (([] ++ lines).map Line.position) →
      ∀ column ∈ columns s', Along (([] ++ lines).map Line.position) column := by
    refine readLines_holds (P := fun read s => InOrder (read.map Line.position) →
      ∀ column ∈ columns s, Along (read.map Line.position) column) ?_ start run
    intro read before line after along taken order column member
    rw [List.map_append] at order ⊢
    obtain ⟨ahead, -, last⟩ := List.pairwise_append.mp order
    have longer := (readLine (mark before)).of_ok taken column member
    exact longer.along (fun q inside => last q inside _ (by simp)) (along ahead)
  exact all order

end Marks

end DiagramLint
