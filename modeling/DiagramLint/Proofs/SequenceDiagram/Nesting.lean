import DiagramLint.Proofs.LineNumbers
import DiagramLint.Proofs.SequenceDiagram.Lines

/-!
Well-nested blocks. Lines are well nested if every line that begins a block has its line that ends it,
with well-nested lines between the two (`Nests`). As the numbers of the lines grow, blocks are told
apart by the numbers of their first and last lines: of two blocks one encloses the other or they are
apart, the depth of a block counts the blocks that enclose it, and its sections are those of which it is
the innermost block (`Nested`).
-/
namespace DiagramLint.SequenceDiagram

open Text

/-- The section that a line begins. -/
def section? (line : Line) : Option BlockSection :=
  match blockMark? line.text with
  | some (.continuation _ _ label) => some ⟨label, line.position⟩
  | _ => none

/-- The kind, the label and the position of the block that a line begins. -/
def beginning? (line : Line) : Option (BlockKind × Option Text × Position) :=
  match blockMark? line.text with
  | some (.opening kind label) => some (kind, label, line.position)
  | _ => none

/-- Well-nested lines at a depth, directly in a block of a kind or in none, with the blocks that they
make and the sections outside of these blocks. -/
inductive Nests : Nat → Option BlockKind → List Line → List Block → List BlockSection → Prop where
  | nil {depth : Nat} {around : Option BlockKind} : Nests depth around [] [] []
  | other {depth : Nat} {around : Option BlockKind} {line : Line} {rest : List Line} {blocks : List Block}
      {sections : List BlockSection} (unmarked : blockMark? line.text = none)
      (later : Nests depth around rest blocks sections) : Nests depth around (line :: rest) blocks sections
  | continuation {depth : Nat} {kind : BlockKind} {keyword : String} {label : Option Text} {line : Line}
      {rest : List Line} {blocks : List Block} {sections : List BlockSection}
      (marked : blockMark? line.text = some (.continuation kind keyword label))
      (later : Nests depth (some kind) rest blocks sections) :
      Nests depth (some kind) (line :: rest) blocks (⟨label, line.position⟩ :: sections)
  | block {depth : Nat} {around : Option BlockKind} {kind : BlockKind} {label : Option Text} {first last : Line}
      {inside rest : List Line} {inner blocks : List Block} {own sections : List BlockSection}
      (begins : blockMark? first.text = some (.opening kind label))
      (within : Nests (depth + 1) (some kind) inside inner own) (ends : blockMark? last.text = some .ending)
      (later : Nests depth around rest blocks sections) :
      Nests depth around (first :: (inside ++ last :: rest))
        (⟨kind, label, own, depth, first.position, last.position⟩ :: (inner ++ blocks)) sections

/-- A block of some lines: a line begins it, another ends it, and the lines between them are well
nested. -/
inductive Spans : List Line → Block → Prop where
  | intro {depth : Nat} {kind : BlockKind} {label : Option Text} {first last : Line} {inner : List Block}
      {own : List BlockSection} (before inside after : List Line)
      (begins : blockMark? first.text = some (.opening kind label))
      (within : Nests (depth + 1) (some kind) inside inner own) (ends : blockMark? last.text = some .ending) :
      Spans (before ++ first :: (inside ++ last :: after)) ⟨kind, label, own, depth, first.position, last.position⟩

namespace Block

/-- The line is between the first line of the block and its last. -/
def Holds (b : Block) (line : Line) : Prop := b.position.line < line.number ∧ line.number < b.finish.line

/-- The other block begins and ends inside. -/
def Encloses (a b : Block) : Prop := a.position.line < b.position.line ∧ b.finish.line < a.finish.line

/-- The other block begins behind the end. -/
def Precedes (a b : Block) : Prop := a.finish.line < b.position.line

instance (b : Block) (line : Line) : Decidable (b.Holds line) := inferInstanceAs (Decidable (_ ∧ _))

instance (a b : Block) : Decidable (a.Encloses b) := inferInstanceAs (Decidable (_ ∧ _))

end Block

/-- No block holds the line. -/
def Outside (blocks : List Block) (line : Line) : Prop := ∀ b ∈ blocks, ¬ b.Holds line

/-- The block holds the line, and all others that hold it are around the block. -/
def Innermost (blocks : List Block) (b : Block) (line : Line) : Prop :=
  b.Holds line ∧ ∀ c ∈ blocks, c.Holds line → c = b ∨ c.Encloses b

instance (blocks : List Block) (line : Line) : Decidable (Outside blocks line) :=
  inferInstanceAs (Decidable (∀ b ∈ blocks, ¬ b.Holds line))

instance (blocks : List Block) (b : Block) (line : Line) : Decidable (Innermost blocks b line) :=
  inferInstanceAs (Decidable (_ ∧ ∀ c ∈ blocks, _))

/-- The sections that some of the lines begin. -/
def sectionsAt (here : Line → Prop) [DecidablePred here] (lines : List Line) : List BlockSection :=
  lines.filterMap fun line => if here line then section? line else none

/-- The lines are well nested, and the blocks are what they make. -/
structure Nested (lines : List Line) (blocks : List Block) : Prop where
  word : Nests 0 none lines blocks []
  beginnings : (blocks.map fun b => (b.kind, b.label, b.position)) = lines.filterMap beginning?
  matched : ∀ b ∈ blocks, Spans lines b
  forward : ∀ b ∈ blocks, b.position.line < b.finish.line
  disjointOrNested : blocks.Pairwise fun a b => a.Encloses b ∨ a.Precedes b
  depth : ∀ b ∈ blocks, b.depth = blocks.countP fun a => a.Encloses b
  sections : ∀ b ∈ blocks, b.sections = sectionsAt (Innermost blocks b) lines
  owned : ∀ line ∈ lines, ∀ kind keyword label, blockMark? line.text = some (.continuation kind keyword label) →
    ∃ b ∈ blocks, Innermost blocks b line ∧ b.kind = kind
  divided : ∀ b ∈ blocks, b.sections ≠ [] → b.kind = .alternatives ∨ b.kind = .parallel ∨ b.kind = .critical

variable {depth : Nat} {around : Option BlockKind} {kind : BlockKind} {keyword : String} {label : Option Text}
  {line first last : Line} {lines lines' inside rest : List Line} {b : Block} {blocks blocks' inner later : List Block}
  {own sections sections' : List BlockSection}

/-! ### Marks of one line -/

theorem section?_of_unmarked (unmarked : blockMark? line.text = none) : section? line = none := by
  simp [section?, unmarked]

theorem section?_of_begin (begins : blockMark? line.text = some (.opening kind label)) : section? line = none := by
  simp [section?, begins]

theorem section?_of_end (ends : blockMark? line.text = some .ending) : section? line = none := by
  simp [section?, ends]

theorem sectionsAt_cons_none {here : Line → Prop} [DecidablePred here] (none : section? line = none) :
    sectionsAt here (line :: lines) = sectionsAt here lines := by
  have unseen : (if here line then section? line else Option.none) = Option.none := by simp [none]
  exact List.filterMap_cons_none unseen

theorem sectionsAt_cons_here {here : Line → Prop} [DecidablePred here] {s : BlockSection} (inside : here line)
    (begins : section? line = some s) : sectionsAt here (line :: lines) = s :: sectionsAt here lines := by
  have begun : (if here line then section? line else none) = some s := by rw [if_pos inside, begins]
  exact List.filterMap_cons_some begun

theorem sectionsAt_cons_elsewhere {here : Line → Prop} [DecidablePred here] (elsewhere : ¬ here line) :
    sectionsAt here (line :: lines) = sectionsAt here lines :=
  List.filterMap_cons_none (if_neg elsewhere)

theorem sectionsAt_append {here : Line → Prop} [DecidablePred here] :
    sectionsAt here (lines ++ lines') = sectionsAt here lines ++ sectionsAt here lines' :=
  List.filterMap_append

theorem sectionsAt_nowhere {here : Line → Prop} [DecidablePred here] (nowhere : ∀ line ∈ lines, ¬ here line) :
    sectionsAt here lines = [] := by
  refine List.filterMap_eq_nil_iff.mpr ?_
  intro line member
  exact if_neg (nowhere line member)

theorem sectionsAt_congr {here there : Line → Prop} [DecidablePred here] [DecidablePred there]
    (same : ∀ line ∈ lines, here line ↔ there line) : sectionsAt here lines = sectionsAt there lines := by
  refine List.filterMap_congr ?_
  intro line member
  simp only [same line member]

/-! ### Well-nested lines -/

theorem Nests.append (nests : Nests depth around lines blocks sections)
    (behind : Nests depth around lines' blocks' sections') :
    Nests depth around (lines ++ lines') (blocks ++ blocks') (sections ++ sections') := by
  induction nests with
  | nil => exact behind
  | other unmarked later ih => exact .other unmarked (ih behind)
  | continuation marked later ih => exact .continuation marked (ih behind)
  | block begins within ends later _ ih =>
    have joined := Nests.block begins within ends (ih behind)
    simpa using joined

/-- Only a block of a kind that has sections has some directly in it. -/
theorem Nests.kind_of_sections (nests : Nests depth around lines blocks sections) (some_section : sections ≠ []) :
    ∃ kind, around = some kind ∧ (kind = .alternatives ∨ kind = .parallel ∨ kind = .critical) := by
  induction nests with
  | nil => exact absurd rfl some_section
  | other unmarked later ih => exact ih some_section
  | @continuation depth kind keyword label line rest blocks sections marked later ih =>
    refine ⟨kind, rfl, ?_⟩
    have owned := sectionKeyword?_of_mark marked
    cases kind <;> simp_all [BlockKind.sectionKeyword?]
  | block begins within ends later _ ih => exact ih some_section

theorem Nests.beginnings (nests : Nests depth around lines blocks sections) :
    (blocks.map fun b => (b.kind, b.label, b.position)) = lines.filterMap beginning? := by
  induction nests with
  | nil => rfl
  | other unmarked later ih =>
    rw [List.filterMap_cons_none (by simp [beginning?, unmarked])]
    exact ih
  | continuation marked later ih =>
    rw [List.filterMap_cons_none (by simp [beginning?, marked])]
    exact ih
  | @block depth around kind label first last inside rest inner blocks own sections begins within ends later ih_within ih =>
    have here : beginning? first = some (kind, label, first.position) := by simp [beginning?, begins]
    have there : beginning? last = none := by simp [beginning?, ends]
    rw [List.filterMap_cons_some here, List.filterMap_append, List.filterMap_cons_none there, ← ih, ← ih_within]
    simp

/-! ### Places of blocks -/

theorem Spans.surround (spans : Spans lines b) (before after : List Line) : Spans (before ++ lines ++ after) b := by
  obtain ⟨before', inside, after', begins, within, ends⟩ := spans
  have wider := Spans.intro (before ++ before') inside (after' ++ after) begins within ends
  simpa using wider

theorem Nests.spans (nests : Nests depth around lines blocks sections) : ∀ b ∈ blocks, Spans lines b := by
  induction nests with
  | nil => exact nofun
  | @other _ _ line _ _ _ unmarked later ih =>
    intro b member
    simpa using (ih b member).surround [line] []
  | @continuation _ _ _ _ line _ _ _ marked later ih =>
    intro b member
    simpa using (ih b member).surround [line] []
  | @block depth around kind label first last inside rest inner blocks own sections begins within ends later ih_within ih =>
    intro b member
    rcases List.mem_cons.mp member with rfl | member
    · exact Spans.intro [] inside rest begins within ends
    · rcases List.mem_append.mp member with deeper | behind
      · simpa using (ih_within b deeper).surround [first] (last :: rest)
      · simpa using (ih b behind).surround (first :: (inside ++ [last])) []

theorem Spans.begins (spans : Spans lines b) : ∃ line ∈ lines, b.position.line = line.number := by
  obtain ⟨before, inside, after, begins, within, ends⟩ := spans
  exact ⟨_, by simp, rfl⟩

theorem Spans.ends (spans : Spans lines b) : ∃ line ∈ lines, b.finish.line = line.number := by
  obtain ⟨before, inside, after, begins, within, ends⟩ := spans
  exact ⟨_, List.mem_append_right _ (List.mem_cons_of_mem _ (List.mem_append_right _ List.mem_cons_self)), rfl⟩

theorem Spans.forward (spans : Spans lines b) (increasing : lines.Pairwise fun a b => a.number < b.number) :
    b.position.line < b.finish.line := by
  obtain ⟨before, inside, after, begins, within, ends⟩ := spans
  have later := (List.pairwise_append.mp increasing).2.1
  exact (List.pairwise_cons.mp later).1 _ (List.mem_append_right _ List.mem_cons_self)

/-- The numbers around a block: of the lines in it and behind it, and of the blocks that these make. -/
structure Frame (inside rest : List Line) (b : Block) (inner later : List Block) : Prop where
  forward : b.position.line < b.finish.line
  inside : ∀ line ∈ inside, b.position.line < line.number ∧ line.number < b.finish.line
  rest : ∀ line ∈ rest, b.finish.line < line.number
  inner : ∀ c ∈ inner, b.position.line < c.position.line ∧ c.position.line < c.finish.line ∧ c.finish.line < b.finish.line
  later : ∀ c ∈ later, b.finish.line < c.position.line ∧ c.position.line < c.finish.line

theorem increasing_parts (increasing : (first :: (inside ++ last :: rest)).Pairwise fun a b => a.number < b.number) :
    (inside.Pairwise fun a b => a.number < b.number) ∧ rest.Pairwise fun a b => a.number < b.number := by
  have behind := (List.pairwise_cons.mp increasing).2
  exact ⟨(List.pairwise_append.mp behind).1, (List.pairwise_append.mp behind).2.1.tail⟩

theorem Frame.of_nests (label : Option Text)
    (increasing : (first :: (inside ++ last :: rest)).Pairwise fun a b => a.number < b.number)
    (within : Nests (depth + 1) (some kind) inside inner own) (behind : Nests depth around rest later sections) :
    Frame inside rest ⟨kind, label, own, depth, first.position, last.position⟩ inner later := by
  obtain ⟨before, after⟩ := List.pairwise_cons.mp increasing
  obtain ⟨increasing_inside, increasing_behind, between⟩ := List.pairwise_append.mp after
  obtain ⟨beyond, increasing_rest⟩ := List.pairwise_cons.mp increasing_behind
  have inside_numbers : ∀ line ∈ inside, first.number < line.number ∧ line.number < last.number := by
    intro line member
    exact ⟨before line (List.mem_append_left _ member), between line member last List.mem_cons_self⟩
  refine ⟨before last (by simp), inside_numbers, beyond, ?_, ?_⟩
  · intro c member
    have spans := within.spans c member
    obtain ⟨start, start_inside, begins⟩ := spans.begins
    obtain ⟨finish, finish_inside, ends⟩ := spans.ends
    rw [begins, ends]
    have forward := spans.forward increasing_inside
    rw [begins, ends] at forward
    exact ⟨(inside_numbers start start_inside).1, forward, (inside_numbers finish finish_inside).2⟩
  · intro c member
    have spans := behind.spans c member
    obtain ⟨start, start_behind, begins⟩ := spans.begins
    refine ⟨?_, spans.forward increasing_rest⟩
    rw [begins]
    exact beyond start start_behind

/-- All blocks of some lines begin behind a line in front of these. -/
theorem Nests.outside_before (later : Nests depth around rest blocks sections)
    (increasing : (line :: rest).Pairwise fun a b => a.number < b.number) : Outside blocks line := by
  intro b member held
  obtain ⟨start, behind, begins⟩ := (later.spans b member).begins
  have below := (List.pairwise_cons.mp increasing).1 start behind
  unfold Block.Holds at held
  omega

theorem count_eq_zero (apart : ∀ a ∈ blocks, ¬ a.Encloses b) : blocks.countP (fun a => a.Encloses b) = 0 := by
  refine List.countP_eq_zero.mpr ?_
  intro a member encloses
  exact apart a member (of_decide_eq_true encloses)

namespace Frame

variable (frame : Frame inside rest b inner later) {c c' : Block}

include frame

theorem encloses (member : c ∈ inner) : b.Encloses c := by
  obtain ⟨below, -, above⟩ := frame.inner c member
  exact ⟨below, above⟩

theorem precedes (member : c ∈ later) : b.Precedes c := (frame.later c member).1

theorem inner_precedes (member : c ∈ inner) (behind : c' ∈ later) : c.Precedes c' := by
  obtain ⟨-, -, above⟩ := frame.inner c member
  obtain ⟨beyond, -⟩ := frame.later c' behind
  exact Nat.lt_trans above beyond

theorem holds (member : line ∈ inside) : b.Holds line := frame.inside line member

theorem later_free (member : line ∈ inside) (behind : c ∈ later) : ¬ c.Holds line := by
  have := frame.inside line member
  have := frame.later c behind
  unfold Block.Holds
  omega

theorem rest_free (member : line ∈ rest) (here : c = b ∨ c ∈ inner) : ¬ c.Holds line := by
  have beyond := frame.rest line member
  unfold Block.Holds
  rcases here with rfl | deeper
  · omega
  · have := frame.inner c deeper
    omega

theorem outside_iff (member : line ∈ rest) : Outside (b :: (inner ++ later)) line ↔ Outside later line := by
  constructor
  · intro outside c behind
    exact outside c (by simp [behind])
  · intro outside c here
    rcases List.mem_cons.mp here with same | here
    · exact frame.rest_free member (.inl same)
    · rcases List.mem_append.mp here with deeper | behind
      · exact frame.rest_free member (.inr deeper)
      · exact outside c behind

theorem not_outside (member : line ∈ inside) : ¬ Outside (b :: (inner ++ later)) line := by
  intro outside
  exact outside b List.mem_cons_self (frame.holds member)

theorem innermost_self_iff (member : line ∈ inside) :
    Innermost (b :: (inner ++ later)) b line ↔ Outside inner line := by
  constructor
  · rintro ⟨-, outer⟩ c deeper held
    have numbers := frame.inner c deeper
    rcases outer c (by simp [deeper]) held with rfl | encloses
    · omega
    · unfold Block.Encloses at encloses
      omega
  · intro outside
    refine ⟨frame.holds member, ?_⟩
    intro c here held
    rcases List.mem_cons.mp here with same | here
    · exact .inl same
    · rcases List.mem_append.mp here with deeper | behind
      · exact absurd held (outside c deeper)
      · exact absurd held (frame.later_free member behind)

-- Which of the blocks inside is the innermost one does not depend on the blocks outside.
theorem innermost_inner_iff (member : line ∈ inside) (deeper : c ∈ inner) :
    Innermost (b :: (inner ++ later)) c line ↔ Innermost inner c line := by
  constructor
  · rintro ⟨held, outer⟩
    exact ⟨held, fun c' here => outer c' (by simp [here])⟩
  · rintro ⟨held, outer⟩
    refine ⟨held, ?_⟩
    intro c' here held'
    rcases List.mem_cons.mp here with rfl | here
    · exact .inr (frame.encloses deeper)
    · rcases List.mem_append.mp here with deeper' | behind
      · exact outer c' deeper' held'
      · exact absurd held' (frame.later_free member behind)

theorem innermost_later_iff (member : line ∈ rest) :
    Innermost (b :: (inner ++ later)) c line ↔ Innermost later c line := by
  constructor
  · rintro ⟨held, outer⟩
    exact ⟨held, fun c' here => outer c' (by simp [here])⟩
  · rintro ⟨held, outer⟩
    refine ⟨held, ?_⟩
    intro c' here held'
    rcases List.mem_cons.mp here with same | here
    · exact absurd held' (frame.rest_free member (.inl same))
    · rcases List.mem_append.mp here with deeper | behind
      · exact absurd held' (frame.rest_free member (.inr deeper))
      · exact outer c' behind held'

theorem count_self : (b :: (inner ++ later)).countP (fun a => a.Encloses b) = 0 := by
  refine count_eq_zero ?_
  rintro a here ⟨before, after⟩
  rcases List.mem_cons.mp here with rfl | here
  · omega
  · rcases List.mem_append.mp here with deeper | behind
    · have := frame.inner a deeper
      omega
    · have := frame.later a behind
      have := frame.forward
      omega

theorem count_inner (deeper : c ∈ inner) :
    (b :: (inner ++ later)).countP (fun a => a.Encloses c) = inner.countP (fun a => a.Encloses c) + 1 := by
  have behind : later.countP (fun a => a.Encloses c) = 0 := by
    refine count_eq_zero ?_
    rintro a behind ⟨before, after⟩
    have := frame.inner c deeper
    have := frame.later a behind
    omega
  rw [List.countP_cons, List.countP_append, behind, if_pos (decide_eq_true (frame.encloses deeper)), Nat.add_zero]

theorem count_later (behind : c ∈ later) :
    (b :: (inner ++ later)).countP (fun a => a.Encloses c) = later.countP (fun a => a.Encloses c) := by
  have numbers := frame.later c behind
  have apart : ¬ b.Encloses c := by
    unfold Block.Encloses
    omega
  have before : inner.countP (fun a => a.Encloses c) = 0 := by
    refine count_eq_zero ?_
    rintro a deeper ⟨before, after⟩
    have := frame.inner a deeper
    omega
  rw [List.countP_cons, List.countP_append, before, if_neg (by simpa using apart)]
  omega

end Frame

/-! ### What the lines make -/

theorem Nests.disjointOrNested (nests : Nests depth around lines blocks sections)
    (increasing : lines.Pairwise fun a b => a.number < b.number) :
    blocks.Pairwise fun a b => a.Encloses b ∨ a.Precedes b := by
  induction nests with
  | nil => exact .nil
  | other unmarked later ih => exact ih increasing.tail
  | continuation marked later ih => exact ih increasing.tail
  | @block _ _ _ label _ _ _ _ _ _ _ _ begins within ends later ih_within ih =>
    have frame := Frame.of_nests label increasing within later
    obtain ⟨increasing_inside, increasing_rest⟩ := increasing_parts increasing
    refine List.pairwise_cons.mpr ⟨?_, List.pairwise_append.mpr ⟨ih_within increasing_inside, ih increasing_rest, ?_⟩⟩
    · intro c member
      rcases List.mem_append.mp member with deeper | behind
      · exact .inl (frame.encloses deeper)
      · exact .inr (frame.precedes behind)
    · intro c deeper c' behind
      exact .inr (frame.inner_precedes deeper behind)

theorem Nests.depth_eq (nests : Nests depth around lines blocks sections)
    (increasing : lines.Pairwise fun a b => a.number < b.number) :
    ∀ b ∈ blocks, b.depth = depth + blocks.countP fun a => a.Encloses b := by
  induction nests with
  | nil => exact nofun
  | other unmarked later ih => exact ih increasing.tail
  | continuation marked later ih => exact ih increasing.tail
  | @block _ _ _ label _ _ _ _ _ _ _ _ begins within ends later ih_within ih =>
    have frame := Frame.of_nests label increasing within later
    obtain ⟨increasing_inside, increasing_rest⟩ := increasing_parts increasing
    intro b member
    rcases List.mem_cons.mp member with rfl | member
    · rw [frame.count_self]
      rfl
    · rcases List.mem_append.mp member with deeper | behind
      · rw [frame.count_inner deeper, ih_within increasing_inside b deeper]
        omega
      · rw [frame.count_later behind, ih increasing_rest b behind]

/-- The sections directly in the lines are those of the lines that no block holds. -/
theorem Nests.sections_outside (nests : Nests depth around lines blocks sections)
    (increasing : lines.Pairwise fun a b => a.number < b.number) : sections = sectionsAt (Outside blocks) lines := by
  induction nests with
  | nil => rfl
  | other unmarked later ih =>
    rw [sectionsAt_cons_none (section?_of_unmarked unmarked)]
    exact ih increasing.tail
  | @continuation depth kind keyword label line rest blocks sections marked later ih =>
    have begins : section? line = some ⟨label, line.position⟩ := by rw [section?, marked]
    rw [sectionsAt_cons_here (later.outside_before increasing) begins, ← ih increasing.tail]
  | @block _ _ _ label _ _ _ _ _ _ _ _ begins within ends later ih_within ih =>
    have frame := Frame.of_nests label increasing within later
    obtain ⟨increasing_inside, increasing_rest⟩ := increasing_parts increasing
    rw [sectionsAt_cons_none (section?_of_begin begins), sectionsAt_append, sectionsAt_cons_none (section?_of_end ends),
      sectionsAt_nowhere fun line member => frame.not_outside member,
      sectionsAt_congr fun line member => frame.outside_iff member]
    exact ih increasing_rest

/-- The sections of a block are those of the lines of which it is the innermost block. -/
theorem Nests.sections_innermost (nests : Nests depth around lines blocks sections)
    (increasing : lines.Pairwise fun a b => a.number < b.number) :
    ∀ b ∈ blocks, b.sections = sectionsAt (Innermost blocks b) lines := by
  induction nests with
  | nil => exact nofun
  | other unmarked later ih =>
    intro b member
    rw [sectionsAt_cons_none (section?_of_unmarked unmarked)]
    exact ih increasing.tail b member
  | @continuation depth kind keyword label line rest blocks sections marked later ih =>
    intro b member
    have elsewhere : ¬ Innermost blocks b line := fun innermost => later.outside_before increasing b member innermost.1
    rw [sectionsAt_cons_elsewhere elsewhere]
    exact ih increasing.tail b member
  | @block _ _ _ label _ _ _ _ _ _ _ _ begins within ends later ih_within ih =>
    have frame := Frame.of_nests label increasing within later
    obtain ⟨increasing_inside, increasing_rest⟩ := increasing_parts increasing
    intro b member
    rw [sectionsAt_cons_none (section?_of_begin begins), sectionsAt_append, sectionsAt_cons_none (section?_of_end ends)]
    -- Each block looks for its sections in one of three places: the new block between its own lines, the
    -- others in their part of the lines, where what is innermost is told by the blocks of that part.
    rcases List.mem_cons.mp member with rfl | member
    · rw [sectionsAt_congr fun line member => frame.innermost_self_iff member,
        sectionsAt_nowhere fun line member innermost => frame.rest_free member (.inl rfl) innermost.1, List.append_nil]
      exact within.sections_outside increasing_inside
    · rcases List.mem_append.mp member with deeper | behind
      · rw [sectionsAt_congr fun line member => frame.innermost_inner_iff member deeper,
          sectionsAt_nowhere fun line member innermost => frame.rest_free member (.inr deeper) innermost.1,
          List.append_nil]
        exact ih_within increasing_inside b deeper
      · rw [sectionsAt_nowhere fun line member innermost => frame.later_free member behind innermost.1,
          sectionsAt_congr fun line member => frame.innermost_later_iff member, List.nil_append]
        exact ih increasing_rest b behind

/-- A line that begins a section has an innermost block of the kind that has such sections, or is
directly in the lines. -/
theorem Nests.owned (nests : Nests depth around lines blocks sections)
    (increasing : lines.Pairwise fun a b => a.number < b.number) (member : line ∈ lines)
    (marked : blockMark? line.text = some (.continuation kind keyword label)) :
    Outside blocks line ∧ around = some kind ∨ ∃ b ∈ blocks, Innermost blocks b line ∧ b.kind = kind := by
  induction nests with
  | nil => exact nomatch member
  | other unmarked later ih =>
    rcases List.mem_cons.mp member with rfl | behind
    · exact nomatch unmarked.symm.trans marked
    · exact ih increasing.tail behind
  | @continuation depth kind' keyword' label' line' rest blocks sections marked' later ih =>
    rcases List.mem_cons.mp member with rfl | behind
    · left
      have same := Option.some.inj (marked'.symm.trans marked)
      simp only [BlockMark.continuation.injEq] at same
      exact ⟨later.outside_before increasing, congrArg some same.1⟩
    · exact ih increasing.tail behind
  | @block _ _ _ label' _ _ _ _ _ _ _ _ begins within ends later ih_within ih =>
    have frame := Frame.of_nests label' increasing within later
    obtain ⟨increasing_inside, increasing_rest⟩ := increasing_parts increasing
    rcases List.mem_cons.mp member with rfl | member
    · exact nomatch begins.symm.trans marked
    · rcases List.mem_append.mp member with here | member
      · right
        rcases ih_within increasing_inside here with ⟨outside, same⟩ | ⟨b, deeper, innermost, same⟩
        · exact ⟨_, List.mem_cons_self, (frame.innermost_self_iff here).mpr outside, Option.some.inj same⟩
        · exact ⟨b, by simp [deeper], (frame.innermost_inner_iff here deeper).mpr innermost, same⟩
      · rcases List.mem_cons.mp member with rfl | behind
        · exact nomatch ends.symm.trans marked
        · rcases ih increasing_rest behind with ⟨outside, same⟩ | ⟨b, later_block, innermost, same⟩
          · exact .inl ⟨(frame.outside_iff behind).mpr outside, same⟩
          · exact .inr ⟨b, by simp [later_block], (frame.innermost_later_iff behind).mpr innermost, same⟩

/-- Lines that are well nested say where each block is and what is in it. -/
theorem Nested.of_nests (nests : Nests 0 none lines blocks [])
    (increasing : lines.Pairwise fun a b => a.number < b.number) : Nested lines blocks where
  word := nests
  beginnings := nests.beginnings
  matched := nests.spans
  forward := fun b member => (nests.spans b member).forward increasing
  disjointOrNested := nests.disjointOrNested increasing
  depth := by
    intro b member
    rw [nests.depth_eq increasing b member, Nat.zero_add]
  sections := nests.sections_innermost increasing
  owned := by
    intro line member kind keyword label marked
    rcases nests.owned increasing member marked with ⟨-, impossible⟩ | owned
    · exact nomatch impossible
    · exact owned
  divided := by
    intro b member divided
    obtain ⟨before, inside, after, begins, within, ends⟩ := nests.spans b member
    obtain ⟨kind, same, divisible⟩ := within.kind_of_sections divided
    obtain rfl := Option.some.inj same
    exact divisible

end DiagramLint.SequenceDiagram
