import DiagramLint.Proofs.OpenEntries
import DiagramLint.Proofs.Reading.SequenceDiagram
import DiagramLint.Proofs.SequenceDiagram.Nesting

/-!
Reading blocks. Behind some lines of a sequence diagram blocks are open, each with the lines that were
read since it began, and around it the lines that were read before (`Unclosed`). A diagram is read if
no block is open behind all lines, and then the lines are well nested. Reading stops for a block at the
first line that ends or continues a block that is not there, or behind all lines at the innermost open
block (`read_nesting`).
-/
namespace DiagramLint.SequenceDiagram

open Text

/-- The kinds and the positions of the open blocks behind a line, the innermost first. -/
def openStep (opens : List (BlockKind × Position)) (line : Line) : List (BlockKind × Position) :=
  match blockMark? line.text with
  | some (.opening kind _) => (kind, line.position) :: opens
  | some .ending => opens.tail
  | _ => opens

/-- The kinds and the positions of the open blocks behind some lines, the innermost first. -/
def openBlocks (lines : List Line) : List (BlockKind × Position) := lines.foldl openStep []

/-- The line ends a block where none is open, or continues a block where the innermost open block is of
another kind or none is open. -/
def IsStray (opens : List (BlockKind × Position)) (line : Line) : Prop :=
  match blockMark? line.text with
  | some .ending => opens = []
  | some (.continuation kind _ _) => opens.head?.map Prod.fst ≠ some kind
  | _ => False

/-- The lines can be read. -/
def Accepted (lines : List Line) : Prop := ∃ d, readLines (fun _ => rules) {} lines = .ok d

/-- What has been read of some lines, with the indices of the open blocks, the innermost first: each open
block has well-nested lines behind its first line. -/
inductive Unclosed : List Line → List Block → List Nat → Prop where
  | outside {lines : List Line} {blocks : List Block} (nests : Nests 0 none lines blocks []) :
      Unclosed lines blocks []
  | inside {before inside : List Line} {blocks inner : List Block} {stack : List Nat} {kind : BlockKind}
      {label : Option Text} {first : Line} {own : List BlockSection} (outer : Unclosed before blocks stack)
      (begins : blockMark? first.text = some (.opening kind label))
      (within : Nests (stack.length + 1) (some kind) inside inner own) :
      Unclosed (before ++ first :: inside)
        (blocks ++ ⟨kind, label, own, stack.length, first.position, first.position⟩ :: inner)
        (blocks.length :: stack)

variable {d d' : Draft} {line : Line} {lines lines' : List Line} {blocks blocks' : List Block} {stack : List Nat}
  {kind : BlockKind} {keyword : String} {label : Option Text} {p : Position} {e : ParseError}

/-- Well-nested lines in some block leave open what is open around them. -/
theorem Nests.openStep {depth : Nat} {around : Option BlockKind} {sections : List BlockSection}
    (nests : Nests depth around lines blocks sections) (opens : List (BlockKind × Position)) :
    lines.foldl SequenceDiagram.openStep opens = opens := by
  induction nests generalizing opens with
  | nil => rfl
  | other unmarked later ih => simp [SequenceDiagram.openStep, unmarked, ih]
  | continuation marked later ih => simp [SequenceDiagram.openStep, marked, ih]
  | block begins within ends later ih_within ih => simp [SequenceDiagram.openStep, begins, ends, ih_within, ih]

theorem openBlocks_of_nests {depth : Nat} {sections : List BlockSection} {around : Option BlockKind}
    (nests : Nests depth around lines blocks sections) : openBlocks lines = [] := nests.openStep []

theorem openBlocks_inside {depth : Nat} {sections : List BlockSection} {before : List Line} {first : Line}
    (begins : blockMark? first.text = some (.opening kind label))
    (within : Nests depth (some kind) lines blocks sections) :
    openBlocks (before ++ first :: lines) = (kind, first.position) :: openBlocks before := by
  rw [openBlocks, List.foldl_append, List.foldl_cons, within.openStep, openStep, begins]
  rfl

theorem modify_length {α : Type} (before after : List α) (a : α) (f : α → α) :
    (before ++ a :: after).modify before.length f = before ++ f a :: after := by
  induction before with
  | nil => rfl
  | cons b before ih => exact congrArg (b :: ·) ih

/-! ### What is open -/

namespace Unclosed

/-- The innermost block of the stack is the one that the lines leave open. -/
theorem innermost (unclosed : Unclosed lines blocks stack) :
    (stack.head?.bind fun i => blocks[i]?).map (fun b => (b.kind, b.position)) = (openBlocks lines).head? := by
  cases unclosed with
  | outside nests => simp [openBlocks_of_nests nests]
  | inside outer begins within => simp [openBlocks_inside begins within]

theorem stack_eq_nil_iff (unclosed : Unclosed lines blocks stack) : stack = [] ↔ openBlocks lines = [] := by
  cases unclosed with
  | outside nests => simp [openBlocks_of_nests nests]
  | inside outer begins within => simp [openBlocks_inside begins within]

theorem nests_of_closed (unclosed : Unclosed lines blocks []) : Nests 0 none lines blocks [] := by
  cases unclosed with
  | outside nests => exact nests

/-! ### One more line -/

/-- More well-nested lines belong to the innermost open block. -/
theorem extend (unclosed : Unclosed lines blocks stack)
    (more : ∀ around, Nests stack.length around lines' blocks' []) :
    Unclosed (lines ++ lines') (blocks ++ blocks') stack := by
  cases unclosed with
  | outside nests => exact .outside (nests.append (more none))
  | @inside before inside blocks inner stack kind label first own outer begins within =>
    have joined := within.append (more (some kind))
    rw [List.append_nil] at joined
    simpa using Unclosed.inside outer begins joined

theorem pass (unclosed : Unclosed lines blocks stack) (unmarked : blockMark? line.text = none) :
    Unclosed (lines ++ [line]) blocks stack := by
  have more (around : Option BlockKind) : Nests stack.length around [line] [] [] := .other unmarked .nil
  simpa using unclosed.extend more

theorem begin (unclosed : Unclosed lines blocks stack) (begins : blockMark? line.text = some (.opening kind label)) :
    Unclosed (lines ++ [line]) (blocks ++ [⟨kind, label, [], stack.length, line.position, line.position⟩])
      (blocks.length :: stack) :=
  .inside unclosed begins .nil

/-- A section is one of the innermost open block. -/
theorem extendBlock (unclosed : Unclosed lines blocks stack)
    (marked : blockMark? line.text = some (.continuation kind keyword label))
    (same : (stack.head?.bind fun i => blocks[i]?).any fun b => b.kind = kind) :
    Unclosed (lines ++ [line])
      (blocks.modify (stack.headD 0) fun b => { b with sections := b.sections ++ [⟨label, line.position⟩] }) stack := by
  cases unclosed with
  | outside nests => exact nomatch same
  | @inside before inside blocks inner stack kind' label' first own outer begins within =>
    obtain rfl : kind' = kind := by simpa using same
    have joined := within.append (.continuation marked .nil)
    rw [List.append_nil] at joined
    have grown := Unclosed.inside outer begins joined
    rw [List.headD_cons, modify_length]
    simpa using grown

/-- The innermost open block is closed with all that was read since it began. -/
theorem close {i : Nat} (unclosed : Unclosed lines blocks (i :: stack)) (ends : blockMark? line.text = some .ending) :
    Unclosed (lines ++ [line]) (blocks.modify i fun b => { b with finish := line.position }) stack := by
  cases unclosed with
  | @inside before inside blocks inner _ kind label first own outer begins within =>
    -- With its end the block is well nested by itself, so it belongs to the block around it.
    have block (around : Option BlockKind) : Nests stack.length around (first :: (inside ++ [line]))
        (⟨kind, label, own, stack.length, first.position, line.position⟩ :: (inner ++ [])) [] :=
      .block begins within ends .nil
    have closed := outer.extend block
    rw [modify_length]
    simpa using closed

theorem step (unclosed : Unclosed lines d.blocks d.stack) (read : readLine rules d line = .ok d') :
    Unclosed (lines ++ [line]) d'.blocks d'.stack := by
  cases marked : blockMark? line.text with
  | none =>
    obtain ⟨blocks, stack⟩ := blocks_of_aside (aside_of_unmarked marked read)
    rw [blocks, stack]
    exact unclosed.pass marked
  | some mark =>
    rw [readLine_of_mark marked] at read
    cases mark with
    | opening kind label =>
      obtain rfl := Except.ok.inj read
      exact unclosed.begin marked
    | continuation kind keyword label =>
      simp only [Draft.mark] at read
      split at read
      · next same =>
        obtain rfl := Except.ok.inj read
        exact unclosed.extendBlock marked same
      · cases read
    | ending =>
      simp only [Draft.mark] at read
      split at read
      · cases read
      · next i stack top =>
        obtain rfl := Except.ok.inj read
        rw [top] at unclosed
        exact unclosed.close marked

end Unclosed

theorem unclosed_of_run (run : readLines (fun _ => rules) {} lines = .ok d) : Unclosed lines d.blocks d.stack := by
  have blank : Unclosed [] (Draft.blocks {}) (Draft.stack {}) := .outside .nil
  exact readLines_holds (P := fun read d => Unclosed read d.blocks d.stack) Unclosed.step blank run

/-! ### Stray lines -/

theorem code_of_mark {mark : BlockMark} (refused : d.mark line mark = .error e) : e.code = .e201 := by
  cases mark with
  | opening kind label => cases refused
  | continuation kind keyword label =>
    simp only [Draft.mark] at refused
    split at refused
    · cases refused
    · obtain rfl := Except.error.inj refused
      rfl
  | ending =>
    simp only [Draft.mark] at refused
    split at refused
    · obtain rfl := Except.error.inj refused
      rfl
    · cases refused

/-- A line is refused for its wording, or for the blocks that are open at it. -/
theorem code_of_refused (refused : readLine rules d line = .error e) : e.code = .e100 ∨ e.code = .e201 := by
  cases marked : blockMark? line.text with
  | none => exact .inl (code_of_unmarked marked refused)
  | some mark =>
    rw [readLine_of_mark marked] at refused
    exact .inr (code_of_mark refused)

/-- Stray lines are refused for the blocks, and no others. -/
theorem refused_iff_stray (unclosed : Unclosed lines d.blocks d.stack) :
    (∃ e, readLine rules d line = .error e ∧ e.code = .e201) ↔ IsStray (openBlocks lines) line := by
  have innermost := unclosed.innermost
  cases marked : blockMark? line.text with
  | none =>
    simp only [IsStray, marked, iff_false]
    rintro ⟨e, refused, code⟩
    exact nomatch (code_of_unmarked marked refused).symm.trans code
  | some mark =>
    rw [readLine_of_mark marked]
    cases mark with
    | opening kind label => simp [Draft.mark, IsStray, marked]
    | continuation kind keyword label =>
      have same : (d.innermost?.any fun b => b.kind = kind) = true ↔
          (openBlocks lines).head?.map Prod.fst = some kind := by
        rw [← innermost, Draft.innermost?]
        cases d.stack.head?.bind fun i => d.blocks[i]? with
        | none => simp
        | some b => simp
      simp only [Draft.mark, IsStray, marked, ne_eq, ← same]
      split
      · next found => simp [found]
      · next other => simp [other, ParseError.code, Line.fail, Fault.code]
    | ending =>
      simp only [Draft.mark, IsStray, marked, ← unclosed.stack_eq_nil_iff]
      cases d.stack with
      | nil => simp [ParseError.code, Line.fail, Fault.code]
      | cons i stack => simp

/-! ### Sources -/

variable {s : Source}

/-- The source has the header of a sequence diagram. -/
def Headed (s : Source) : Prop := ∃ header, s.bareHeader "sequenceDiagram" = .ok header

/-- What is wrong behind all lines. -/
def Draft.unclosed? (d : Draft) : Option ParseError :=
  d.innermost?.map fun b => (Fault.blockUnclosed b.kind.keyword).at b.position

theorem headed_of_unclosed (failed : read s = .error e) (code : e.code = .e200 ∨ e.code = .e201) : Headed s := by
  rcases bind_error failed with other | ⟨header, found, -⟩
  · have unheaded := code_of_bareHeader other
    rcases code with code | code
    all_goals simp [code] at unheaded
  · exact ⟨header, found⟩

/-- With its header, a source is at fault in a line, or in a block that is open behind all lines. -/
theorem read_eq_error_iff (headed : Headed s) : read s = .error e ↔ readLines (fun _ => rules) {} s.body = .error e ∨
    ∃ d, readLines (fun _ => rules) {} s.body = .ok d ∧ d.unclosed? = some e := by
  obtain ⟨header, found⟩ := headed
  rw [read, found]
  cases readLines (fun _ => rules) {} s.body with
  | error e' => simp [bind, Except.bind]
  | ok d =>
    cases innermost : d.innermost? with
    | none => simp [bind, Except.bind, innermost, Draft.unclosed?]
    | some block => simp [bind, Except.bind, innermost, Draft.unclosed?]

theorem faultsIn (s : Source) :
    FaultsIn (read s) (fun d => Headed s ∧ d = {}) (fun _ => rules) s.body Draft.unclosed? where
  started_of_ok accepted := by
    obtain ⟨header, found, -⟩ := exists_of_bind_ok accepted
    exact ⟨{}, ⟨header, found⟩, rfl⟩
  started_of_error failed code := ⟨{}, headed_of_unclosed failed code, rfl⟩
  error_iff := by
    rintro d e ⟨headed, rfl⟩
    exact read_eq_error_iff headed
  line_code refused := by
    rcases code_of_refused refused with code | code
    all_goals simp [code]
  line_place {d _ _} refused := ((Marks.readLine (rules_mark d)).of_error refused).1
  unclosed_code unclosed := by
    obtain ⟨block, -, rfl⟩ := Option.map_eq_some_iff.mp unclosed
    rfl

theorem Unclosed.position (unclosed : Unclosed lines d.blocks d.stack) :
    d.unclosed?.map ParseError.position = (openBlocks lines).head?.map Prod.snd := by
  rw [← unclosed.innermost, ← Draft.innermost?, Draft.unclosed?, Option.map_map, Option.map_map]
  rfl

theorem nests_of_read {diagram : SequenceDiagram} (accepted : read s = .ok diagram) :
    Nests 0 none s.body diagram.blocks [] := by
  obtain ⟨header, d, run, closed, rfl⟩ := exists_of_read accepted
  have unclosed := unclosed_of_run run
  have innermost := unclosed.innermost
  rw [← Draft.innermost?, closed, Option.map_none] at innermost
  -- The innermost open block is missing, so no block is open at all.
  have none_open := unclosed.stack_eq_nil_iff.mpr (List.head?_eq_none_iff.mp innermost.symm)
  rw [none_open] at unclosed
  exact unclosed.nests_of_closed

/-- Reading stops for a stray line where all lines in front can be read. -/
theorem read_stray_iff : (∃ e, read s = .error e ∧ e.code = .e201 ∧ e.position = p) ↔
    Headed s ∧ ∃ before line after, s.body = before ++ line :: after ∧ Accepted before ∧
      IsStray (openBlocks before) line ∧ line.position = p := by
  rw [(faultsIn s).stray_iff]
  constructor
  · rintro ⟨_, ⟨headed, rfl⟩, before, line, after, d, split, run, refused, position⟩
    have stray := (refused_iff_stray (unclosed_of_run run)).mp refused
    exact ⟨headed, before, line, after, split, ⟨d, run⟩, stray, position⟩
  · rintro ⟨headed, before, line, after, split, ⟨d, run⟩, stray, position⟩
    have refused := (refused_iff_stray (unclosed_of_run run)).mpr stray
    exact ⟨{}, ⟨headed, rfl⟩, before, line, after, d, split, run, refused, position⟩

/-- Reading stops behind all lines for the innermost block that they leave open. -/
theorem read_unclosed_iff : (∃ e, read s = .error e ∧ e.code = .e200 ∧ e.position = p) ↔
    Headed s ∧ Accepted s.body ∧ (openBlocks s.body).head?.map Prod.snd = some p := by
  rw [(faultsIn s).unclosed_iff]
  constructor
  · rintro ⟨_, ⟨headed, rfl⟩, d, run, open_at⟩
    rw [(unclosed_of_run run).position] at open_at
    exact ⟨headed, ⟨d, run⟩, open_at⟩
  · rintro ⟨headed, ⟨d, run⟩, open_at⟩
    rw [← (unclosed_of_run run).position] at open_at
    exact ⟨{}, ⟨headed, rfl⟩, d, run, open_at⟩

/-- The blocks of a diagram are well nested, and reading stops for a block at the first stray line, or
behind all lines at the innermost open block. -/
theorem read_nesting (text : Text) (offset : Nat) :
    (∀ diagram, read (Source.ofText text offset) = .ok diagram →
      Nested (Source.ofText text offset).body diagram.blocks) ∧
    (∀ p, (∃ e, read (Source.ofText text offset) = .error e ∧ e.code = .e201 ∧ e.position = p) ↔
      Headed (Source.ofText text offset) ∧ ∃ before line after,
        (Source.ofText text offset).body = before ++ line :: after ∧ Accepted before ∧
          IsStray (openBlocks before) line ∧ line.position = p) ∧
    (∀ p, (∃ e, read (Source.ofText text offset) = .error e ∧ e.code = .e200 ∧ e.position = p) ↔
      Headed (Source.ofText text offset) ∧ Accepted (Source.ofText text offset).body ∧
        (openBlocks (Source.ofText text offset).body).head?.map Prod.snd = some p) := by
  refine ⟨?_, fun p => read_stray_iff, fun p => read_unclosed_iff⟩
  intro diagram accepted
  exact .of_nests (nests_of_read accepted) (body_increasing text offset)

/-- Blocks with sections in one another and behind one another. -/
def nestedBlocks : Text :=
  "sequenceDiagram\nalt first\n A->>B: x\n loop again\n  B->>A: y\n end\nelse second\n par\n and z\n end\nend\nopt\nend".toList

/-- A section of another kind than the block around it. -/
def strayBlocks : Text := "sequenceDiagram\nloop\n else\nend".toList

/-- Two blocks that are not closed. -/
def unclosedBlocks : Text := "sequenceDiagram\nloop\n critical\n option".toList

theorem read_nesting_sections :
    (∃ diagram, read (Source.ofText nestedBlocks 0) = .ok diagram ∧
      Nested (Source.ofText nestedBlocks 0).body diagram.blocks) ∧
    (∃ e, read (Source.ofText strayBlocks 0) = .error e ∧ e.code = .e201 ∧ e.position = ⟨3, 2⟩) ∧
    ∃ e, read (Source.ofText unclosedBlocks 0) = .error e ∧ e.code = .e200 ∧ e.position = ⟨3, 2⟩ := by
  refine ⟨?_, ?_, ?_⟩
  · obtain ⟨diagram, accepted⟩ := exists_of_isOk (x := read (Source.ofText nestedBlocks 0)) (by decide +kernel)
    exact ⟨diagram, accepted, (read_nesting nestedBlocks 0).1 diagram accepted⟩
  · have headed := exists_of_isOk (x := (Source.ofText strayBlocks 0).bareHeader "sequenceDiagram") (by decide +kernel)
    have accepted := exists_of_isOk (x := readLines (fun _ => rules) {} [Line.ofRaw 2 "loop".toList]) (by decide +kernel)
    have marked : blockMark? (Line.ofRaw 3 " else".toList).text = some (.continuation .alternatives "else" none) := by
      decide +kernel
    have inside_loop : (openBlocks [Line.ofRaw 2 "loop".toList]).head?.map Prod.fst = some .loop := by decide +kernel
    have stray : IsStray (openBlocks [Line.ofRaw 2 "loop".toList]) (Line.ofRaw 3 " else".toList) := by
      rw [IsStray, marked]
      show (openBlocks [Line.ofRaw 2 "loop".toList]).head?.map Prod.fst ≠ some .alternatives
      rw [inside_loop]
      decide
    exact ((read_nesting strayBlocks 0).2.1 ⟨3, 2⟩).mpr
      ⟨headed, [Line.ofRaw 2 "loop".toList], _, [Line.ofRaw 4 "end".toList], by decide +kernel, accepted, stray, rfl⟩
  · have headed := exists_of_isOk (x := (Source.ofText unclosedBlocks 0).bareHeader "sequenceDiagram") (by decide +kernel)
    have accepted := exists_of_isOk (x := readLines (fun _ => rules) {} (Source.ofText unclosedBlocks 0).body)
      (by decide +kernel)
    exact ((read_nesting unclosedBlocks 0).2.2 ⟨3, 2⟩).mpr ⟨headed, accepted, by decide +kernel⟩

end DiagramLint.SequenceDiagram
