import DiagramLint.Proofs.Detection
import DiagramLint.Proofs.Reading.Diagram

/-!
Where things stand. What a diagram holds stands behind its header line and inside its text, in the order
of the lines, and an error is reported inside the text (`positions_in_order`).
-/
namespace DiagramLint

open Text

variable {text : Text} {offset : Nat} {first : Line} {body : List Line} {d : Diagram} {e : ParseError}

/-! ### Lines of a text -/

theorem number_of_ofText (cut : (Source.ofText text offset).lines = first :: body) {line : Line}
    (member : line ∈ first :: body) : offset < line.number ∧ line.number ≤ offset + (Text.lines text).length := by
  rw [← cut] at member
  have bounds := number_of_mem_significantLines member
  omega

/-- The body lines of a text stand behind its header line. -/
theorem first_lt_body (cut : (Source.ofText text offset).lines = first :: body) :
    ∀ p ∈ body.map Line.position, first.number < p.line := by
  have increasing := significantLines_increasing .start (offset + 1) (Text.lines text)
  rw [show significantLines .start (offset + 1) (Text.lines text) = first :: body from cut] at increasing
  intro p member
  obtain ⟨line, inside, rfl⟩ := List.mem_map.mp member
  exact (List.pairwise_cons.mp increasing).1 line inside

theorem body_in_order (cut : (Source.ofText text offset).lines = first :: body) : InOrder (body.map Line.position) := by
  have increasing := body_increasing text offset
  rw [Source.body, cut] at increasing
  refine List.pairwise_map.mpr (increasing.imp ?_)
  intro a b below
  simp [Position.le, Line.position, below]

/-! ### Diagrams and errors -/

/-- A diagram is read from a text with a header line, and holds the places of the lines behind it. -/
theorem along_of_ofSource {kind : Kind} (made : Diagram.ofSource kind (Source.ofText text offset) = .ok d) :
    ∃ first body, (Source.ofText text offset).lines = first :: body ∧ d.header.position = first.position ∧
      ∀ column ∈ d.columns, Along (body.map Line.position) column := by
  cases cut : (Source.ofText text offset).lines with
  | nil =>
    rw [ofSource_of_no_lines cut] at made
    cases made
  | cons first body =>
    rw [ofText_of_lines cut] at made
    exact ⟨first, body, rfl, (ofSource_readsLines kind).ordered made (body_in_order cut)⟩

/-- A diagram stands inside its text, and what it holds stands behind its header. -/
theorem within_text {kind : Kind} (made : Diagram.ofSource kind (Source.ofText text offset) = .ok d) :
    d.header.position.line ≤ offset + (Text.lines text).length ∧ ∀ p ∈ d.columns.flatten,
      d.header.position.line < p.line ∧ p.line ≤ offset + (Text.lines text).length := by
  obtain ⟨first, body, cut, header, along⟩ := along_of_ofSource made
  rw [header]
  refine ⟨(number_of_ofText cut List.mem_cons_self).2, ?_⟩
  intro p member
  obtain ⟨column, listed, inside⟩ := List.mem_flatten.mp member
  have place := (along column listed).within p inside
  obtain ⟨line, there, rfl⟩ := List.mem_map.mp place
  exact ⟨first_lt_body cut _ place, (number_of_ofText cut (List.mem_cons_of_mem first there)).2⟩

/-- An error is one for want of a header line, or at a line of the text. -/
theorem refused_of_ofSource {kind : Kind} (failed : Diagram.ofSource kind (Source.ofText text offset) = .error e) :
    ((Source.ofText text offset).lines = [] ∧ e = Fault.headerMissing.at ⟨offset + 1, 1⟩) ∨
      e.code ≠ .e001 ∧ e.position ∈ (Source.ofText text offset).lines.map Line.position := by
  cases cut : (Source.ofText text offset).lines with
  | nil =>
    rw [ofSource_of_no_lines cut] at failed
    exact .inl ⟨rfl, (Except.error.inj failed).symm⟩
  | cons first body =>
    rw [ofText_of_lines cut] at failed
    exact .inr ((ofSource_readsLines kind).refused failed (body_in_order cut))

theorem read_eq_ofSource_detect (text : Text) (offset : Nat) :
    Diagram.read text offset = Diagram.ofSource (Kind.detect text) (Source.ofText text offset) := by
  rw [Diagram.read, kind_ofText]

/-- The header of a diagram is at the first line that says something. All else that the diagram holds
stands on later lines of the text, and each of its lists is in the order of the lines. An error is
reported on one of the lines of the text, or on the first one where there is none. -/
theorem positions_in_order {x : Except ParseError Diagram}
    (read : x = Diagram.read text offset ∨ ∃ kind, x = Diagram.readAs kind text offset) :
    (∀ d, x = .ok d →
      (Source.ofText text offset).header?.map Line.position = some d.header.position ∧
      (∀ p ∈ d.columns.flatten,
        d.header.position.line < p.line ∧ p.line ≤ offset + (Text.lines text).length) ∧
      ∀ column ∈ d.columns, InOrder column) ∧
    ∀ e, x = .error e →
      offset + 1 ≤ e.position.line ∧ e.position.line ≤ offset + max 1 (Text.lines text).length := by
  obtain ⟨kind, rfl⟩ : ∃ kind, x = Diagram.ofSource kind (Source.ofText text offset) := by
    rcases read with rfl | ⟨kind, rfl⟩
    · exact ⟨_, rfl⟩
    · exact ⟨kind, rfl⟩
  constructor
  · intro d made
    obtain ⟨first, body, cut, header, along⟩ := along_of_ofSource made
    refine ⟨?_, (within_text made).2, fun column member => (along column member).sorted⟩
    rw [Source.header?, cut, header]
    rfl
  · intro e failed
    rcases refused_of_ofSource failed with ⟨-, rfl⟩ | ⟨-, place⟩
    · simp only [position_at]
      omega
    · cases cut : (Source.ofText text offset).lines with
      | nil =>
        rw [cut] at place
        cases place
      | cons first body =>
        rw [cut] at place
        obtain ⟨line, member, same⟩ := List.mem_map.mp place
        have bounds := number_of_ofText cut member
        have number : e.position.line = line.number := by
          rw [← same]
          rfl
        omega

/-- A block around a message and another block, two lines down in a document. -/
def nestedBlocks : Text := "%% calls\nsequenceDiagram\nloop retry\n A->>B: x\n\n alt ok\n else no\n end\nend".toList

/-- What is read from it. -/
def nestedBlocksRead : Diagram := (Diagram.read nestedBlocks 2).toOption.get (by decide +kernel)

theorem positions_in_order_nestedBlocks : Diagram.read nestedBlocks 2 = .ok nestedBlocksRead ∧
    nestedBlocksRead.header.position = ⟨4, 1⟩ ∧
    (∀ p ∈ nestedBlocksRead.columns.flatten, 4 < p.line ∧ p.line ≤ 11) ∧
    ∀ column ∈ nestedBlocksRead.columns, InOrder column := by
  have made : Diagram.read nestedBlocks 2 = .ok nestedBlocksRead := eq_ok_get _
  obtain ⟨header, places, order⟩ := (positions_in_order (.inl rfl)).1 _ made
  have first : (Source.ofText nestedBlocks 2).header?.map Line.position = some ⟨4, 1⟩ := by decide +kernel
  have position : nestedBlocksRead.header.position = ⟨4, 1⟩ := (Option.some.inj (first.symm.trans header)).symm
  rw [position, show (Text.lines nestedBlocks).length = 9 by decide +kernel] at places
  exact ⟨made, position, places, order⟩

end DiagramLint
