import DiagramLint.Proofs.Coverage.Basic
import DiagramLint.Proofs.Reading.Basic
import DiagramLint.SequenceDiagram.Reader

/-!
How sequence diagrams are read. Every block has columns of its own, for its sections and for its end;
the end is written when the block is closed.
-/
namespace DiagramLint.SequenceDiagram

open Text

/-- The positions inside a block. -/
def Block.columns (b : Block) : List (List Position) := [b.sections.map BlockSection.position, [b.finish]]

instance : Stored SequenceDiagram where
  header diagram := diagram.header
  withSource text diagram := { diagram with header := diagram.header.withSource text }
  columns diagram :=
    [diagram.participants.map Participant.position, diagram.messages.map Message.position,
      diagram.notes.map Note.position, diagram.activations.map Activation.position,
      diagram.blocks.map Block.position] ++ diagram.blocks.flatMap Block.columns

/-- The positions of a draft. -/
def Draft.columns (d : Draft) : List (List Position) :=
  [d.participants.map Participant.position, d.messages.map Message.position, d.notes.map Note.position,
    d.activations.map Activation.position, d.blocks.map Block.position] ++ d.blocks.flatMap Block.columns

theorem participantLine_marks (d : Draft) (line : Line) : Marks Draft.columns d line (participantLine d line) := by
  unfold participantLine
  split
  · simp
  · dsimp only
    split
    all_goals
      split
      · exact Marks.take_iff.mpr (.front (by simp [Grows]) _)
      · simp [Fault.code]

theorem activationLine_marks (d : Draft) (line : Line) : Marks Draft.columns d line (activationLine d line) := by
  unfold activationLine
  split
  · simp
  · split
    · exact Marks.take_iff.mpr (.front (by simp [Grows]) _)
    · simp [Fault.code]

theorem noteLine_marks (d : Draft) (line : Line) : Marks Draft.columns d line (noteLine d line) := by
  unfold noteLine
  split
  · simp
  · split
    · simp [Fault.code]
    · split
      · simp [Fault.code]
      · dsimp only
        split
        · exact Marks.take_iff.mpr (.front (by simp [Grows]) _)
        · simp [Fault.code]

/-- A change inside one block that leaves its place. -/
theorem modify_grows {p : Position} {f : Block → Block} (d : Draft) (stack : List Nat) (i : Nat)
    (stays : ∀ b, (f b).position = b.position) (grown : ∀ b, Grows p b.columns (f b).columns) :
    Grows p d.columns { d with blocks := d.blocks.modify i f, stack := stack }.columns := by
  refine List.forall_mem_append.mpr ⟨?_, ?_⟩
  · simp [map_modify_of_eq stays, Draft.columns]
  · refine Grows.modify grown d.blocks i ?_
    intro b member column inside
    exact List.mem_append_right _ (List.mem_flatMap.mpr ⟨b, member, inside⟩)

theorem blockLine_marks (d : Draft) (line : Line) : Marks Draft.columns d line (blockLine d line) := by
  unfold blockLine
  split
  · simp
  · refine Marks.take_iff.mpr (List.forall_mem_append.mpr ⟨?_, ?_⟩)
    · simp [Draft.columns]
    · rw [List.flatMap_append]
      refine List.forall_mem_append.mpr ⟨?_, ?_⟩
      · exact fun column old => .same (List.mem_append_right _ old)
      · simp [Block.columns]

theorem sectionLine_marks (d : Draft) (line : Line) : Marks Draft.columns d line (sectionLine d line) := by
  unfold sectionLine
  split
  · simp
  · split
    · refine Marks.take_iff.mpr (modify_grows d d.stack _ (fun _ => rfl) ?_)
      intro b
      simp [Block.columns, Grows]
    · simp [Fault.code]

theorem endLine_marks (d : Draft) (line : Line) : Marks Draft.columns d line (endLine d line) := by
  unfold endLine
  split
  · split
    · simp [Fault.code]
    · refine Marks.take_iff.mpr (modify_grows d _ _ (fun _ => rfl) ?_)
      intro b
      simp [Block.columns, Grows]
  · simp

theorem autonumberLine_marks (d : Draft) (line : Line) : Marks Draft.columns d line (autonumberLine d line) := by
  unfold autonumberLine
  split
  · simp
  · exact Marks.take_iff.mpr (.refl _ _)

theorem titleLine_marks (d : Draft) (line : Line) : Marks Draft.columns d line (titleLine d line) := by
  unfold titleLine
  split
  · simp
  · exact Marks.take_iff.mpr (.refl _ _)

theorem position_of_activation? {r : Route} {p : Position} :
    (r.activation? p).toList.map Activation.position = List.replicate (r.activation? p).toList.length p := by
  unfold Route.activation?
  cases r.marker with
  | none => rfl
  | some marker => cases marker <;> rfl

theorem messageLine_marks (d : Draft) (line : Line) : Marks Draft.columns d line (messageLine d line) := by
  unfold messageLine
  dsimp only
  split
  · simp
  · exact Marks.take_iff.mpr (.front (by simp [Grows, position_of_activation?]) _)

theorem mem_of_innermost? {d : Draft} {b : Block} (found : d.innermost? = some b) : b ∈ d.blocks := by
  obtain ⟨i, -, member⟩ := Option.bind_eq_some_iff.mp found
  exact List.mem_of_getElem? member

theorem rules_mark (d : Draft) : ∀ rule ∈ rules, ∀ line, Marks Draft.columns d line (rule.read d line) := by
  simp only [rules, List.forall_mem_cons]
  exact ⟨participantLine_marks d, activationLine_marks d, noteLine_marks d, blockLine_marks d,
    sectionLine_marks d, endLine_marks d, autonumberLine_marks d, titleLine_marks d, messageLine_marks d,
    List.forall_mem_nil _⟩

/-- How sequence diagrams are read. -/
abbrev reading : Reading SequenceDiagram where
  Head := Line
  State := Draft
  head first := first.alone.bareHeader "sequenceDiagram"
  fits := Text.BeginsWith ["sequenceDiagram"]
  line header := header
  start _ := {}
  rules _ := rules
  columns := Draft.columns
  finish text header d :=
    match d.innermost? with
    | some block => .error ((Fault.blockUnclosed block.kind.keyword).at block.position)
    | none =>
      .ok ⟨⟨.sequence, text, header.position⟩, d.title, d.autonumber, d.participants, d.messages, d.notes,
        d.activations, d.blocks⟩

theorem reading_describes : reading.Describes read where
  read_eq text offset first body := by
    rw [List.flatMap_singleton']
    rfl
  head_ofHeader first := bareHeader_ofHeader [] 0 first [] "sequenceDiagram"
  start_empty _ := by simp [Draft.columns]
  rules_mark := rules_mark
  finish_error failed := by
    dsimp only at failed
    split at failed
    · next block found =>
      obtain rfl := Except.error.inj failed
      have opened := List.mem_map_of_mem (f := Block.position) (mem_of_innermost? found)
      exact ⟨.inl rfl, .inr ⟨_, by simp [Draft.columns], opened⟩⟩
    · cases failed
  finish_ok finished := by
    dsimp only at finished
    split at finished
    · cases finished
    · obtain rfl := Except.ok.inj finished
      exact ⟨rfl, fun _ => id⟩
  finish_text text header d other := by
    dsimp only
    split <;> rfl

end DiagramLint.SequenceDiagram
