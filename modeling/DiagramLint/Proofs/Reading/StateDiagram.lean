import DiagramLint.Proofs.Coverage.StateDiagram
import DiagramLint.Proofs.Reading.Basic

/-!
How state diagrams are read. A note whose text is being read stands behind the other notes.
-/
namespace DiagramLint.StateDiagram

open Text

instance : Stored StateDiagram where
  header diagram := diagram.header
  withSource text diagram := { diagram with header := diagram.header.withSource text }
  columns diagram := (account diagram).columns

/-- The positions of a draft. -/
def Draft.columns (d : Draft) : List (List Position) := d.account.columns

/-! ### States -/

theorem declare_marks (d : Draft) (line : Line) (id : Text) (kind : StateKind) (description : Option Text) :
    Marks Draft.columns d line (declare d line id kind description) := by
  unfold declare
  split <;> simp [Draft.columns, Draft.account, Grows, Fault.code]

theorem markedLine_marks (d : Draft) (line : Line) : Marks Draft.columns d line (markedLine d line) := by
  unfold markedLine
  split
  · simp
  · exact declare_marks ..

theorem stateParts_ofLine (line : Line) (t : Text) : OfLine line (stateParts line t) fun _ => True := by
  unfold stateParts
  split
  · split
    · simp [Fault.code]
    · split <;> simp [Fault.code]
  · trivial

theorem stateLine_marks (d : Draft) (line : Line) : Marks Draft.columns d line (stateLine d line) := by
  unfold stateLine
  split
  · simp
  · dsimp only
    split
    · next failed => exact (stateParts_ofLine line _).of_error failed
    · exact declare_marks ..

theorem closeLine_marks (d : Draft) (line : Line) : Marks Draft.columns d line (closeLine d line) := by
  unfold closeLine
  split
  · split
    · simp [Fault.code]
    · exact Marks.take_iff.mpr (.refl _ _)
  · simp

theorem separatorLine_marks (d : Draft) (line : Line) : Marks Draft.columns d line (separatorLine d line) := by
  unfold separatorLine
  split
  · split <;> simp [Fault.code]
  · simp

theorem descriptionLine_marks (d : Draft) (line : Line) : Marks Draft.columns d line (descriptionLine d line) := by
  unfold descriptionLine
  split
  · simp
  · split <;> simp [Draft.columns, Draft.account, Grows]

theorem nameLine_marks (d : Draft) (line : Line) : Marks Draft.columns d line (nameLine d line) := by
  unfold nameLine
  split
  · exact declare_marks ..
  · simp

/-! ### Notes -/

theorem noteLine_marks {d : Draft} (closed : d.note = none) (line : Line) :
    Marks Draft.columns d line (noteLine d line) := by
  unfold noteLine
  split
  · simp
  · split
    · simp [Fault.code]
    · dsimp only
      split
      · split <;> simp [Draft.columns, Draft.account, Grows, closed]
      · simp [Fault.code]

theorem endNoteLine_marks (d : Draft) (line : Line) : Marks Draft.columns d line (endNoteLine d line) := by
  unfold endNoteLine
  split <;> simp [Draft.columns, Draft.account]

theorem noteTextLine_marks (d : Draft) (line : Line) : Marks Draft.columns d line (noteTextLine d line) := by
  unfold noteTextLine
  cases note : d.note <;> simp [Draft.columns, Draft.account, Note.addLine, note]

/-! ### Transitions -/

theorem endpoint_ofLine (line : Line) (t : Text) : OfLine line (endpoint line t) fun _ => True := by
  unfold endpoint
  split
  · trivial
  · split <;> simp [Fault.code]

theorem transition_ofLine (d : Draft) (line : Line) (before after : Text) (label : Option Text) :
    OfLine line (transition d line before after label) fun t => t.position = line.position := by
  refine (endpoint_ofLine line _).bind ?_
  intro source _
  refine (endpoint_ofLine line _).bind ?_
  exact fun _ _ => rfl

theorem transitionLine_marks (d : Draft) (line : Line) : Marks Draft.columns d line (transitionLine d line) := by
  unfold transitionLine
  dsimp only
  split
  · simp
  · refine Marks.made (transition_ofLine d line _ _ _) ?_
    intro t position
    simp [Draft.columns, Draft.account, Grows, position]

theorem directionLine_marks (d : Draft) (line : Line) : Marks Draft.columns d line (directionLine d line) := by
  unfold directionLine
  split
  · simp
  · exact Marks.made (direction_ofLine line _) fun _ _ => .refl _ _

/-! ### Diagrams -/

theorem rules_mark (d : Draft) : ∀ rule ∈ rules d, ∀ line, Marks Draft.columns d line (rule.read d line) := by
  unfold rules
  split
  · simp only [noteRules, List.forall_mem_cons]
    exact ⟨endNoteLine_marks d, noteTextLine_marks d, List.forall_mem_nil _⟩
  · next outside =>
    have closed : d.note = none := by simpa using outside
    simp only [outerRules, List.forall_mem_cons]
    exact ⟨markedLine_marks d, stateLine_marks d, closeLine_marks d, noteLine_marks closed, transitionLine_marks d,
      directionLine_marks d, separatorLine_marks d, descriptionLine_marks d, nameLine_marks d, List.forall_mem_nil _⟩

theorem mem_of_innermost? {d : Draft} {s : Declaration} (found : d.innermost? = some s) : s ∈ d.states := by
  obtain ⟨i, -, member⟩ := Option.bind_eq_some_iff.mp found
  exact List.mem_of_getElem? member

/-- How state diagrams are read. -/
abbrev reading : Reading StateDiagram where
  Head := Line × Kind
  State := Draft
  head first := do
    let (header, keyword, rest) ← first.alone.headerWith ["stateDiagram-v2", "stateDiagram"]
    if rest.isEmpty then .ok (header, if keyword = "stateDiagram-v2" then Kind.stateV2 else Kind.state)
    else .error ((Fault.headerModifier keyword rest).at header.position)
  fits := Text.BeginsWith ["stateDiagram-v2", "stateDiagram"]
  line h := h.1
  start _ := {}
  rules := rules
  columns := Draft.columns
  finish text h d :=
    match d.note, d.innermost? with
    | some note, _ => .error ((Fault.noteUnclosed note.target).at note.position)
    | none, some composite => .error ((Fault.compositeUnclosed composite.id).at composite.position)
    | none, none =>
      .ok ⟨⟨h.2, text, h.1.position⟩, d.direction, d.states, d.transitions, d.descriptions, d.notes⟩

theorem reading_describes : reading.Describes read where
  read_eq text offset first body := by
    rw [List.flatMap_singleton', bind_assoc]
    refine bind_congr ?_
    rintro ⟨header, word, rest⟩
    dsimp only
    cases rest.isEmpty <;> rfl
  head_ofHeader first := by
    refine (headerWith_ofHeader [] 0 first [] ["stateDiagram-v2", "stateDiagram"]).bind ?_
    rintro ⟨header, word, rest⟩ rfl
    dsimp only
    split <;> simp [Fault.code]
  start_empty _ := by simp [Draft.columns, Draft.account]
  rules_mark := rules_mark
  finish_error {text h d e} failed := by
    dsimp only at failed
    split at failed
    · next note opened =>
      obtain rfl := Except.error.inj failed
      refine ⟨.inl rfl, .inr ⟨(d.notes ++ d.note.toList).map Note.position, ?_, ?_⟩⟩
      · simp [Draft.columns, Draft.account]
      · simp [opened]
    · next composite closed found =>
      obtain rfl := Except.error.inj failed
      have opened := List.mem_map_of_mem (f := Declaration.position) (mem_of_innermost? found)
      exact ⟨.inl rfl, .inr ⟨_, List.mem_cons_self, opened⟩⟩
    · cases failed
  finish_ok finished := by
    dsimp only at finished
    split at finished
    · cases finished
    · cases finished
    · next closed _ =>
      obtain rfl := Except.ok.inj finished
      refine ⟨rfl, ?_⟩
      simp [Stored.columns, Draft.columns, account, Draft.account, closed]
  finish_text text h d other := by
    dsimp only
    split <;> rfl

end DiagramLint.StateDiagram
