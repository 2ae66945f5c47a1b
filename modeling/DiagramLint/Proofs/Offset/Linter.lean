import DiagramLint.Linter
import DiagramLint.Proofs.Detection
import DiagramLint.Proofs.Offset.C4Diagram
import DiagramLint.Proofs.Offset.Charts
import DiagramLint.Proofs.Offset.ClassDiagram
import DiagramLint.Proofs.Offset.EntityDiagram
import DiagramLint.Proofs.Offset.Flowchart
import DiagramLint.Proofs.Offset.Graphs
import DiagramLint.Proofs.Offset.Schedules
import DiagramLint.Proofs.Offset.SequenceDiagram
import DiagramLint.Proofs.Offset.StateDiagram
import DiagramLint.Proofs.Settings

/-!
Linting a block that stands further down in a document gives the same report, moved down
(`lint_further_down`). Only the wording of one error knows of lines: a repeated setting of a gantt
chart quotes the line of the earlier one.
-/
namespace DiagramLint

open Text
open Placed (shift)

variable {k : Move}

instance : Placed UnknownDiagram := ⟨fun k d => { d with header := shift k d.header }⟩

instance : Placed Diagram where
  shift k
    | .flowchart d => .flowchart (shift k d)
    | .sequence d => .sequence (shift k d)
    | .classes d => .classes (shift k d)
    | .states d => .states (shift k d)
    | .entities d => .entities (shift k d)
    | .pie d => .pie (shift k d)
    | .gantt d => .gantt (shift k d)
    | .journey d => .journey (shift k d)
    | .gitGraph d => .gitGraph (shift k d)
    | .mindmap d => .mindmap (shift k d)
    | .timeline d => .timeline (shift k d)
    | .sankey d => .sankey (shift k d)
    | .quadrant d => .quadrant (shift k d)
    | .xyChart d => .xyChart (shift k d)
    | .c4 d => .c4 (shift k d)
    | .unknown d => .unknown (shift k d)

/-! ### Reading -/

theorem kind_shift (d : Diagram) : (shift k d).kind = d.kind := by
  cases d <;> rfl

theorem made_shift {α : Type} [Placed α] (make : α → Diagram) {there here : Except ParseError α}
    (moved : there = shift k here) (moves : ∀ a, make (shift k a) = shift k (make a)) :
    there.map make = shift k (here.map make) := by
  rw [moved]
  exact result_map_shift moves here

theorem family_read_shift {family : Family} (quoting : family = .gantt → k.quoted = k.lines) (s : Source) :
    family.read (shift k s) = shift k (family.read s) := by
  cases family with
  | flowchart => exact made_shift .flowchart (Flowchart.read_shift s) fun _ => rfl
  | sequence => exact made_shift .sequence (SequenceDiagram.read_shift s) fun _ => rfl
  | classes => exact made_shift .classes (ClassDiagram.read_shift s) fun _ => rfl
  | states => exact made_shift .states (StateDiagram.read_shift s) fun _ => rfl
  | entities => exact made_shift .entities (EntityDiagram.read_shift s) fun _ => rfl
  | pie => exact made_shift .pie (PieChart.read_shift s) fun _ => rfl
  | gantt => exact made_shift .gantt (Gantt.read_shift (quoting rfl) s) fun _ => rfl
  | journey => exact made_shift .journey (Journey.read_shift s) fun _ => rfl
  | gitGraph => exact made_shift .gitGraph (GitGraph.read_shift s) fun _ => rfl
  | mindmap => exact made_shift .mindmap (Mindmap.read_shift s) fun _ => rfl
  | timeline => exact made_shift .timeline (Timeline.read_shift s) fun _ => rfl
  | sankey => exact made_shift .sankey (SankeyDiagram.read_shift s) fun _ => rfl
  | quadrant => exact made_shift .quadrant (QuadrantChart.read_shift s) fun _ => rfl
  | xyChart => exact made_shift .xyChart (XyChart.read_shift s) fun _ => rfl
  | c4 => exact made_shift .c4 (C4Diagram.read_shift s) fun _ => rfl

theorem ofSource_shift {kind : Kind} (quoting : kind = .gantt → k.quoted = k.lines) (s : Source) :
    Diagram.ofSource kind (shift k s) = shift k (Diagram.ofSource kind s) := by
  unfold Diagram.ofSource
  rw [headerLine_shift]
  refine result_bind_shift ?_ _
  intro header
  split
  · next family named =>
    refine family_read_shift ?_ s
    rintro rfl
    have kinds := (Kind.family?_eq_some_iff kind .gantt).mp named
    exact quoting (by simpa [Family.kinds] using kinds)
  · rfl

/-- A block is read as the kind that the report gives where it cannot be read. -/
theorem read_eq_ofSource (b : Block) :
    b.read = Diagram.ofSource b.presumedKind (Source.ofText b.source b.offset) := by
  unfold Block.read Block.presumedKind
  cases b.namedKind? with
  | some kind => rfl
  | none =>
    show Diagram.ofSource _ _ = _
    rw [kind_ofText]
    rfl

/-! ### Checking -/

namespace Rule

/-- The rule finds in a diagram that is moved down what it finds in the diagram, moved down. -/
def Moves (k : Move) (rule : Rule) : Prop := ∀ d, rule.check (shift k d) = shift k (rule.check d)

theorem on_moves {α : Type} [Placed α] {part : Diagram → Option α} {check : α → List Finding}
    (part_moves : ∀ d, part (shift k d) = shift k (part d))
    (check_moves : ∀ a, check (shift k a) = shift k (check a)) (name : String) : Moves k (on part name check) := by
  intro d
  show (part (shift k d)).elim [] check = shift k ((part d).elim [] check)
  rw [part_moves]
  cases part d with
  | none => rfl
  | some a => exact check_moves a

theorem unknownKind_shift (d : UnknownDiagram) : unknownKind (shift k d) = shift k (unknownKind d) := rfl

end Rule

theorem family_rules_move (family : Family) : ∀ rule ∈ family.rules, rule.Moves k := by
  cases family with
  | flowchart =>
    simp only [Family.rules, Rule.flowchart, List.forall_mem_cons]
    refine ⟨Rule.on_moves ?_ Flowchart.duplicateSubgraphs_shift _,
      Rule.on_moves ?_ Flowchart.duplicateClassDefs_shift _,
      Rule.on_moves ?_ Flowchart.directiveTargets_shift _, List.forall_mem_nil _⟩
    all_goals
      intro d
      cases d <;> rfl
  | sequence =>
    simp only [Family.rules, Rule.sequence, List.forall_mem_cons]
    refine ⟨Rule.on_moves ?_ SequenceDiagram.duplicateParticipants_shift _,
      Rule.on_moves ?_ SequenceDiagram.undeclaredParticipants_shift _,
      Rule.on_moves ?_ SequenceDiagram.activationPairing_shift _, List.forall_mem_nil _⟩
    all_goals
      intro d
      cases d <;> rfl
  | classes =>
    simp only [Family.rules, Rule.classes, List.forall_mem_cons]
    refine ⟨Rule.on_moves ?_ ClassDiagram.duplicateClasses_shift _,
      Rule.on_moves ?_ ClassDiagram.duplicateMembers_shift _,
      Rule.on_moves ?_ ClassDiagram.undefinedClasses_shift _, List.forall_mem_nil _⟩
    all_goals
      intro d
      cases d <;> rfl
  | states =>
    simp only [Family.rules, Rule.states, List.forall_mem_cons]
    refine ⟨Rule.on_moves ?_ StateDiagram.duplicateStates_shift _,
      Rule.on_moves ?_ StateDiagram.noteTargets_shift _, List.forall_mem_nil _⟩
    all_goals
      intro d
      cases d <;> rfl
  | entities =>
    simp only [Family.rules, Rule.entities, List.forall_mem_cons]
    refine ⟨Rule.on_moves ?_ EntityDiagram.duplicateBodies_shift _,
      Rule.on_moves ?_ EntityDiagram.duplicateAttributes_shift _,
      Rule.on_moves ?_ EntityDiagram.attributeKeys_shift _, List.forall_mem_nil _⟩
    all_goals
      intro d
      cases d <;> rfl
  | pie =>
    simp only [Family.rules, Rule.pie, List.forall_mem_cons]
    refine ⟨Rule.on_moves ?_ PieChart.duplicateLabels_shift _, List.forall_mem_nil _⟩
    intro d
    cases d <;> rfl
  | gantt =>
    simp only [Family.rules, Rule.gantt, List.forall_mem_cons]
    refine ⟨Rule.on_moves ?_ Gantt.duplicateTaskIds_shift _, Rule.on_moves ?_ Gantt.missingDependencies_shift _,
      List.forall_mem_nil _⟩
    all_goals
      intro d
      cases d <;> rfl
  | journey =>
    simp only [Family.rules, Rule.journey, List.forall_mem_cons]
    refine ⟨Rule.on_moves ?_ Journey.scoreRange_shift _, List.forall_mem_nil _⟩
    intro d
    cases d <;> rfl
  | gitGraph =>
    simp only [Family.rules, Rule.gitGraph, List.forall_mem_cons]
    refine ⟨Rule.on_moves ?_ GitGraph.duplicateBranches_shift _,
      Rule.on_moves ?_ GitGraph.duplicateCommitIds_shift _, Rule.on_moves ?_ GitGraph.branchReferences_shift _,
      Rule.on_moves ?_ GitGraph.commitReferences_shift _, Rule.on_moves ?_ GitGraph.commitTypes_shift _,
      List.forall_mem_nil _⟩
    all_goals
      intro d
      cases d <;> rfl
  | mindmap =>
    simp only [Family.rules, Rule.mindmap, List.forall_mem_cons]
    refine ⟨Rule.on_moves ?_ Mindmap.duplicateIds_shift _, List.forall_mem_nil _⟩
    intro d
    cases d <;> rfl
  | timeline =>
    simp only [Family.rules, Rule.timeline, List.forall_mem_cons]
    refine ⟨Rule.on_moves ?_ Timeline.duplicateSections_shift _, List.forall_mem_nil _⟩
    intro d
    cases d <;> rfl
  | sankey =>
    simp only [Family.rules, Rule.sankey, List.forall_mem_cons]
    refine ⟨Rule.on_moves ?_ SankeyDiagram.duplicateLinks_shift _, List.forall_mem_nil _⟩
    intro d
    cases d <;> rfl
  | quadrant =>
    simp only [Family.rules, Rule.quadrant, List.forall_mem_cons]
    refine ⟨Rule.on_moves ?_ QuadrantChart.pointRanges_shift _,
      Rule.on_moves ?_ QuadrantChart.duplicatePoints_shift _, List.forall_mem_nil _⟩
    all_goals
      intro d
      cases d <;> rfl
  | xyChart =>
    simp only [Family.rules, Rule.xyChart, List.forall_mem_cons]
    refine ⟨Rule.on_moves ?_ XyChart.seriesLengths_shift _, List.forall_mem_nil _⟩
    intro d
    cases d <;> rfl
  | c4 =>
    simp only [Family.rules, Rule.c4, List.forall_mem_cons]
    refine ⟨Rule.on_moves ?_ C4Diagram.duplicateIds_shift _,
      Rule.on_moves ?_ C4Diagram.relationshipReferences_shift _,
      Rule.on_moves ?_ C4Diagram.styleReferences_shift _, List.forall_mem_nil _⟩
    all_goals
      intro d
      cases d <;> rfl

theorem unknown_rules_move : ∀ rule ∈ Rule.unknown, rule.Moves k := by
  simp only [Rule.unknown, List.forall_mem_cons]
  refine ⟨Rule.on_moves ?_ Rule.unknownKind_shift _, List.forall_mem_nil _⟩
  intro d
  cases d <;> rfl

theorem ofKind_rules_move (kind : Kind) : ∀ rule ∈ (RuleSet.ofKind kind).rules, rule.Moves k := by
  unfold RuleSet.ofKind
  split
  · next family _ => exact family_rules_move family
  · exact unknown_rules_move

/-- Rules that are run on a diagram that is moved down find the same, moved down, in the same order. -/
theorem checks_shift {rules : List Rule} (move : ∀ rule ∈ rules, rule.Moves k) (d : Diagram) :
    (rules.flatMap fun rule => rule.check (shift k d)) = shift k (rules.flatMap fun rule => rule.check d) := by
  induction rules with
  | nil => rfl
  | cons rule rules ih =>
    rw [List.flatMap_cons, List.flatMap_cons, shift_append, move rule List.mem_cons_self,
      ih fun later member => move later (List.mem_cons_of_mem rule member)]

theorem adjust_shift (s : Settings) (f : Finding) : s.adjust (shift k f) = shift k (s.adjust f) := by
  unfold Settings.adjust
  have code : (shift k f).code = f.code := rfl
  rw [code]
  split
  · rfl
  · rfl

/-- Settings look at the code of a finding and not at its wording. -/
theorem adjust_message (s : Settings) (f : Finding) (message : String) :
    s.adjust { f with message := message } = { s.adjust f with message := message } := by
  unfold Settings.adjust
  dsimp only
  cases f.code.bind s.severity? with
  | none => rfl
  | some severity => rfl

theorem code_adjust (s : Settings) (f : Finding) : (s.adjust f).code = f.code := by
  unfold Settings.adjust
  split
  · rfl
  · rfl

theorem message_adjust (s : Settings) (f : Finding) : (s.adjust f).message = f.message := by
  unfold Settings.adjust
  split
  · rfl
  · rfl

/-! ### Errors -/

theorem code_toFinding (e : ParseError) : e.toFinding.code = some e.code := by
  unfold ParseError.toFinding
  dsimp only
  split
  · rfl
  · rfl

theorem message_toFinding (e : ParseError) : e.toFinding.message = e.message := by
  unfold ParseError.toFinding
  dsimp only
  split
  · rfl
  · rfl

theorem code_shift (fault : Fault) : (shift k fault).code = fault.code := by
  cases fault <;> rfl

/-- The finding for an error that is moved down differs in nothing else but the wording of the fault. -/
theorem toFinding_shift (e : ParseError) :
    (shift k e).toFinding = { shift k e.toFinding with message := (shift k e.fault).message } := by
  have code : (shift k e).code = e.code := code_shift e.fault
  have phase : (shift k e).phase = e.phase := congrArg Code.phase code
  have expected : (shift k e).expected = e.expected := rfl
  unfold ParseError.toFinding
  rw [code, phase, expected]
  dsimp only
  split
  · rfl
  · rfl

/-- Faults of all kinds but gantt charts quote no line. -/
theorem fault_stays {kind : Kind} {s : Source} {e : ParseError} (failed : Diagram.ofSource kind s = .error e)
    (other : kind ≠ .gantt) : shift k e.fault = e.fault := by
  have moved : Diagram.ofSource kind (shift k s) = shift k (Diagram.ofSource kind s) :=
    ofSource_shift (fun same => absurd same other) s
  have unquoted : Diagram.ofSource kind (shift ⟨k.lines, 0, k.start⟩ s) = shift ⟨k.lines, 0, k.start⟩ (Diagram.ofSource kind s) :=
    ofSource_shift (fun same => absurd same other) s
  have same_source : shift k s = shift ⟨k.lines, 0, k.start⟩ s := rfl
  rw [failed] at moved unquoted
  rw [same_source, unquoted] at moved
  have faults := congrArg ParseError.fault (Except.error.inj moved)
  have kept : shift ⟨k.lines, 0, k.start⟩ e.fault = e.fault := by
    cases e.fault with
    | settingRepeated key line => exact congrArg (Fault.settingRepeated key <| line + ·) (ite_self 0)
    | _ => rfl
  exact faults.symm.trans kept

theorem settingRepeated_or_stays (fault : Fault) :
    (∃ key line, fault = .settingRepeated key line) ∨ shift k fault = fault := by
  cases fault with
  | settingRepeated key line => exact .inl ⟨key, line, rfl⟩
  | _ => exact .inr rfl

/-! ### Reports -/

section

variable {s : Settings} {here there : Block}

/-- The report on a block that is read as what another is read as, moved down. -/
theorem lint_shift_of_read {d : Diagram} (read : here.read = .ok d) (moved : there.read = shift k here.read) :
    s.lint there = ⟨d.kind, some (shift k d), shift k (s.lint here).findings⟩ := by
  have found : there.read = .ok (shift k d) := by
    rw [moved, read]
    rfl
  have enabled : ∀ rule ∈ s.enabled d.kind, rule.Moves k :=
    fun rule member => ofKind_rules_move d.kind rule ((s.enabled_sublist d.kind).subset member)
  rw [Settings.lint_of_read found, Settings.lint_of_read read, kind_shift, checks_shift enabled,
    map_shift (adjust_shift s)]

/-- The report on a block that fails as another does, further down. -/
theorem lint_shift_of_fault {e : ParseError} (failed : here.read = .error e) (moved : there.read = shift k here.read) :
    s.lint there = ⟨there.presumedKind, none,
      [{ shift k (s.adjust e.toFinding) with message := (shift k e.fault).message }]⟩ := by
  have found : there.read = .error (shift k e) := by
    rw [moved, failed]
    rfl
  rw [Settings.lint_of_fault found, toFinding_shift, adjust_message, adjust_shift]

end

theorem read_further_down (source : Text) (hint : Option Text) (k : Nat) :
    Block.read ⟨source, k, hint⟩ = shift (.down k) (Block.read ⟨source, 0, hint⟩) := by
  have presumed : Block.presumedKind ⟨source, k, hint⟩ = Block.presumedKind ⟨source, 0, hint⟩ := rfl
  rw [read_eq_ofSource, read_eq_ofSource, presumed]
  show Diagram.ofSource _ (Source.ofText source (Move.down k).lines) = _
  rw [ofText_shift]
  exact ofSource_shift (fun _ => rfl) _

/-- The report on a block that stands some lines further down is the report on the block, moved
down: the diagram and the labels of the findings have their positions as many lines further down,
and all else is the same. Only a repeated setting of a gantt chart quotes a line, which is moved
down in the wording too. -/
theorem lint_further_down (s : Settings) (source : Text) (hint : Option Text) (k : Nat) :
    let here := s.lint ⟨source, 0, hint⟩
    let there := s.lint ⟨source, k, hint⟩
    Block.read ⟨source, k, hint⟩ = shift (.down k) (Block.read ⟨source, 0, hint⟩) ∧
      there.kind = here.kind ∧ there.diagram = shift (.down k) here.diagram ∧
      (there.findings = shift (.down k) here.findings ∨
        here.kind = .gantt ∧ ∃ f key line, here.findings = [f] ∧ f.code = some .e203 ∧
          f.message = (Fault.settingRepeated key line).message ∧
          there.findings =
            [{ shift (.down k) f with message := (Fault.settingRepeated key (line + k)).message }]) := by
  intro here there
  have moved := read_further_down source hint k
  refine ⟨moved, ?_⟩
  cases found : Block.read ⟨source, 0, hint⟩ with
  | ok d =>
    have here_is : here = _ := Settings.lint_of_read found
    have there_is : there = ⟨d.kind, some (shift (.down k) d), shift (.down k) here.findings⟩ :=
      lint_shift_of_read found moved
    rw [there_is, here_is]
    exact ⟨rfl, rfl, .inl rfl⟩
  | error e =>
    have here_is : here = _ := Settings.lint_of_fault found
    have there_is : there = _ := lint_shift_of_fault found moved
    rw [here_is, there_is]
    refine ⟨rfl, rfl, ?_⟩
    by_cases stays : shift (.down k) e.fault = e.fault
    · left
      have same : (shift (.down k) e.fault).message = (s.adjust e.toFinding).message := by
        rw [stays, message_adjust, message_toFinding]
        rfl
      rw [same]
      rfl
    · right
      rw [read_eq_ofSource] at found
      obtain ⟨key, line, repeated⟩ : ∃ key line, e.fault = .settingRepeated key line :=
        (settingRepeated_or_stays e.fault).resolve_right stays
      refine ⟨?_, s.adjust e.toFinding, key, line, rfl, ?_, ?_, ?_⟩
      · by_contra other
        exact stays (fault_stays found other)
      · rw [code_adjust, code_toFinding, ParseError.code, repeated]
        rfl
      · rw [message_adjust, message_toFinding, ParseError.message, repeated]
      · rw [repeated]
        rfl

end DiagramLint
