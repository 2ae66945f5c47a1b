import DiagramLint.Proofs.Labels.Rules
import DiagramLint.Proofs.Positions

/-!
Every finding about a diagram has one primary label, which stands in the text of the diagram, and what is
defined twice is labelled with its first definition, too (`labels_in_text`).
-/
namespace DiagramLint

open Text
open Stored (places)

variable {d : Diagram} {family : Family}

/-- The family whose rules look into a diagram. -/
def Diagram.family? : Diagram → Option Family
  | .flowchart _ => some .flowchart
  | .sequence _ => some .sequence
  | .classes _ => some .classes
  | .states _ => some .states
  | .entities _ => some .entities
  | .pie _ => some .pie
  | .gantt _ => some .gantt
  | .journey _ => some .journey
  | .gitGraph _ => some .gitGraph
  | .mindmap _ => some .mindmap
  | .timeline _ => some .timeline
  | .sankey _ => some .sankey
  | .quadrant _ => some .quadrant
  | .xyChart _ => some .xyChart
  | .c4 _ => some .c4
  | .unknown _ => none

/-- The rules of other families find nothing. -/
theorem check_foreign (foreign : d.family? ≠ some family) : ∀ rule ∈ family.rules, rule.check d = [] := by
  cases family
  all_goals
    cases d
    all_goals
      first
      | exact absurd rfl foreign
      | repeat refine List.forall_mem_cons.mpr ⟨rfl, ?_⟩
        exact List.forall_mem_nil _

/-- The rules of its own family find everything at places of the diagram. -/
theorem check_own (ordered : Ordered d) (own : d.family? = some family) :
    ∀ rule ∈ family.rules, AllAt (places d) (rule.check d) := by
  cases d with
  | flowchart chart =>
    obtain rfl := Option.some.inj own
    have order : Ordered chart := ⟨ordered.sorted, ordered.behind⟩
    simp only [Family.rules, Rule.flowchart, List.forall_mem_cons]
    exact ⟨Flowchart.duplicateSubgraphs_at order, Flowchart.duplicateClassDefs_at order,
      Flowchart.directiveTargets_at order, nofun⟩
  | sequence diagram =>
    obtain rfl := Option.some.inj own
    have order : Ordered diagram := ⟨ordered.sorted, ordered.behind⟩
    simp only [Family.rules, Rule.sequence, List.forall_mem_cons]
    exact ⟨SequenceDiagram.duplicateParticipants_at order, SequenceDiagram.undeclaredParticipants_at order,
      SequenceDiagram.activationPairing_at order, nofun⟩
  | classes diagram =>
    obtain rfl := Option.some.inj own
    have order : Ordered diagram := ⟨ordered.sorted, ordered.behind⟩
    simp only [Family.rules, Rule.classes, List.forall_mem_cons]
    exact ⟨ClassDiagram.duplicateClasses_at order, ClassDiagram.duplicateMembers_at order,
      ClassDiagram.undefinedClasses_at order, nofun⟩
  | states diagram =>
    obtain rfl := Option.some.inj own
    have order : Ordered diagram := ⟨ordered.sorted, ordered.behind⟩
    simp only [Family.rules, Rule.states, List.forall_mem_cons]
    exact ⟨StateDiagram.duplicateStates_at order, StateDiagram.noteTargets_at order, nofun⟩
  | entities diagram =>
    obtain rfl := Option.some.inj own
    have order : Ordered diagram := ⟨ordered.sorted, ordered.behind⟩
    simp only [Family.rules, Rule.entities, List.forall_mem_cons]
    exact ⟨EntityDiagram.duplicateBodies_at order, EntityDiagram.duplicateAttributes_at order,
      EntityDiagram.attributeKeys_at order, nofun⟩
  | pie chart =>
    obtain rfl := Option.some.inj own
    have order : Ordered chart := ⟨ordered.sorted, ordered.behind⟩
    simp only [Family.rules, Rule.pie, List.forall_mem_cons]
    exact ⟨PieChart.duplicateLabels_at order, nofun⟩
  | gantt chart =>
    obtain rfl := Option.some.inj own
    have order : Ordered chart := ⟨ordered.sorted, ordered.behind⟩
    simp only [Family.rules, Rule.gantt, List.forall_mem_cons]
    exact ⟨Gantt.duplicateTaskIds_at order, Gantt.missingDependencies_at order, nofun⟩
  | journey journey =>
    obtain rfl := Option.some.inj own
    have order : Ordered journey := ⟨ordered.sorted, ordered.behind⟩
    simp only [Family.rules, Rule.journey, List.forall_mem_cons]
    exact ⟨Journey.scoreRange_at order, nofun⟩
  | gitGraph graph =>
    obtain rfl := Option.some.inj own
    have order : Ordered graph := ⟨ordered.sorted, ordered.behind⟩
    simp only [Family.rules, Rule.gitGraph, List.forall_mem_cons]
    exact ⟨GitGraph.duplicateBranches_at order, GitGraph.duplicateCommitIds_at order,
      GitGraph.branchReferences_at order, GitGraph.commitReferences_at order, GitGraph.commitTypes_at order, nofun⟩
  | mindmap map =>
    obtain rfl := Option.some.inj own
    have order : Ordered map := ⟨ordered.sorted, ordered.behind⟩
    simp only [Family.rules, Rule.mindmap, List.forall_mem_cons]
    exact ⟨Mindmap.duplicateIds_at order, nofun⟩
  | timeline timeline =>
    obtain rfl := Option.some.inj own
    have order : Ordered timeline := ⟨ordered.sorted, ordered.behind⟩
    simp only [Family.rules, Rule.timeline, List.forall_mem_cons]
    exact ⟨Timeline.duplicateSections_at order, nofun⟩
  | sankey diagram =>
    obtain rfl := Option.some.inj own
    have order : Ordered diagram := ⟨ordered.sorted, ordered.behind⟩
    simp only [Family.rules, Rule.sankey, List.forall_mem_cons]
    exact ⟨SankeyDiagram.duplicateLinks_at order, nofun⟩
  | quadrant chart =>
    obtain rfl := Option.some.inj own
    have order : Ordered chart := ⟨ordered.sorted, ordered.behind⟩
    simp only [Family.rules, Rule.quadrant, List.forall_mem_cons]
    exact ⟨QuadrantChart.pointRanges_at order, QuadrantChart.duplicatePoints_at order, nofun⟩
  | xyChart chart =>
    obtain rfl := Option.some.inj own
    have order : Ordered chart := ⟨ordered.sorted, ordered.behind⟩
    simp only [Family.rules, Rule.xyChart, List.forall_mem_cons]
    exact ⟨XyChart.seriesLengths_at order, nofun⟩
  | c4 diagram =>
    obtain rfl := Option.some.inj own
    have order : Ordered diagram := ⟨ordered.sorted, ordered.behind⟩
    simp only [Family.rules, Rule.c4, List.forall_mem_cons]
    exact ⟨C4Diagram.duplicateIds_at diagram, C4Diagram.relationshipReferences_at order,
      C4Diagram.styleReferences_at order, nofun⟩
  | unknown diagram => exact nomatch own

theorem check_unknown (d : Diagram) : ∀ rule ∈ Rule.unknown, AllAt (places d) (rule.check d) := by
  refine List.forall_mem_cons.mpr ⟨?_, List.forall_mem_nil _⟩
  cases d with
  | unknown diagram =>
    refine List.forall_mem_singleton.mpr (Finding.at_of_label (p := diagram.header.position) ?_ rfl nofun)
    exact List.mem_cons_self
  | _ => exact nofun

theorem findings_at (ordered : Ordered d) : AllAt (places d) d.findings := by
  refine allAt_flatMap ?_
  intro rule member
  unfold RuleSet.ofKind at member
  dsimp only at member
  split at member
  · next family _ =>
    by_cases own : d.family? = some family
    · exact check_own ordered own rule member
    · rw [check_foreign own rule member]
      exact nofun
  · exact check_unknown d rule member

/-- What is read is in order. -/
theorem ordered_of_ofSource {kind : Kind} {text : Text} {offset : Nat}
    (made : Diagram.ofSource kind (Source.ofText text offset) = .ok d) : Ordered d := by
  obtain ⟨first, body, cut, header, along⟩ := along_of_ofSource made
  refine ⟨fun column listed => (along column listed).sorted, ?_⟩
  intro p member
  have below := ((within_text made).2 p member).1
  show d.header.position.le p
  simp [Position.le, below]

/-- Every finding about a diagram has one primary label, on a line from the header line to the last line
of the text. The finding for a duplicate definition has one secondary label, too, which stands at a
position of the diagram that is not behind the primary one. -/
theorem labels_in_text {text : Text} {offset : Nat}
    (read : Diagram.read text offset = .ok d ∨ ∃ kind, Diagram.readAs kind text offset = .ok d) :
    ∀ f ∈ d.findings, ∃ p, f.positions .primary = [p] ∧
      d.header.position.line ≤ p.line ∧ p.line ≤ offset + (Text.lines text).length ∧
      (f.code = some .e300 →
        ∃ q, f.positions .secondary = [q] ∧ q ∈ d.header.position :: d.columns.flatten ∧ q.le p) := by
  obtain ⟨kind, made⟩ : ∃ kind, Diagram.ofSource kind (Source.ofText text offset) = .ok d := by
    rcases read with made | ⟨kind, made⟩
    · exact ⟨_, made⟩
    · exact ⟨kind, made⟩
  obtain ⟨header, held⟩ := within_text made
  have bounds : ∀ p ∈ places d,
      d.header.position.line ≤ p.line ∧ p.line ≤ offset + (Text.lines text).length := by
    refine List.forall_mem_cons.mpr ⟨⟨le_rfl, header⟩, ?_⟩
    intro p member
    exact ⟨(held p member).1.le, (held p member).2⟩
  intro f found
  obtain ⟨p, inside, primary, duplicate⟩ := findings_at (ordered_of_ofSource made) f found
  obtain ⟨behind, within⟩ := bounds p inside
  refine ⟨p, primary, behind, within, ?_⟩
  intro code
  obtain ⟨q, known, secondary, order⟩ := duplicate code
  exact ⟨q, secondary, known, order⟩

/-- A branch that is made twice, and one that has the name of the branch at the start. -/
def repeatedBranches : Text := "gitGraph\ncommit\nbranch dev\nbranch dev\nbranch main\ncheckout x".toList

theorem labels_in_text_repeatedBranches : ∃ d, Diagram.read repeatedBranches 7 = .ok d ∧
    d.findings.map Finding.code = [some .e300, some .e300, some .e301] ∧
    ∀ f ∈ d.findings, ∃ p, f.positions .primary = [p] ∧ d.header.position.line ≤ p.line ∧ p.line ≤ 13 ∧
      (f.code = some .e300 →
        ∃ q, f.positions .secondary = [q] ∧ q ∈ d.header.position :: d.columns.flatten ∧ q.le p) := by
  obtain ⟨d, made⟩ := exists_of_isOk (x := Diagram.read repeatedBranches 7) (by decide +kernel)
  have codes : (Diagram.read repeatedBranches 7).toOption.map (fun d => d.findings.map Finding.code) =
      some [some .e300, some .e300, some .e301] := by decide +kernel
  have labels := labels_in_text (.inl made)
  rw [show (Text.lines repeatedBranches).length = 6 by decide +kernel] at labels
  rw [made] at codes
  exact ⟨d, made, Option.some.inj codes, labels⟩

end DiagramLint
