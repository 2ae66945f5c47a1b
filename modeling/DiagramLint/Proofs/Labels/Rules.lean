import DiagramLint.Proofs.Labels.Basic
import DiagramLint.Proofs.Reading.Diagram
import DiagramLint.RuleSet

/-!
Where the findings of every rule stand. The rules for duplicates go through definitions in the order of
their places: list by list, from the outside to the inside of a tree, or sorted by their places where a
rule gathers them from several lists.
-/
namespace DiagramLint

open Text
open Stored (places)

/-! ### Flowcharts -/

namespace Flowchart

variable {chart : Flowchart}

theorem subgraphs_along (ordered : Ordered chart) :
    Along (Stored.places chart) (chart.subgraphs.map Subgraph.position) := ordered.along (by simp [Stored.columns])

theorem directives_along (ordered : Ordered chart) :
    Along (Stored.places chart) (chart.directives.map Directive.position) := ordered.along (by simp [Stored.columns])

theorem duplicateSubgraphs_at (ordered : Ordered chart) : AllAt (Stored.places chart) chart.duplicateSubgraphs :=
  Duplicates.empty_findings_at (subgraphs_along ordered).names

theorem duplicateClassDefs_at (ordered : Ordered chart) : AllAt (Stored.places chart) chart.duplicateClassDefs := by
  refine Duplicates.empty_findings_at ?_
  have definitions := (directives_along ordered).sublist
    ((List.filter_sublist (p := fun d => decide (d.kind = .classDef))).map Directive.position)
  refine definitions.flatMap ?_
  intro d named member
  obtain ⟨target, -, rfl⟩ := List.mem_map.mp member
  rfl

theorem directiveTargets_at (ordered : Ordered chart) : AllAt (Stored.places chart) chart.directiveTargets := by
  refine allAt_flatMap ?_
  intro d member
  refine allAt_filterMap ?_
  intro target _
  exact References.check_at _ target _ ((directives_along ordered).mem (List.mem_filter.mp member).1)

end Flowchart

/-! ### Sequence diagrams -/

namespace SequenceDiagram

variable {diagram : SequenceDiagram}

theorem duplicateParticipants_at (ordered : Ordered diagram) :
    AllAt (places diagram) diagram.duplicateParticipants := by
  refine Duplicates.empty_findings_at (Along.names (ordered.along ?_))
  simp [Stored.columns]

theorem undeclaredParticipants_at (ordered : Ordered diagram) :
    AllAt (places diagram) diagram.undeclaredParticipants := by
  have messages : Along (places diagram) (diagram.messages.map Message.position) :=
    ordered.along (by simp [Stored.columns])
  have notes : Along (places diagram) (diagram.notes.map Note.position) :=
    ordered.along (by simp [Stored.columns])
  have activations : Along (places diagram) (diagram.activations.map Activation.position) :=
    ordered.along (by simp [Stored.columns])
  unfold undeclaredParticipants
  dsimp only
  split
  · exact nofun
  · refine allAt_append (allAt_append (allAt_flatMap ?_) (allAt_flatMap ?_)) (allAt_filterMap ?_)
    · intro m member
      exact allAt_filterMap fun id _ => References.check_at _ id _ (messages.mem member)
    · intro n member
      exact allAt_filterMap fun id _ => References.check_at _ id _ (notes.mem member)
    · intro a member
      exact References.check_at _ _ _ (activations.mem member)

/-- A change of activity that keeps the places inside keeps them for every participant. -/
theorem update_within {inside : List Position} {participant : Text} {change : List Position → List Position}
    (kept : ∀ ps, (∀ p ∈ ps, p ∈ inside) → ∀ p ∈ change ps, p ∈ inside) {state : Activity}
    (within : ∀ entry ∈ state, ∀ p ∈ entry.2, p ∈ inside) :
    ∀ entry ∈ state.update participant change, ∀ p ∈ entry.2, p ∈ inside := by
  induction state with
  | nil => simpa [Activity.update] using kept [] nofun
  | cons entry rest ih =>
    obtain ⟨here, later⟩ := List.forall_mem_cons.mp within
    unfold Activity.update
    split
    · exact List.forall_mem_cons.mpr ⟨kept _ here, later⟩
    · exact List.forall_mem_cons.mpr ⟨here, ih later⟩

theorem activityFindings_at {inside : List Position} {events : List Activation}
    (events_within : ∀ a ∈ events, a.position ∈ inside) {state : Activity}
    (within : ∀ entry ∈ state, ∀ p ∈ entry.2, p ∈ inside) : AllAt inside (activityFindings state events) := by
  induction events generalizing state with
  | nil =>
    refine allAt_filterMap ?_
    intro entry member f found
    obtain ⟨p, first, rfl⟩ := Option.map_eq_some_iff.mp found
    exact Finding.at_of_label (within entry member p (List.mem_of_head? first)) rfl nofun
  | cons a rest ih =>
    obtain ⟨here, later⟩ := List.forall_mem_cons.mp events_within
    refine allAt_append ?_ (ih later (update_within ?_ within))
    · split
      · exact nofun
      · exact List.forall_mem_singleton.mpr (Finding.at_of_label here rfl nofun)
    · intro ps known
      split
      · exact List.forall_mem_cons.mpr ⟨here, known⟩
      · exact fun p member => known p (List.mem_of_mem_tail member)

theorem activationPairing_at (ordered : Ordered diagram) : AllAt (places diagram) diagram.activationPairing := by
  have activations : Along (places diagram) (diagram.activations.map Activation.position) :=
    ordered.along (by simp [Stored.columns])
  exact activityFindings_at (fun a member => activations.mem member) nofun

end SequenceDiagram

/-! ### Class diagrams -/

namespace ClassDiagram

variable {diagram : ClassDiagram}

/-- Classes and their members. -/
theorem definitions_along (ordered : Ordered diagram) :
    Along (places diagram) (diagram.classes.flatMap Definition.places) :=
  ordered.along (by simp [Stored.columns, account])

theorem members_along (ordered : Ordered diagram) :
    Along (places diagram) (diagram.members.map fun m => m.member.position) :=
  ordered.along (by simp [Stored.columns, account])

theorem duplicateClasses_at (ordered : Ordered diagram) : AllAt (places diagram) diagram.duplicateClasses := by
  have classes : Along (places diagram) (diagram.classes.map Definition.position) :=
    (definitions_along ordered).sublist (map_sublist_flatMap _)
  exact Duplicates.empty_findings_at classes.names

theorem duplicateMembers_at (ordered : Ordered diagram) : AllAt (places diagram) diagram.duplicateMembers := by
  refine Duplicates.empty_findings_at (Along.names (along_mergeSort ?_))
  intro m member
  rcases List.mem_append.mp member with inner | outer
  · obtain ⟨c, listed, inside⟩ := List.mem_flatMap.mp inner
    obtain ⟨own, there, rfl⟩ := List.mem_map.mp inside
    refine (definitions_along ordered).within _ (List.mem_flatMap.mpr ⟨c, listed, ?_⟩)
    exact List.mem_cons_of_mem _ (List.mem_map_of_mem there)
  · exact (members_along ordered).mem outer

theorem undefinedClasses_at (ordered : Ordered diagram) : AllAt (places diagram) diagram.undefinedClasses := by
  have relationships : Along (places diagram) (diagram.relationships.map Relationship.position) :=
    ordered.along (by simp [Stored.columns, account])
  have annotations : Along (places diagram) (diagram.annotations.map OuterAnnotation.position) :=
    ordered.along (by simp [Stored.columns, account])
  have notes : Along (places diagram) (diagram.notes.map Note.position) :=
    ordered.along (by simp [Stored.columns, account])
  unfold undefinedClasses
  refine allAt_append (allAt_append (allAt_append ?_ (allAt_filterMap ?_)) (allAt_filterMap ?_)) (allAt_filterMap ?_)
  · split
    · exact List.forall_mem_nil _
    · refine allAt_filterMap ?_
      intro named member
      have ends : Along (places diagram) (diagram.relationEnds.map Prod.snd) :=
        relationships.flatMap (by simp)
      exact References.check_at _ _ _ (ends.mem member)
  · intro n member f found
    obtain ⟨id, -, found⟩ := Option.bind_eq_some_iff.mp found
    exact References.check_at _ id _ (notes.mem member) f found
  · intro a member
    exact References.check_at _ _ _ (annotations.mem member)
  · intro m member
    exact References.check_at _ _ _ ((members_along ordered).mem member)

end ClassDiagram

/-! ### State diagrams -/

namespace StateDiagram

variable {diagram : StateDiagram}

theorem duplicateStates_at (ordered : Ordered diagram) : AllAt (places diagram) diagram.duplicateStates := by
  refine Duplicates.empty_findings_at (Along.names (ordered.along ?_))
  simp [Stored.columns, account]

theorem noteTargets_at (ordered : Ordered diagram) : AllAt (places diagram) diagram.noteTargets := by
  have notes : Along (places diagram) (diagram.notes.map Note.position) :=
    ordered.along (by simp [Stored.columns, account])
  refine allAt_filterMap ?_
  intro n member
  exact References.check_at _ _ _ (notes.mem member)

end StateDiagram

/-! ### Entity-relationship diagrams -/

namespace EntityDiagram

variable {diagram : EntityDiagram}

/-- Entities and their attributes. -/
theorem entities_along (ordered : Ordered diagram) :
    Along (places diagram) (diagram.entities.flatMap Entity.places) :=
  ordered.along (by simp [Stored.columns, account])

theorem duplicateBodies_at (ordered : Ordered diagram) : AllAt (places diagram) diagram.duplicateBodies := by
  have entities : Along (places diagram) (diagram.entities.map Entity.position) :=
    (entities_along ordered).sublist (map_sublist_flatMap _)
  have bodied := entities.sublist ((List.filter_sublist (p := Entity.hasBody)).map Entity.position)
  exact Duplicates.empty_findings_at bodied.names

theorem attributes_along (ordered : Ordered diagram) :
    Along (places diagram) ((diagram.entities.flatMap Entity.attributes).map Attribute.position) := by
  rw [List.map_flatMap]
  exact (entities_along ordered).sublist (flatMap_sublist_flatMap _)

theorem duplicateAttributes_at (ordered : Ordered diagram) :
    AllAt (places diagram) diagram.duplicateAttributes := by
  refine Duplicates.empty_findings_at ?_
  have same : (diagram.entities.flatMap Entity.attributeNames).map Prod.snd =
      (diagram.entities.flatMap Entity.attributes).map Attribute.position := by
    simp [List.map_flatMap, Entity.attributeNames, Function.comp_def]
  rw [same]
  exact attributes_along ordered

theorem attributeKeys_at (ordered : Ordered diagram) : AllAt (places diagram) diagram.attributeKeys := by
  refine allAt_flatMap ?_
  intro a member
  exact allAt_filterMap fun key _ => Vocabulary.check_at _ key ((attributes_along ordered).mem member)

end EntityDiagram

/-! ### Charts -/

theorem PieChart.duplicateLabels_at {chart : PieChart} (ordered : Ordered chart) :
    AllAt (places chart) chart.duplicateLabels := by
  refine Duplicates.empty_findings_at (Along.names (ordered.along ?_))
  simp [Stored.columns]

theorem SankeyDiagram.duplicateLinks_at {diagram : SankeyDiagram} (ordered : Ordered diagram) :
    AllAt (places diagram) diagram.duplicateLinks := by
  refine Duplicates.empty_findings_at (Along.names (ordered.along ?_))
  simp [Stored.columns]

theorem XyChart.seriesLengths_at {chart : XyChart} (ordered : Ordered chart) :
    AllAt (places chart) chart.seriesLengths := by
  have series : Along (places chart) (chart.series.map Series.position) :=
    ordered.along (by simp [Stored.columns])
  unfold seriesLengths
  split
  · exact nofun
  · refine allAt_map ?_
    intro s member
    exact Finding.at_of_label (series.mem (List.mem_filter.mp member).1) rfl nofun

namespace QuadrantChart

variable {chart : QuadrantChart}

theorem points_along (ordered : Ordered chart) : Along (places chart) (chart.points.map Point.position) :=
  ordered.along (by simp [Stored.columns])

theorem pointRanges_at (ordered : Ordered chart) : AllAt (places chart) chart.pointRanges := by
  refine allAt_flatMap ?_
  intro p member
  have coordinate (axis : String) (value : Binary64) :
      AllAt (places chart) (coordinateFinding? p axis value).toList := by
    unfold coordinateFinding?
    split
    · exact nofun
    · exact List.forall_mem_singleton.mpr (Finding.at_of_label ((points_along ordered).mem member) rfl nofun)
  exact allAt_append (coordinate "x" p.x) (coordinate "y" p.y)

theorem duplicatePoints_at (ordered : Ordered chart) : AllAt (places chart) chart.duplicatePoints :=
  Duplicates.empty_findings_at (points_along ordered).names

end QuadrantChart

/-! ### Schedules -/

/-- The places of items are among those of their sections in order. -/
theorem Section.items_sublist_outline {α : Type} (place : α → Position) (sections : List (Section α)) :
    ((allItems sections).map place).Sublist (outline place sections) := by
  rw [allItems, List.map_flatMap]
  exact flatMap_sublist_flatMap sections

namespace Gantt

variable {chart : Gantt}

theorem tasks_along (ordered : Ordered chart) : Along (places chart) (chart.tasks.map Task.position) := by
  have outline : Along (places chart) (Section.outline Task.position chart.sections) :=
    ordered.along (by simp [Stored.columns])
  exact outline.sublist (Section.items_sublist_outline Task.position chart.sections)

theorem duplicateTaskIds_at (ordered : Ordered chart) : AllAt (places chart) chart.duplicateTaskIds :=
  Duplicates.empty_findings_at (tasks_along ordered).filterMap

theorem missingDependencies_at (ordered : Ordered chart) : AllAt (places chart) chart.missingDependencies := by
  refine allAt_flatMap ?_
  intro t member
  exact allAt_filterMap fun d _ => References.check_at _ d _ ((tasks_along ordered).mem member)

end Gantt

theorem Journey.scoreRange_at {journey : Journey} (ordered : Ordered journey) :
    AllAt (places journey) journey.scoreRange := by
  have outline : Along (places journey) (Section.outline Task.position journey.sections) :=
    ordered.along (by simp [Stored.columns])
  have tasks := outline.sublist (Section.items_sublist_outline Task.position journey.sections)
  refine allAt_map ?_
  intro t member
  exact Finding.at_of_label (tasks.mem (List.mem_filter.mp member).1) rfl nofun

theorem Timeline.duplicateSections_at {timeline : Timeline} (ordered : Ordered timeline) :
    AllAt (places timeline) timeline.duplicateSections := by
  have outline : Along (places timeline) (Section.outline Period.position timeline.sections) :=
    ordered.along (by simp [Stored.columns])
  have sections : Along (places timeline) (timeline.sections.map Section.position) :=
    outline.sublist (map_sublist_flatMap _)
  exact Duplicates.empty_findings_at sections.names

/-! ### Git graphs -/

namespace GitGraph

variable {graph : GitGraph}

theorem commands_along (ordered : Ordered graph) :
    Along (places graph) (graph.commands.map Command.position) := ordered.along (by simp [Stored.columns])

/-- The branch at the start is defined in the header line, in front of all commands. -/
theorem duplicateBranches_at (ordered : Ordered graph) : AllAt (places graph) graph.duplicateBranches := by
  have branches : Along (places graph) ((graph.commands.filterMap fun c =>
      c.newBranch?.map fun name => (name, c.position)).map Prod.snd) := (commands_along ordered).filterMap
  have start : (Duplicates.empty "branch").reserve mainBranch graph.header.position =
      ⟨"branch", [(mainBranch, graph.header.position)]⟩ := rfl
  unfold duplicateBranches
  rw [start]
  refine Duplicates.findings_at ⟨List.pairwise_cons.mpr ⟨?_, branches.sorted⟩, ?_⟩
  · intro p member
    obtain ⟨named, there, rfl⟩ := List.mem_map.mp member
    obtain ⟨c, inside, made⟩ := List.mem_filterMap.mp there
    obtain ⟨name, -, rfl⟩ := Option.map_eq_some_iff.mp made
    exact ordered.behind c.position (by simpa [Stored.columns] using ⟨c, inside, rfl⟩)
  · exact List.forall_mem_cons.mpr ⟨List.mem_cons_self, branches.within⟩

theorem duplicateCommitIds_at (ordered : Ordered graph) : AllAt (places graph) graph.duplicateCommitIds :=
  Duplicates.empty_findings_at (commands_along ordered).filterMap

theorem replay_at {inside : List Position} {uses : References → Command → List Finding}
    {made : Command → Option Text} {commands : List Command}
    (each : ∀ known, ∀ c ∈ commands, AllAt inside (uses known c)) (known : References) :
    AllAt inside (replay uses made known commands) := by
  induction commands generalizing known with
  | nil => exact nofun
  | cons c rest ih =>
    have later := ih fun known c member => each known c (List.mem_cons_of_mem _ member)
    exact allAt_append (each known c List.mem_cons_self) (later _)

theorem checked_at {inside : List Position} {p : Position} (within : p ∈ inside) (known : References) (name : Text)
    (context : String) : AllAt inside (known.check name p context).toList := by
  intro f member
  exact known.check_at name context within f (Option.mem_toList.mp member)

theorem branchReferences_at (ordered : Ordered graph) : AllAt (places graph) graph.branchReferences := by
  refine replay_at ?_ _
  intro known c member
  have within := (commands_along ordered).mem member
  unfold branchUses
  split
  · exact checked_at within known _ _
  · exact checked_at within known _ _
  · exact nofun

theorem commitReferences_at (ordered : Ordered graph) : AllAt (places graph) graph.commitReferences := by
  refine replay_at ?_ _
  intro known c member
  have within := (commands_along ordered).mem member
  unfold commitUses
  split
  · next id parent _ =>
    refine allAt_append (checked_at within known id _) ?_
    cases parent with
    | none => exact nofun
    | some parent => exact checked_at within known parent _
  · exact nofun

theorem commitTypes_at (ordered : Ordered graph) : AllAt (places graph) graph.commitTypes := by
  refine allAt_filterMap ?_
  intro c member f found
  obtain ⟨type, -, found⟩ := Option.bind_eq_some_iff.mp found
  exact Vocabulary.check_at _ type ((commands_along ordered).mem member) f found

end GitGraph

/-! ### Mindmaps -/

theorem Mindmap.duplicateIds_at {map : Mindmap} (ordered : Ordered map) : AllAt (places map) map.duplicateIds := by
  have nodes : Along (places map) (map.nodes.map Node.position) := ordered.along (by simp [Stored.columns])
  exact Duplicates.empty_findings_at nodes.filterMap

/-! ### C4 diagrams

Ids are sorted by their places before they are compared, so they need not be in order. -/

namespace C4Diagram

variable {diagram : C4Diagram}

namespace Boundary

variable {inside : List Position}

theorem mem_elementIds {elements : List Element} (within : ∀ p ∈ elements.map Element.position, p ∈ inside) :
    ∀ named ∈ elementIds elements, named.2 ∈ inside := by
  refine List.forall_mem_map.mpr ?_
  intro e member
  exact within _ (List.mem_map_of_mem member)

mutual

theorem mem_ids : (b : Boundary) → b.frame.position ∈ inside →
    (∀ column ∈ columns b, ∀ p ∈ column, p ∈ inside) → ∀ named ∈ ids b, named.2 ∈ inside
  | .around frame elements boundaries, here, within => by
    obtain ⟨own, within⟩ := List.forall_mem_cons.mp within
    obtain ⟨frames, inner⟩ := List.forall_mem_cons.mp within
    refine List.forall_mem_append.mpr ⟨?_, mem_idsOfAll boundaries frames inner⟩
    exact List.forall_mem_cons.mpr ⟨here, mem_elementIds own⟩

theorem mem_idsOfAll : (boundaries : List Boundary) → (∀ p ∈ boundaries.map (fun b => b.frame.position), p ∈ inside) →
    (∀ column ∈ columnsOfAll boundaries, ∀ p ∈ column, p ∈ inside) → ∀ named ∈ idsOfAll boundaries, named.2 ∈ inside
  | [], _, _ => nofun
  | b :: rest, frames, within => by
    obtain ⟨here, others⟩ := List.forall_mem_cons.mp frames
    obtain ⟨own, later⟩ := List.forall_mem_append.mp within
    exact List.forall_mem_append.mpr ⟨mem_ids b here own, mem_idsOfAll rest others later⟩

end

end Boundary

theorem identifiers_along (diagram : C4Diagram) :
    Along (places diagram) (diagram.identifiers.map Prod.snd) := by
  have column {column : List Position} (listed : column ∈ Stored.columns diagram) : ∀ p ∈ column, p ∈ places diagram :=
    fun _ => Stored.mem_places listed
  refine along_mergeSort (List.forall_mem_append.mpr ⟨Boundary.mem_elementIds ?_, Boundary.mem_idsOfAll _ ?_ ?_⟩)
  · exact column (by simp [Stored.columns])
  · exact column (by simp [Stored.columns])
  · exact fun _ inner => column (List.mem_append_right _ inner)

theorem duplicateIds_at (diagram : C4Diagram) : AllAt (places diagram) diagram.duplicateIds :=
  Duplicates.empty_findings_at (identifiers_along diagram)

theorem relationshipReferences_at (ordered : Ordered diagram) :
    AllAt (places diagram) diagram.relationshipReferences := by
  have relationships : Along (places diagram) (diagram.relationships.map Relationship.position) :=
    ordered.along (by simp [Stored.columns])
  refine allAt_flatMap ?_
  intro r member
  exact allAt_filterMap fun id _ => References.check_at _ id _ (relationships.mem member)

theorem styleReferences_at (ordered : Ordered diagram) : AllAt (places diagram) diagram.styleReferences := by
  have styles : Along (places diagram) (diagram.styles.map Style.position) :=
    ordered.along (by simp [Stored.columns])
  refine allAt_flatMap ?_
  intro s member
  exact allAt_filterMap fun id _ => References.check_at _ id _ (styles.mem member)

end C4Diagram

end DiagramLint
