import DiagramLint.Proofs.Flowchart.Occurrences

/-!
What the occurrences of a node come to. A node that is mentioned many times stands at the place of its first occurrence.
It has the label of the first occurrence that has one, with the shape written around that label, and the style class of
the first occurrence that has one; nothing that it has once is changed by a later occurrence (`read_gathers`).
-/
namespace DiagramLint.Flowchart

variable {n m : Node} {nodes more occurrences later : List Node} {id : Text} {d d' : Draft} {line : Line}

/-! ### One node -/

/-- The node is what its occurrences come to, in the order in which they are written. -/
structure Node.Gathers (n : Node) (occurrences : List Node) : Prop where
  position : occurrences.head?.map Node.position = some n.position
  label : n.label = (occurrences.find? fun m => m.label.isSome).bind Node.label
  /-- The shape is written with the label; without a label it is that of the first occurrence. -/
  shape : ((occurrences.find? fun m => m.label.isSome).or occurrences.head?).map Node.shape = some n.shape
  styleClass : n.styleClass = (occurrences.find? fun m => m.styleClass.isSome).bind Node.styleClass

/-- The node is still as it was, but for what was missing. -/
structure Node.Keeps (n earlier : Node) : Prop where
  id : n.id = earlier.id
  position : n.position = earlier.position
  label : earlier.label.isSome = true → n.label = earlier.label ∧ n.shape = earlier.shape
  styleClass : earlier.styleClass.isSome = true → n.styleClass = earlier.styleClass

/-- The first value is that of the first element with a value. -/
theorem bind_find?_isSome {α β : Type} (f : α → Option β) (as : List α) :
    (as.find? fun a => (f a).isSome).bind f = as.findSome? f := by
  induction as with
  | nil => rfl
  | cons a as ih =>
    cases here : f a with
    | none => simpa [here] using ih
    | some b => simp [here]

namespace Node

theorem gathers_self (n : Node) : n.Gathers [n] := by
  refine ⟨rfl, ?_, ?_, ?_⟩
  · rw [bind_find?_isSome]
    simp
  · cases here : n.label <;> simp [here]
  · rw [bind_find?_isSome]
    simp

theorem label_fill (n m : Node) : (n.fill m).label = n.label.or m.label := by
  cases label : n.label <;> cases later : m.label <;> simp [fill, label, later]

theorem shape_fill (n m : Node) :
    (n.fill m).shape = if n.label.isNone && m.label.isSome then m.shape else n.shape := by
  unfold fill
  dsimp only
  split <;> rfl

theorem styleClass_fill (n m : Node) : (n.fill m).styleClass = n.styleClass.or m.styleClass := rfl

namespace Gathers

theorem ne_nil (gathers : n.Gathers occurrences) : occurrences ≠ [] := by
  rintro rfl
  cases gathers.position

theorem head?_append (gathers : n.Gathers occurrences) : (occurrences ++ later).head? = occurrences.head? := by
  obtain ⟨first, rest, rfl⟩ := List.exists_cons_of_ne_nil gathers.ne_nil
  rfl

/-- The node has a label if one of its occurrences has. -/
theorem exists_labelled (gathers : n.Gathers occurrences) (labelled : n.label.isSome = true) :
    ∃ first, (occurrences.find? fun m => m.label.isSome) = some first := by
  rw [gathers.label] at labelled
  obtain ⟨label, found⟩ := Option.isSome_iff_exists.mp labelled
  obtain ⟨first, here, -⟩ := Option.bind_eq_some_iff.mp found
  exact ⟨first, here⟩

/-- One more occurrence fills in what is missing. -/
theorem fill (gathers : n.Gathers occurrences) (m : Node) : (n.fill m).Gathers (occurrences ++ [m]) := by
  have label := gathers.label
  have styleClass := gathers.styleClass
  rw [bind_find?_isSome] at label styleClass
  refine ⟨?_, ?_, ?_, ?_⟩
  · rw [position_fill, gathers.head?_append, gathers.position]
  · rw [label_fill, label, bind_find?_isSome, List.findSome?_append]
    simp
  · have shape := gathers.shape
    rw [shape_fill, List.find?_append, gathers.head?_append]
    cases found : occurrences.find? fun m => m.label.isSome with
    | some first =>
      have labelled : n.label.isNone = false := by
        have first_labelled : first.label.isSome = true := by simpa using List.find?_some found
        rw [gathers.label, found, Option.bind_some, ← Option.not_isSome, first_labelled]
        rfl
      rw [labelled]
      simpa [found] using shape
    | none =>
      have unlabelled : n.label = none := by
        rw [gathers.label, found]
        rfl
      cases here : m.label with
      | none => simpa [found, here] using shape
      | some text => simp [unlabelled, here]
  · rw [styleClass_fill, styleClass, bind_find?_isSome, List.findSome?_append]
    simp

/-- What some occurrences come to is kept where more of them follow. -/
theorem keeps (gathers : n.Gathers occurrences) (whole : m.Gathers (occurrences ++ later)) (same : m.id = n.id) :
    m.Keeps n := by
  refine ⟨same, ?_, ?_, ?_⟩
  · have place := whole.position
    rw [gathers.head?_append, gathers.position] at place
    exact (Option.some.inj place).symm
  · intro labelled
    obtain ⟨first, found⟩ := gathers.exists_labelled labelled
    have shape := gathers.shape
    have shape' := whole.shape
    simp only [List.find?_append, found, Option.some_or, Option.map_some] at shape shape'
    refine ⟨?_, (Option.some.inj shape').symm.trans (Option.some.inj shape)⟩
    rw [whole.label, gathers.label, List.find?_append, found]
    rfl
  · intro styled
    have first := gathers.styleClass
    rw [whole.styleClass, bind_find?_isSome, List.findSome?_append, ← bind_find?_isSome, ← first]
    exact Option.or_of_isSome styled

end Gathers
end Node

/-! ### All nodes -/

/-- What is recorded for an id is what the occurrences of the id come to. -/
def Tells (recorded : Option Node) (occurrences : List Node) : Prop :=
  match recorded with
  | none => occurrences = []
  | some n => n.Gathers occurrences

theorem find?_addPlace (m : Node) (nodes : List Node) (id : Text) :
    (addPlace m nodes).find? (fun n => n.id = id) =
      if m.id = id then some (((nodes.find? fun n => n.id = id).map fun n => n.fill m).getD m)
      else nodes.find? fun n => n.id = id := by
  induction nodes with
  | nil => by_cases same : m.id = id <;> simp [addPlace, same]
  | cons known rest ih =>
    by_cases here : known.id = m.id
    · by_cases same : m.id = id
      · simp [addPlace, here, same]
      · simp [addPlace, here, same]
    · rw [addPlace, if_neg here]
      by_cases same : known.id = id
      · have other : ¬ m.id = id := fun equal => here (same.trans equal.symm)
        simp [same, other]
      · simpa [same] using ih

/-- The occurrences of an id. -/
def occurrencesOf (id : Text) (mentioned : List Node) : List Node := mentioned.filter fun m => m.id = id

/-- The nodes tell, id by id, what was mentioned. -/
def Gathered (nodes mentioned : List Node) : Prop :=
  ∀ id, Tells (nodes.find? fun n => n.id = id) (occurrencesOf id mentioned)

theorem Gathered.addPlace {mentioned : List Node} (gathered : Gathered nodes mentioned) (m : Node) :
    Gathered (Flowchart.addPlace m nodes) (mentioned ++ [m]) := by
  intro id
  have known := gathered id
  rw [find?_addPlace, occurrencesOf, List.filter_append, ← occurrencesOf]
  by_cases same : m.id = id
  · cases found : nodes.find? fun n => n.id = id with
    | none =>
      have new : occurrencesOf id mentioned = [] := by simpa [found, Tells] using known
      simpa [same, new, Tells] using m.gathers_self
    | some n =>
      have before : n.Gathers (occurrencesOf id mentioned) := by simpa [found, Tells] using known
      simpa [same, Tells] using before.fill m
  · simpa [same] using known

theorem Gathered.addPlaces {mentioned : List Node} (gathered : Gathered nodes mentioned) (more : List Node) :
    Gathered (Flowchart.addPlaces nodes more) (mentioned ++ more) := by
  induction more generalizing nodes mentioned with
  | nil => simpa [Flowchart.addPlaces] using gathered
  | cons m more ih =>
    have behind := ih (gathered.addPlace m)
    rwa [List.append_assoc] at behind

/-! ### Charts -/

theorem mentions_of_command (commanded : isCommand line.text = true) : mentions line = [] := by
  rw [mentions, if_pos commanded]

/-- Statements add what they mention to the nodes. -/
theorem Gathered.step {statements : List Line} (gathered : Gathered d.nodes (statements.flatMap mentions))
    (taken : readLine rules d line = .ok d') : Gathered d'.nodes ((statements ++ [line]).flatMap mentions) := by
  rw [List.flatMap_append, List.flatMap_cons, List.flatMap_nil, List.append_nil]
  rcases readLine_step taken with ⟨commanded, same⟩ | ⟨-, extended⟩
  · rw [mentions_of_command commanded, List.append_nil, same.nodes]
    exact gathered
  · rw [extended.nodes]
    exact gathered.addPlaces (mentions line)

theorem gathered_of_run {statements : List Line} {direction : Option Direction}
    (run : readLines (fun _ => rules) { direction := direction } statements = .ok d) :
    Gathered d.nodes (statements.flatMap mentions) := by
  have blank : Gathered ({ direction := direction } : Draft).nodes (([] : List Line).flatMap mentions) := fun id => rfl
  simpa using readLines_holds (P := fun read d => Gathered d.nodes (read.flatMap mentions)) Gathered.step blank run

theorem nodup_of_run {statements : List Line} {direction : Option Direction}
    (run : readLines (fun _ => rules) { direction := direction } statements = .ok d) : (d.nodes.map Node.id).Nodup := by
  rw [← keys_places, (holds_of_run run).nodes]
  exact nodup_keys_firsts _

/-- A node that is recorded is the one that is found by its id. -/
theorem find?_of_mem (distinct : (nodes.map Node.id).Nodup) (member : n ∈ nodes) :
    (nodes.find? fun m => m.id = n.id) = some n := by
  obtain ⟨found, here⟩ : ∃ found, (nodes.find? fun m => m.id = n.id) = some found :=
    Option.isSome_iff_exists.mp (List.find?_isSome.mpr ⟨n, member, by simp⟩)
  have same : found.id = n.id := by simpa using List.find?_some here
  rw [here, List.inj_on_of_nodup_map distinct (List.mem_of_find?_eq_some here) member same]

/-- A node that is recorded is what its occurrences come to, and stays so where more statements follow. -/
theorem read_gathers {s : Source} {chart : Flowchart} (accepted : read s = .ok chart) :
    (∀ n ∈ chart.nodes, n.Gathers (occurrencesOf n.id ((s.body.flatMap statementLines).flatMap mentions))) ∧
      ∀ before after direction d, s.body.flatMap statementLines = before ++ after →
        readLines (fun _ => rules) { direction := direction } before = .ok d →
        ∀ earlier ∈ d.nodes, ∃ n ∈ chart.nodes, n.Keeps earlier := by
  obtain ⟨header, direction, d, run, rfl⟩ := exists_of_read accepted
  have gathered := gathered_of_run run
  constructor
  · intro n member
    have told := gathered n.id
    rwa [find?_of_mem (nodup_of_run run) member] at told
  · intro before after direction' between split ahead earlier member
    have told := gathered_of_run ahead earlier.id
    rw [find?_of_mem (nodup_of_run ahead) member] at told
    have whole := gathered earlier.id
    rw [split, List.flatMap_append, occurrencesOf, List.filter_append] at whole
    cases found : d.nodes.find? fun n => n.id = earlier.id with
    | none =>
      -- The occurrences so far are not lost.
      rw [found] at whole
      exact absurd (List.append_eq_nil_iff.mp whole).1 told.ne_nil
    | some n =>
      rw [found] at whole
      have same_id : n.id = earlier.id := by simpa using List.find?_some found
      exact ⟨n, List.mem_of_find?_eq_some found, told.keeps whole same_id⟩

/-- Nodes that come again: without a label, with empty brackets, with a second label and with a second style class. -/
def fillingNodes : Text :=
  "flowchart TD\nA --> B[]\nB:::hot --> A((Start)); A[Late]:::cold\nB{Check}:::warm --> A".toList

/-- The source of these nodes. -/
def fillingSource : Source := Source.ofText fillingNodes 0

/-- The node `A` in the end: the label and the shape come from its second occurrence, the style class from the third. -/
def filledNode : Node := ⟨['A'], some "Start".toList, .circle, some "cold".toList, ⟨2, 1⟩⟩

theorem read_gathers_filling : ∃ chart, read fillingSource = .ok chart ∧
    (filledNode ∈ chart.nodes ∧
      filledNode.Gathers (occurrencesOf ['A'] ((fillingSource.body.flatMap statementLines).flatMap mentions))) ∧
    ∃ before after d earlier, fillingSource.body.flatMap statementLines = before ++ after ∧
      readLines (fun _ => rules) { direction := some .topDown } before = .ok d ∧ earlier ∈ d.nodes ∧
      earlier.label = some "Start".toList ∧ ∃ n ∈ chart.nodes, n.Keeps earlier := by
  let before := (fillingSource.body.flatMap statementLines).take 2
  let earlier : Node := ⟨['A'], some "Start".toList, .circle, none, ⟨2, 1⟩⟩
  have seen : (read fillingSource).toOption.isSome := by decide +kernel
  have seen_ahead : (readLines (fun _ => rules) { direction := some .topDown } before).toOption.isSome := by
    decide +kernel
  have member : filledNode ∈ ((read fillingSource).toOption.get seen).nodes := by decide +kernel +revert
  have early : earlier ∈ ((readLines (fun _ => rules) { direction := some .topDown } before).toOption.get seen_ahead).nodes := by
    decide +kernel +revert
  have split := (List.take_append_drop 2 (fillingSource.body.flatMap statementLines)).symm
  obtain ⟨gathers, keeps⟩ := read_gathers (eq_ok_get seen)
  exact ⟨_, eq_ok_get seen, ⟨member, gathers filledNode member⟩, before, _, _, earlier, split, eq_ok_get seen_ahead, early,
    rfl, keeps before _ _ _ split (eq_ok_get seen_ahead) earlier early⟩

end DiagramLint.Flowchart
