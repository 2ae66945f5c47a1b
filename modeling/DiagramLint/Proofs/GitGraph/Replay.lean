import DiagramLint.GitGraph
import DiagramLint.Proofs.Names
import DiagramLint.Proofs.Results

/-!
Git graphs are replayed. What is found about a command depends on the commands in front of it and on nothing behind it, so
commands that are added at the end neither mend nor add to what is found about the others (`findings_of_commands`).
-/
namespace DiagramLint.GitGraph

open Text

/-- What is found about commands one by one, each of them with the commands in front of it. -/
def inTurn (about : List Command → Command → List Finding) (earlier : List Command) : List Command → List Finding
  | [] => []
  | c :: rest => about earlier c ++ inTurn about (earlier ++ [c]) rest

/-- The names that commands make, with their places. -/
def namesMade (made : Command → Option Text) (commands : List Command) : List (Text × Position) :=
  commands.filterMap fun c => (made c).map fun name => (name, c.position)

/-- The branches behind some commands: the one that a graph starts on, and those that are made. -/
def branchesBehind (g : GitGraph) (commands : List Command) : List (Text × Position) :=
  (mainBranch, g.header.position) :: namesMade Command.newBranch? commands

/-- The commits and merges with ids behind some commands. -/
def commitsBehind (commands : List Command) : List (Text × Position) := namesMade Command.newId? commands

namespace Command

/-- The branches that a command uses, with the words for the use. -/
def usedBranches (c : Command) : List (Text × String) :=
  match c.action with
  | .checkout branch => [(branch, "`checkout`")]
  | .merge branch .. => [(branch, "`merge`")]
  | _ => []

/-- The commits that a command uses, with the words for the use. -/
def usedCommits (c : Command) : List (Text × String) :=
  match c.action with
  | .cherryPick id parent => (id, "`cherry-pick`") :: (parent.map fun p => (p, "`cherry-pick` parent")).toList
  | _ => []

end Command

/-- What is found about uses at a place: those are found whose names are not known. -/
def unknownUses (category : String) (known : List (Text × Position)) (uses : List (Text × String)) (place : Position) :
    List Finding :=
  (uses.filter fun use => !(known.map Prod.fst).contains use.1).map fun use => References.finding category use.1 place use.2

/-- What is found about a name that is made at a place: it is found if it is known, with the first place of it. -/
def repeatedName (category : String) (known : List (Text × Position)) (name : Option Text) (place : Position) :
    List Finding :=
  (name.bind fun n => (known.lookup n).map fun first => Duplicates.finding category n place first).toList

variable {about : List Command → Command → List Finding} {uses : References → Command → List Finding}
  {made : Command → Option Text} {category context : String} {names start : List (Text × Position)} {name : Text}
  {place : Position} {earlier p q : List Command} {c : Command} {g : GitGraph}

/-! ### Commands in turn -/

theorem inTurn_append : inTurn about earlier (p ++ q) = inTurn about earlier p ++ inTurn about (earlier ++ p) q := by
  induction p generalizing earlier with
  | nil => simp [inTurn]
  | cons c p ih => simp [inTurn, ih]

theorem namesMade_cons (made : Command → Option Text) (c : Command) (rest : List Command) : namesMade made (c :: rest) =
    ((made c).map fun name => (name, c.position)).toList ++ namesMade made rest := by
  rw [namesMade, List.filterMap_cons]
  cases made c <;> rfl

theorem namesMade_append (made : Command → Option Text) (p q : List Command) :
    namesMade made (p ++ q) = namesMade made p ++ namesMade made q := List.filterMap_append

/-! ### Uses -/

/-- Behind a command that makes a name, the name is declared. -/
theorem replay_cons (uses : References → Command → List Finding) (made : Command → Option Text) (category : String)
    (names : List (Text × Position)) (c : Command) (rest : List Command) :
    replay uses made ((References.empty category).declareAll names) (c :: rest) =
      uses ((References.empty category).declareAll names) c ++
        replay uses made ((References.empty category).declareAll (names ++ namesMade made [c])) rest := by
  rw [replay, References.declareAll_append, namesMade_cons]
  cases made c <;> rfl

theorem replay_append (uses : References → Command → List Finding) (made : Command → Option Text) (category : String)
    (names : List (Text × Position)) (p q : List Command) :
    replay uses made ((References.empty category).declareAll names) (p ++ q) =
      replay uses made ((References.empty category).declareAll names) p ++
        replay uses made ((References.empty category).declareAll (names ++ namesMade made p)) q := by
  induction p generalizing names with
  | nil => simp [replay, namesMade]
  | cons c p ih =>
    have together : namesMade made (c :: p) = namesMade made [c] ++ namesMade made p := namesMade_append made [c] p
    rw [List.cons_append, replay_cons, ih, replay_cons, together, List.append_assoc, List.append_assoc]

/-- A replay finds the uses of names that the commands in front of them have not made. -/
theorem replay_eq_inTurn {used : Command → List (Text × String)}
    (told : ∀ names c, uses ((References.empty category).declareAll names) c = unknownUses category names (used c) c.position)
    (made : Command → Option Text) (start : List (Text × Position)) (earlier commands : List Command) :
    replay uses made ((References.empty category).declareAll (start ++ namesMade made earlier)) commands =
      inTurn (fun earlier c => unknownUses category (start ++ namesMade made earlier) (used c) c.position) earlier
        commands := by
  induction commands generalizing earlier with
  | nil => rfl
  | cons c rest ih => rw [replay_cons, told, List.append_assoc, ← namesMade_append, ih, inTurn]

theorem unknownUses_nil : unknownUses category names [] place = [] := rfl

theorem unknownUses_of_known {use : Text × String} {others : List (Text × String)} (known : use.1 ∈ names.map Prod.fst) :
    unknownUses category names (use :: others) place = unknownUses category names others place := by
  rw [unknownUses, List.filter_cons_of_neg (by simpa using known)]
  rfl

theorem unknownUses_cons (use : Text × String) (others : List (Text × String)) :
    unknownUses category names (use :: others) place =
      (((References.empty category).declareAll names).check use.1 place use.2).toList ++
        unknownUses category names others place := by
  rw [References.check_declareAll]
  by_cases known : use.1 ∈ names.map Prod.fst
  · rw [if_pos known, unknownUses_of_known known]
    rfl
  · rw [if_neg known, unknownUses, List.filter_cons_of_pos (by simpa using known)]
    rfl

theorem branchUses_told (names : List (Text × Position)) (c : Command) :
    branchUses ((References.empty "branch").declareAll names) c =
      unknownUses "branch" names c.usedBranches c.position := by
  rw [branchUses, Command.usedBranches]
  cases c.action <;> simp only [unknownUses_cons, unknownUses_nil, List.append_nil]

theorem commitUses_told (names : List (Text × Position)) (c : Command) :
    commitUses ((References.empty "commit").declareAll names) c =
      unknownUses "commit" names c.usedCommits c.position := by
  rw [commitUses, Command.usedCommits]
  cases c.action with
  | cherryPick id parent =>
    cases parent <;> simp [unknownUses_cons, unknownUses_nil]
  | _ => rfl

theorem branchReferences_eq (g : GitGraph) : g.branchReferences =
    inTurn (fun earlier c => unknownUses "branch" (g.branchesBehind earlier) c.usedBranches c.position) [] g.commands :=
  replay_eq_inTurn branchUses_told Command.newBranch? [(mainBranch, g.header.position)] [] g.commands

theorem commitReferences_eq (g : GitGraph) : g.commitReferences =
    inTurn (fun earlier c => unknownUses "commit" (commitsBehind earlier) c.usedCommits c.position) [] g.commands :=
  replay_eq_inTurn commitUses_told Command.newId? [] [] g.commands

/-! ### Repeated names -/

/-- A name that is known keeps its first place. -/
theorem lookup_concat_of_known {first : Position} (known : names.lookup name = some first) (place : Position) (other : Text) :
    (names ++ [(name, place)]).lookup other = names.lookup other := by
  rw [List.lookup_append]
  by_cases old : other = name
  · simp [old, known]
  · have foreign : (other == name) = false := by simpa using old
    simp [List.lookup_cons, foreign]

/-- The definitions that are found are those of names that the commands in front of them have made. -/
theorem findings_eq_inTurn (made : Command → Option Text) (start : List (Text × Position)) (earlier commands : List Command)
    {d : Duplicates} (seen : ∀ name, d.first? name = (start ++ namesMade made earlier).lookup name) :
    d.findings (namesMade made commands) =
      inTurn (fun earlier c => repeatedName d.category (start ++ namesMade made earlier) (made c) c.position) earlier
        commands := by
  induction commands generalizing d earlier with
  | nil => rfl
  | cons c rest ih =>
    rw [namesMade_cons, inTurn]
    cases makes : made c with
    | none =>
      have same : namesMade made (earlier ++ [c]) = namesMade made earlier := by simp [namesMade, makes]
      exact ih (earlier ++ [c]) (by rwa [same])
    | some name =>
      have more : start ++ namesMade made (earlier ++ [c]) = start ++ namesMade made earlier ++ [(name, c.position)] := by
        simp [namesMade, makes]
      have here := seen name
      -- A name that is new is kept; one that is known changes nothing, as its first place stands in front.
      cases known : (start ++ namesMade made earlier).lookup name with
      | none =>
        rw [known] at here
        have later := @ih (earlier ++ [c]) { d with seen := d.seen ++ [(name, c.position)] } ?_
        · simpa [repeatedName, known, Duplicates.findings_cons_of_new here] using later
        · intro other
          have before := seen other
          rw [Duplicates.first?] at before ⊢
          rw [more, List.lookup_append, List.lookup_append, before]
      | some first =>
        rw [known] at here
        have later := @ih (earlier ++ [c]) d ?_
        · simpa [repeatedName, known, Duplicates.findings_cons_of_seen here] using later
        · exact fun other => by rw [seen other, more, lookup_concat_of_known known]

theorem duplicateBranches_eq (g : GitGraph) : g.duplicateBranches =
    inTurn (fun earlier c => repeatedName "branch" (g.branchesBehind earlier) c.newBranch? c.position) [] g.commands :=
  findings_eq_inTurn Command.newBranch? [(mainBranch, g.header.position)] [] g.commands fun _ => rfl

theorem duplicateCommitIds_eq (g : GitGraph) : g.duplicateCommitIds =
    inTurn (fun earlier c => repeatedName "commit id" (commitsBehind earlier) c.newId? c.position) [] g.commands :=
  findings_eq_inTurn Command.newId? [] [] g.commands fun _ => rfl

/-! ### Graphs -/

theorem kind_of_read {s : Source} (accepted : read s = .ok g) : g.header.kind = .gitGraph := by
  obtain ⟨header, -, accepted⟩ := exists_of_bind_ok accepted
  split at accepted
  · cases accepted
  · obtain ⟨direction, -, accepted⟩ := exists_of_bind_ok accepted
    obtain ⟨commands, -, accepted⟩ := exists_of_bind_ok accepted
    obtain rfl := Except.ok.inj accepted
    rfl

/-- The rules that look at what is made in front of a command, each with what it finds about the command: uses of branches
and commits that are not there, and branches and ids that are there already. -/
def replayRules (g : GitGraph) : List (String × (List Command → Command → List Finding)) :=
  [("gitgraph-branch-reference", fun earlier c =>
      unknownUses "branch" (g.branchesBehind earlier) c.usedBranches c.position),
   ("gitgraph-commit-reference", fun earlier c =>
      unknownUses "commit" (commitsBehind earlier) c.usedCommits c.position),
   ("gitgraph-duplicate-branch", fun earlier c =>
      repeatedName "branch" (g.branchesBehind earlier) c.newBranch? c.position),
   ("gitgraph-duplicate-commit-id", fun earlier c =>
      repeatedName "commit id" (commitsBehind earlier) c.newId? c.position)]

theorem foundBy_replayRules (kind : g.header.kind = .gitGraph) :
    ∀ rule ∈ g.replayRules, (Diagram.gitGraph g).foundBy rule.1 = inTurn rule.2 [] g.commands := by
  have family : (Diagram.gitGraph g).kind.family? = some .gitGraph := congrArg Kind.family? kind
  simp only [replayRules, List.forall_mem_cons, Diagram.foundBy_of_family family]
  refine ⟨?_, ?_, ?_, ?_, List.forall_mem_nil _⟩
  · simp [Family.rules, Rule.gitGraph, Rule.on, branchReferences_eq]
  · simp [Family.rules, Rule.gitGraph, Rule.on, commitReferences_eq]
  · simp [Family.rules, Rule.gitGraph, Rule.on, duplicateBranches_eq]
  · simp [Family.rules, Rule.gitGraph, Rule.on, duplicateCommitIds_eq]

/-- Each rule finds about every command what the commands in front of it say, and so commands at the end do not change what
is found about the others. -/
theorem findings_of_commands {s : Source} (accepted : read s = .ok g) : ∀ rule ∈ g.replayRules,
    (Diagram.gitGraph g).foundBy rule.1 = inTurn rule.2 [] g.commands ∧
    ∀ p q, (Diagram.gitGraph { g with commands := p }).foundBy rule.1 <+:
      (Diagram.gitGraph { g with commands := p ++ q }).foundBy rule.1 := by
  intro rule listed
  have kind := kind_of_read accepted
  refine ⟨foundBy_replayRules kind rule listed, fun p q => ?_⟩
  have front := foundBy_replayRules (g := { g with commands := p }) kind rule listed
  have whole := foundBy_replayRules (g := { g with commands := p ++ q }) kind rule listed
  rw [front, whole, inTurn_append]
  exact List.prefix_append _ _

/-- Commands that use and repeat what is made in front of them and behind them. -/
def outOfOrder : Text :=
  "gitGraph
merge b id: \"x\"
branch b
commit id: \"x\"
cherry-pick id: \"y\" parent: \"x\"
branch main
switch b
commit id: \"y\"".toList

theorem findings_of_commands_outOfOrder : ∃ g, read (Source.ofText outOfOrder 0) = .ok g ∧ ∀ rule ∈ g.replayRules,
    (Diagram.gitGraph g).foundBy rule.1 = inTurn rule.2 [] g.commands ∧
    ∀ p q, (Diagram.gitGraph { g with commands := p }).foundBy rule.1 <+:
      (Diagram.gitGraph { g with commands := p ++ q }).foundBy rule.1 := by
  obtain ⟨g, accepted⟩ := exists_of_isOk (x := read (Source.ofText outOfOrder 0)) (by decide +kernel)
  exact ⟨g, accepted, findings_of_commands accepted⟩

end DiagramLint.GitGraph
