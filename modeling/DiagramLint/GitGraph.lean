import DiagramLint.Check.Duplicates
import DiagramLint.Check.References
import DiagramLint.Check.Vocabulary
import DiagramLint.LineRule

/-!
Git graphs: commands in order. A branch or a commit exists from the command that makes it onwards,
and the branch "main" exists from the start.
-/
namespace DiagramLint

open Text

namespace GitGraph

/-- What a command does. -/
inductive Action where
  | commit (id message tag type : Option Text)
  | branch (name : Text) (order : Option Int)
  | checkout (branch : Text)
  | merge (branch : Text) (id tag type : Option Text)
  | cherryPick (id : Text) (parent : Option Text)
  deriving DecidableEq, Repr

/-- A command of a git graph. -/
structure Command where
  action : Action
  position : Position
  deriving DecidableEq, Repr

namespace Command

/-- The id that a command gives to a commit or a merge. -/
def newId? (c : Command) : Option Text :=
  match c.action with
  | .commit id .. => id
  | .merge _ id .. => id
  | _ => none

/-- The branch that a command makes. -/
def newBranch? (c : Command) : Option Text :=
  match c.action with
  | .branch name _ => some name
  | _ => none

/-- The type that a command gives to a commit or a merge. -/
def type? (c : Command) : Option Text :=
  match c.action with
  | .commit _ _ _ type => type
  | .merge _ _ _ type => type
  | _ => none

end Command

end GitGraph

/-- A git graph. -/
structure GitGraph where
  header : Header
  direction : Option Direction
  commands : List GitGraph.Command
  deriving DecidableEq, Repr

namespace GitGraph

/-! ### Options -/

/-- The text without spaces and tabs at its start. -/
def skipSpaces (t : Text) : Text := t.dropWhile fun c => c = ' ' || c = '\t'

theorem length_skipSpaces_le (t : Text) : (skipSpaces t).length ≤ t.length :=
  (List.dropWhile_sublist _).length_le

/-- A character of option keys. -/
def isKeyChar (c : Char) : Bool := isAlphanumeric c || c = '_'

/-- A value in front of a text: what stands between two double quotes, or what comes before the
first blank and is not empty. -/
def valueStart? (t : Text) : Option (Text × Text) :=
  match (dropStart? ['"'] t).bind (cut? ['"']) with
  | some found => some found
  | none =>
    let value := t.takeWhile fun c => !isBlank c
    if value.isEmpty then none else some (value, t.dropWhile fun c => !isBlank c)

/-- An option of a command. -/
structure GitOption where
  key : Text
  value : Text
  deriving DecidableEq, Repr

/-- An option in front of a text: a key, a colon and a value, with spaces around them. -/
def option? (t : Text) : Option (GitOption × Text) :=
  let key := (skipSpaces t).takeWhile isKeyChar
  if key.isEmpty then none
  else match skipSpaces ((skipSpaces t).dropWhile isKeyChar) with
    | ':' :: rest =>
      (valueStart? (skipSpaces rest)).map fun (value, rest) => (⟨key, value⟩, skipSpaces rest)
    | _ => none

theorem length_of_valueStart? {t value rest : Text} (found : valueStart? t = some (value, rest)) :
    rest.length ≤ t.length := by
  rw [valueStart?] at found
  split at found
  · next pair quoted =>
    simp only [Option.some.injEq] at found
    subst found
    obtain ⟨inner, start, close⟩ := Option.bind_eq_some_iff.1 quoted
    have whole := congrArg List.length (append_of_cut? close)
    have := congrArg List.length (dropStart?_eq_some_iff.1 start)
    simp at this whole
    omega
  · dsimp only at found
    split at found
    · simp at found
    · simp only [Option.some.injEq, Prod.mk.injEq] at found
      obtain ⟨_, rfl⟩ := found
      exact (List.dropWhile_sublist _).length_le

theorem length_of_option? {t rest : Text} {o : GitOption} (found : option? t = some (o, rest)) :
    rest.length < t.length := by
  rw [option?] at found
  dsimp only at found
  split at found
  · simp at found
  · split at found
    · next tail colon =>
      obtain ⟨⟨value, r⟩, read, same⟩ := Option.map_eq_some_iff.1 found
      simp only [Prod.mk.injEq] at same
      obtain ⟨_, rfl⟩ := same
      have := length_of_valueStart? read
      have := length_skipSpaces_le r
      have := length_skipSpaces_le tail
      have colonLength := congrArg List.length colon
      have := length_skipSpaces_le ((skipSpaces t).dropWhile isKeyChar)
      have := (List.dropWhile_sublist isKeyChar (l := skipSpaces t)).length_le
      have := length_skipSpaces_le t
      simp only [List.length_cons] at colonLength
      omega
    · simp at found

/-- The options that make up a text. -/
def options? (t : Text) : Option (List GitOption) :=
  match _h : option? t with
  | none => if t.isEmpty then some [] else none
  | some (o, rest) => (options? rest).map (o :: ·)
termination_by t.length
decreasing_by exact length_of_option? (by assumption)

/-- The options that make up a text, all of them with allowed keys. -/
def options (line : Line) (t : Text) (allowed : List String) : Except ParseError (List GitOption) :=
  match options? t with
  | none => .error (line.fail (.optionsMalformed t))
  | some found =>
    match found.find? fun o => !allowed.any fun k => k.toList == o.key with
    | some o => .error (line.fail (.optionUnknown o.key allowed))
    | none => .ok found

/-- The value of the first option with a key. -/
def value? (found : List GitOption) (key : String) : Option Text :=
  (found.find? fun o => o.key == key.toList).map GitOption.value

/-! ### Commands -/

/-- One more command. -/
def add (commands : List Command) (line : Line) (action : Action) : List Command :=
  commands ++ [⟨action, line.position⟩]

/-- A name in front of options: what stands between two double quotes, or what comes before the
first blank. -/
def nameAndRest (t : Text) : Text × Text :=
  match (dropStart? ['"'] t).bind (cut? ['"']) with
  | some found => found
  | none => (cutBlank? t).getD (t, [])

/-- A commit with options. -/
def commitLine (commands : List Command) (line : Line) : Taken (List Command) :=
  match afterKeyword? "commit" line.text with
  | none => pass
  | some rest =>
    (options line rest ["id", "msg", "tag", "type"]).map fun found =>
      some (add commands line (.commit
        (value? found "id") (value? found "msg") (value? found "tag") (value? found "type")))

/-- The order of a branch among its options. -/
def branchOrder (line : Line) (found : List GitOption) : Except ParseError (Option Int) :=
  match value? found "order" with
  | none => .ok none
  | some order =>
    match Integer.read? order with
    | some n => .ok (some n)
    | none => .error (line.fail (.branchOrderInvalid order))

/-- A new branch with a name. -/
def branchLine (commands : List Command) (line : Line) : Taken (List Command) :=
  match afterKeyword? "branch" line.text with
  | none => pass
  | some rest =>
    let (name, rest) := nameAndRest rest
    if name.isEmpty then .error (line.fail .branchUnnamed)
    else match options line rest ["order"] with
      | .error e => .error e
      | .ok found =>
        (branchOrder line found).map fun order => some (add commands line (.branch name order))

/-- What follows either word for changing to another branch. -/
def afterCheckout? (t : Text) : Option Text :=
  match afterKeyword? "checkout" t with
  | some rest => some rest
  | none => afterKeyword? "switch" t

/-- A change to another branch. -/
def checkoutLine (commands : List Command) (line : Line) : Taken (List Command) :=
  match afterCheckout? line.text with
  | none => pass
  | some rest =>
    let branch := unquote rest
    if branch.isEmpty || branch.any isBlank then .error (line.fail .checkoutInvalid)
    else take (add commands line (.checkout branch))

/-- A merge of another branch. -/
def mergeLine (commands : List Command) (line : Line) : Taken (List Command) :=
  match afterKeyword? "merge" line.text with
  | none => pass
  | some rest =>
    let (branch, rest) := nameAndRest rest
    if branch.isEmpty then .error (line.fail .mergeUnnamed)
    else (options line rest ["id", "tag", "type"]).map fun found =>
      some (add commands line
        (.merge branch (value? found "id") (value? found "tag") (value? found "type")))

/-- A commit picked by its id. -/
def cherryPickLine (commands : List Command) (line : Line) : Taken (List Command) :=
  match afterKeyword? "cherry-pick" line.text with
  | none => pass
  | some rest =>
    match options line rest ["id", "parent"] with
    | .error e => .error e
    | .ok found =>
      match value? found "id" with
      | none => .error (line.fail .cherryPickUnnamed)
      | some id => take (add commands line (.cherryPick id (value? found "parent")))

/-- The rules for the lines of a git graph. -/
def rules : List (LineRule (List Command)) :=
  [⟨"commit", commitLine⟩, ⟨"branch", branchLine⟩, ⟨"checkout", checkoutLine⟩,
   ⟨"merge", mergeLine⟩, ⟨"cherry-pick", cherryPickLine⟩]

/-- The direction behind the keyword of the header line, where colons at the end do not matter. -/
def headerDirection (header : Line) (rest : Text) : Except ParseError (Option Direction) :=
  let word := trim (dropTrailing ':' rest)
  if word.isEmpty then .ok none
  else match [Direction.leftRight, .topBottom, .bottomTop].find? fun d => d.name.toList == word with
    | some d => .ok (some d)
    | none => .error ((Fault.headerModifier "gitGraph" word).at header.position)

/-- The git graph of a source. A colon may follow the keyword of the header line. -/
def read (s : Source) : Except ParseError GitGraph := do
  let header ← s.headerLine
  match afterKeywordColon? "gitGraph" header.text with
  | none => .error ((Fault.headerMismatch ["gitGraph"] header.text).at header.position)
  | some rest => do
    let direction ← headerDirection header rest
    let commands ← readLines (fun _ => rules) [] s.body
    .ok ⟨s.header .gitGraph header, direction, commands⟩

/-! ### Checks -/

/-- The branch that every graph starts on. -/
def mainBranch : Text := "main".toList

/-- Branches with a name that an earlier branch has, or that of the branch at the start. -/
def duplicateBranches (g : GitGraph) : List Finding :=
  ((Duplicates.empty "branch").reserve mainBranch g.header.position).findings
    (g.commands.filterMap fun c => c.newBranch?.map fun name => (name, c.position))

/-- Commits and merges with an id that an earlier one has. -/
def duplicateCommitIds (g : GitGraph) : List Finding :=
  (Duplicates.empty "commit id").findings
    (g.commands.filterMap fun c => c.newId?.map fun id => (id, c.position))

/-- The findings of a replay of commands: what each command uses is checked before what it makes is
declared. -/
def replay (uses : References → Command → List Finding) (made : Command → Option Text)
    (known : References) : List Command → List Finding
  | [] => []
  | c :: rest =>
    let known' := match made c with
      | some name => known.declare name c.position
      | none => known
    uses known c ++ replay uses made known' rest

/-- The uses of branches that do not exist. -/
def branchUses (known : References) (c : Command) : List Finding :=
  match c.action with
  | .checkout branch => (known.check branch c.position "`checkout`").toList
  | .merge branch .. => (known.check branch c.position "`merge`").toList
  | _ => []

/-- Branches that are used before they exist. -/
def branchReferences (g : GitGraph) : List Finding :=
  replay branchUses Command.newBranch?
    ((References.empty "branch").declare mainBranch g.header.position) g.commands

/-- The uses of commits that do not exist. -/
def commitUses (known : References) (c : Command) : List Finding :=
  match c.action with
  | .cherryPick id parent =>
    (known.check id c.position "`cherry-pick`").toList ++
      (parent.bind fun p => known.check p c.position "`cherry-pick` parent").toList
  | _ => []

/-- Commits that are picked before they exist. -/
def commitReferences (g : GitGraph) : List Finding :=
  replay commitUses Command.newId? (References.empty "commit") g.commands

/-- The types of commits. -/
def commitType : Vocabulary := ⟨"commit type", ["NORMAL", "REVERSE", "HIGHLIGHT"]⟩

/-- Commits and merges of an unknown type. -/
def commitTypes (g : GitGraph) : List Finding :=
  g.commands.filterMap fun c =>
    c.type?.bind fun type => commitType.check type c.position

end GitGraph
end DiagramLint
