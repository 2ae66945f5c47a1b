import DiagramLint.GitGraph
import DiagramLint.Mindmap
import DiagramLint.Proofs.Offset.Checks
import DiagramLint.Proofs.Offset.LineRule

/-!
Git graphs and mindmaps further down in a document.
-/
namespace DiagramLint

open Text
open Placed (shift)

variable {k : Move}

/-! ### Git graphs -/

namespace GitGraph

instance : Placed Command := ⟨fun k c => { c with position := shift k c.position }⟩

instance : Placed GitGraph where
  shift k g := { g with header := shift k g.header, commands := shift k g.commands }

theorem add_shift (commands : List Command) (line : Line) (action : Action) :
    add (shift k commands) (shift k line) action = shift k (add commands line action) :=
  (shift_append commands [⟨action, line.position⟩]).symm

theorem options_shift (line : Line) (t : Text) (allowed : List String) :
    options (shift k line) t allowed = (options line t allowed).mapError (shift k) := by
  unfold options
  split
  · rfl
  · split
    · rfl
    · rfl

theorem commitLine_moves : Moves k commitLine := by
  intro commands line
  unfold commitLine
  rw [text_shift]
  split
  · rfl
  · next rest _ =>
    rw [options_shift]
    cases options line rest ["id", "msg", "tag", "type"] with
    | error e => rfl
    | ok found => exact congrArg take (add_shift ..)

theorem branchOrder_shift (line : Line) (found : List GitOption) :
    branchOrder (shift k line) found = (branchOrder line found).mapError (shift k) := by
  unfold branchOrder
  split
  · rfl
  · split
    · rfl
    · rfl

theorem branchLine_moves : Moves k branchLine := by
  intro commands line
  unfold branchLine
  rw [text_shift]
  split
  · rfl
  · next rest _ =>
    dsimp only
    split
    · rfl
    · rw [options_shift]
      cases options line (nameAndRest rest).2 ["order"] with
      | error e => rfl
      | ok found =>
        show (branchOrder (shift k line) found).map _ = shift k ((branchOrder line found).map _)
        rw [branchOrder_shift]
        cases branchOrder line found with
        | error e => rfl
        | ok order => exact congrArg take (add_shift ..)

theorem checkoutLine_moves : Moves k checkoutLine := by
  intro commands line
  unfold checkoutLine
  rw [text_shift]
  split
  · rfl
  · dsimp only
    split
    · rfl
    · exact congrArg take (add_shift ..)

theorem mergeLine_moves : Moves k mergeLine := by
  intro commands line
  unfold mergeLine
  rw [text_shift]
  split
  · rfl
  · next rest _ =>
    dsimp only
    split
    · rfl
    · rw [options_shift]
      cases options line (nameAndRest rest).2 ["id", "tag", "type"] with
      | error e => rfl
      | ok found => exact congrArg take (add_shift ..)

theorem cherryPickLine_moves : Moves k cherryPickLine := by
  intro commands line
  unfold cherryPickLine
  rw [text_shift]
  split
  · rfl
  · next rest _ =>
    rw [options_shift]
    cases options line rest ["id", "parent"] with
    | error e => rfl
    | ok found =>
      have moved : (Except.ok found : Except ParseError _).mapError (shift k) = .ok found := rfl
      rw [moved]
      dsimp only
      split
      · rfl
      · exact congrArg take (add_shift ..)

theorem rules_move (_ : List Command) : ∀ rule ∈ rules, Moves k rule.read := by
  simp only [rules, List.forall_mem_cons]
  exact ⟨commitLine_moves, branchLine_moves, checkoutLine_moves, mergeLine_moves, cherryPickLine_moves, nofun⟩

theorem headerDirection_shift (header : Line) (rest : Text) :
    headerDirection (shift k header) rest = (headerDirection header rest).mapError (shift k) := by
  unfold headerDirection
  dsimp only
  split
  · rfl
  · split
    · rfl
    · rfl

/-- A git graph is read further down as it is read. -/
theorem read_shift (s : Source) : read (shift k s) = shift k (read s) := by
  unfold read
  rw [headerLine_shift]
  refine result_bind_shift ?_ _
  intro header
  rw [text_shift]
  split
  · rfl
  · next rest _ =>
    rw [headerDirection_shift, body_shift]
    cases headerDirection header rest with
    | error e => rfl
    | ok direction =>
      show (readLines (fun _ => rules) (shift k []) (shift k s.body) >>= _) =
        shift k (readLines (fun _ => rules) [] s.body >>= _)
      rw [readLines_shift rules_move fun _ => rfl]
      refine result_bind_shift ?_ _
      intro commands
      rfl

theorem duplicateBranches_shift (g : GitGraph) : duplicateBranches (shift k g) = shift k (duplicateBranches g) := by
  have start : (Duplicates.empty "branch").reserve mainBranch (shift k g.header.position) =
      shift k ((Duplicates.empty "branch").reserve mainBranch g.header.position) :=
    Duplicates.reserve_shift (.empty "branch") _ _
  unfold duplicateBranches
  show (Duplicates.reserve _ _ (shift k g.header.position)).findings ((shift k g.commands).filterMap _) = _
  rw [start]
  exact Duplicates.findings_filterMap_shift (by intro c; rfl) (by intro c; rfl) _ g.commands

theorem duplicateCommitIds_shift (g : GitGraph) : duplicateCommitIds (shift k g) = shift k (duplicateCommitIds g) :=
  Duplicates.findings_filterMap_shift (by intro c; rfl) (by intro c; rfl) (.empty "commit id") g.commands

/-- A replay of commands that are moved down finds the same, moved down. -/
theorem replay_shift {uses : References → Command → List Finding} {made : Command → Option Text}
    (uses_move : ∀ known c, uses (shift k known) (shift k c) = shift k (uses known c))
    (made_stays : ∀ c, made (shift k c) = made c) (known : References) (commands : List Command) :
    replay uses made (shift k known) (shift k commands) = shift k (replay uses made known commands) := by
  induction commands generalizing known with
  | nil => rfl
  | cons c rest ih =>
    rw [shift_cons]
    unfold replay
    dsimp only
    rw [uses_move, made_stays, shift_append]
    congr 1
    split
    · next name _ =>
      show replay uses made ((shift k known).declare name (shift k c.position)) _ = _
      rw [References.declare_shift]
      exact ih _
    · exact ih known

theorem branchReferences_shift (g : GitGraph) : branchReferences (shift k g) = shift k (branchReferences g) := by
  have uses_move (known : References) (c : Command) :
      branchUses (shift k known) (shift k c) = shift k (branchUses known c) := by
    unfold branchUses
    have action : (shift k c).action = c.action := rfl
    rw [action]
    split
    · rw [← toList_shift, ← References.check_shift]
      rfl
    · rw [← toList_shift, ← References.check_shift]
      rfl
    · rfl
  have start : (References.empty "branch").declare mainBranch (shift k g.header.position) =
      shift k ((References.empty "branch").declare mainBranch g.header.position) :=
    References.declare_shift (.empty "branch") _ _
  unfold branchReferences
  show replay _ _ (References.declare _ _ (shift k g.header.position)) (shift k g.commands) = _
  rw [start]
  refine replay_shift uses_move ?_ _ _
  intro c
  rfl

theorem commitReferences_shift (g : GitGraph) : commitReferences (shift k g) = shift k (commitReferences g) := by
  have uses_move (known : References) (c : Command) :
      commitUses (shift k known) (shift k c) = shift k (commitUses known c) := by
    unfold commitUses
    have action : (shift k c).action = c.action := rfl
    rw [action]
    split
    · next id parent _ =>
      rw [shift_append, ← toList_shift, ← toList_shift, ← References.check_shift]
      cases parent with
      | none => rfl
      | some p =>
        show _ = _ ++ (shift k (known.check p c.position "`cherry-pick` parent")).toList
        rw [← References.check_shift]
        rfl
    · rfl
  refine replay_shift uses_move ?_ (.empty "commit") _
  intro c
  rfl

theorem commitTypes_shift (g : GitGraph) : commitTypes (shift k g) = shift k (commitTypes g) := by
  refine filterMap_shift ?_ g.commands
  intro c
  show c.type?.bind _ = shift k (c.type?.bind _)
  cases c.type? with
  | none => rfl
  | some type => exact Vocabulary.check_shift ..

end GitGraph

/-! ### Mindmaps -/

namespace Mindmap

instance : Placed Node := ⟨fun k n => { n with position := shift k n.position }⟩

namespace Tree

mutual

/-- A tree moved down. -/
def down (k : Move) : Tree → Tree
  | .node value children => .node (shift k value) (downAll k children)

/-- Some trees moved down. -/
def downAll (k : Move) : List Tree → List Tree
  | [] => []
  | tree :: trees => down k tree :: downAll k trees

end

instance : Placed Tree := ⟨down⟩

theorem downAll_eq_shift (trees : List Tree) : downAll k trees = shift k trees := by
  induction trees with
  | nil => rfl
  | cons tree trees ih => exact congrArg (down k tree :: ·) ih

theorem shift_node (value : Node) (children : List Tree) :
    shift k (Tree.node value children) = .node (shift k value) (shift k children) := by
  rw [← downAll_eq_shift]
  rfl

mutual

theorem preorder_shift : (tree : Tree) → preorder (shift k tree) = shift k (preorder tree)
  | .node value children => by
    rw [shift_node, preorder, preorder, preorderAll_shift children]
    rfl

theorem preorderAll_shift : (trees : List Tree) → preorderAll (shift k trees) = shift k (preorderAll trees)
  | [] => rfl
  | tree :: trees => by
    rw [shift_cons, preorderAll, preorderAll, preorder_shift tree, preorderAll_shift trees, shift_append]

end

end Tree

instance : Placed Mindmap where
  shift k m := { m with header := shift k m.header, root := shift k m.root }

instance : Placed Branch where
  shift k b := { b with node := shift k b.node, children := shift k b.children }

theorem tree_shift (b : Branch) : (shift k b).tree = shift k b.tree := (Tree.shift_node ..).symm

/-- The branch with one more tree below it. -/
theorem addTree_shift (parent top : Branch) :
    ({ shift k parent with children := (shift k parent).children ++ [(shift k top).tree] } : Branch) =
      shift k { parent with children := parent.children ++ [top.tree] } := by
  rw [tree_shift]
  exact congrArg (fun children => { shift k parent with children := children }) (shift_append parent.children [top.tree]).symm

theorem decorate_shift {f g : Node → Node} (moves : ∀ n, g (shift k n) = shift k (f n)) (d : Draft) (line : Line) :
    decorate (shift k d) (shift k line) g = shift k (decorate d line f) := by
  cases d with
  | nil => rfl
  | cons top rest => exact congrArg (fun node => take ({ shift k top with node := node } :: shift k rest)) (moves top.node)

theorem closeTo_shift (indent : Nat) (d : Draft) : closeTo indent (shift k d) = shift k (closeTo indent d) := by
  fun_induction closeTo indent d with
  | case1 => rw [shift_nil, closeTo]
  | case2 root => rw [shift_cons, shift_nil, closeTo]
  | case3 top parent rest deep ih =>
    rw [shift_cons, shift_cons, closeTo, addTree_shift, ← shift_cons, ih]
    exact if_pos deep
  | case4 top parent rest shallow =>
    rw [shift_cons, shift_cons, closeTo]
    exact if_neg shallow

theorem iconLine_moves : Moves k iconLine := by
  intro d line
  unfold iconLine
  rw [text_shift]
  split
  · rfl
  · refine decorate_shift ?_ d line
    intro n
    rfl

theorem classLine_moves : Moves k classLine := by
  intro d line
  unfold classLine
  rw [text_shift]
  split
  · rfl
  · refine decorate_shift ?_ d line
    intro n
    rfl

theorem nodeLine_moves : Moves k nodeLine := by
  intro d line
  unfold nodeLine
  dsimp only
  rw [text_shift, indent_shift, closeTo_shift]
  cases closeTo line.indent d with
  | nil => rfl
  | cons top rest =>
    cases rest with
    | nil =>
      show (if line.indent ≤ top.node.indent then _ else _) = shift k (if line.indent ≤ top.node.indent then _ else _)
      split
      · rfl
      · rfl
    | cons parent rest => rfl

theorem rules_move (_ : Draft) : ∀ rule ∈ rules, Moves k rule.read := by
  simp only [rules, List.forall_mem_cons]
  exact ⟨iconLine_moves, classLine_moves, nodeLine_moves, nofun⟩

theorem tree?_shift (d : Draft) : tree? (shift k d) = shift k (tree? d) := by
  fun_induction tree? d with
  | case1 => rw [shift_nil, tree?]; rfl
  | case2 root =>
    rw [shift_cons, shift_nil, tree?, tree_shift]
    rfl
  | case3 top parent rest ih => rw [shift_cons, shift_cons, tree?, addTree_shift, ← shift_cons, ih]

/-- A mindmap is read further down as it is read. -/
theorem read_shift (s : Source) : read (shift k s) = shift k (read s) := by
  refine bareRead_shift rules_move (fun _ => rfl) rfl ?_ "mindmap" s
  intro header draft
  rw [tree?_shift]
  cases tree? draft with
  | none => rfl
  | some root => rfl

theorem duplicateIds_shift (m : Mindmap) : duplicateIds (shift k m) = shift k (duplicateIds m) := by
  have nodes : m.root.preorder.map (shift k) = (shift k m).nodes := (Tree.preorder_shift m.root).symm
  unfold duplicateIds
  rw [← nodes]
  exact Duplicates.findings_filterMap_shift (by intro n; rfl) (by intro n; rfl) (.empty "node id") m.nodes

end Mindmap
end DiagramLint
