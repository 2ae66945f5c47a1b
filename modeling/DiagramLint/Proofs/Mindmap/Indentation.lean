import DiagramLint.Mindmap
import DiagramLint.Proofs.Coverage.Basic
import DiagramLint.Proofs.LineRule
import DiagramLint.Proofs.Results
import DiagramLint.Proofs.Text.Keywords

/-!
Mindmaps and indentation. A body is read exactly when its first line is a node and every later node
is indented more than that one. The map then holds one node for each line that is no decoration, in
the order of the lines, and the parent of a node is the nearest node before it that is indented less
(`read_by_indentation`).
-/
namespace DiagramLint.Mindmap

open Text

/-! ### Lines -/

/-- The icon that a line sets; the inner one is missing where the line takes an icon away. -/
def icon? (line : Line) : Option (Option Text) := (between? "::icon(".toList [')'] line.text).map trimmed?

/-- The style class that a line sets; the inner one is missing where the line takes a class away. -/
def styleClass? (line : Line) : Option (Option Text) := (dropStart? ":::".toList line.text).map trimmed?

/-- The line sets an icon or a style class; every other line is a node. -/
def isDecoration (line : Line) : Bool := (icon? line).isSome || (styleClass? line).isSome

/-- The lines that are nodes. -/
def nodeLines (lines : List Line) : List Line := lines.filter fun line => !isDecoration line

/-- The node with decorations: of each sort the last one counts. -/
def Node.decorated (n : Node) (decorations : List Line) : Node :=
  { n with
    icon := (decorations.filterMap icon?).getLast?.getD n.icon
    styleClass := (decorations.filterMap styleClass?).getLast?.getD n.styleClass }

/-- The node of a line, before any decoration. -/
def Node.ofLine (line : Line) : Node :=
  ⟨(caption line.text).id, (caption line.text).text, (caption line.text).shape, none, none, line.indent, line.position⟩

/-- The nodes of some lines, each with the decorations that stand between it and the next one. -/
def outline : List Line → List Node
  | [] => []
  | line :: rest =>
    if isDecoration line then outline rest
    else (Node.ofLine line).decorated (rest.takeWhile isDecoration) :: outline rest

/-- Each node with the nearest node before it that is indented less; `before` are the nodes in front,
the last one first. -/
def withParents (before : List Node) : List Node → List (Option Node × Node)
  | [] => []
  | n :: rest => (before.find? fun m => m.indent < n.indent, n) :: withParents (n :: before) rest

theorem styleClass?_of_icon? {line : Line} {icon : Option Text} (found : icon? line = some icon) :
    styleClass? line = none := by
  obtain ⟨inner, between, -⟩ := Option.map_eq_some_iff.mp found
  obtain ⟨rest, start, -⟩ := Option.bind_eq_some_iff.mp between
  have apart := not_prefix_of_apart (b := ":::".toList) (prefix_of_dropStart? start) (by decide)
  cases class_start : dropStart? ":::".toList line.text with
  | none => rw [styleClass?, class_start, Option.map_none]
  | some rest => exact absurd (prefix_of_dropStart? class_start) apart

theorem outline_places (lines : List Line) :
    (outline lines).map (fun n => (n.position, n.indent)) =
      (nodeLines lines).map fun line => (line.position, line.indent) := by
  induction lines with
  | nil => rfl
  | cons line rest ih =>
    by_cases decoration : isDecoration line
    · simpa [outline, nodeLines, decoration] using ih
    · simpa [outline, nodeLines, decoration, Node.decorated, Node.ofLine] using ih

theorem exists_line_of_mem_outline {lines : List Line} {n : Node} (member : n ∈ outline lines) :
    ∃ line ∈ nodeLines lines, line.indent = n.indent := by
  have place := List.mem_map_of_mem (f := fun n => (n.position, n.indent)) member
  rw [outline_places] at place
  obtain ⟨line, inside, same⟩ := List.mem_map.mp place
  exact ⟨line, inside, congrArg Prod.snd same⟩

@[simp] theorem decorated_indent (n : Node) (lines : List Line) : (n.decorated lines).indent = n.indent := rfl

@[simp] theorem decorated_nil (n : Node) : n.decorated [] = n := rfl

theorem decorated_cons_icon {line : Line} {icon : Option Text} (found : icon? line = some icon) (n : Node)
    (lines : List Line) : n.decorated (line :: lines) = { n with icon := icon }.decorated lines := by
  simp [Node.decorated, found, styleClass?_of_icon? found, List.getLast?_cons]

theorem decorated_cons_class {line : Line} {name : Option Text} (uniconed : icon? line = none)
    (found : styleClass? line = some name) (n : Node) (lines : List Line) :
    n.decorated (line :: lines) = { n with styleClass := name }.decorated lines := by
  simp [Node.decorated, found, uniconed, List.getLast?_cons]

theorem withParents_append (before first second : List Node) :
    withParents before (first ++ second) =
      withParents before first ++ withParents (first.reverse ++ before) second := by
  induction first generalizing before with
  | nil => rfl
  | cons n first ih => simp [withParents, ih]

/-! ### Trees -/

namespace Tree

/-- The node at the root. -/
def value : Tree → Node
  | .node value _ => value

mutual

/-- The nodes of a tree with their parents, each before the nodes below it. -/
def links (parent : Option Node) : Tree → List (Option Node × Node)
  | .node value children => (parent, value) :: linksAll (some value) children

/-- The nodes of some trees with their parents, tree by tree. -/
def linksAll (parent : Option Node) : List Tree → List (Option Node × Node)
  | [] => []
  | tree :: trees => links parent tree ++ linksAll parent trees

end

theorem linksAll_append (parent : Option Node) (first second : List Tree) :
    linksAll parent (first ++ second) = linksAll parent first ++ linksAll parent second := by
  induction first with
  | nil => simp [linksAll]
  | cons tree first ih => simp [linksAll, ih]

mutual

theorem links_nodes (parent : Option Node) (t : Tree) : (t.links parent).map Prod.snd = t.preorder := by
  cases t with
  | node value children => simp [links, preorder, linksAll_nodes (some value) children]

theorem linksAll_nodes (parent : Option Node) (ts : List Tree) : (linksAll parent ts).map Prod.snd = preorderAll ts := by
  cases ts with
  | nil => rfl
  | cons t ts => simp [linksAll, preorderAll, links_nodes parent t, linksAll_nodes parent ts]

end

end Tree

/-! ### Drafts -/

/-- The nodes of a draft with their parents, in the order in which the finished tree has them. -/
def Draft.links : Draft → List (Option Node × Node)
  | [] => []
  | top :: below =>
    Draft.links below ++ (below.head?.map Branch.node, top.node) :: Tree.linksAll (some top.node) top.children

/-- Nothing changes in the nodes and their parents when the last branch is finished. -/
theorem links_finish (top parent : Branch) (rest : Draft) :
    Draft.links ({ parent with children := parent.children ++ [top.tree] } :: rest) =
      Draft.links (top :: parent :: rest) := by
  simp [Draft.links, Tree.linksAll_append, Tree.linksAll, Tree.links, Branch.tree]

theorem links_closeTo (indent : Nat) (d : Draft) : (closeTo indent d).links = d.links := by
  fun_induction closeTo indent d with
  | case1 => rfl
  | case2 root => rfl
  | case3 top parent rest _ ih => rw [ih, links_finish]
  | case4 top parent rest _ => rfl

/-- The branches that are left are those from the nearest branch that is indented less, if there is
one. -/
theorem nodes_closeTo {indent : Nat} {d : Draft} (some_less : ∃ b ∈ d, b.node.indent < indent) :
    (closeTo indent d).map Branch.node = (d.map Branch.node).dropWhile fun n => indent ≤ n.indent := by
  fun_induction closeTo indent d with
  | case1 => simp at some_less
  | case2 root => simp_all
  | case3 top parent rest deep ih =>
    rw [ih (by simpa [Nat.not_lt.mpr deep] using some_less)]
    simp [deep]
  | case4 top parent rest shallow => simp [shallow]

/-- Where no branch is indented less, the root alone is left. -/
theorem closeTo_none {indent : Nat} {d : Draft} (filled : d ≠ []) (none_less : ∀ b ∈ d, indent ≤ b.node.indent) :
    ∃ root, closeTo indent d = [root] ∧ indent ≤ root.node.indent := by
  fun_induction closeTo indent d with
  | case1 => exact absurd rfl filled
  | case2 root => exact ⟨root, rfl, none_less root (by simp)⟩
  | case3 top parent rest deep ih => exact ih (by simp) (by simp_all)
  | case4 top parent rest shallow => exact absurd (none_less top (by simp)) shallow

theorem exists_tree {d : Draft} (filled : d ≠ []) : ∃ t, tree? d = some t ∧ t.links none = d.links := by
  fun_induction tree? d with
  | case1 => exact absurd rfl filled
  | case2 root => exact ⟨root.tree, rfl, by simp [Branch.tree, Tree.links, Draft.links]⟩
  | case3 top parent rest ih =>
    obtain ⟨t, made, same⟩ := ih (by simp)
    exact ⟨t, made, same.trans (links_finish top parent rest)⟩

/-! ### What a line does -/

theorem iconLine_eq (d : Draft) (line : Line) :
    iconLine d line = (icon? line).elim pass fun icon => decorate d line fun n => { n with icon := icon } := by
  unfold iconLine icon?
  cases between? "::icon(".toList [')'] line.text <;> rfl

theorem classLine_eq (d : Draft) (line : Line) :
    classLine d line = (styleClass? line).elim pass fun name => decorate d line fun n => { n with styleClass := name } := by
  unfold classLine styleClass?
  cases dropStart? ":::".toList line.text <;> rfl

theorem readLine_icon {line : Line} {icon : Option Text} (found : icon? line = some icon) (top : Branch) (rest : Draft) :
    readLine rules (top :: rest) line = .ok ({ top with node := { top.node with icon := icon } } :: rest) := by
  simp [readLine, rules, firstTaking, iconLine_eq, found, decorate, take]

theorem readLine_class {line : Line} {name : Option Text} (uniconed : icon? line = none)
    (found : styleClass? line = some name) (top : Branch) (rest : Draft) :
    readLine rules (top :: rest) line = .ok ({ top with node := { top.node with styleClass := name } } :: rest) := by
  simp [readLine, rules, firstTaking, iconLine_eq, classLine_eq, uniconed, found, pass, decorate, take]

theorem readLine_stray {line : Line} (decoration : isDecoration line = true) :
    readLine rules [] line = .error (line.fail .decorationStray) := by
  cases uniconed : icon? line with
  | some icon => simp [readLine, rules, firstTaking, iconLine_eq, uniconed, decorate]
  | none =>
    obtain ⟨name, found⟩ : ∃ name, styleClass? line = some name := by
      simpa [isDecoration, uniconed, Option.isSome_iff_exists] using decoration
    simp [readLine, rules, firstTaking, iconLine_eq, classLine_eq, uniconed, found, pass, decorate]

theorem head_closeTo {indent : Nat} {d : Draft} (some_less : ∃ b ∈ d, b.node.indent < indent) {b : Branch}
    (head : (closeTo indent d).head? = some b) : b.node.indent < indent := by
  have first := List.head?_dropWhile_not (fun n : Node => decide (indent ≤ n.indent)) (d.map Branch.node)
  rw [← nodes_closeTo some_less, List.head?_map, head] at first
  simpa using first

theorem firstTaking_node {line : Line} (spoken : isDecoration line = false) (d : Draft) :
    firstTaking d line rules = nodeLine d line := by
  have uniconed : icon? line = none := by simp_all [isDecoration]
  have unclassed : styleClass? line = none := by simp_all [isDecoration]
  simp only [rules, firstTaking, iconLine_eq, classLine_eq, uniconed, unclassed, Option.elim_none, pass]
  split <;> simp_all

/-- A node that is indented more than some branch goes under the nearest of those. -/
theorem readLine_deeper {line : Line} (spoken : isDecoration line = false) {d : Draft}
    (some_less : ∃ b ∈ d, b.node.indent < line.indent) :
    readLine rules d line = .ok (⟨.ofLine line, []⟩ :: closeTo line.indent d) := by
  rw [readLine_eq_ok_iff, firstTaking_node spoken, nodeLine]
  split
  · next root closed =>
    have less := head_closeTo some_less (b := root) (by rw [closed]; rfl)
    rw [if_neg (by omega), closed]
    rfl
  · rfl

theorem readLine_root {line : Line} (spoken : isDecoration line = false) :
    readLine rules [] line = .ok [⟨.ofLine line, []⟩] := by
  rw [readLine_eq_ok_iff, firstTaking_node spoken, nodeLine, closeTo]
  rfl

/-- A node that is indented no more than any branch would be a second root. -/
theorem readLine_outdented {line : Line} (spoken : isDecoration line = false) {d : Draft} (filled : d ≠ [])
    (none_less : ∀ b ∈ d, line.indent ≤ b.node.indent) :
    readLine rules d line = .error (line.fail (.rootRepeated (caption line.text).text)) := by
  obtain ⟨root, closed, outdented⟩ := closeTo_none filled none_less
  have refused : firstTaking d line rules = .error (line.fail (.rootRepeated (caption line.text).text)) := by
    simp [firstTaking_node spoken, nodeLine, closed, outdented]
  simp [readLine, refused]

/-! ### Nearest nodes -/

theorem find?_dropWhile {α : Type} {p q : α → Bool} (apart : ∀ a, p a = true → q a = false) (as : List α) :
    (as.dropWhile p).find? q = as.find? q := by
  induction as with
  | nil => rfl
  | cons a as ih =>
    by_cases dropped : p a
    · simp [dropped, apart a dropped, ih]
    · simp [dropped]

/-- The branches below the last node, whose indentation is given, stand for the `older` nodes, the last
one first: they hold all of them, and whoever is indented no more than the last node finds among them
the nearest older node that is indented less. -/
structure StandsFor (below : Draft) (indent : Nat) (older : List Node) : Prop where
  links : below.links = withParents [] older.reverse
  nearest : ∀ width ≤ indent,
    (below.map Branch.node).find? (fun m => m.indent < width) = older.find? fun m => m.indent < width
  shallower : ∀ b, below.head? = some b → b.node.indent < indent

namespace StandsFor

variable {below : Draft} {n : Node} {older : List Node}

theorem nil (indent : Nat) : StandsFor [] indent [] := ⟨rfl, fun _ _ => rfl, nofun⟩

/-- With the last node on top, everybody finds the nearest node that is indented less. -/
theorem nearest_top (stands : StandsFor below n.indent older) (width : Nat) :
    (n :: below.map Branch.node).find? (fun m => m.indent < width) =
      (n :: older).find? fun m => m.indent < width := by
  by_cases less : n.indent < width
  · simp [less]
  · simpa [less] using stands.nearest width (by omega)

/-- The parent of the last node is the nearest older node that is indented less. -/
theorem parent (stands : StandsFor below n.indent older) :
    below.head?.map Branch.node = older.find? fun m => m.indent < n.indent := by
  rw [← stands.nearest n.indent (Nat.le_refl _)]
  cases below with
  | nil => rfl
  | cons b below => simp [stands.shallower b rfl]

theorem links_top (stands : StandsFor below n.indent older) :
    Draft.links (⟨n, []⟩ :: below) = withParents [] (n :: older).reverse := by
  simp [Draft.links, Tree.linksAll, stands.links, stands.parent, withParents_append, withParents]

theorem exists_less (stands : StandsFor below n.indent older) {width : Nat} (less : ∃ m ∈ n :: older, m.indent < width) :
    ∃ b ∈ (⟨n, []⟩ :: below : Draft), b.node.indent < width := by
  have found : ((n :: below.map Branch.node).find? fun m => m.indent < width).isSome := by
    rw [stands.nearest_top width, List.find?_isSome]
    simpa using less
  rw [List.find?_isSome] at found
  simpa using found

theorem none_less (stands : StandsFor below n.indent older) {width : Nat}
    (none_less : ∀ m ∈ n :: older, width ≤ m.indent) :
    ∀ b ∈ (⟨n, []⟩ :: below : Draft), width ≤ b.node.indent := by
  have missing : (n :: below.map Branch.node).find? (fun m => m.indent < width) = none := by
    rw [stands.nearest_top width, List.find?_eq_none]
    simpa using none_less
  rw [List.find?_eq_none] at missing
  simpa using missing

/-- Behind the last node comes one that is indented more than some node. -/
theorem next (stands : StandsFor below n.indent older) {width : Nat} (less : ∃ m ∈ n :: older, m.indent < width) :
    StandsFor (closeTo width (⟨n, []⟩ :: below)) width (n :: older) := by
  have some_less := stands.exists_less less
  refine ⟨?_, ?_, ?_⟩
  · rw [links_closeTo, stands.links_top]
  · intro w narrow
    rw [nodes_closeTo some_less, ← stands.nearest_top w]
    -- the branches that are finished are indented too much for any later search
    exact find?_dropWhile (by intro m deep; simp at deep ⊢; omega) _
  · intro b head
    exact head_closeTo some_less head

end StandsFor

/-! ### Bodies -/

/-- Lines behind a node are read if all nodes among them are indented more than the least indented
node in front, and then the draft holds those nodes too. -/
theorem readLines_indented {lines : List Line} {n : Node} {below : Draft} {older : List Node} {least : Nat}
    (stands : StandsFor below n.indent older) (root : ∃ m ∈ n :: older, m.indent ≤ least)
    (deeper : ∀ line ∈ nodeLines lines, least < line.indent) :
    ∃ n' below' older', readLines (fun _ => rules) (⟨n, []⟩ :: below) lines = .ok (⟨n', []⟩ :: below') ∧
      StandsFor below' n'.indent older' ∧
      (n' :: older').reverse = older.reverse ++ n.decorated (lines.takeWhile isDecoration) :: outline lines := by
  -- A decoration changes the last node alone, so the branches below it stand for the same nodes. A node
  -- comes on top, and the last node becomes one of the older ones.
  induction lines generalizing n below older with
  | nil => exact ⟨n, below, older, rfl, stands, by simp [outline]⟩
  | cons line rest ih =>
    by_cases decoration : isDecoration line
    · have deeper_rest : ∀ line ∈ nodeLines rest, least < line.indent := by
        simpa [nodeLines, decoration] using deeper
      cases iconed : icon? line with
      | some icon =>
        obtain ⟨n', below', older', run, stands', held⟩ :=
          ih (n := { n with icon := icon }) stands (by simpa using root) deeper_rest
        refine ⟨n', below', older', ?_, stands', ?_⟩
        · rw [readLines_cons_ok (readLine_icon iconed _ _), run]
        · rw [held]
          simp [outline, decoration, decorated_cons_icon iconed]
      | none =>
        obtain ⟨name, classed⟩ : ∃ name, styleClass? line = some name := by
          simpa [isDecoration, iconed, Option.isSome_iff_exists] using decoration
        obtain ⟨n', below', older', run, stands', held⟩ :=
          ih (n := { n with styleClass := name }) stands (by simpa using root) deeper_rest
        refine ⟨n', below', older', ?_, stands', ?_⟩
        · rw [readLines_cons_ok (readLine_class iconed classed _ _), run]
        · rw [held]
          simp [outline, decoration, decorated_cons_class iconed classed]
    · have spoken : isDecoration line = false := by simpa using decoration
      have deep : least < line.indent := deeper line (by simp [nodeLines, spoken])
      obtain ⟨m, member, shallow⟩ := root
      have less : ∃ m ∈ n :: older, m.indent < line.indent := ⟨m, member, by omega⟩
      have deeper_rest : ∀ line ∈ nodeLines rest, least < line.indent := by
        intro l inside
        exact deeper l (by simp_all [nodeLines])
      obtain ⟨n', below', older', run, stands', held⟩ :=
        ih (n := .ofLine line) (stands.next less) ⟨m, List.mem_cons_of_mem _ member, shallow⟩ deeper_rest
      refine ⟨n', below', older', ?_, stands', ?_⟩
      · exact (readLines_cons_ok (readLine_deeper spoken (stands.exists_less less))).trans run
      · rw [held]
        simp [outline, spoken]

/-- Lines are told by their indentation: the first one is a node, and every later node is indented more
than it. -/
structure WellIndented (lines : List Line) : Prop where
  /-- No decoration stands before the first node. -/
  undecorated : lines.takeWhile isDecoration = []
  /-- There is a first node, and it is indented least. -/
  one_root : ∃ root later, nodeLines lines = root :: later ∧ ∀ line ∈ later, root.indent < line.indent

/-- A body that does not begin with a decoration begins with its first node, if it has one. -/
theorem cons_of_undecorated {lines later : List Line} {root : Line} (undecorated : lines.takeWhile isDecoration = [])
    (nodes : nodeLines lines = root :: later) :
    ∃ rest, lines = root :: rest ∧ isDecoration root = false ∧ nodeLines rest = later := by
  cases lines with
  | nil => simp [nodeLines] at nodes
  | cons line rest =>
    have spoken : isDecoration line = false := by
      by_contra decoration
      simp [decoration] at undecorated
    simp only [nodeLines, spoken, Bool.not_false, List.filter_cons_of_pos, List.cons.injEq] at nodes
    obtain ⟨rfl, rfl⟩ := nodes
    exact ⟨rest, rfl, spoken, rfl⟩

/-- The nodes of a map are told by the lines of its body. -/
structure FollowsIndentation (lines : List Line) (m : Mindmap) : Prop where
  /-- The nodes are the lines that are no decorations, in order. -/
  places : m.nodes.map (fun n => (n.position, n.indent)) =
    (nodeLines lines).map fun line => (line.position, line.indent)
  /-- Each node has what its line says and what the decorations behind it set. -/
  nodes : m.nodes = outline lines
  root : some m.root.value.position = (nodeLines lines).head?.map Line.position
  /-- The parent of a node is the nearest node before it that is indented less. -/
  parents : m.root.links none = withParents [] m.nodes

theorem withParents_nodes (before nodes : List Node) : (withParents before nodes).map Prod.snd = nodes := by
  induction nodes generalizing before with
  | nil => rfl
  | cons n nodes ih => simp [withParents, ih]

theorem Tree.head?_preorder (t : Tree) : t.preorder.head? = some t.value := by
  cases t with
  | node value children => simp [preorder, Tree.value]

/-- A body that is well indented is read, with the nodes and parents that its lines tell. -/
theorem readLines_wellIndented {lines : List Line} (indented : WellIndented lines) :
    ∃ d t, readLines (fun _ => rules) [] lines = .ok d ∧ tree? d = some t ∧
      t.links none = withParents [] (outline lines) := by
  obtain ⟨undecorated, root, later, nodes, deeper⟩ := indented
  obtain ⟨rest, rfl, spoken, rfl⟩ := cons_of_undecorated undecorated nodes
  obtain ⟨n, below, older, run, stands, held⟩ := readLines_indented (n := .ofLine root) (.nil _)
    ⟨_, List.mem_cons_self, Nat.le_refl _⟩ deeper
  obtain ⟨t, made, links⟩ := exists_tree (d := ⟨n, []⟩ :: below) (by simp)
  refine ⟨_, t, (readLines_cons_ok (readLine_root spoken)).trans run, made, ?_⟩
  rw [links, stands.links_top, held]
  simp [outline, spoken]

theorem follows_of_links {lines : List Line} {m : Mindmap} (links : m.root.links none = withParents [] (outline lines)) :
    FollowsIndentation lines m := by
  have nodes : m.nodes = outline lines := by
    rw [Mindmap.nodes, ← Tree.links_nodes none, links, withParents_nodes]
  refine ⟨?_, nodes, ?_, ?_⟩
  · rw [nodes, outline_places]
  · have head := congrArg List.head? (outline_places lines)
    rw [← nodes, Mindmap.nodes, List.head?_map, Tree.head?_preorder, List.head?_map] at head
    simpa [Function.comp_def] using congrArg (Option.map Prod.fst) head
  · rw [links, nodes]

theorem readLines_stray {lines : List Line} {stray : Line} (first : (lines.takeWhile isDecoration).head? = some stray) :
    readLines (fun _ => rules) [] lines = .error (stray.fail .decorationStray) := by
  cases lines with
  | nil => simp at first
  | cons line rest =>
    by_cases decoration : isDecoration line
    · obtain rfl : line = stray := by simpa [decoration] using first
      exact readLines_cons_error (readLine_stray decoration)
    · simp [decoration] at first

/-- The first node behind the root that is not indented more is at fault. -/
theorem readLines_outdented {lines later : List Line} {root bad : Line} (undecorated : lines.takeWhile isDecoration = [])
    (nodes : nodeLines lines = root :: later) (outdented : later.find? (fun line => line.indent ≤ root.indent) = some bad) :
    readLines (fun _ => rules) [] lines = .error (bad.fail (.rootRepeated (caption bad.text).text)) := by
  obtain ⟨rest, rfl, spoken, rfl⟩ := cons_of_undecorated undecorated nodes
  obtain ⟨shallow, between, behind, split, deep⟩ := List.find?_eq_some_iff_append.mp outdented
  obtain ⟨front, back, rfl, front_nodes, back_nodes⟩ := List.filter_eq_append_iff.mp split
  obtain ⟨decorations, after, rfl, silent, speaks, -⟩ := List.filter_eq_cons_iff.mp back_nodes
  have deeper : ∀ line ∈ nodeLines (front ++ decorations), root.indent < line.indent := by
    intro line inside
    rw [nodeLines, List.filter_append, front_nodes, List.filter_eq_nil_iff.mpr silent, List.append_nil] at inside
    simpa using deep line inside
  obtain ⟨n, below, older, run, stands, held⟩ := readLines_indented (n := .ofLine root) (.nil _)
    ⟨_, List.mem_cons_self, Nat.le_refl _⟩ deeper
  have none_less : ∀ m ∈ n :: older, bad.indent ≤ m.indent := by
    intro m member
    have shallow : bad.indent ≤ root.indent := by simpa using shallow
    rw [← List.mem_reverse, held, List.reverse_nil, List.nil_append, List.mem_cons] at member
    rcases member with rfl | member
    · exact shallow
    · obtain ⟨line, inside, same⟩ := exists_line_of_mem_outline member
      have := deeper line inside
      omega
  rw [readLines_cons_ok (readLine_root spoken), ← List.append_assoc, readLines_append run]
  exact readLines_cons_error (readLine_outdented (by simpa using speaks) (by simp) (stands.none_less none_less))

/-! ### Sources -/

theorem read_of_lines {s : Source} {header : Line} {d : Draft} {t : Tree} (bare : s.bareHeader "mindmap" = .ok header)
    (run : readLines (fun _ => rules) [] s.body = .ok d) (made : tree? d = some t) :
    read s = .ok ⟨s.header .mindmap header, t⟩ := by
  simp [read, bare, run, made, bind, Except.bind]

theorem read_of_fault {s : Source} {header : Line} {e : ParseError} (bare : s.bareHeader "mindmap" = .ok header)
    (stopped : readLines (fun _ => rules) [] s.body = .error e) : read s = .error e := by
  simp [read, bare, stopped, bind, Except.bind]

theorem wellIndented_of_readLines {lines : List Line} {d : Draft} {t : Tree}
    (run : readLines (fun _ => rules) [] lines = .ok d) (made : tree? d = some t) : WellIndented lines := by
  have undecorated : lines.takeWhile isDecoration = [] := by
    cases front : lines.takeWhile isDecoration with
    | nil => rfl
    | cons stray _ =>
      have first : (lines.takeWhile isDecoration).head? = some stray := by rw [front, List.head?_cons]
      rw [readLines_stray first] at run
      cases run
  refine ⟨undecorated, ?_⟩
  cases nodes : nodeLines lines with
  | nil =>
    -- without nodes and without decorations there are no lines, and nothing is no tree
    cases lines with
    | nil =>
      obtain rfl : [] = d := Except.ok.inj run
      simp [tree?] at made
    | cons line rest =>
      by_cases decoration : isDecoration line
      · simp [decoration] at undecorated
      · simp [nodeLines, decoration] at nodes
  | cons root later =>
    refine ⟨root, later, rfl, ?_⟩
    cases outdented : later.find? (fun line => line.indent ≤ root.indent) with
    | none => simpa using outdented
    | some bad =>
      rw [readLines_outdented undecorated nodes outdented] at run
      cases run

/-- A mindmap is read exactly when its header is bare, its first line is a node and every later node is
indented more; it then follows the indentation of its lines. A decoration in front of the first node is
a malformed line, and otherwise the first node that is not indented more is a second root. -/
theorem read_by_indentation (s : Source) :
    ((∃ m, read s = .ok m) ↔ (∃ header, s.bareHeader "mindmap" = .ok header) ∧ WellIndented s.body) ∧
      (∀ m, read s = .ok m → FollowsIndentation s.body m) ∧
      ∀ header, s.bareHeader "mindmap" = .ok header →
        (∀ stray, (s.body.takeWhile isDecoration).head? = some stray →
          ∃ e, read s = .error e ∧ e.code = .e100 ∧ e.position = stray.position) ∧
        (s.body.takeWhile isDecoration = [] → ∀ root later bad, nodeLines s.body = root :: later →
          later.find? (fun line => line.indent ≤ root.indent) = some bad →
          ∃ e, read s = .error e ∧ e.code = .e203 ∧ e.position = bad.position) := by
  have parts : ∀ m, read s = .ok m → (∃ header, s.bareHeader "mindmap" = .ok header) ∧
      ∃ d, readLines (fun _ => rules) [] s.body = .ok d ∧ tree? d = some m.root := by
    intro m accepted
    obtain ⟨header, bare, accepted⟩ := exists_of_bind_ok accepted
    obtain ⟨d, run, accepted⟩ := exists_of_bind_ok accepted
    cases made : tree? d with
    | none => simp [made] at accepted
    | some t =>
      obtain rfl : ⟨s.header .mindmap header, t⟩ = m := by simpa [made] using accepted
      exact ⟨⟨header, bare⟩, d, run, made⟩
  refine ⟨⟨?_, ?_⟩, ?_, ?_⟩
  · rintro ⟨m, accepted⟩
    obtain ⟨bare, d, run, made⟩ := parts m accepted
    exact ⟨bare, wellIndented_of_readLines run made⟩
  · rintro ⟨⟨header, bare⟩, indented⟩
    obtain ⟨d, t, run, made, -⟩ := readLines_wellIndented indented
    exact ⟨_, read_of_lines bare run made⟩
  · intro m accepted
    obtain ⟨-, d, run, made⟩ := parts m accepted
    obtain ⟨d', t, run', made', links⟩ := readLines_wellIndented (wellIndented_of_readLines run made)
    obtain rfl : d = d' := Except.ok.inj (run.symm.trans run')
    obtain rfl : m.root = t := Option.some.inj (made.symm.trans made')
    exact follows_of_links links
  · intro header bare
    refine ⟨?_, ?_⟩
    · intro stray first
      exact ⟨_, read_of_fault bare (readLines_stray first), rfl, rfl⟩
    · intro undecorated root later bad nodes outdented
      exact ⟨_, read_of_fault bare (readLines_outdented undecorated nodes outdented), rfl, rfl⟩

/-- A map with a tab for two blanks, an indentation between those of two nodes above it, and decorations. -/
def irregularMap : Text :=
  "mindmap\n root((R))\n    a[deep]\n::icon(x)\n\t\tb\n   c\n:::one\n  ::icon(y)\n:::two\n     d".toList

/-- A map that begins with a decoration. -/
def decoratedMap : Text := "mindmap\n::icon(x)\nroot".toList

/-- A map with a second node that is indented as much as the first. -/
def forkedMap : Text := "mindmap\n a\n b".toList

theorem read_by_indentation_irregular :
    (∃ m, read (Source.ofText irregularMap 0) = .ok m ∧ FollowsIndentation (Source.ofText irregularMap 0).body m) ∧
      (∃ e, read (Source.ofText decoratedMap 0) = .error e ∧ e.code = .e100 ∧ e.position = ⟨2, 1⟩) ∧
      ∃ e, read (Source.ofText forkedMap 0) = .error e ∧ e.code = .e203 ∧ e.position = ⟨3, 2⟩ := by
  refine ⟨?_, ?_, ?_⟩
  · obtain ⟨m, accepted⟩ := exists_of_isOk (x := read (Source.ofText irregularMap 0)) (by decide +kernel)
    exact ⟨m, accepted, (read_by_indentation _).2.1 m accepted⟩
  · obtain ⟨header, bare⟩ :=
      exists_of_isOk (x := (Source.ofText decoratedMap 0).bareHeader "mindmap") (by decide +kernel)
    exact ((read_by_indentation _).2.2 header bare).1 (Line.ofRaw 2 "::icon(x)".toList) (by decide +kernel)
  · obtain ⟨header, bare⟩ := exists_of_isOk (x := (Source.ofText forkedMap 0).bareHeader "mindmap") (by decide +kernel)
    exact ((read_by_indentation _).2.2 header bare).2 (by decide +kernel) (Line.ofRaw 2 " a".toList)
      [Line.ofRaw 3 " b".toList] (Line.ofRaw 3 " b".toList) (by decide +kernel) (by decide +kernel)

end DiagramLint.Mindmap
