import DiagramLint.GitGraph
import DiagramLint.Proofs.Mindmap.Indentation
import DiagramLint.Proofs.Reading.Basic

/-!
How git graphs and mindmaps are read. The nodes of a mindmap are in order although branches are finished
late: the unfinished branches hold the last nodes.
-/
namespace DiagramLint

open Text

/-! ### Git graphs -/

namespace GitGraph

instance : Stored GitGraph where
  header graph := graph.header
  withSource text graph := { graph with header := graph.header.withSource text }
  columns graph := [graph.commands.map Command.position]

/-- The positions of the commands read so far. -/
def columns (commands : List Command) : List (List Position) := [commands.map Command.position]

theorem add_grows (commands : List Command) (line : Line) (action : Action) :
    Grows line.position (columns commands) (columns (add commands line action)) := by
  simp [columns, add, Grows]

theorem options_ofLine (line : Line) (t : Text) (allowed : List String) :
    OfLine line (options line t allowed) fun _ => True := by
  unfold options
  split
  · simp [Fault.code]
  · split <;> simp [Fault.code]

theorem commitLine_marks (commands : List Command) (line : Line) :
    Marks columns commands line (commitLine commands line) := by
  unfold commitLine
  split
  · simp
  · exact Marks.made (options_ofLine line _ _) fun _ _ => add_grows _ _ _

theorem branchOrder_ofLine (line : Line) (found : List GitOption) :
    OfLine line (branchOrder line found) fun _ => True := by
  unfold branchOrder
  split
  · trivial
  · split <;> simp [Fault.code]

theorem branchLine_marks (commands : List Command) (line : Line) :
    Marks columns commands line (branchLine commands line) := by
  unfold branchLine
  split
  · simp
  · dsimp only
    split
    · simp [Fault.code]
    · split
      · next failed => exact (options_ofLine line _ _).of_error failed
      · exact Marks.made (branchOrder_ofLine line _) fun _ _ => add_grows _ _ _

theorem checkoutLine_marks (commands : List Command) (line : Line) :
    Marks columns commands line (checkoutLine commands line) := by
  unfold checkoutLine
  split
  · simp
  · dsimp only
    split
    · simp [Fault.code]
    · exact Marks.take_iff.mpr (add_grows _ _ _)

theorem mergeLine_marks (commands : List Command) (line : Line) :
    Marks columns commands line (mergeLine commands line) := by
  unfold mergeLine
  split
  · simp
  · dsimp only
    split
    · simp [Fault.code]
    · exact Marks.made (options_ofLine line _ _) fun _ _ => add_grows _ _ _

theorem cherryPickLine_marks (commands : List Command) (line : Line) :
    Marks columns commands line (cherryPickLine commands line) := by
  unfold cherryPickLine
  split
  · simp
  · split
    · next failed => exact (options_ofLine line _ _).of_error failed
    · split
      · simp [Fault.code]
      · exact Marks.take_iff.mpr (add_grows _ _ _)

theorem headerDirection_ofLine (header : Line) (rest : Text) :
    OfLine header (headerDirection header rest) fun _ => True := by
  unfold headerDirection
  dsimp only
  split
  · trivial
  · split <;> simp [Fault.code]

theorem rules_mark (commands : List Command) :
    ∀ rule ∈ rules, ∀ line, Marks columns commands line (rule.read commands line) := by
  simp only [rules, List.forall_mem_cons]
  exact ⟨commitLine_marks commands, branchLine_marks commands, checkoutLine_marks commands,
    mergeLine_marks commands, cherryPickLine_marks commands, List.forall_mem_nil _⟩

/-- How git graphs are read. -/
abbrev reading : Reading GitGraph where
  Head := Line × Option Direction
  State := List Command
  head first :=
    match afterKeywordColon? "gitGraph" first.text with
    | none => .error ((Fault.headerMismatch ["gitGraph"] first.text).at first.position)
    | some rest => (headerDirection first rest).map fun direction => (first, direction)
  fits t := (afterKeywordColon? "gitGraph" t).isSome
  line h := h.1
  start _ := []
  rules _ := rules
  columns := columns
  finish text h commands := .ok ⟨⟨.gitGraph, text, h.1.position⟩, h.2, commands⟩

theorem reading_describes : reading.Describes read where
  read_eq text offset first body := by
    rw [List.flatMap_singleton']
    show (match afterKeywordColon? "gitGraph" first.text with
      | none => _
      | some rest => headerDirection first rest >>= _) = _
    dsimp only
    cases afterKeywordColon? "gitGraph" first.text with
    | none => rfl
    | some rest =>
      dsimp only
      cases headerDirection first rest <;> rfl
  head_ofHeader first := by
    dsimp only
    split
    · next missing => exact ⟨rfl, nofun, iff_of_true rfl (by simp [missing])⟩
    · next found => exact .of_ofLine (by simp [found]) ((headerDirection_ofLine first _).map fun _ _ => rfl)
  start_empty _ := by simp [columns]
  rules_mark := rules_mark
  finish_error := nofun
  finish_ok finished := by
    obtain rfl := Except.ok.inj finished
    exact ⟨rfl, fun _ => id⟩
  finish_text _ _ _ _ := rfl

end GitGraph

/-! ### Mindmaps -/

namespace Mindmap

instance : Stored Mindmap where
  header map := map.header
  withSource text map := { map with header := map.header.withSource text }
  columns map := [map.nodes.map Node.position]

/-- The nodes of a draft, in the order in which the finished tree has them. -/
def Draft.nodes (d : Draft) : List Node := d.links.map Prod.snd

/-- The positions of a draft. -/
def Draft.columns (d : Draft) : List (List Position) := [d.nodes.map Node.position]

theorem Draft.nodes_cons (top : Branch) (below : Draft) :
    Draft.nodes (top :: below) = Draft.nodes below ++ top.node :: Tree.preorderAll top.children := by
  simp [Draft.nodes, Draft.links, Tree.linksAll_nodes]

theorem decorate_marks (d : Draft) (line : Line) {f : Node → Node} (stays : ∀ n, (f n).position = n.position) :
    Marks Draft.columns d line (decorate d line f) := by
  cases d with
  | nil => simp [decorate, Fault.code]
  | cons top rest => simp [decorate, Draft.columns, Draft.nodes_cons, stays]

theorem iconLine_marks (d : Draft) (line : Line) : Marks Draft.columns d line (iconLine d line) := by
  unfold iconLine
  split
  · simp
  · exact decorate_marks d line fun _ => rfl

theorem classLine_marks (d : Draft) (line : Line) : Marks Draft.columns d line (classLine d line) := by
  unfold classLine
  split
  · simp
  · exact decorate_marks d line fun _ => rfl

/-- A node on top of branches comes last, and branches that are finished keep their nodes in their places. -/
theorem push_grows {d branches : Draft} (kept : branches.nodes = d.nodes) (n : Node) :
    Grows n.position d.columns (Draft.columns (⟨n, []⟩ :: branches)) := by
  simp [Draft.columns, Draft.nodes_cons, Tree.preorderAll, Grows, kept]

theorem nodeLine_marks (d : Draft) (line : Line) : Marks Draft.columns d line (nodeLine d line) := by
  have kept : Draft.nodes (closeTo line.indent d) = d.nodes := congrArg (List.map Prod.snd) (links_closeTo line.indent d)
  unfold nodeLine
  dsimp only
  split
  · next root closed =>
    split
    · simp [Fault.code]
    · exact Marks.take_iff.mpr (push_grows (closed ▸ kept) _)
  · exact Marks.take_iff.mpr (push_grows kept _)

theorem rules_mark (d : Draft) : ∀ rule ∈ rules, ∀ line, Marks Draft.columns d line (rule.read d line) := by
  simp only [rules, List.forall_mem_cons]
  exact ⟨iconLine_marks d, classLine_marks d, nodeLine_marks d, List.forall_mem_nil _⟩

/-- How mindmaps are read. -/
abbrev reading : Reading Mindmap where
  Head := Line
  State := Draft
  head first := first.alone.bareHeader "mindmap"
  fits := Text.BeginsWith ["mindmap"]
  line header := header
  start _ := []
  rules _ := rules
  columns := Draft.columns
  finish text header d :=
    match tree? d with
    | some root => .ok ⟨⟨.mindmap, text, header.position⟩, root⟩
    | none => .error (Fault.rootMissing.at header.position)

theorem reading_describes : reading.Describes read where
  read_eq text offset first body := by
    rw [List.flatMap_singleton']
    rfl
  head_ofHeader first := bareHeader_ofHeader [] 0 first [] "mindmap"
  start_empty _ := by simp [Draft.columns, Draft.nodes, Draft.links]
  rules_mark := rules_mark
  finish_error failed := by
    dsimp only at failed
    split at failed
    · cases failed
    · obtain rfl := Except.error.inj failed
      exact ⟨.inr rfl, .inl rfl⟩
  finish_ok {text header d map} finished := by
    dsimp only at finished
    split at finished
    · next root made =>
      obtain rfl := Except.ok.inj finished
      have filled : d ≠ [] := by
        rintro rfl
        simp [tree?] at made
      obtain ⟨tree, same, links⟩ := exists_tree filled
      obtain rfl := Option.some.inj (made.symm.trans same)
      refine ⟨rfl, ?_⟩
      simp [Stored.columns, Draft.columns, Draft.nodes, nodes, ← links, ← Tree.links_nodes none]
    · cases finished
  finish_text text header d other := by
    dsimp only
    split <;> rfl

end Mindmap

end DiagramLint
