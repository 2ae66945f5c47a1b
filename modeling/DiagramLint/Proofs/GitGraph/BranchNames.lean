import DiagramLint.Proofs.GitGraph.Commands
import DiagramLint.Proofs.GitGraph.Replay

/-!
Branch names that are read again. Branches and merges read a name up to the closing quote or the first blank, and checkouts
read all that is there and take the quotes away. Both read the same from every way to write a name, but checkouts refuse
names with blanks, which quotes allow (`branch_name_read_again`).
-/
namespace DiagramLint.GitGraph

open Text

/-- How a name is written in front of a text: between double quotes, or as a bare word. -/
inductive Spelled (name : Text) : Text → Text → Prop where
  | bare {rest : Text} (word : IsBare name rest) : Spelled name name rest
  | quoted {rest : Text} (filled : name ≠ []) (closed : '"' ∉ name) : Spelled name ('"' :: (name ++ ['"'])) rest

variable {commands before after : List Command} {line : Line} {c : Command} {g : GitGraph}
  {name spelling t u rest behind gap : Text} {order : Option Int} {place : Position}

/-! ### Names -/

theorem nameAndRest_of_bare (word : IsBare name rest) : nameAndRest (name ++ rest) = (name, rest.tail) := by
  have none_closed : (dropStart? ['"'] (name ++ rest)).bind (cut? ['"']) = none := by
    obtain ⟨c, others, rfl⟩ := List.exists_cons_of_ne_nil word.filled
    refine quoted_eq_none_iff.mpr fun u begins => ?_
    obtain ⟨rfl, rfl⟩ := List.cons.inj begins
    exact word.unclosed others rfl
  rw [nameAndRest, none_closed]
  cases rest with
  | nil => simp [cutBlank?_eq_none_iff.mpr word.visible]
  | cons b rest => simp [cutBlank?_written word.visible (word.ended b rfl)]

namespace Spelled

/-- What stands behind a name does not matter to the way in which it is written. -/
theorem alone (spelled : Spelled name spelling rest) : Spelled name spelling [] := by
  cases spelled with
  | bare word =>
    refine .bare ⟨word.filled, word.visible, nofun, fun u begins member => word.unclosed u begins ?_⟩
    exact List.mem_append_left rest (by simpa using member)
  | quoted filled closed => exact .quoted filled closed

theorem filled (spelled : Spelled name spelling rest) : name ≠ [] := by
  cases spelled with
  | bare word => exact word.filled
  | quoted filled _ => exact filled

theorem begins (spelled : Spelled name spelling rest) : BeginsVisible spelling := by
  cases spelled with
  | bare word =>
    obtain ⟨c, others, rfl⟩ := List.exists_cons_of_ne_nil word.filled
    exact ⟨c, others, rfl, word.visible c List.mem_cons_self⟩
  | quoted _ _ => exact ⟨'"', _, rfl, by decide⟩

/-- Merges read the name that is written. -/
theorem nameAndRest_eq (spelled : Spelled name spelling []) : nameAndRest spelling = (name, []) := by
  cases spelled with
  | bare word => simpa using nameAndRest_of_bare word
  | quoted _ closed =>
    have read : (dropStart? ['"'] ('"' :: (name ++ ['"']))).bind (cut? ['"']) = some (name, []) :=
      quoted_eq_some_iff.mpr ⟨rfl, closed⟩
    rw [nameAndRest, read]

/-- Checkouts read the name that is written. -/
theorem unquote_eq (spelled : Spelled name spelling rest) : unquote spelling = name := by
  cases spelled with
  | bare word => exact unquote_of_unclosed fun u begins member => word.unclosed u begins (List.mem_append_left rest member)
  | quoted _ _ => exact unquote_quoted name

end Spelled

/-- A name that is read is written in one of the two ways. -/
theorem exists_spelled (filled : name ≠ []) (read : nameAndRest t = (name, rest)) :
    ∃ spelling behind, t = spelling ++ behind ∧ Spelled name spelling behind := by
  rw [nameAndRest] at read
  cases closed : (dropStart? ['"'] t).bind (cut? ['"']) with
  | some found =>
    rw [closed] at read
    obtain rfl : found = (name, rest) := read
    obtain ⟨rfl, inside⟩ := quoted_eq_some_iff.mp closed
    exact ⟨'"' :: (name ++ ['"']), rest, by simp, .quoted filled inside⟩
  | none =>
    have unclosed := quoted_eq_none_iff.mp closed
    rw [closed] at read
    cases cut : cutBlank? t with
    | some found =>
      rw [cut] at read
      obtain rfl : found = (name, rest) := read
      obtain ⟨visible, b, blank, rfl⟩ := cutBlank?_spec cut
      refine ⟨name, b :: rest, rfl, .bare ⟨filled, visible, by simpa using blank, ?_⟩⟩
      rintro u rfl
      exact unclosed _ rfl
    | none =>
      rw [cut] at read
      obtain ⟨rfl, rfl⟩ := Prod.mk.inj read
      refine ⟨t, [], by simp, .bare ⟨filled, cutBlank?_eq_none_iff.mp cut, by simp, ?_⟩⟩
      rintro u rfl
      simpa using unclosed u rfl

/-! ### Lines -/

/-- A branch is made with the name that is read behind its keyword, which is not empty. -/
theorem name_of_branch (accepted : readLine rules commands line = .ok (commands ++ [⟨.branch name order, place⟩])) :
    ∃ behind rest, afterKeyword? "branch" line.text = some behind ∧ nameAndRest behind = (name, rest) ∧ name ≠ [] := by
  obtain ⟨a, rest, allowed, os, made, behind, -, -⟩ := makesCommand_of_read accepted nofun
  obtain rfl := congrArg Command.action (List.singleton_inj.mp (List.append_cancel_left made))
  cases behind with
  | branch keyword named =>
    refine ⟨_, _, keyword, named, ?_⟩
    rintro rfl
    have passed : commitLine commands line = pass := by
      rw [commitLine, afterKeyword?_eq_none (prefix_of_afterKeyword? keyword) (by decide)]
    have refused : readLine rules commands line = .error (line.fail .branchUnnamed) := by
      refine readLine_of_first (firstTaking_cons_of_pass passed) ?_
      simp [branchLine, keyword, named, Except.map]
    rw [refused] at accepted
    cases accepted

theorem after_written {word : String} (written : line.text = word.toList ++ (gap ++ spelling)) (filled : gap ≠ [])
    (blank : allBlank gap = true) (spelled : Spelled name spelling []) :
    afterKeyword? word line.text = some spelling := by
  rw [written]
  exact afterKeyword?_written filled blank spelled.begins

section Written

variable (filled : gap ≠ []) (blank : allBlank gap = true) (spelled : Spelled name spelling [])

include filled blank spelled

theorem readLine_merge (written : line.text = "merge".toList ++ (gap ++ spelling)) :
    readLine rules commands line = .ok (add commands line (.merge name none none none)) := by
  have keyword : "merge".toList <+: line.text := ⟨_, written.symm⟩
  have passed := passed_by_keyword commands keyword (by decide)
  refine readLine_of_first (firstTaking_append_of_pass passed) ?_
  have no_options : options line [] ["id", "tag", "type"] = .ok [] :=
    options_eq_ok_iff.mpr ⟨options?_nil, List.forall_mem_nil _⟩
  rw [mergeLine, after_written written filled blank spelled]
  simp [spelled.nameAndRest_eq, spelled.filled, no_options, Except.map, value?]

/-- A checkout takes every name but those with blanks. -/
theorem readLine_checkout {word : String} (either : word = "checkout" ∨ word = "switch")
    (written : line.text = word.toList ++ (gap ++ spelling)) : readLine rules commands line =
      if name.any isBlank then .error (line.fail .checkoutInvalid) else .ok (add commands line (.checkout name)) := by
  have keyword : word.toList <+: line.text := ⟨_, written.symm⟩
  have after := after_written written filled blank spelled
  have changed : afterCheckout? line.text = some spelling := by
    rcases either with rfl | rfl
    · rw [afterCheckout?, after]
    · rw [afterCheckout?, afterKeyword?_eq_none keyword (by decide), after]
  have passed : ∀ rule ∈ rules.take 2, rule.read commands line = pass := by
    simp only [rules, List.take_succ_cons, List.take_zero, List.forall_mem_cons]
    refine ⟨?_, ?_, List.forall_mem_nil _⟩
    · rw [commitLine, afterKeyword?_eq_none keyword (by rcases either with rfl | rfl <;> decide)]
    · rw [branchLine, afterKeyword?_eq_none keyword (by rcases either with rfl | rfl <;> decide)]
  refine readLine_of_first (firstTaking_append_of_pass passed) ?_
  rw [checkoutLine, changed]
  by_cases blanks : name.any isBlank = true
  · simp [spelled.unquote_eq, blanks, Except.map]
  · simp [spelled.unquote_eq, spelled.filled, blanks, Except.map, take]

end Written

/-! ### Uses behind a branch -/

/-- The command changes to a branch or merges it. -/
def Command.Uses (c : Command) (name : Text) : Prop :=
  c.action = .checkout name ∨ ∃ id tag type, c.action = .merge name id tag type

theorem unused_of_uses (uses : c.Uses name) : c.newBranch? = none ∧ ∃ context, c.usedBranches = [(name, context)] := by
  rcases uses with same | ⟨id, tag, type, same⟩
  · exact ⟨by rw [Command.newBranch?, same], _, by rw [Command.usedBranches, same]⟩
  · exact ⟨by rw [Command.newBranch?, same], _, by rw [Command.usedBranches, same]⟩

/-- Nothing is found about a command that uses a branch behind a command that makes it. -/
theorem branchReferences_of_use {b : Command} (makes : b.newBranch? = some name) (member : b ∈ before) (uses : c.Uses name)
    (split : g.commands = before ++ c :: after) :
    g.branchReferences = { g with commands := before ++ after }.branchReferences := by
  obtain ⟨makes_none, context, used⟩ := unused_of_uses uses
  have start (g : GitGraph) : g.branchReferences = replay branchUses Command.newBranch?
      ((References.empty "branch").declareAll [(mainBranch, g.header.position)]) g.commands := rfl
  have nothing_made : namesMade Command.newBranch? [c] = [] := by simp [namesMade, makes_none]
  have known : name ∈ ([(mainBranch, g.header.position)] ++ namesMade Command.newBranch? before).map Prod.fst := by
    have listed : (name, b.position) ∈ namesMade Command.newBranch? before :=
      List.mem_filterMap.mpr ⟨b, member, by rw [makes, Option.map_some]⟩
    exact List.mem_map.mpr ⟨_, List.mem_append_right _ listed, rfl⟩
  rw [start, start, split, replay_append, replay_append, replay_cons, nothing_made, List.append_nil, branchUses_told, used,
    unknownUses_of_known known, unknownUses_nil, List.nil_append]

/-- Lines with a spelling behind their keywords are read with its name, but checkouts of names with blanks are refused. -/
structure ReadAgain (name spelling : Text) : Prop where
  merge : ∀ {commands line gap}, gap ≠ [] → allBlank gap = true → line.text = "merge".toList ++ (gap ++ spelling) →
    readLine rules commands line = .ok (commands ++ [⟨.merge name none none none, line.position⟩])
  checkout : ∀ {commands line gap} {word : String}, word = "checkout" ∨ word = "switch" → gap ≠ [] → allBlank gap = true →
    line.text = word.toList ++ (gap ++ spelling) → (∀ c ∈ name, isBlank c = false) →
    readLine rules commands line = .ok (commands ++ [⟨.checkout name, line.position⟩])
  refused : ∀ {commands line gap} {word : String}, word = "checkout" ∨ word = "switch" → gap ≠ [] → allBlank gap = true →
    line.text = word.toList ++ (gap ++ spelling) → (∃ c ∈ name, isBlank c = true) →
    readLine rules commands line = .error (line.fail .checkoutInvalid)

theorem Spelled.readAgain (spelled : Spelled name spelling []) : ReadAgain name spelling where
  merge filled blank written := readLine_merge filled blank spelled written
  checkout either filled blank written visible := by
    rw [readLine_checkout filled blank spelled either written, if_neg (by simpa using visible)]
    rfl
  refused either filled blank written blanks := by
    rw [readLine_checkout filled blank spelled either written, if_pos (by simpa using blanks)]

/-- A branch whose line is accepted is merged by the spelling of its name in that line, and changed to if the name has no
blanks; behind the branch nothing is found about these uses. -/
theorem branch_name_read_again
    (accepted : readLine rules commands line = .ok (commands ++ [⟨.branch name order, place⟩])) :
    (∃ gap spelling behind, line.text = "branch".toList ++ (gap ++ (spelling ++ behind)) ∧ gap ≠ [] ∧ allBlank gap = true ∧
      Spelled name spelling behind ∧ ReadAgain name spelling) ∧
    ∀ (g : GitGraph) (before after : List Command) (c : Command), ⟨.branch name order, place⟩ ∈ before → c.Uses name →
      g.commands = before ++ c :: after →
      g.branchReferences = { g with commands := before ++ after }.branchReferences := by
  refine ⟨?_, fun g before after c made uses split => branchReferences_of_use rfl made uses split⟩
  obtain ⟨t, rest, keyword, named, filled⟩ := name_of_branch accepted
  obtain ⟨spelling, behind, rfl, spelled⟩ := exists_spelled filled named
  obtain ⟨c, others, split, -⟩ := spelled.begins.append behind
  have something : spelling ++ behind ≠ [] := by simp [split]
  obtain ⟨gap, written, gap_filled, blank⟩ := exists_gap_of_afterKeyword? keyword something
  exact ⟨gap, spelling, behind, written, gap_filled, blank, spelled, spelled.alone.readAgain⟩

/-- A branch whose name has a blank. -/
def spacedBranch : Line := .ofRaw 2 "branch  \"my branch\" order: 3".toList

theorem branch_name_read_again_spacedBranch :
    readLine rules [] spacedBranch = .ok ([] ++ [⟨.branch "my branch".toList (some 3), ⟨2, 1⟩⟩]) ∧
    (∃ gap spelling behind, spacedBranch.text = "branch".toList ++ (gap ++ (spelling ++ behind)) ∧ gap ≠ [] ∧
      allBlank gap = true ∧ Spelled "my branch".toList spelling behind ∧ ReadAgain "my branch".toList spelling) ∧
    ∀ (g : GitGraph) (before after : List Command) (c : Command),
      ⟨.branch "my branch".toList (some 3), ⟨2, 1⟩⟩ ∈ before → c.Uses "my branch".toList →
      g.commands = before ++ c :: after →
      g.branchReferences = { g with commands := before ++ after }.branchReferences := by
  have accepted : readLine rules [] spacedBranch = .ok ([] ++ [⟨.branch "my branch".toList (some 3), ⟨2, 1⟩⟩]) :=
    (eq_ok_get (by decide +kernel)).trans (congrArg Except.ok (by decide +kernel))
  exact ⟨accepted, branch_name_read_again accepted⟩

/-- A checkout of a branch whose name has a blank. -/
def spacedCheckout : Text := "gitGraph\nbranch \"my branch\"\ncheckout \"my branch\"".toList

/-- A merge of a branch whose name has a blank. -/
def spacedMerge : Text := "gitGraph\nbranch \"my branch\"\nmerge \"my branch\"".toList

/-- The branch is made and merged, but it cannot be changed to. -/
theorem spacedCheckout_refused :
    (∃ g, read (Source.ofText spacedMerge 0) = .ok g ∧ g.commands =
      [⟨.branch "my branch".toList none, ⟨2, 1⟩⟩, ⟨.merge "my branch".toList none none none, ⟨3, 1⟩⟩]) ∧
    read (Source.ofText spacedCheckout 0) = .error ⟨.checkoutInvalid, ⟨3, 1⟩, "checkout \"my branch\"".toList, []⟩ :=
  ⟨⟨_, eq_ok_get (by decide +kernel), by decide +kernel⟩, eq_error_of_seen (by decide +kernel)⟩

end DiagramLint.GitGraph
