import DiagramLint.GitGraph
import DiagramLint.Proofs.Coverage.Basic
import DiagramLint.Proofs.Results
import DiagramLint.SankeyDiagram

/-!
Diagrams in which no line is passed over: git graphs have a command on each line, and sankey diagrams
a link.
-/
namespace DiagramLint

open Text

/-- Where every line that is taken makes one entry, the entries are at the lines. -/
theorem positions_of_readLines {α : Type} {place : α → Position} {rules : List (LineRule (List α))}
    (step : ∀ {entries : List α} {line : Line} {entries' : List α}, readLine rules entries line = .ok entries' →
      ∃ entry : α, place entry = line.position ∧ entries' = entries ++ [entry])
    {lines : List Line} {entries : List α} (run : readLines (fun _ => rules) [] lines = .ok entries) :
    entries.map place = lines.map Line.position := by
  have blank : Account.Covers ⟨[([] : List α).map place], []⟩ [] := by
    refine ⟨.refl _, ?_⟩
    simp
  have each {as : List α} {line : Line} {as' : List α} (taken : readLine rules as line = .ok as') :
      Account.Step line.position ⟨[as.map place], []⟩ false ⟨[as'.map place], []⟩ := by
    obtain ⟨entry, placed, rfl⟩ := step taken
    exact .once (.entry placed .nil)
  have covers := readLines_covers Plan.everyLine (fun _ => ()) (fun as => ⟨[as.map place], []⟩)
    (fun taken => ⟨rfl, each taken⟩) run blank
  rw [List.nil_append, recorded_everyLine] at covers
  exact covers.eq_of_column

namespace GitGraph

theorem commitLine_taken {commands commands' : List Command} {line : Line}
    (taken : commitLine commands line = .ok (some commands')) : ∃ action, commands' = add commands line action := by
  unfold commitLine at taken
  split at taken
  · exact nomatch taken
  · obtain ⟨found, -, same⟩ := exists_of_map_ok taken
    exact ⟨_, (Option.some.inj same).symm⟩

theorem branchLine_taken {commands commands' : List Command} {line : Line}
    (taken : branchLine commands line = .ok (some commands')) : ∃ action, commands' = add commands line action := by
  unfold branchLine at taken
  split at taken
  · exact nomatch taken
  · dsimp only at taken
    split at taken
    · exact nomatch taken
    · split at taken
      · exact nomatch taken
      · obtain ⟨order, -, same⟩ := exists_of_map_ok taken
        exact ⟨_, (Option.some.inj same).symm⟩

theorem checkoutLine_taken {commands commands' : List Command} {line : Line}
    (taken : checkoutLine commands line = .ok (some commands')) : ∃ action, commands' = add commands line action := by
  unfold checkoutLine at taken
  split at taken
  · exact nomatch taken
  · dsimp only at taken
    split at taken
    · exact nomatch taken
    · exact ⟨_, eq_of_take taken⟩

theorem mergeLine_taken {commands commands' : List Command} {line : Line}
    (taken : mergeLine commands line = .ok (some commands')) : ∃ action, commands' = add commands line action := by
  unfold mergeLine at taken
  split at taken
  · exact nomatch taken
  · dsimp only at taken
    split at taken
    · exact nomatch taken
    · obtain ⟨found, -, same⟩ := exists_of_map_ok taken
      exact ⟨_, (Option.some.inj same).symm⟩

theorem cherryPickLine_taken {commands commands' : List Command} {line : Line}
    (taken : cherryPickLine commands line = .ok (some commands')) : ∃ action, commands' = add commands line action := by
  unfold cherryPickLine at taken
  split at taken
  · exact nomatch taken
  · split at taken
    · exact nomatch taken
    · split at taken
      · exact nomatch taken
      · exact ⟨_, eq_of_take taken⟩

theorem step {commands commands' : List Command} {line : Line} (taken : readLine rules commands line = .ok commands') :
    ∃ command : Command, command.position = line.position ∧ commands' = commands ++ [command] := by
  have added : ∃ action, commands' = add commands line action := by
    rw [readLine_eq_ok_iff] at taken
    simp only [rules, firstTaking_cons, not_taken_by_none, and_false, or_false] at taken
    rcases taken with committed | ⟨_, branched | ⟨_, changed | ⟨_, merged | ⟨_, picked⟩⟩⟩⟩
    · exact commitLine_taken committed
    · exact branchLine_taken branched
    · exact checkoutLine_taken changed
    · exact mergeLine_taken merged
    · exact cherryPickLine_taken picked
  obtain ⟨action, rfl⟩ := added
  exact ⟨⟨action, line.position⟩, rfl, rfl⟩

/-- Every line of a git graph is a command. -/
theorem read_positions {s : Source} {g : GitGraph} (read : GitGraph.read s = .ok g) :
    g.commands.map Command.position = s.body.map Line.position := by
  obtain ⟨header, -, read⟩ := exists_of_bind_ok read
  split at read
  · exact nomatch read
  · obtain ⟨direction, -, read⟩ := exists_of_bind_ok read
    obtain ⟨commands, run, read⟩ := exists_of_bind_ok read
    obtain rfl := Except.ok.inj read
    exact positions_of_readLines step run

end GitGraph

namespace SankeyDiagram

theorem link_position {line : Line} {source target value : Text} {l : Link}
    (made : link line source target value = .ok l) : l.position = line.position := by
  unfold link at made
  split at made
  · exact nomatch made
  · split at made
    · exact nomatch made
    · split at made
      · exact nomatch made
      · split at made
        · obtain rfl := Except.ok.inj made
          rfl
        · exact nomatch made

theorem step {links links' : List Link} {line : Line} (taken : readLine rules links line = .ok links') :
    ∃ l : Link, l.position = line.position ∧ links' = links ++ [l] := by
  rw [readLine_eq_ok_iff] at taken
  simp only [rules, firstTaking_cons, not_taken_by_none, and_false, or_false] at taken
  unfold linkLine at taken
  split at taken
  · exact nomatch taken
  · obtain ⟨l, made, same⟩ := exists_of_map_ok taken
    exact ⟨l, link_position made, (Option.some.inj same).symm⟩
  · exact nomatch taken

/-- Every line of a sankey diagram is a link. -/
theorem read_positions {s : Source} {diagram : SankeyDiagram} (read : SankeyDiagram.read s = .ok diagram) :
    diagram.links.map Link.position = s.body.map Line.position := by
  obtain ⟨header, -, read⟩ := exists_of_bind_ok read
  obtain ⟨links, run, read⟩ := exists_of_bind_ok read
  split at read
  · exact nomatch read
  · obtain rfl := Except.ok.inj read
    exact positions_of_readLines step run

end SankeyDiagram

end DiagramLint
