import DiagramLint.Proofs.Coverage.EveryLine
import DiagramLint.Proofs.LineOrder
import DiagramLint.Proofs.Names

/-!
Links that a sankey diagram has more than once. Each is told by one text, its source and its target with an arrow
between the two. The ends are any texts and may hold arrows, so two links with different ends have one text where the
source of one goes on behind that of the other with an arrow (`linkName_eq_iff`), and only then is a link found that
is no repeat (`findings_about_links`).
-/
namespace DiagramLint.SankeyDiagram

open Text

/-- The ends of a link. -/
def Link.ends (l : Link) : Text × Text := (l.source, l.target)

/-- The text goes on behind another one with a blank and an arrow. -/
def GoesOn (source other : Text) : Prop := source ++ " ->".toList <+: other

/-- The source of the other link goes on behind the source with an arrow, and what goes on behind the arrow makes up
the rest of the text. -/
def Link.Blurs (l l' : Link) : Prop :=
  ∃ more, l'.source = l.source ++ (" ->".toList ++ more) ∧ ' ' :: l.target = more ++ (" -> ".toList ++ l'.target)

/-- What is found about links in the order of their lines. -/
structure AboutLinks (links : List Link) (found : List Finding) : Prop where
  named : found = (repeats linkName links).map fun (l, first) =>
    Duplicates.finding "link" (linkName l) l.position first.position
  /-- One text stands for the same ends, or for ends that are told apart only by where the arrow is. -/
  told : ∀ l ∈ links, ∀ l' ∈ links, linkName l = linkName l' ↔ l.ends = l'.ends ∨ l.Blurs l' ∨ l'.Blurs l
  /-- Where no source goes on behind another one with an arrow, links with different ends are not found. -/
  apart : (∀ l ∈ links, ∀ l' ∈ links, ¬ GoesOn l.source l'.source) →
    found = (repeats Link.ends links).map fun (l, first) =>
      Duplicates.finding "link" (linkName l) l.position first.position

variable {l l' : Link} {t u more : Text} {diagram : SankeyDiagram} {text : Text} {offset : Nat}

/-! ### Texts of links -/

/-- What begins like the arrow with its blanks, and has them again behind its beginning, begins with the arrow. The
arrow with its blanks overlaps with itself in a blank only. -/
theorem arrow_of_overlap (filled : more ≠ []) (same : " -> ".toList ++ t = more ++ (" -> ".toList ++ u)) :
    ∃ rest, more = " ->".toList ++ rest ∧ ' ' :: t = rest ++ (" -> ".toList ++ u) := by
  match more, filled, same with
  | [a], _, same => simp at same
  | [a, b], _, same => simp at same
  | a :: b :: c :: rest, _, same =>
    obtain ⟨rfl, rfl, rfl, behind⟩ : ' ' = a ∧ '-' = b ∧ '>' = c ∧ ' ' :: t = rest ++ (" -> ".toList ++ u) := by
      simpa using same
    exact ⟨rest, rfl, behind⟩

theorem linkName_of_blurs (blurs : l.Blurs l') : linkName l = linkName l' := by
  obtain ⟨more, source, target⟩ := blurs
  have parts : linkName l = l.source ++ (" ->".toList ++ ' ' :: l.target) := by simp [linkName]
  rw [parts, target, linkName, source]
  simp

/-- Two links have one text if they have the same ends, or if an arrow in a source is taken for the one between the
ends. -/
theorem linkName_eq_iff (l l' : Link) : linkName l = linkName l' ↔ l.ends = l'.ends ∨ l.Blurs l' ∨ l'.Blurs l := by
  constructor
  · intro same
    rw [linkName, linkName, List.append_assoc, List.append_assoc] at same
    -- If one source is longer, what it has more overlaps with the arrow behind the other.
    rcases List.append_eq_append_iff.mp same with ⟨more, longer, behind⟩ | ⟨more, longer, behind⟩
    · by_cases filled : more = []
      · subst filled
        exact .inl (Prod.ext (by simpa [Link.ends] using longer.symm) (by simpa [Link.ends] using behind))
      · obtain ⟨rest, rfl, target⟩ := arrow_of_overlap filled behind
        exact .inr (.inl ⟨rest, longer, target⟩)
    · by_cases filled : more = []
      · subst filled
        exact .inl (Prod.ext (by simpa [Link.ends] using longer) (by simpa [Link.ends] using behind.symm))
      · obtain ⟨rest, rfl, target⟩ := arrow_of_overlap filled behind
        exact .inr (.inr ⟨rest, longer, target⟩)
  · rintro (same | blurs | blurs)
    · obtain ⟨source, target⟩ := Prod.mk.inj same
      rw [linkName, linkName, source, target]
    · exact linkName_of_blurs blurs
    · exact (linkName_of_blurs blurs).symm

theorem Link.Blurs.goesOn (blurs : l.Blurs l') : GoesOn l.source l'.source := by
  obtain ⟨more, source, -⟩ := blurs
  exact ⟨more, by rw [source, List.append_assoc]⟩

/-! ### Findings -/

theorem about_links (links : List Link) :
    AboutLinks links ((Duplicates.empty "link").findings (links.map fun l => (linkName l, l.position))) := by
  rw [Duplicates.findings_empty]
  refine ⟨rfl, fun l _ l' _ => linkName_eq_iff l l', fun apart => ?_⟩
  have keys : repeats linkName links = repeats Link.ends links := by
    refine repeatsBehind_congr fun l member l' member' => ?_
    have unblurred : ¬ (l.Blurs l' ∨ l'.Blurs l) := by
      rintro (blurs | blurs)
      · exact apart l member l' member' blurs.goesOn
      · exact apart l' member' l member blurs.goesOn
    rw [linkName_eq_iff, or_iff_left unblurred]
  rw [keys]

theorem kind_of_read {s : Source} (accepted : read s = .ok diagram) : diagram.header.kind = .sankey := by
  obtain ⟨header, -, accepted⟩ := exists_of_bind_ok accepted
  obtain ⟨links, -, accepted⟩ := exists_of_bind_ok accepted
  split at accepted
  · cases accepted
  · obtain rfl := Except.ok.inj accepted
    rfl

theorem foundBy_links {s : Source} (accepted : read s = .ok diagram) :
    (Diagram.sankey diagram).foundBy "sankey-duplicate-link" = diagram.duplicateLinks := by
  have family : (Diagram.sankey diagram).kind.family? = some .sankey := congrArg Kind.family? (kind_of_read accepted)
  rw [Diagram.foundBy_of_family family]
  simp [Family.rules, Rule.sankey, Rule.on]

/-- Links are found if an earlier one has the same text. These are all links with the ends of an earlier one, and others
only where a source goes on behind another one with an arrow. -/
theorem findings_about_links (accepted : read (Source.ofText text offset) = .ok diagram) :
    LineByLine (diagram.links.map Link.position) ∧
      AboutLinks diagram.links ((Diagram.sankey diagram).foundBy "sankey-duplicate-link") := by
  rw [foundBy_links accepted, read_positions accepted]
  exact ⟨body_lineByLine text offset, about_links diagram.links⟩

/-- Links with arrows and commas in their ends, one of them repeated with another value, and one turned round. -/
def arrowedLinks : Text :=
  "sankey-beta\n\"A, ->\",B -> C,1\nB,C,2\nC,B,2\nB -> C,\"A, ->\",3\n\"A, ->\",\"B -> C\",4".toList

theorem findings_about_links_arrowedLinks : ∃ diagram, read (Source.ofText arrowedLinks 0) = .ok diagram ∧
    LineByLine (diagram.links.map Link.position) ∧
      AboutLinks diagram.links ((Diagram.sankey diagram).foundBy "sankey-duplicate-link") := by
  obtain ⟨diagram, accepted⟩ := exists_of_isOk (x := read (Source.ofText arrowedLinks 0)) (by decide +kernel)
  exact ⟨diagram, accepted, findings_about_links accepted⟩

/-- An arrow in the target of one link, and the same arrow in the source of another. -/
def arrowInEnds : Text := "sankey-beta\nA,B -> C,1\nA -> B,C,1".toList

/-- The two links have different sources and different targets, and the second is found. -/
theorem arrowInEnds_found : ∃ diagram, read (Source.ofText arrowInEnds 0) = .ok diagram ∧
    diagram.links.map Link.ends = [("A".toList, "B -> C".toList), ("A -> B".toList, "C".toList)] ∧
    (Diagram.sankey diagram).foundBy "sankey-duplicate-link" =
      [Duplicates.finding "link" "A -> B -> C".toList ⟨3, 1⟩ ⟨2, 1⟩] := by
  refine ⟨_, eq_ok_get (by decide +kernel), ?_, ?_⟩
  · decide +kernel
  · decide +kernel

end DiagramLint.SankeyDiagram
