import DiagramLint.EntityDiagram.Reader
import DiagramLint.Proofs.Coverage.Basic
import DiagramLint.Proofs.Results
import DiagramLint.Proofs.Text.Keywords

/-!
The lines of entity-relationship diagrams: each is an entity, a relationship or an attribute, but for
directions and the braces that close bodies.
-/
namespace DiagramLint.EntityDiagram

open Text

/-- The places of an entity and its attributes. -/
def Entity.places (e : Entity) : List Position := e.position :: e.attributes.map Attribute.position

/-- What a diagram records: entities with their attributes, and relationships. -/
def account (diagram : EntityDiagram) : Account :=
  ⟨[diagram.entities.flatMap Entity.places, diagram.relationships.map Relationship.position], []⟩

/-- A line that ends with an opening brace begins a body, and a closing brace ends it. Outside bodies
directions are passed over, and inside bodies the closing brace. -/
def plan : Plan Bool where
  next inside t := if inside then t ≠ ['}'] else endsWith ['{'] t
  passes inside t := if inside then t = ['}'] else namesDirection t

/-- What a draft records. The entity whose body is open comes last. -/
def Draft.account (d : Draft) : Account :=
  ⟨[(d.entities ++ d.body.toList).flatMap Entity.places, d.relationships.map Relationship.position], []⟩

theorem places_of_entity {es : List Entity} {e : Entity} {p : Position} (places : e.places = [p]) :
    (es ++ [e]).flatMap Entity.places = es.flatMap Entity.places ++ [p] := by
  rw [List.flatMap_append, List.flatMap_singleton, places]

/-- A further attribute of the last entity is the last entry. -/
theorem places_of_attribute (es : List Entity) (e : Entity) (a : Attribute) :
    (es ++ [{ e with attributes := e.attributes ++ [a] }]).flatMap Entity.places =
      (es ++ [e]).flatMap Entity.places ++ [a.position] := by
  simp [Entity.places]

/-! ### Lines outside bodies -/

theorem bodiedEntity_eq_ok {line : Line} {head : Text} {e : Entity} (made : bodiedEntity line head = .ok e) :
    e.places = [line.position] := by
  unfold bodiedEntity at made
  split at made
  · obtain rfl := Except.ok.inj made
    rfl
  · exact nomatch made

/-- Outside bodies a line that opens one makes an entity, which stays open if no brace closes it. -/
theorem openLine_taken {d d' : Draft} {line : Line} (taken : openLine d line = .ok (some d')) :
    ∃ e : Entity, e.places = [line.position] ∧
      (dropEnd? ['{', '}'] line.text ≠ none ∧ d' = { d with entities := d.entities ++ [e] } ∨
        endsWith ['{'] line.text = true ∧ d' = { d with body := some e }) := by
  unfold openLine at taken
  split at taken
  · next closed =>
    obtain ⟨e, made, same⟩ := exists_of_map_ok taken
    refine ⟨e, bodiedEntity_eq_ok made, .inl ⟨?_, (Option.some.inj same).symm⟩⟩
    rw [closed]
    exact Option.some_ne_none _
  · split at taken
    · next opened =>
      obtain ⟨e, made, same⟩ := exists_of_map_ok taken
      refine ⟨e, bodiedEntity_eq_ok made, .inr ⟨?_, (Option.some.inj same).symm⟩⟩
      rw [endsWith, opened]
      rfl
    · cases taken

theorem openLine_passed {d : Draft} {line : Line} (passed : openLine d line = .ok none) :
    endsWith ['{'] line.text = false := by
  unfold openLine at passed
  split at passed
  · obtain ⟨e, -, same⟩ := exists_of_map_ok passed
    cases same
  · split at passed
    · obtain ⟨e, -, same⟩ := exists_of_map_ok passed
      cases same
    · next unopened => rw [endsWith, unopened]; rfl

/-- A connector holds a hyphen or a full stop, which no direction does. -/
theorem relationshipLine_taken {d d' : Draft} {line : Line} (taken : relationshipLine d line = .ok (some d')) :
    namesDirection line.text = false ∧
      ∃ r : Relationship, r.position = line.position ∧ d' = { d with relationships := d.relationships ++ [r] } := by
  unfold relationshipLine at taken
  dsimp only at taken
  split at taken
  · next left word right parts =>
    split at taken
    · exact nomatch taken
    · next connector symbol =>
      split at taken
      · refine ⟨?_, _, rfl, eq_of_take taken⟩
        have marked : '-' ∈ word ∨ '.' ∈ word := by
          have same : connector.symbol.toList = word := by simpa using List.find?_some symbol
          rw [← same]
          obtain ⟨left, identifying, right⟩ := connector
          cases left <;> cases identifying <;> cases right <;> decide
        have of_word : ∀ c ∈ word, c ∈ line.text := by
          intro c inside
          have member : word ∈ tokens (headAndLabel line.text).1 := by simp [parts]
          exact mem_of_mem_head c (mem_of_mem_tokens member inside)
        by_contra names
        have names : namesDirection line.text = true := by simpa using names
        rcases marked with hyphen | stop
        · exact not_mem_of_namesDirection names (by decide) (by decide) (of_word _ hyphen)
        · exact not_mem_of_namesDirection names (by decide) (by decide) (of_word _ stop)
      · exact nomatch taken
  · exact nomatch taken

theorem directionLine_taken {d d' : Draft} {line : Line} (taken : directionLine d line = .ok (some d')) :
    namesDirection line.text = true ∧ ∃ direction, d' = { d with direction := some direction } := by
  unfold directionLine at taken
  split at taken
  · exact nomatch taken
  · next rest after => exact set_direction_taken after taken

theorem directionLine_passed {d : Draft} {line : Line} (passed : directionLine d line = .ok none) :
    namesDirection line.text = false := by
  unfold directionLine at passed
  split at passed
  · next other => exact not_namesDirection_of_none other
  · obtain ⟨direction, -, same⟩ := exists_of_map_ok passed
    exact nomatch same

theorem entityLine_taken {d d' : Draft} {line : Line} (taken : entityLine d line = .ok (some d')) :
    ∃ e : Entity, e.places = [line.position] ∧ d' = { d with entities := d.entities ++ [e] } := by
  unfold entityLine at taken
  split at taken
  · exact ⟨_, rfl, eq_of_take taken⟩
  · exact nomatch taken

/-- A direction neither opens a body nor ends with an empty one. -/
theorem namesDirection_of_brace {t : Text} (brace : '{' ∈ t) : namesDirection t = false := by
  by_contra names
  have names : namesDirection t = true := by simpa using names
  exact not_mem_of_namesDirection names (by decide) (by decide) brace

theorem endsWith_of_emptyBody {t : Text} (closed : dropEnd? ['{', '}'] t ≠ none) :
    '{' ∈ t ∧ endsWith ['{'] t = false := by
  obtain ⟨before, found⟩ := Option.ne_none_iff_exists'.mp closed
  have whole := append_of_dropEnd? found
  refine ⟨by simp [whole], ?_⟩
  by_contra finished
  have finished : endsWith ['{'] t = true := by simpa using finished
  obtain ⟨other, opened⟩ := Option.isSome_iff_exists.mp finished
  have last := congrArg List.getLast? (whole.symm.trans (append_of_dropEnd? opened))
  simp at last

/-- Outside bodies every line that is taken makes an entry, but for directions. -/
theorem outer_step {d d' : Draft} {line : Line} (closed : d.body = none)
    (taken : readLine outerRules d line = .ok d') :
    d'.body.isSome = endsWith ['{'] line.text ∧
      d.account.Step line.position (namesDirection line.text) d'.account := by
  have entity_added {entities : List Entity} {body : Option Entity} {e : Entity}
      (places : e.places = [line.position]) (after : entities ++ body.toList = d.entities ++ d.body.toList ++ [e]) :
      d.account.Step line.position false (Draft.account { d with entities := entities, body := body }) := by
    unfold Draft.account
    rw [after, places_of_entity places]
    exact .once (.add (.refl _))
  have still_closed : d.body.isSome = false := by rw [closed]; rfl
  rw [readLine_eq_ok_iff] at taken
  simp only [outerRules, firstTaking_cons, not_taken_by_none, and_false, or_false] at taken
  rcases taken with opened | ⟨unopened, related | ⟨_, directed | ⟨undirected, closing | ⟨_, named⟩⟩⟩⟩
  · obtain ⟨e, places, ⟨empty, rfl⟩ | ⟨brace, rfl⟩⟩ := openLine_taken opened
    · obtain ⟨brace, unfinished⟩ := endsWith_of_emptyBody empty
      rw [unfinished, namesDirection_of_brace brace]
      exact ⟨still_closed, entity_added places (by simp [closed])⟩
    · rw [brace, namesDirection_of_brace (mem_of_endsWith brace)]
      exact ⟨rfl, entity_added places (by simp [closed])⟩
  · obtain ⟨undirected, r, placed, rfl⟩ := relationshipLine_taken related
    rw [openLine_passed unopened, undirected]
    exact ⟨still_closed, .once (.keep (.entry placed .nil))⟩
  · obtain ⟨names, direction, rfl⟩ := directionLine_taken directed
    rw [openLine_passed unopened, names]
    exact ⟨still_closed, .passed rfl⟩
  · unfold strayCloseLine at closing
    split at closing
    · exact nomatch closing
    · exact nomatch closing
  · obtain ⟨e, places, rfl⟩ := entityLine_taken named
    rw [openLine_passed unopened, directionLine_passed undirected]
    exact ⟨still_closed, entity_added places (by simp [closed])⟩

/-! ### Lines of bodies -/

theorem attribute?_position {line : Line} {a : Attribute} (made : attribute? line = some a) :
    a.position = line.position := by
  obtain ⟨⟨t, comment⟩, -, made⟩ := Option.bind_eq_some_iff.mp made
  dsimp only at made
  split at made
  · split at made
    · exact nomatch made
    · obtain rfl := Option.some.inj made
      rfl
  · exact nomatch made

theorem attributeLine_taken {d d' : Draft} {line : Line} (taken : attributeLine d line = .ok (some d')) :
    ∃ a : Attribute, a.position = line.position ∧
      d' = { d with body := d.body.map fun e => { e with attributes := e.attributes ++ [a] } } := by
  unfold attributeLine at taken
  split at taken
  · next a made => exact ⟨a, attribute?_position made, eq_of_take taken⟩
  · exact nomatch taken

theorem closeLine_taken {d d' : Draft} {line : Line} (taken : closeLine d line = .ok (some d')) :
    line.text = ['}'] ∧ d' = { d with entities := d.entities ++ d.body.toList, body := none } := by
  unfold closeLine at taken
  split at taken
  · next brace => exact ⟨brace, eq_of_take taken⟩
  · exact nomatch taken

theorem closeLine_passed {d : Draft} {line : Line} (passed : closeLine d line = .ok none) : line.text ≠ ['}'] := by
  unfold closeLine at passed
  split at passed
  · exact nomatch passed
  · next other => exact other

/-- Inside bodies every line that is taken makes an attribute, but for the closing brace. -/
theorem body_step {d d' : Draft} {e : Entity} {line : Line} (opened : d.body = some e)
    (taken : readLine bodyRules d line = .ok d') :
    d'.body.isSome = decide (line.text ≠ ['}']) ∧
      d.account.Step line.position (decide (line.text = ['}'])) d'.account := by
  rw [readLine_eq_ok_iff] at taken
  simp only [bodyRules, firstTaking_cons, not_taken_by_none, and_false, or_false] at taken
  rcases taken with closing | ⟨unclosed, listed⟩
  · obtain ⟨brace, rfl⟩ := closeLine_taken closing
    rw [brace]
    exact ⟨rfl, .passed (by simp [Draft.account])⟩
  · have other := closeLine_passed unclosed
    obtain ⟨a, placed, rfl⟩ := attributeLine_taken listed
    rw [decide_eq_true other, decide_eq_false other]
    refine ⟨by rw [opened]; rfl, .once ?_⟩
    unfold Draft.account
    rw [opened, Option.map_some, Option.toList_some, Option.toList_some, places_of_attribute, placed]
    exact .add (.refl _)

theorem step {d d' : Draft} {line : Line} (taken : readLine (rules d) d line = .ok d') :
    d'.body.isSome = plan.next d.body.isSome line.text ∧
      d.account.Step line.position (plan.passes d.body.isSome line.text) d'.account := by
  unfold rules at taken
  cases opened : d.body with
  | none =>
    rw [opened] at taken
    exact outer_step opened taken
  | some e =>
    rw [opened] at taken
    exact body_step opened taken

/-- Every line of an entity-relationship diagram is an entity, a relationship or an attribute, but for
directions and closing braces. -/
theorem read_covers {s : Source} {diagram : EntityDiagram} (read : EntityDiagram.read s = .ok diagram) :
    diagram.account.Covers ((plan.recorded false s.body).map Line.position) := by
  obtain ⟨⟨header, keyword, rest⟩, -, read⟩ := exists_of_bind_ok read
  dsimp only at read
  obtain ⟨direction, -, read⟩ := exists_of_bind_ok read
  obtain ⟨d, run, read⟩ := exists_of_bind_ok read
  have blank : Account.Covers (Draft.account {}) [] := ⟨.refl _, by simp [Draft.account]⟩
  have covers := readLines_covers plan (fun d => d.body.isSome) Draft.account step run blank
  split at read
  · exact nomatch read
  · next closed =>
    obtain rfl := Except.ok.inj read
    have same : d.account = ⟨[d.entities.flatMap Entity.places, d.relationships.map Relationship.position], []⟩ := by
      simp [Draft.account, closed]
    rw [same] at covers
    exact covers

end DiagramLint.EntityDiagram
