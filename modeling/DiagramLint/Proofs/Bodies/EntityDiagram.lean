import DiagramLint.Proofs.Bodies.Basic
import DiagramLint.Proofs.OpenEntries
import DiagramLint.Proofs.Reading.EntityDiagram

/-!
The bodies of entities. A line that ends with an opening brace begins the body of an entity, and each line of the
body is an attribute, in order. An entity without a body has none, and one with two braces behind its name neither.
-/
namespace DiagramLint.EntityDiagram

open Text

/-! ### Lines -/

/-- The line begins the body of an entity. -/
def opensBody (t : Text) : Bool := endsWith ['{'] t

/-- The line draws a relationship. -/
def drawsRelationship (t : Text) : Bool :=
  match tokens (headAndLabel t).1 with
  | [_, word, _] => (Connector.ofSymbol? word).isSome
  | _ => false

/-- The entity that a line makes, with nothing in it. -/
def declared? (line : Line) : Option Entity :=
  match (dropEnd? ['{', '}'] line.text).or (dropEnd? ['{'] line.text) with
  | some head => (nameAndLabel? (trimEnd head)).map fun (name, label) => ⟨name, label, true, [], line.position⟩
  | none =>
    if drawsRelationship line.text || namesDirection line.text then none
    else (nameAndLabel? line.text).map fun (name, label) => ⟨name, label, false, [], line.position⟩

/-- The entity is the one that a line makes, with the attributes that the lines of its body are. -/
structure Filled (first : Line) (inside : List Line) (e : Entity) : Prop where
  declared : declared? first = some { e with attributes := [] }
  attributes : e.attributes.map some = inside.map attribute?

/-- How the bodies of entities are read. -/
def bodies : BodyReader Draft Entity where
  rules := rules
  entries := Draft.entities
  body := Draft.body
  opens := opensBody
  enters line := (declared? line).isSome
  Holds := Filled

/-- The source has the header of an entity-relationship diagram, behind which nothing but a direction in it has been
read. -/
def Begins (s : Source) (d : Draft) : Prop :=
  ∃ header keyword rest direction, s.headerWith ["erDiagram"] = .ok (header, keyword, rest) ∧
    headerDirection header rest = .ok direction ∧ d = { direction := direction }

variable {d d' : Draft} {entity : Entity} {first line : Line} {inside : List Line} {p : Position} {e : ParseError}
  {s : Source} {head t : Text}

theorem declared?_cases (declares : declared? line = some entity) :
    entity.attributes = [] ∧ entity.position = line.position := by
  unfold declared? at declares
  split at declares
  · obtain ⟨_, -, rfl⟩ := Option.map_eq_some_iff.mp declares
    exact ⟨rfl, rfl⟩
  · split at declares
    · cases declares
    · obtain ⟨_, -, rfl⟩ := Option.map_eq_some_iff.mp declares
      exact ⟨rfl, rfl⟩

namespace Filled

theorem empty (declares : declared? first = some entity) : Filled first [] entity := by
  have bare := (declared?_cases declares).1
  refine ⟨?_, by simp [bare]⟩
  rw [declares, ← bare]

theorem add_attribute {a : Attribute} (filled : Filled first inside entity) (made : attribute? line = some a) :
    Filled first (inside ++ [line]) { entity with attributes := entity.attributes ++ [a] } :=
  ⟨filled.declared, by simp [filled.attributes, made]⟩

theorem position (filled : Filled first inside entity) : entity.position = first.position :=
  (declared?_cases filled.declared).2

end Filled

/-! ### What a line does -/

theorem bodiedEntity_declared (made : bodiedEntity line (trimEnd head) = .ok entity)
    (found : (dropEnd? ['{', '}'] line.text).or (dropEnd? ['{'] line.text) = some head) :
    declared? line = some entity := by
  unfold bodiedEntity at made
  split at made
  · next name label named =>
    rw [declared?, found, ← Except.ok.inj made]
    simp [named]
  · cases made

theorem openLine_declares (taken : openLine d line = .ok (some d')) : ∃ entity, declared? line = some entity ∧
    d' = if opensBody line.text then { d with body := some entity }
      else { d with entities := d.entities ++ [entity] } := by
  unfold openLine at taken
  split at taken
  · next head empty =>
    obtain ⟨entity, made, same⟩ := exists_of_map_ok taken
    have unopened := (endsWith_of_emptyBody (t := line.text) (by simp [empty])).2
    refine ⟨entity, bodiedEntity_declared made (by simp [empty]), ?_⟩
    rw [opensBody, if_neg (by simp [unopened]), Option.some.inj same]
  · next filled =>
    split at taken
    · next head opened =>
      obtain ⟨entity, made, same⟩ := exists_of_map_ok taken
      have opens : endsWith ['{'] line.text = true := by rw [endsWith, opened]; rfl
      refine ⟨entity, bodiedEntity_declared made (by simp [filled, opened]), ?_⟩
      rw [opensBody, if_pos opens, Option.some.inj same]
    · cases taken

theorem declared?_of_unopened (passed : openLine d line = .ok none) : opensBody line.text = false ∧
    declared? line = if drawsRelationship line.text || namesDirection line.text then none
      else (nameAndLabel? line.text).map fun (name, label) => ⟨name, label, false, [], line.position⟩ := by
  unfold openLine at passed
  split at passed
  · obtain ⟨entity, -, same⟩ := exists_of_map_ok passed
    cases same
  · next filled =>
    split at passed
    · obtain ⟨entity, -, same⟩ := exists_of_map_ok passed
      cases same
    · next unopened =>
      rw [opensBody, endsWith, unopened, declared?, filled, unopened]
      exact ⟨rfl, rfl⟩

theorem drawsRelationship_of_three {left word right : Text} (parts : tokens (headAndLabel t).1 = [left, word, right]) :
    drawsRelationship t = (Connector.ofSymbol? word).isSome := by
  rw [drawsRelationship, parts]

theorem drawsRelationship_of_others (other : ∀ left word right, tokens (headAndLabel t).1 ≠ [left, word, right]) :
    drawsRelationship t = false := by
  unfold drawsRelationship
  split
  · next left word right parts => exact absurd parts (other left word right)
  · rfl

theorem relationshipLine_draws (taken : relationshipLine d line = .ok (some d')) :
    drawsRelationship line.text = true := by
  unfold relationshipLine at taken
  dsimp only at taken
  split at taken
  · next left word right parts =>
    rw [drawsRelationship_of_three parts]
    split at taken
    · cases taken
    · next connector found => rw [found, Option.isSome_some]
  · cases taken

theorem drawsRelationship_of_passed (passed : relationshipLine d line = .ok none) :
    drawsRelationship line.text = false := by
  unfold relationshipLine at passed
  dsimp only at passed
  split at passed
  · next left word right parts =>
    rw [drawsRelationship_of_three parts]
    split at passed
    · next other => rw [other, Option.isSome_none]
    · split at passed
      · cases passed
      · cases passed
  · next other => exact drawsRelationship_of_others other

theorem outside_of_read (closed : d.body = none) (taken : readLine (rules d) d line = .ok d') :
    bodies.Outside d line d' := by
  rw [rules, closed, readLine_eq_ok_iff] at taken
  simp only [Option.isSome_none, Bool.false_eq_true, if_false, outerRules, firstTaking_cons, not_taken_by_none,
    and_false, or_false] at taken
  rcases taken with opened | ⟨unopened, others⟩
  · obtain ⟨entity, declares, rfl⟩ := openLine_declares opened
    have enters : (declared? line).isSome = true := by rw [declares]; rfl
    by_cases opened : opensBody line.text
    · rw [if_pos opened]
      exact .begins opened enters (Filled.empty declares) rfl rfl
    · rw [if_neg opened]
      exact .entry (Bool.eq_false_iff.mpr opened) enters (Filled.empty declares) rfl closed
  · obtain ⟨plain, declared⟩ := declared?_of_unopened unopened
    rcases others with related | ⟨unrelated, directed | ⟨undirected, closing | ⟨_, named⟩⟩⟩
    · obtain ⟨-, r, -, rfl⟩ := relationshipLine_taken related
      rw [relationshipLine_draws related, Bool.true_or, if_pos rfl] at declared
      exact .other plain (congrArg Option.isSome declared) rfl closed
    · obtain ⟨names, direction, rfl⟩ := directionLine_taken directed
      rw [names, Bool.or_true, if_pos rfl] at declared
      exact .other plain (congrArg Option.isSome declared) rfl closed
    · unfold strayCloseLine at closing
      split at closing
      · cases closing
      · cases closing
    · unfold entityLine at named
      split at named
      · next name label found =>
        rw [drawsRelationship_of_passed unrelated, directionLine_passed undirected, Bool.or_false,
          if_neg Bool.false_ne_true, found] at declared
        rw [eq_of_take named]
        exact .entry plain (congrArg Option.isSome declared) (Filled.empty declared) rfl closed
      · cases named

theorem inside_of_read (opened : d.body = some entity) (taken : readLine (rules d) d line = .ok d') :
    bodies.Inside d entity line d' := by
  rw [rules, opened, readLine_eq_ok_iff] at taken
  simp only [Option.isSome_some, if_true, bodyRules, firstTaking_cons, not_taken_by_none, and_false, or_false] at taken
  rcases taken with closing | ⟨unclosed, listed⟩
  · obtain ⟨brace, rfl⟩ := closeLine_taken closing
    exact .closes (by simpa [Line.isBrace] using brace) (by rw [opened]; rfl) rfl
  · have other : line.isBrace = false := by simpa [Line.isBrace] using closeLine_passed unclosed
    unfold attributeLine at listed
    split at listed
    · next a made =>
      rw [eq_of_take listed]
      exact .fills other (fun _ _ filled => filled.add_attribute made) rfl (by rw [opened]; rfl)
    · cases listed

theorem bodies_laws : bodies.Laws := ⟨outside_of_read, inside_of_read⟩

/-! ### Refusals -/

theorem bodiedEntity_forWording (line : Line) (head : Text) : ForWording (bodiedEntity line head) := by
  unfold bodiedEntity
  split
  · trivial
  · exact .inl rfl

theorem openLine_forWording (d : Draft) (line : Line) : ForWording (openLine d line) := by
  unfold openLine
  split
  · exact (bodiedEntity_forWording line _).map _
  · split
    · exact (bodiedEntity_forWording line _).map _
    · trivial

theorem relationshipLine_forWording (d : Draft) (line : Line) : ForWording (relationshipLine d line) := by
  unfold relationshipLine
  dsimp only
  split
  · split
    · trivial
    · split
      · trivial
      · exact .inl rfl
  · trivial

theorem directionLine_forWording (d : Draft) (line : Line) : ForWording (directionLine d line) := by
  unfold directionLine
  split
  · trivial
  · exact (ForWording.direction line _).map _

theorem entityLine_forWording (d : Draft) (line : Line) : ForWording (entityLine d line) := by
  unfold entityLine
  split <;> trivial

theorem closeLine_forWording (d : Draft) (line : Line) : ForWording (closeLine d line) := by
  unfold closeLine
  split <;> trivial

theorem attributeLine_forWording (d : Draft) (line : Line) : ForWording (attributeLine d line) := by
  unfold attributeLine
  split
  · trivial
  · exact .inl rfl

/-- A line is refused for its wording, or as a brace that closes nothing. -/
theorem code_of_refused (refused : readLine (rules d) d line = .error e) :
    (e.code = .e100 ∨ e.code = .e101) ∨ e.code = .e201 := by
  rcases refused_by refused with ⟨rule, member, refused⟩ | rfl
  · unfold rules at member
    split at member
    · simp only [bodyRules, List.mem_cons, List.not_mem_nil, or_false] at member
      rcases member with rfl | rfl
      · exact .inl ((closeLine_forWording d line).of_error refused)
      · exact .inl ((attributeLine_forWording d line).of_error refused)
    · simp only [outerRules, List.mem_cons, List.not_mem_nil, or_false] at member
      rcases member with rfl | rfl | rfl | rfl | rfl
      · exact .inl ((openLine_forWording d line).of_error refused)
      · exact .inl ((relationshipLine_forWording d line).of_error refused)
      · exact .inl ((directionLine_forWording d line).of_error refused)
      · simp only [strayCloseLine] at refused
        split at refused
        · obtain rfl := Except.error.inj refused
          exact .inr rfl
        · cases refused
      · exact .inl ((entityLine_forWording d line).of_error refused)
  · exact .inl (.inl rfl)

/-! ### Sources -/

theorem code_of_headerDirection {rest : Text} (failed : headerDirection line rest = .error e) : e.code = .e003 := by
  unfold headerDirection at failed
  split at failed
  · cases failed
  · obtain rfl := Except.error.inj failed
    rfl
  · obtain rfl := Except.error.inj failed
    rfl
  · cases failed

theorem faultsIn (s : Source) : FaultsIn (read s) (Begins s) rules s.body
    fun d => d.body.map fun entity => (Fault.entityUnclosed entity.name).at entity.position where
  started_of_ok accepted := by
    obtain ⟨⟨header, keyword, rest⟩, found, made⟩ := exists_of_bind_ok accepted
    obtain ⟨direction, named, -⟩ := exists_of_bind_ok made
    exact ⟨_, header, keyword, rest, direction, found, named, rfl⟩
  started_of_error failed code := by
    rcases bind_error failed with other | ⟨⟨header, keyword, rest⟩, found, failed⟩
    · have unheaded := code_of_headerWith other
      rcases code with code | code
      all_goals simp [code] at unheaded
    · rcases bind_error failed with other | ⟨direction, named, -⟩
      · have unheaded := code_of_headerDirection other
        rcases code with code | code
        all_goals simp [code] at unheaded
      · exact ⟨_, header, keyword, rest, direction, found, named, rfl⟩
  error_iff := by
    rintro d e ⟨header, keyword, rest, direction, found, named, rfl⟩
    rw [read, found]
    cases run : readLines rules { direction := direction } s.body with
    | error e' => simp [bind, Except.bind, named, run]
    | ok d => cases body : d.body <;> simp [bind, Except.bind, named, run, body]
  line_code {d line _} refused := by
    rcases code_of_refused refused with (code | code) | code
    all_goals simp [code]
  line_place {d _ _} refused := ((Marks.readLine (rules_mark d)).of_error refused).1
  unclosed_code unclosed := by
    obtain ⟨c, -, rfl⟩ := Option.map_eq_some_iff.mp unclosed
    rfl

theorem exists_of_read {diagram : EntityDiagram} (accepted : read s = .ok diagram) :
    ∃ d, Begins s d ∧ ∃ d', readLines rules d s.body = .ok d' ∧ d'.body = none ∧ d'.entities = diagram.entities := by
  obtain ⟨⟨header, keyword, rest⟩, found, made⟩ := exists_of_bind_ok accepted
  obtain ⟨direction, named, made⟩ := exists_of_bind_ok made
  obtain ⟨d, run, made⟩ := exists_of_bind_ok made
  split at made
  · cases made
  · next closed =>
    obtain rfl := Except.ok.inj made
    exact ⟨_, ⟨header, keyword, rest, direction, found, named, rfl⟩, d, run, closed, rfl⟩

theorem bodies_describe (s : Source) : bodies.Describes (Begins s) s.body (read s) EntityDiagram.entities := by
  refine bodies_laws.describes (faultsIn s) Filled.position ?_ exists_of_read
  rintro d ⟨header, keyword, rest, direction, -, -, rfl⟩
  exact ⟨rfl, rfl⟩

end DiagramLint.EntityDiagram
