import DiagramLint.Proofs.Bodies.Basic
import DiagramLint.Proofs.OpenEntries
import DiagramLint.Proofs.Reading.ClassDiagram

/-!
The bodies of classes. A line that declares a class begins a body if it ends with an opening brace. A class has the
members that the lines of its body are, in order, but for its annotations, of which the last one counts.
-/
namespace DiagramLint.ClassDiagram

open Text

/-! ### Lines -/

/-- The line of a class begins a body. -/
def opensBody (t : Text) : Bool := (afterKeyword? "class" t).any (endsWith ['{'])

/-- The class that a line declares, with nothing in it. -/
def declared? (line : Line) : Option Definition :=
  (afterKeyword? "class" line.text).bind fun rest =>
    let (rest, label) := splitClassLabel (dropClass (splitBrace rest).1)
    let (id, generic) := splitGeneric rest
    if isIdentifier id then some ⟨id, generic, label, none, [], line.position⟩ else none

/-- The annotation that a line of a body is. -/
def loneStereotype? (t : Text) : Option Text :=
  match stereotype? t with
  | some (stereotype, []) => some stereotype
  | _ => none

/-- The class is the one that a line declares, with the members and the annotation of the lines of its body. -/
structure Filled (first : Line) (inside : List Line) (c : Definition) : Prop where
  declared : declared? first = some { c with stereotype := none, members := [] }
  members : c.members.map some =
    (inside.filter fun l => (loneStereotype? l.text).isNone).map fun l => member? l.position l.text
  stereotype : c.stereotype = (inside.filterMap fun l => loneStereotype? l.text).getLast?

/-- How the bodies of classes are read. -/
def bodies : BodyReader Draft Definition where
  rules := rules
  entries := Draft.classes
  body := Draft.body
  opens := opensBody
  enters line := (declared? line).isSome
  Holds := Filled

/-- The source has the header of a class diagram, behind which nothing has been read. -/
def Begins (s : Source) (d : Draft) : Prop := (∃ header, s.bareHeader "classDiagram" = .ok header) ∧ d = {}

variable {d d' : Draft} {c : Definition} {first line : Line} {inside : List Line} {p : Position} {e : ParseError}
  {s : Source}

namespace Filled

theorem empty (declares : declared? first = some c) : Filled first [] c := by
  have bare : c.members = [] ∧ c.stereotype = none := by
    obtain ⟨rest, -, declares⟩ := Option.bind_eq_some_iff.mp declares
    simp only [Option.ite_none_right_eq_some, Option.some.injEq] at declares
    obtain ⟨-, rfl⟩ := declares
    exact ⟨rfl, rfl⟩
  obtain ⟨members, stereotype⟩ := bare
  refine ⟨?_, by simp [members], by simp [stereotype]⟩
  rw [declares, ← members, ← stereotype]

theorem add_member {m : Member} (filled : Filled first inside c) (plain : loneStereotype? line.text = none)
    (made : member? line.position line.text = some m) :
    Filled first (inside ++ [line]) { c with members := c.members ++ [m] } :=
  ⟨filled.declared, by simp [filled.members, plain, made], by simp [filled.stereotype, plain]⟩

theorem annotate {t : Text} (filled : Filled first inside c) (marked : loneStereotype? line.text = some t) :
    Filled first (inside ++ [line]) { c with stereotype := some t } :=
  ⟨filled.declared, by simp [filled.members, marked], by simp [marked]⟩

theorem position (filled : Filled first inside c) : c.position = first.position := by
  obtain ⟨rest, -, declares⟩ := Option.bind_eq_some_iff.mp filled.declared
  simp only [Option.ite_none_right_eq_some, Option.some.injEq, Definition.mk.injEq] at declares
  exact declares.2.2.2.2.2.2.symm

end Filled

/-! ### What a line does -/

theorem splitBrace_opens (t : Text) : (splitBrace t).2 = endsWith ['{'] t := by
  unfold splitBrace endsWith
  cases dropEnd? ['{'] t with
  | none => rfl
  | some before => rfl

theorem classLine_declares (taken : classLine d line = .ok (some d')) : ∃ c, declared? line = some c ∧
    d' = if opensBody line.text then { d with body := some c } else { d with classes := d.classes ++ [c] } := by
  unfold classLine at taken
  split at taken
  · cases taken
  · next rest after =>
    dsimp only at taken
    rw [splitBrace_opens] at taken
    split at taken
    · next identifies =>
      rw [declared?, after, Option.bind_some, opensBody, after, Option.any_some]
      dsimp only
      rw [if_pos identifies]
      refine ⟨_, rfl, ?_⟩
      split at taken
      · next opened => rw [if_pos opened, eq_of_take taken]
      · next closed => rw [if_neg closed, eq_of_take taken]
    · cases taken

theorem declared?_of_passed (passed : classLine d line = .ok none) :
    declared? line = none ∧ opensBody line.text = false := by
  have other : afterKeyword? "class" line.text = none := by
    unfold classLine at passed
    split at passed
    · next other => exact other
    · dsimp only at passed
      split at passed
      · split at passed
        · cases passed
        · cases passed
      · cases passed
  rw [declared?, opensBody, other]
  exact ⟨rfl, rfl⟩

theorem outside_of_read (closed : d.body = none) (taken : readLine (rules d) d line = .ok d') :
    bodies.Outside d line d' := by
  rw [rules, closed, readLine_eq_ok_iff] at taken
  simp only [Option.isSome_none, Bool.false_eq_true, if_false, outerRules, firstTaking_cons, not_taken_by_none,
    and_false, or_false] at taken
  rcases taken with declared | ⟨undeclared, others⟩
  · obtain ⟨c, declares, rfl⟩ := classLine_declares declared
    have enters : (declared? line).isSome = true := by rw [declares]; rfl
    by_cases opened : opensBody line.text
    · rw [if_pos opened]
      exact .begins opened enters (Filled.empty declares) rfl rfl
    · rw [if_neg opened]
      exact .entry (Bool.eq_false_iff.mpr opened) enters (Filled.empty declares) rfl closed
  · obtain ⟨undeclared, plain⟩ := declared?_of_passed undeclared
    have same : d'.classes = d.classes ∧ d'.body = d.body := by
      rcases others with annotated | ⟨_, noted | ⟨_, directed | ⟨_, related | ⟨_, owned⟩⟩⟩⟩
      · obtain ⟨-, a, -, rfl⟩ := annotationLine_taken annotated
        exact ⟨rfl, rfl⟩
      · obtain ⟨-, n, -, rfl⟩ := noteLine_taken noted
        exact ⟨rfl, rfl⟩
      · obtain ⟨-, direction, rfl⟩ := directionLine_taken directed
        exact ⟨rfl, rfl⟩
      · obtain ⟨r, -, rfl⟩ := relationshipLine_taken related
        exact ⟨rfl, rfl⟩
      · obtain ⟨m, -, rfl⟩ := memberLine_taken owned
        exact ⟨rfl, rfl⟩
    exact .other plain (congrArg Option.isSome undeclared) same.1 (same.2.trans closed)

theorem inside_of_read (opened : d.body = some c) (taken : readLine (rules d) d line = .ok d') :
    bodies.Inside d c line d' := by
  rw [rules, opened, readLine_eq_ok_iff] at taken
  simp only [Option.isSome_some, if_true, bodyRules, firstTaking_cons, not_taken_by_none, and_false, or_false] at taken
  rcases taken with closing | ⟨unclosed, others⟩
  · obtain ⟨brace, rfl⟩ := closeLine_taken closing
    exact .closes (by simpa [Line.isBrace] using brace) (by rw [opened]; rfl) rfl
  · have other : line.isBrace = false := by simpa [Line.isBrace] using closeLine_passed unclosed
    rcases others with annotated | ⟨unannotated, listed⟩
    · unfold bodyAnnotationLine at annotated
      split at annotated
      · cases annotated
      · next t found =>
        have marked : loneStereotype? line.text = some t := by rw [loneStereotype?, found]
        rw [eq_of_take annotated]
        exact .fills other (fun _ _ filled => filled.annotate marked) rfl (by rw [opened]; rfl)
      · cases annotated
    · have plain : loneStereotype? line.text = none := by rw [loneStereotype?, bodyAnnotationLine_passed unannotated]
      obtain ⟨m, made, same⟩ := exists_of_map_ok listed
      obtain rfl := Option.some.inj same
      have read : member? line.position line.text = some m := by
        unfold member at made
        split at made
        · next found => rw [found, Except.ok.inj made]
        · cases made
      exact .fills other (fun _ _ filled => filled.add_member plain read) rfl (by rw [opened]; rfl)

theorem bodies_laws : bodies.Laws := ⟨outside_of_read, inside_of_read⟩

/-! ### Refusals -/

theorem member_forWording (line : Line) (t : Text) : ForWording (member line t) := by
  unfold member
  split
  · trivial
  · exact .inl rfl

theorem classLine_forWording (d : Draft) (line : Line) : ForWording (classLine d line) := by
  unfold classLine
  split
  · trivial
  · dsimp only
    split
    · split <;> trivial
    · exact .inl rfl

theorem annotationLine_forWording (d : Draft) (line : Line) : ForWording (annotationLine d line) := by
  unfold annotationLine
  split
  · trivial
  · split
    · trivial
    · exact .inl rfl

theorem noteLine_forWording (d : Draft) (line : Line) : ForWording (noteLine d line) := by
  unfold noteLine
  split
  · trivial
  · dsimp only
    split
    · exact .inl rfl
    · trivial

theorem directionLine_forWording (d : Draft) (line : Line) : ForWording (directionLine d line) := by
  unfold directionLine
  split
  · trivial
  · exact (ForWording.direction line _).map _

theorem relationship_forWording (line : Line) (before : List Text) (relation : Relation) (after : List Text)
    (label : Option Text) : ForWording (relationship line before relation after label) := by
  unfold relationship
  split
  · exact .inl rfl
  · exact .inl rfl
  · split
    · trivial
    · exact .inl rfl

theorem relationshipLine_forWording (d : Draft) (line : Line) : ForWording (relationshipLine d line) := by
  unfold relationshipLine
  dsimp only
  split
  · trivial
  · exact (relationship_forWording line _ _ _ _).map _

theorem memberLine_forWording (d : Draft) (line : Line) : ForWording (memberLine d line) := by
  unfold memberLine
  split
  · trivial
  · split
    · exact (member_forWording line _).map _
    · trivial

theorem closeLine_forWording (d : Draft) (line : Line) : ForWording (closeLine d line) := by
  unfold closeLine
  split <;> trivial

theorem bodyAnnotationLine_forWording (d : Draft) (line : Line) : ForWording (bodyAnnotationLine d line) := by
  unfold bodyAnnotationLine
  split
  · trivial
  · trivial
  · exact .inl rfl

theorem bodyMemberLine_forWording (d : Draft) (line : Line) : ForWording (bodyMemberLine d line) :=
  (member_forWording line _).map _

theorem readLine_forWording (d : Draft) (line : Line) : ForWording (readLine (rules d) d line) := by
  refine .readLine ?_
  unfold rules
  split
  · simp only [bodyRules, List.forall_mem_cons]
    exact ⟨closeLine_forWording d line, bodyAnnotationLine_forWording d line, bodyMemberLine_forWording d line,
      List.forall_mem_nil _⟩
  · simp only [outerRules, List.forall_mem_cons]
    exact ⟨classLine_forWording d line, annotationLine_forWording d line, noteLine_forWording d line,
      directionLine_forWording d line, relationshipLine_forWording d line, memberLine_forWording d line,
      List.forall_mem_nil _⟩

/-! ### Sources -/

theorem faultsIn (s : Source) : FaultsIn (read s) (Begins s) rules s.body
    fun d => d.body.map fun c => (Fault.classUnclosed c.id).at c.position where
  started_of_ok accepted := by
    obtain ⟨header, found, -⟩ := exists_of_bind_ok accepted
    exact ⟨{}, ⟨header, found⟩, rfl⟩
  started_of_error failed code := by
    rcases bind_error failed with other | ⟨header, found, -⟩
    · have unheaded := code_of_bareHeader other
      rcases code with code | code
      all_goals simp [code] at unheaded
    · exact ⟨{}, ⟨header, found⟩, rfl⟩
  error_iff := by
    rintro d e ⟨⟨header, found⟩, rfl⟩
    rw [read, found]
    cases readLines rules {} s.body with
    | error e' => simp [bind, Except.bind]
    | ok d => cases body : d.body <;> simp [bind, Except.bind, body]
  line_code {d line _} refused := by
    rcases (readLine_forWording d line).of_error refused with code | code
    all_goals simp [code]
  line_place {d _ _} refused := ((Marks.readLine (rules_mark d)).of_error refused).1
  unclosed_code unclosed := by
    obtain ⟨c, -, rfl⟩ := Option.map_eq_some_iff.mp unclosed
    rfl

theorem bodies_describe (s : Source) : bodies.Describes (Begins s) s.body (read s) ClassDiagram.classes := by
  refine bodies_laws.describes (faultsIn s) Filled.position ?_ ?_
  · rintro d ⟨-, rfl⟩
    exact ⟨rfl, rfl⟩
  · intro diagram accepted
    obtain ⟨header, d, found, run, closed, rfl⟩ := exists_of_read accepted
    exact ⟨{}, ⟨⟨header, found⟩, rfl⟩, d, run, closed, rfl⟩

end DiagramLint.ClassDiagram
