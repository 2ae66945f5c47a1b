import DiagramLint.ClassDiagram.Reader
import DiagramLint.Proofs.Coverage.Basic
import DiagramLint.Proofs.Results
import DiagramLint.Proofs.Text.Keywords

/-!
The lines of class diagrams: each is a class, a member, a relationship, an annotation or a note, but
for directions and, inside bodies, annotations and closing braces.
-/
namespace DiagramLint.ClassDiagram

open Text

/-- The places of a class and its members. -/
def Definition.places (c : Definition) : List Position := c.position :: c.members.map Member.position

/-- What a diagram records: classes with their members, members written outside bodies,
relationships, annotations written outside bodies, and notes. -/
def account (diagram : ClassDiagram) : Account :=
  ⟨[diagram.classes.flatMap Definition.places, diagram.members.map fun m => m.member.position,
    diagram.relationships.map Relationship.position, diagram.annotations.map OuterAnnotation.position,
    diagram.notes.map Note.position], []⟩

/-- A class whose line ends with an opening brace begins a body, and a closing brace ends it. Outside
bodies directions are passed over, and inside bodies annotations and the closing brace. -/
def plan : Plan Bool where
  next inside t := if inside then t ≠ ['}'] else (afterKeyword? "class" t).any (endsWith ['{'])
  passes inside t := if inside then t = ['}'] || (stereotype? t).isSome else namesDirection t

/-- What a draft records. The class whose body is open comes last. -/
def Draft.account (d : Draft) : Account :=
  ⟨[(d.classes ++ d.body.toList).flatMap Definition.places, d.members.map fun m => m.member.position,
    d.relationships.map Relationship.position, d.annotations.map OuterAnnotation.position,
    d.notes.map Note.position], []⟩

theorem places_of_class {cs : List Definition} {c : Definition} {p : Position} (places : c.places = [p]) :
    (cs ++ [c]).flatMap Definition.places = cs.flatMap Definition.places ++ [p] := by
  rw [List.flatMap_append, List.flatMap_singleton, places]

/-- A further member of the last class is the last entry. -/
theorem places_of_member (cs : List Definition) (c : Definition) (m : Member) :
    (cs ++ [{ c with members := c.members ++ [m] }]).flatMap Definition.places =
      (cs ++ [c]).flatMap Definition.places ++ [m.position] := by
  simp [Definition.places]

/-- A stereotype begins with a mark. -/
theorem stereotype?_of_begins {t rest : Text} {a : Char} (begun : t = a :: rest) (other : a ≠ '<') :
    stereotype? t = none := by
  have start : dropStart? ['<', '<'] t = none := by simp [begun, dropStart?, Ne.symm other]
  rw [stereotype?, start, Option.bind_none]

/-! ### Lines outside bodies -/

/-- A class stays open if its line ends with an opening brace. -/
theorem classLine_taken {d d' : Draft} {line : Line} (taken : classLine d line = .ok (some d')) :
    namesDirection line.text = false ∧
      ∃ c : Definition, c.places = [line.position] ∧
        ((afterKeyword? "class" line.text).any (endsWith ['{']) = false ∧ d' = { d with classes := d.classes ++ [c] } ∨
          (afterKeyword? "class" line.text).any (endsWith ['{']) = true ∧ d' = { d with body := some c }) := by
  unfold classLine at taken
  split at taken
  · exact nomatch taken
  · next rest after =>
    refine ⟨not_namesDirection (prefix_of_afterKeyword? after) (by decide), ?_⟩
    have brace : (splitBrace rest).2 = endsWith ['{'] rest := by
      unfold splitBrace endsWith
      cases dropEnd? ['{'] rest with
      | none => rfl
      | some before => rfl
    dsimp only at taken
    rw [brace] at taken
    rw [after, Option.any_some]
    split at taken
    · split at taken
      · next opened => exact ⟨_, rfl, .inr ⟨opened, eq_of_take taken⟩⟩
      · next closed =>
        exact ⟨_, rfl, .inl ⟨by simpa using closed, eq_of_take taken⟩⟩
    · exact nomatch taken

theorem classLine_passed {d : Draft} {line : Line} (passed : classLine d line = .ok none) :
    (afterKeyword? "class" line.text).any (endsWith ['{']) = false := by
  unfold classLine at passed
  split at passed
  · next other => rw [other]; rfl
  · dsimp only at passed
    split at passed
    · split at passed
      · exact nomatch passed
      · exact nomatch passed
    · exact nomatch passed

theorem annotationLine_taken {d d' : Draft} {line : Line} (taken : annotationLine d line = .ok (some d')) :
    namesDirection line.text = false ∧
      ∃ a : OuterAnnotation, a.position = line.position ∧ d' = { d with annotations := d.annotations ++ [a] } := by
  unfold annotationLine at taken
  split at taken
  · exact nomatch taken
  · next stereotype owner found =>
    obtain ⟨inner, start, -⟩ := Option.bind_eq_some_iff.mp found
    refine ⟨not_namesDirection (prefix_of_dropStart? start) (by decide), ?_⟩
    split at taken
    · exact ⟨_, rfl, eq_of_take taken⟩
    · exact nomatch taken

theorem noteLine_taken {d d' : Draft} {line : Line} (taken : noteLine d line = .ok (some d')) :
    namesDirection line.text = false ∧
      ∃ n : Note, n.position = line.position ∧ d' = { d with notes := d.notes ++ [n] } := by
  unfold noteLine at taken
  split at taken
  · exact nomatch taken
  · next rest after =>
    refine ⟨not_namesDirection (prefix_of_afterKeyword? after) (by decide), ?_⟩
    dsimp only at taken
    split at taken
    · exact nomatch taken
    · exact ⟨_, rfl, eq_of_take taken⟩

theorem directionLine_taken {d d' : Draft} {line : Line} (taken : directionLine d line = .ok (some d')) :
    namesDirection line.text = true ∧ ∃ direction, d' = { d with direction := some direction } := by
  unfold directionLine at taken
  split at taken
  · exact nomatch taken
  · next rest after => exact set_direction_taken after taken

theorem directionLine_passed {d : Draft} {line : Line} (passed : directionLine d line = .ok none) :
    namesDirection line.text = false := by
  unfold directionLine at passed
  split at passed
  · next other => exact not_namesDirection_of_none other
  · obtain ⟨direction, -, same⟩ := exists_of_map_ok passed
    exact nomatch same

theorem relationship_position {line : Line} {before after : List Text} {relation : Relation} {label : Option Text}
    {r : Relationship} (made : relationship line before relation after label = .ok r) :
    r.position = line.position := by
  unfold relationship at made
  split at made
  · exact nomatch made
  · exact nomatch made
  · split at made
    · obtain rfl := Except.ok.inj made
      rfl
    · exact nomatch made

theorem relationshipLine_taken {d d' : Draft} {line : Line} (taken : relationshipLine d line = .ok (some d')) :
    ∃ r : Relationship, r.position = line.position ∧ d' = { d with relationships := d.relationships ++ [r] } := by
  unfold relationshipLine at taken
  dsimp only at taken
  split at taken
  · exact nomatch taken
  · obtain ⟨r, made, same⟩ := exists_of_map_ok taken
    exact ⟨r, relationship_position made, (Option.some.inj same).symm⟩

theorem member_position {line : Line} {t : Text} {m : Member} (made : member line t = .ok m) :
    m.position = line.position := by
  unfold member at made
  split at made
  · next found =>
    obtain rfl := Except.ok.inj made
    unfold member? at found
    dsimp only at found
    split at found
    · obtain ⟨⟨parameters, rest⟩, -, found⟩ := Option.bind_eq_some_iff.mp found
      dsimp only at found
      split at found
      · obtain rfl := Option.some.inj found
        rfl
      · cases found
    · unfold field? at found
      simp only [Option.ite_none_right_eq_some, Option.some.injEq] at found
      obtain ⟨-, rfl⟩ := found
      rfl
  · cases made

theorem memberLine_taken {d d' : Draft} {line : Line} (taken : memberLine d line = .ok (some d')) :
    ∃ m : OuterMember, m.member.position = line.position ∧ d' = { d with members := d.members ++ [m] } := by
  unfold memberLine at taken
  split at taken
  · exact nomatch taken
  · split at taken
    · obtain ⟨m, made, same⟩ := exists_of_map_ok taken
      exact ⟨⟨_, m⟩, member_position made, (Option.some.inj same).symm⟩
    · exact nomatch taken

/-- Outside bodies every line that is taken makes an entry, but for directions. -/
theorem outer_step {d d' : Draft} {line : Line} (closed : d.body = none)
    (taken : readLine outerRules d line = .ok d') :
    d'.body.isSome = (afterKeyword? "class" line.text).any (endsWith ['{']) ∧
      d.account.Step line.position (namesDirection line.text) d'.account := by
  have still_closed : d.body.isSome = false := by rw [closed]; rfl
  have class_added {classes : List Definition} {body : Option Definition} {c : Definition}
      (places : c.places = [line.position]) (after : classes ++ body.toList = d.classes ++ d.body.toList ++ [c]) :
      d.account.Step line.position false (Draft.account { d with classes := classes, body := body }) := by
    unfold Draft.account
    rw [after, places_of_class places]
    exact .once (.add (.refl _))
  rw [readLine_eq_ok_iff] at taken
  simp only [outerRules, firstTaking_cons, not_taken_by_none, and_false, or_false] at taken
  rcases taken with declared | ⟨undeclared, annotated | ⟨_, noted | ⟨_, directed | ⟨undirected, related | ⟨_, owned⟩⟩⟩⟩⟩
  · obtain ⟨undirected, c, places, ⟨unfinished, rfl⟩ | ⟨brace, rfl⟩⟩ := classLine_taken declared
    · rw [unfinished, undirected]
      exact ⟨still_closed, class_added places (by simp [closed])⟩
    · rw [brace, undirected]
      exact ⟨rfl, class_added places (by simp [closed])⟩
  · obtain ⟨undirected, a, placed, rfl⟩ := annotationLine_taken annotated
    rw [classLine_passed undeclared, undirected]
    exact ⟨still_closed, .once (.keep (.keep (.keep (.entry placed (.refl _)))))⟩
  · obtain ⟨undirected, n, placed, rfl⟩ := noteLine_taken noted
    rw [classLine_passed undeclared, undirected]
    exact ⟨still_closed, .once (.keep (.keep (.keep (.keep (.entry placed (.refl _))))))⟩
  · obtain ⟨names, direction, rfl⟩ := directionLine_taken directed
    rw [classLine_passed undeclared, names]
    exact ⟨still_closed, .passed rfl⟩
  · obtain ⟨r, placed, rfl⟩ := relationshipLine_taken related
    rw [classLine_passed undeclared, directionLine_passed undirected]
    exact ⟨still_closed, .once (.keep (.keep (.entry placed (.refl _))))⟩
  · obtain ⟨m, placed, rfl⟩ := memberLine_taken owned
    rw [classLine_passed undeclared, directionLine_passed undirected]
    exact ⟨still_closed, .once (.keep (.entry placed (.refl _)))⟩

/-! ### Lines of bodies -/

theorem closeLine_taken {d d' : Draft} {line : Line} (taken : closeLine d line = .ok (some d')) :
    line.text = ['}'] ∧ d' = { d with classes := d.classes ++ d.body.toList, body := none } := by
  unfold closeLine at taken
  split at taken
  · next brace => exact ⟨brace, eq_of_take taken⟩
  · exact nomatch taken

theorem closeLine_passed {d : Draft} {line : Line} (passed : closeLine d line = .ok none) : line.text ≠ ['}'] := by
  unfold closeLine at passed
  split at passed
  · exact nomatch passed
  · next other => exact other

theorem bodyAnnotationLine_taken {d d' : Draft} {line : Line} (taken : bodyAnnotationLine d line = .ok (some d')) :
    (stereotype? line.text).isSome = true ∧
      ∃ f : Definition → Definition, (∀ c, (f c).places = c.places) ∧ d' = { d with body := d.body.map f } := by
  unfold bodyAnnotationLine at taken
  split at taken
  · exact nomatch taken
  · next stereotype found =>
    rw [found]
    exact ⟨rfl, fun c => { c with stereotype := some stereotype }, fun c => rfl, eq_of_take taken⟩
  · exact nomatch taken

theorem bodyAnnotationLine_passed {d : Draft} {line : Line} (passed : bodyAnnotationLine d line = .ok none) :
    stereotype? line.text = none := by
  unfold bodyAnnotationLine at passed
  split at passed
  · next plain => exact plain
  · exact nomatch passed
  · exact nomatch passed

theorem bodyMemberLine_taken {d d' : Draft} {line : Line} (taken : bodyMemberLine d line = .ok (some d')) :
    ∃ m : Member, m.position = line.position ∧
      d' = { d with body := d.body.map fun c => { c with members := c.members ++ [m] } } := by
  obtain ⟨m, made, same⟩ := exists_of_map_ok taken
  exact ⟨m, member_position made, (Option.some.inj same).symm⟩

/-- Inside bodies every line that is taken makes a member, but for annotations and the closing brace. -/
theorem body_step {d d' : Draft} {c : Definition} {line : Line} (opened : d.body = some c)
    (taken : readLine bodyRules d line = .ok d') :
    d'.body.isSome = decide (line.text ≠ ['}']) ∧
      d.account.Step line.position (line.text = ['}'] || (stereotype? line.text).isSome) d'.account := by
  have still_open {f : Definition → Definition} : (d.body.map f).isSome = true := by rw [opened]; rfl
  rw [readLine_eq_ok_iff] at taken
  simp only [bodyRules, firstTaking_cons, not_taken_by_none, and_false, or_false] at taken
  rcases taken with closing | ⟨unclosed, others⟩
  · obtain ⟨brace, rfl⟩ := closeLine_taken closing
    rw [brace]
    exact ⟨rfl, .passed (by simp [Draft.account])⟩
  · have other := closeLine_passed unclosed
    rw [decide_eq_true other, decide_eq_false other, Bool.false_or]
    rcases others with annotated | ⟨unannotated, listed⟩
    · obtain ⟨stereotyped, f, kept, rfl⟩ := bodyAnnotationLine_taken annotated
      rw [stereotyped]
      refine ⟨still_open, .passed ?_⟩
      simp [Draft.account, opened, kept]
    · obtain ⟨m, placed, rfl⟩ := bodyMemberLine_taken listed
      rw [bodyAnnotationLine_passed unannotated]
      refine ⟨still_open, .once ?_⟩
      unfold Draft.account
      rw [opened, Option.map_some, Option.toList_some, Option.toList_some, places_of_member, placed]
      exact .add (.refl _)

theorem step {d d' : Draft} {line : Line} (taken : readLine (rules d) d line = .ok d') :
    d'.body.isSome = plan.next d.body.isSome line.text ∧
      d.account.Step line.position (plan.passes d.body.isSome line.text) d'.account := by
  unfold rules at taken
  cases opened : d.body with
  | none =>
    rw [opened] at taken
    exact outer_step opened taken
  | some c =>
    rw [opened] at taken
    exact body_step opened taken

/-- A diagram holds what was read of all lines, with no body open behind them. -/
theorem exists_of_read {s : Source} {diagram : ClassDiagram} (accepted : ClassDiagram.read s = .ok diagram) :
    ∃ header d, s.bareHeader "classDiagram" = .ok header ∧ readLines rules {} s.body = .ok d ∧ d.body = none ∧
      diagram = ⟨s.header .classDiagram header, d.direction, d.classes, d.members, d.relationships, d.annotations,
        d.notes⟩ := by
  obtain ⟨header, found, made⟩ := exists_of_bind_ok accepted
  obtain ⟨d, run, made⟩ := exists_of_bind_ok made
  split at made
  · cases made
  · next closed => exact ⟨header, d, found, run, closed, (Except.ok.inj made).symm⟩

theorem kind_of_read {s : Source} {diagram : ClassDiagram} (accepted : ClassDiagram.read s = .ok diagram) :
    diagram.header.kind = .classDiagram := by
  obtain ⟨header, d, -, -, -, rfl⟩ := exists_of_read accepted
  rfl

/-- Every line of a class diagram is a class, a member, a relationship, an annotation or a note, but for
directions and, inside bodies, annotations and closing braces. -/
theorem read_covers {s : Source} {diagram : ClassDiagram} (read : ClassDiagram.read s = .ok diagram) :
    diagram.account.Covers ((plan.recorded false s.body).map Line.position) := by
  obtain ⟨header, d, -, run, closed, rfl⟩ := exists_of_read read
  have blank : Account.Covers (Draft.account {}) [] := ⟨.refl _, by simp [Draft.account]⟩
  have covers := readLines_covers plan (fun d => d.body.isSome) Draft.account step run blank
  have same : d.account = ClassDiagram.account ⟨s.header .classDiagram header, d.direction, d.classes, d.members,
      d.relationships, d.annotations, d.notes⟩ := by
    simp [Draft.account, account, closed]
  rw [same] at covers
  exact covers

end DiagramLint.ClassDiagram
