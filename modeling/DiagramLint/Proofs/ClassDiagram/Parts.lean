import DiagramLint.Proofs.Bodies.ClassDiagram

/-!
The ids in class diagrams. A line outside bodies, or one that begins a body with the lines up to its closing brace, adds
the same ids wherever it stands and whatever stands in front of it (`part_alike`). So the parts of a diagram may be put
in another order, and its ids are the same in another order (`ids_of_moved`).
-/
namespace DiagramLint.ClassDiagram

open Text

/-- What an id in a class diagram is there for. -/
inductive Role where
  | declaration | relationship | note | stereotype | member
  deriving DecidableEq, Repr

/-- The ids of a diagram that are there for one thing. -/
def ids (diagram : ClassDiagram) : Role → List Text
  | .declaration => diagram.classes.map Definition.id
  | .relationship => diagram.relationships.flatMap fun r => [r.source, r.target]
  | .note => diagram.notes.filterMap Note.target
  | .stereotype => diagram.annotations.map OuterAnnotation.owner
  | .member => diagram.members.map OuterMember.owner

/-- The ids of a draft. The class whose body is open is declared, too. -/
def Draft.ids (d : Draft) : Role → List Text
  | .declaration => (d.classes ++ d.body.toList).map Definition.id
  | .relationship => d.relationships.flatMap fun r => [r.source, r.target]
  | .note => d.notes.filterMap Note.target
  | .stereotype => d.annotations.map OuterAnnotation.owner
  | .member => d.members.map OuterMember.owner

/-- A draft has the ids of another one behind some ids, and a body is open in both or in neither. -/
structure Behind (before : Role → List Text) (d c : Draft) : Prop where
  ids : ∀ role, d.ids role = before role ++ c.ids role
  body : d.body.isSome = c.body.isSome

variable {before : Role → List Text} {d c d' c' : Draft} {line other : Line} {diagram : ClassDiagram} {s s' : Source}
  {t : Text} {ps ps' : List Part}

/-! ### One line -/

/-- Both drafts have more ids for one thing. -/
theorem Behind.add (behind : Behind before d c) (role : Role) (more : List Text)
    (left : ∀ r, d'.ids r = d.ids r ++ if r = role then more else [])
    (right : ∀ r, c'.ids r = c.ids r ++ if r = role then more else [])
    (body : d'.body.isSome = c'.body.isSome) : Behind before d' c' := by
  refine ⟨fun r => ?_, body⟩
  rw [left, right, behind.ids, List.append_assoc]

/-- Neither draft has more ids. -/
theorem Behind.keep (behind : Behind before d c) (left : d'.ids = d.ids) (right : c'.ids = c.ids)
    (body : d'.body.isSome = c'.body.isSome) : Behind before d' c' := by
  refine ⟨fun r => ?_, body⟩
  rw [left, right, behind.ids]

theorem method?_place (p q : Position) (visibility : Option Visibility) (front rest : Text) :
    method? p visibility front rest = (method? q visibility front rest).map fun m => { m with position := p } := by
  unfold method?
  cases cutLast? ')' rest with
  | none => rfl
  | some parts =>
    dsimp only [Option.bind_some]
    split <;> rfl

theorem field?_place (p q : Position) (visibility : Option Visibility) (t : Text) :
    field? p visibility t = (field? q visibility t).map fun m => { m with position := p } := by
  unfold field?
  dsimp only
  rw [apply_ite (Option.map _)]
  rfl

/-- Members are read alike wherever they stand. -/
theorem member?_place (p q : Position) (t : Text) :
    member? p t = (member? q t).map fun m => { m with position := p } := by
  unfold member?
  dsimp only
  split
  · exact method?_place ..
  · exact field?_place ..

theorem member_alike (line other : Line) (t : Text) : Alike (fun _ _ => True) (member line t) (member other t) := by
  unfold member
  rw [member?_place line.position other.position]
  cases member? other.position t with
  | none => exact .faults _ _
  | some m => exact .results trivial

/-- Both drafts declare a class of the same id, which is put to the others or whose body is open. -/
theorem Behind.declare (behind : Behind before d c) (closed : d.body = none) {a a' : Definition} (same : a.id = a'.id) :
    Behind before { d with classes := d.classes ++ [a] } { c with classes := c.classes ++ [a'] } ∧
      Behind before { d with body := some a } { c with body := some a' } := by
  have closed' : c.body = none := by simpa [closed] using behind.body
  constructor
  · refine behind.add .declaration [a.id] ?_ ?_ behind.body
    · rintro ⟨⟩ <;> simp [Draft.ids, closed]
    · rintro ⟨⟩ <;> simp [Draft.ids, closed', same]
  · refine behind.add .declaration [a.id] ?_ ?_ rfl
    · rintro ⟨⟩ <;> simp [Draft.ids, closed]
    · rintro ⟨⟩ <;> simp [Draft.ids, closed', same]

theorem classLine_alike (behind : Behind before d c) (closed : d.body = none) (same : line.text = other.text) :
    Alike (Option.Rel (Behind before)) (classLine d line) (classLine c other) := by
  unfold classLine
  rw [same]
  split
  · exact .results .none
  · dsimp only
    split
    · split
      · exact .results (.some (behind.declare closed (by rfl)).2)
      · exact .results (.some (behind.declare closed (by rfl)).1)
    · exact .faults _ _

theorem annotationLine_alike (behind : Behind before d c) (same : line.text = other.text) :
    Alike (Option.Rel (Behind before)) (annotationLine d line) (annotationLine c other) := by
  unfold annotationLine
  rw [same]
  split
  · exact .results .none
  · next stereotype owner _ =>
    split
    · refine .results (.some (behind.add .stereotype [owner] ?_ ?_ behind.body))
      · rintro ⟨⟩ <;> simp [Draft.ids]
      · rintro ⟨⟩ <;> simp [Draft.ids]
    · exact .faults _ _

theorem noteLine_alike (behind : Behind before d c) (same : line.text = other.text) :
    Alike (Option.Rel (Behind before)) (noteLine d line) (noteLine c other) := by
  unfold noteLine
  rw [same]
  split
  · exact .results .none
  · next rest _ =>
    dsimp only
    generalize (noteParts rest).1 = target
    split
    · exact .faults _ _
    · refine .results (.some (behind.add .note target.toList ?_ ?_ behind.body))
      · rintro ⟨⟩ <;> cases target <;> simp [Draft.ids]
      · rintro ⟨⟩ <;> cases target <;> simp [Draft.ids]

theorem directionLine_alike (behind : Behind before d c) (same : line.text = other.text) :
    Alike (Option.Rel (Behind before)) (directionLine d line) (directionLine c other) := by
  unfold directionLine
  rw [same]
  split
  · exact .results .none
  · next rest _ =>
    unfold Line.direction
    cases Direction.ofName? rest with
    | none => exact .faults _ _
    | some direction => exact .results (.some (behind.keep rfl rfl behind.body))

theorem relationship_alike (line other : Line) (front rest : List Text) (relation : Relation) (label : Option Text) :
    Alike (fun r r' => r.source = r'.source ∧ r.target = r'.target) (relationship line front relation rest label)
      (relationship other front relation rest label) := by
  unfold relationship
  split
  · exact .faults _ _
  · exact .faults _ _
  · split
    · exact .results ⟨rfl, rfl⟩
    · exact .faults _ _

theorem relationshipLine_alike (behind : Behind before d c) (same : line.text = other.text) :
    Alike (Option.Rel (Behind before)) (relationshipLine d line) (relationshipLine c other) := by
  unfold relationshipLine
  rw [same]
  dsimp only
  split
  · exact .results .none
  · refine (relationship_alike line other _ _ _ _).map ?_
    rintro r r' ⟨source, target⟩
    refine .some (behind.add .relationship [r.source, r.target] ?_ ?_ behind.body)
    · rintro ⟨⟩ <;> simp [Draft.ids]
    · rintro ⟨⟩ <;> simp [Draft.ids, source, target]

theorem memberLine_alike (behind : Behind before d c) (same : line.text = other.text) :
    Alike (Option.Rel (Behind before)) (memberLine d line) (memberLine c other) := by
  unfold memberLine
  rw [same]
  split
  · exact .results .none
  · next owner text _ =>
    split
    · refine (member_alike line other _).map ?_
      rintro m m' -
      refine .some (behind.add .member [owner] ?_ ?_ behind.body)
      · rintro ⟨⟩ <;> simp [Draft.ids]
      · rintro ⟨⟩ <;> simp [Draft.ids]
    · exact .results .none

/-- A change of the class whose body is open, but for its id. -/
theorem Draft.ids_map_body {f : Definition → Definition} (kept : ∀ a, (f a).id = a.id) (d : Draft) :
    Draft.ids { d with body := d.body.map f } = d.ids := by
  funext role
  cases role <;> cases body : d.body <;> simp [Draft.ids, kept, body]

theorem closeLine_alike (behind : Behind before d c) (same : line.text = other.text) :
    Alike (Option.Rel (Behind before)) (closeLine d line) (closeLine c other) := by
  have closed (d : Draft) : Draft.ids { d with classes := d.classes ++ d.body.toList, body := none } = d.ids := by
    funext role
    cases role <;> simp [Draft.ids]
  unfold closeLine
  rw [same]
  split
  · exact .results (.some (behind.keep (closed d) (closed c) rfl))
  · exact .results .none

theorem bodyAnnotationLine_alike (behind : Behind before d c) (same : line.text = other.text) :
    Alike (Option.Rel (Behind before)) (bodyAnnotationLine d line) (bodyAnnotationLine c other) := by
  unfold bodyAnnotationLine
  rw [same]
  split
  · exact .results .none
  · refine .results (.some (behind.keep (Draft.ids_map_body ?_ d) (Draft.ids_map_body ?_ c) ?_))
    · exact fun _ => rfl
    · exact fun _ => rfl
    · simpa using behind.body
  · exact .faults _ _

theorem bodyMemberLine_alike (behind : Behind before d c) (same : line.text = other.text) :
    Alike (Option.Rel (Behind before)) (bodyMemberLine d line) (bodyMemberLine c other) := by
  unfold bodyMemberLine
  rw [same]
  refine (member_alike line other _).map ?_
  rintro m m' -
  refine .some (behind.keep (Draft.ids_map_body ?_ d) (Draft.ids_map_body ?_ c) ?_)
  · exact fun _ => rfl
  · exact fun _ => rfl
  · simpa using behind.body

theorem readLine_behind (behind : Behind before d c) (same : line.text = other.text) :
    Alike (Behind before) (readLine (rules d) d line) (readLine (rules c) c other) := by
  have one_kind : rules d = rules c := by rw [rules, rules, behind.body]
  rw [one_kind]
  refine readLine_alike ?_
  unfold rules
  split
  · simp only [bodyRules, List.forall_mem_cons]
    exact ⟨closeLine_alike behind same, bodyAnnotationLine_alike behind same, bodyMemberLine_alike behind same,
      List.forall_mem_nil _⟩
  · next outside =>
    have closed : d.body = none := by simpa [← behind.body] using outside
    simp only [outerRules, List.forall_mem_cons]
    exact ⟨classLine_alike behind closed same, annotationLine_alike behind same, noteLine_alike behind same,
      directionLine_alike behind same, relationshipLine_alike behind same, memberLine_alike behind same,
      List.forall_mem_nil _⟩

/-! ### One part -/

/-- A line that says something, wherever it stands. -/
def bareLine (t : Text) : Line := ⟨0, 0, 0, t, t⟩

/-- What is read of lines on their own, if no body is open behind them. -/
def alone? (texts : List Text) : Option Draft :=
  (readLines rules {} (texts.map bareLine)).toOption.filter fun c => c.body.isNone

/-- The ids that lines have on their own. -/
def ownIds (texts : List Text) (role : Role) : List Text := (alone? texts).elim [] fun c => c.ids role

theorem alone?_eq_some_iff {texts : List Text} :
    alone? texts = some c ↔ readLines rules {} (texts.map bareLine) = .ok c ∧ c.body = none := by
  rw [alone?, Option.filter_eq_some_iff, Option.isNone_iff_eq_none]
  cases readLines rules {} (texts.map bareLine) <;> simp [Except.toOption]

/-- A part is read behind others as it is on its own. -/
theorem part_alike (closed : d.body = none) (p : Part) :
    Alike (Behind d.ids) (readLines rules d p.lines) (readLines rules {} (p.texts.map bareLine)) := by
  have start : Behind d.ids d {} := by
    refine ⟨?_, by rw [closed]⟩
    rintro ⟨⟩ <;> simp [Draft.ids]
  refine readLines_alike readLine_behind start ?_
  simp [Part.texts, Function.comp_def, bareLine]

/-- Parts that are read add the ids that they have on their own. -/
theorem ids_of_runs (runs : bodies.Runs d ps d') : (∀ p ∈ ps, (alone? p.texts).isSome) ∧
    ∀ role, d'.ids role = d.ids role ++ ps.flatMap fun p => ownIds p.texts role := by
  induction runs with
  | nil closed => simp
  | @cons d between d' p ps closed run later ih =>
    obtain ⟨others, ids⟩ := ih
    obtain ⟨c, read, behind⟩ := (part_alike closed p).exists_of_ok run
    have ended : between.body = none := by
      cases later with
      | nil closed => exact closed
      | cons closed _ _ => exact closed
    have alone : alone? p.texts = some c := alone?_eq_some_iff.mpr ⟨read, by simpa [ended] using behind.body⟩
    refine ⟨List.forall_mem_cons.mpr ⟨by simp [alone], others⟩, fun role => ?_⟩
    simp [ids, behind.ids, ownIds, alone]

/-- Parts that can be read on their own can be read in turn. -/
theorem exists_run (closed : d.body = none) (each : ∀ p ∈ ps, (alone? p.texts).isSome) :
    ∃ d', readLines rules d (ps.flatMap Part.lines) = .ok d' ∧ d'.body = none ∧
      ∀ role, d'.ids role = d.ids role ++ ps.flatMap fun p => ownIds p.texts role := by
  induction ps generalizing d with
  | nil => exact ⟨d, rfl, closed, by simp⟩
  | cons p ps ih =>
    obtain ⟨first, others⟩ := List.forall_mem_cons.mp each
    obtain ⟨c, alone⟩ := Option.isSome_iff_exists.mp first
    obtain ⟨read, ended⟩ := alone?_eq_some_iff.mp alone
    obtain ⟨between, run, behind⟩ := (part_alike closed p).symm.exists_of_ok read
    have ended : between.body = none := by simpa [ended] using behind.body
    obtain ⟨d', later, closed, ids⟩ := ih ended others
    refine ⟨d', ?_, closed, fun role => ?_⟩
    · rw [List.flatMap_cons, readLines_append run, later]
    · simp [ids, behind.ids, ownIds, alone]

/-! ### Diagrams -/

/-- The parts of a source are those of another one, in any order. -/
def Moved (s s' : Source) : Prop :=
  ((parts opensBody s'.body).map Part.texts).Perm ((parts opensBody s.body).map Part.texts)

/-- A diagram is read if its parts are moved, and has the same ids. -/
theorem ids_of_moved (accepted : read s = .ok diagram) (headed : ∃ header, s'.bareHeader "classDiagram" = .ok header)
    (moved : Moved s s') :
    ∃ diagram', read s' = .ok diagram' ∧ ∀ role, (diagram'.ids role).Perm (diagram.ids role) := by
  obtain ⟨-, d, -, run, closed, rfl⟩ := exists_of_read accepted
  obtain ⟨header, found⟩ := headed
  have blank : bodies.body {} = none := rfl
  obtain ⟨each, ids⟩ := ids_of_runs (bodies_laws.runs blank run closed)
  have each' : ∀ p ∈ parts opensBody s'.body, (alone? p.texts).isSome := by
    intro p member
    obtain ⟨q, listed, same⟩ := List.mem_map.mp (moved.mem_iff.mp (List.mem_map_of_mem member))
    exact same ▸ each q listed
  obtain ⟨d', run', closed', ids'⟩ := exists_run (d := {}) rfl each'
  rw [lines_of_parts] at run'
  have made : read s' = .ok ⟨s'.header .classDiagram header, d'.direction, d'.classes, d'.members, d'.relationships,
      d'.annotations, d'.notes⟩ := by
    rw [read, found]
    simp [bind, Except.bind, run', closed']
  refine ⟨_, made, fun role => ?_⟩
  have perm := moved.flatMap_right fun texts => ownIds texts role
  rw [List.flatMap_map, List.flatMap_map] at perm
  have whole : (d'.ids role).Perm (d.ids role) := by
    rw [ids, ids']
    exact perm.append_left _
  cases role <;> simpa [Draft.ids, ClassDiagram.ids, closed, closed'] using whole

end DiagramLint.ClassDiagram
