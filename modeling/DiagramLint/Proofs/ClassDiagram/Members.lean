import DiagramLint.Proofs.Coverage.ClassDiagram
import DiagramLint.Proofs.LineOrder
import DiagramLint.Proofs.Names
import DiagramLint.Proofs.Text.Identifiers
import Mathlib.Data.List.Perm.Subperm

/-!
Members that classes have more than once. The members in bodies and those outside are put in the order of their lines,
and each is told by one text: its owner, a full stop, its name, and parameters in parentheses. No owner and no name
holds a parenthesis, so the text tells the parameters (`signature_inj`). But both may hold full stops, so it tells the
owner and the name only where no owner goes on behind another one and a full stop (`findings_about_members`).
-/
namespace DiagramLint.ClassDiagram

open Text

/-- The members of a diagram with their owners, those in bodies and then those outside. -/
def owned (d : ClassDiagram) : List OuterMember :=
  (d.classes.flatMap fun c => c.members.map (OuterMember.mk c.id)) ++ d.members

namespace OuterMember

/-- Where a member stands. -/
def position (m : OuterMember) : Position := m.member.position

/-- The owner, the name and the kind of a member. Methods are told apart by their parameters. -/
def key (m : OuterMember) : Text × Text × Option Text := (m.owner, m.member.name, m.member.parameters)

/-- The owner and the name of a member in one text, and its kind. -/
def joined (m : OuterMember) : Text × Option Text := (m.owner ++ '.' :: m.member.name, m.member.parameters)

end OuterMember

/-- What is found about members in the order of their lines. -/
structure AboutMembers (members : List OuterMember) (found : List Finding) : Prop where
  joined : found = (repeats OuterMember.joined members).map fun (m, first) =>
    Duplicates.finding "member" m.signature m.position first.position
  /-- Where owners and names are told by their text, members of different owners are not found. -/
  apart : (∀ m ∈ members, ∀ m' ∈ members, ¬ Continues m.owner m'.owner) →
    found = (repeats OuterMember.key members).map fun (m, first) =>
      Duplicates.finding "member" m.signature m.position first.position

variable {d d' : Draft} {diagram : ClassDiagram} {line : Line} {t : Text} {m m' : Member} {o o' : OuterMember}
  {text : Text} {offset : Nat}

/-! ### Names of members -/

theorem mem_of_splitClassifierEnd : ∀ c ∈ (splitClassifierEnd t).1, c ∈ t := by
  intro c member
  unfold splitClassifierEnd at member
  split at member
  · exact (List.dropLast_sublist t).subset (mem_of_mem_trimEnd c member)
  · exact member

theorem mem_of_cutBlank? {before rest : Text} (found : cutBlank? t = some (before, rest)) : ∀ c ∈ before, c ∈ t := by
  induction t generalizing before rest with
  | nil => exact nomatch found
  | cons a t ih =>
    unfold cutBlank? at found
    split at found
    · obtain ⟨rfl, -⟩ := Prod.mk.inj (Option.some.inj found)
      exact nofun
    · obtain ⟨⟨front, rest'⟩, later, same⟩ := Option.map_eq_some_iff.mp found
      obtain ⟨rfl, -⟩ := Prod.mk.inj same
      exact List.cons_subset_cons a (ih later)

theorem mem_of_typeAndName : ∀ c ∈ (typeAndName t).2, c ∈ t := by
  intro c member
  unfold typeAndName at member
  split at member
  · next type name found =>
    obtain ⟨⟨after, before⟩, cut, same⟩ := Option.map_eq_some_iff.mp found
    obtain ⟨-, rfl⟩ := Prod.mk.inj same
    exact List.mem_reverse.mp (mem_of_cutBlank? cut c (List.mem_reverse.mp member))
  · exact member

/-- The name of a field is made of characters of the field. -/
theorem name_of_field? {position : Position} {visibility : Option Visibility}
    (made : field? position visibility t = some m) : ∀ c ∈ m.name, c ∈ t := by
  unfold field? at made
  cases cut : cut? [':'] t with
  | none =>
    simp only [cut, Option.ite_none_right_eq_some, Option.some.injEq] at made
    obtain ⟨-, rfl⟩ := made
    intro c member
    exact mem_of_splitClassifierEnd c (mem_of_typeAndName c member)
  | some parts =>
    obtain ⟨body, type⟩ := parts
    have whole : ∀ c ∈ trimEnd body, c ∈ t := by
      intro c member
      rw [← append_of_cut? cut]
      exact List.mem_append_left _ (mem_of_mem_trimEnd c member)
    simp only [cut, Option.ite_none_right_eq_some, Option.some.injEq] at made
    obtain ⟨-, rfl⟩ := made
    intro c member
    refine whole c (mem_of_splitClassifierEnd c ?_)
    cases typed : trimmed? type with
    | none => exact mem_of_typeAndName c (by simpa [typed] using member)
    | some type => simpa [typed] using member

/-- No name of a member holds a parenthesis, as the first one begins the parameters. -/
theorem name_of_member? {position : Position} (made : member? position t = some m) : '(' ∉ m.name := by
  unfold member? at made
  dsimp only at made
  split at made
  · next before after cut =>
    obtain ⟨⟨parameters, rest⟩, -, made⟩ := Option.bind_eq_some_iff.mp made
    simp only [Option.ite_none_right_eq_some, Option.some.injEq] at made
    obtain ⟨-, rfl⟩ := made
    exact fun inside => not_mem_of_cut? cut (mem_of_mem_trim _ inside)
  · next uncut =>
    intro inside
    exact cut?_eq_none_iff.mp uncut ((List.singleton_infix_iff _ _).mpr (name_of_field? made _ inside))

/-! ### Signatures -/

/-- How the kind of a member is written in its signature. -/
def kindText : Option Text → Text
  | some parameters => '(' :: parameters ++ [')']
  | none => []

theorem cut?_kindText {h : Text} (absent : '(' ∉ h) (kind : Option Text) :
    cut? ['('] (h ++ kindText kind) = kind.map fun parameters => (h, parameters ++ [')']) := by
  cases kind with
  | none =>
    rw [kindText, List.append_nil]
    exact cut?_of_not_mem absent
  | some parameters => exact cut?_mark absent _

theorem kindText_inj {h h' : Text} (absent : '(' ∉ h) (absent' : '(' ∉ h') {kind kind' : Option Text} :
    h ++ kindText kind = h' ++ kindText kind' ↔ h = h' ∧ kind = kind' := by
  constructor
  · intro same
    -- Parameters may hold parentheses, but the first one is the one that opens them.
    have cuts := congrArg (cut? ['(']) same
    rw [cut?_kindText absent, cut?_kindText absent'] at cuts
    cases kind with
    | none =>
      obtain rfl : kind' = none := by simpa using cuts.symm
      simpa [kindText] using same
    | some parameters =>
      obtain ⟨parameters', rfl, cuts⟩ := Option.map_eq_some_iff.mp cuts.symm
      simpa [eq_comm] using cuts
  · rintro ⟨rfl, rfl⟩
    rfl

/-- What holds of every class: its id is an identifier, and no name of a member holds a parenthesis. -/
structure Definition.Sound (c : Definition) : Prop where
  id : isIdentifier c.id = true
  names : ∀ m ∈ c.members, '(' ∉ m.name

/-- What holds of every member: its owner is an identifier, and its name holds no parenthesis. -/
structure OuterMember.Sound (m : OuterMember) : Prop where
  owner : isIdentifier m.owner = true
  name : '(' ∉ m.member.name

namespace OuterMember

theorem Sound.no_parenthesis (sound : o.Sound) : '(' ∉ o.owner ++ '.' :: o.member.name := by
  have owner : '(' ∉ o.owner := not_mem_of_identifier sound.owner (by decide)
  simp [owner, sound.name]

/-- Two members have one signature if their owners and names make one text and they are of one kind. -/
theorem signature_inj (sound : o.Sound) (sound' : o'.Sound) : o.signature = o'.signature ↔ o.joined = o'.joined := by
  have parts (m : OuterMember) : m.signature = (m.owner ++ '.' :: m.member.name) ++ kindText m.member.parameters := by
    rw [signature]
    cases m.member.parameters <;> rfl
  rw [parts, parts, kindText_inj sound.no_parenthesis sound'.no_parenthesis, joined, joined, Prod.mk.injEq]

theorem joined_eq_iff (apart : ¬ Continues o.owner o'.owner) (apart' : ¬ Continues o'.owner o.owner) :
    o.joined = o'.joined ↔ o.key = o'.key := by
  rw [joined, joined, key, key, Prod.mk.injEq, Prod.mk.injEq, Prod.mk.injEq, joined_inj apart apart', and_assoc]

end OuterMember

/-! ### What lines keep -/

/-- Every class and every member of a draft is sound. -/
structure Draft.Sound (d : Draft) : Prop where
  classes : ∀ c ∈ d.classes ++ d.body.toList, c.Sound
  members : ∀ m ∈ d.members, m.Sound

theorem name_of_member (made : member line t = .ok m) : '(' ∉ m.name := by
  unfold member at made
  split at made
  · next found =>
    obtain rfl := Except.ok.inj made
    exact name_of_member? found
  · cases made

theorem classLine_sound (closed : d.body = none) (sound : d.Sound) (taken : classLine d line = .ok (some d')) :
    d'.Sound := by
  have known := sound.classes
  rw [closed, Option.toList_none, List.append_nil] at known
  have added {c : Definition} (identifier : isIdentifier c.id = true) (empty : c.members = []) :
      ∀ other ∈ d.classes ++ [c], other.Sound :=
    List.forall_mem_append.mpr ⟨known, List.forall_mem_singleton.mpr ⟨identifier, by simp [empty]⟩⟩
  unfold classLine at taken
  dsimp only at taken
  split at taken
  · cases taken
  · split at taken
    · next identifier =>
      split at taken
      · obtain rfl := eq_of_take taken
        refine ⟨?_, sound.members⟩
        exact added identifier rfl
      · obtain rfl := eq_of_take taken
        refine ⟨?_, sound.members⟩
        rw [closed, Option.toList_none, List.append_nil]
        exact added identifier rfl
    · cases taken

theorem memberLine_sound (sound : d.Sound) (taken : memberLine d line = .ok (some d')) : d'.Sound := by
  unfold memberLine at taken
  split at taken
  · cases taken
  · split at taken
    · next identifier =>
      obtain ⟨m, made, same⟩ := exists_of_map_ok taken
      obtain rfl := Option.some.inj same
      refine ⟨sound.classes, List.forall_mem_append.mpr ⟨sound.members, List.forall_mem_singleton.mpr ?_⟩⟩
      exact ⟨identifier, name_of_member made⟩
    · cases taken

theorem outer_sound (closed : d.body = none) (sound : d.Sound) (taken : readLine outerRules d line = .ok d') :
    d'.Sound := by
  rw [readLine_eq_ok_iff] at taken
  simp only [outerRules, firstTaking_cons, not_taken_by_none, and_false, or_false] at taken
  rcases taken with declared | ⟨-, annotated | ⟨-, noted | ⟨-, directed | ⟨-, related | ⟨-, owned⟩⟩⟩⟩⟩
  · exact classLine_sound closed sound declared
  · obtain ⟨-, a, -, rfl⟩ := annotationLine_taken annotated
    exact ⟨sound.classes, sound.members⟩
  · obtain ⟨-, n, -, rfl⟩ := noteLine_taken noted
    exact ⟨sound.classes, sound.members⟩
  · obtain ⟨-, direction, rfl⟩ := directionLine_taken directed
    exact ⟨sound.classes, sound.members⟩
  · obtain ⟨r, -, rfl⟩ := relationshipLine_taken related
    exact ⟨sound.classes, sound.members⟩
  · exact memberLine_sound sound owned

/-- A change of the class whose body is open. -/
theorem Draft.Sound.body {f : Definition → Definition} (sound : d.Sound) (kept : ∀ c, c.Sound → (f c).Sound) :
    Draft.Sound { d with body := d.body.map f } := by
  obtain ⟨before, last⟩ := List.forall_mem_append.mp sound.classes
  refine ⟨List.forall_mem_append.mpr ⟨before, ?_⟩, sound.members⟩
  intro c member
  obtain ⟨opened, here, rfl⟩ := Option.map_eq_some_iff.mp (Option.mem_toList.mp member)
  exact kept opened (last opened (Option.mem_toList.mpr here))

theorem body_sound (sound : d.Sound) (taken : readLine bodyRules d line = .ok d') : d'.Sound := by
  rw [readLine_eq_ok_iff] at taken
  simp only [bodyRules, firstTaking_cons, not_taken_by_none, and_false, or_false] at taken
  rcases taken with closing | ⟨-, annotated | ⟨-, listed⟩⟩
  · obtain ⟨-, rfl⟩ := closeLine_taken closing
    exact ⟨by simpa using sound.classes, sound.members⟩
  · unfold bodyAnnotationLine at annotated
    split at annotated
    · cases annotated
    · obtain rfl := eq_of_take annotated
      exact sound.body fun c inside => ⟨inside.id, inside.names⟩
    · cases annotated
  · obtain ⟨m, made, same⟩ := exists_of_map_ok listed
    obtain rfl := Option.some.inj same
    refine sound.body fun c inside => ⟨inside.id, ?_⟩
    exact List.forall_mem_append.mpr ⟨inside.names, List.forall_mem_singleton.mpr (name_of_member made)⟩

theorem readLine_sound (sound : d.Sound) (taken : readLine (rules d) d line = .ok d') : d'.Sound := by
  unfold rules at taken
  cases opened : d.body with
  | none =>
    rw [opened] at taken
    exact outer_sound opened sound taken
  | some c =>
    rw [opened] at taken
    exact body_sound sound taken

/-! ### Diagrams -/

theorem owned_sound {s : Source} (accepted : read s = .ok diagram) : ∀ m ∈ diagram.owned, m.Sound := by
  obtain ⟨header, d, -, run, -, rfl⟩ := exists_of_read accepted
  have sound : d.Sound := readLines_keep readLine_sound run ⟨by simp, by simp⟩
  refine List.forall_mem_append.mpr ⟨?_, sound.members⟩
  intro m inside
  obtain ⟨c, listed, inside⟩ := List.mem_flatMap.mp inside
  obtain ⟨member, named, rfl⟩ := List.mem_map.mp inside
  have whole := sound.classes c (List.mem_append_left _ listed)
  exact ⟨whole.id, whole.names member named⟩

/-- The members stand in different lines. -/
theorem owned_in_lines (accepted : read (Source.ofText text offset) = .ok diagram) :
    (diagram.owned.map OuterMember.position).Subperm ((Source.ofText text offset).body.map Line.position) := by
  have covers := read_covers accepted
  have bodies : ((diagram.classes.flatMap fun c => c.members.map (OuterMember.mk c.id)).map OuterMember.position).Sublist
      (diagram.classes.flatMap Definition.places) := by
    rw [List.map_flatMap]
    refine List.Sublist.flatMap_right _ fun c _ => ?_
    rw [List.map_map]
    exact List.sublist_cons_self _ _
  have held : (diagram.owned.map OuterMember.position).Sublist diagram.account.columns.flatten := by
    rw [owned, List.map_append]
    exact bodies.append (List.sublist_append_left _ _)
  have lines := (plan.recorded_sublist false (Source.ofText text offset).body).map Line.position
  have once : diagram.account.columns.flatten.Perm
      ((plan.recorded false (Source.ofText text offset).body).map Line.position) := by
    simpa [account] using covers.once
  exact held.subperm.trans (once.subperm.trans lines.subperm)

theorem allMembers_lineByLine (accepted : read (Source.ofText text offset) = .ok diagram) :
    LineByLine (diagram.allMembers.map OuterMember.position) :=
  lineByLine_mergeSort (body_lineByLine text offset) (owned_in_lines accepted)

theorem foundBy_members {s : Source} (accepted : read s = .ok diagram) :
    (Diagram.classes diagram).foundBy "class-duplicate-member" = diagram.duplicateMembers := by
  have family : (Diagram.classes diagram).kind.family? = some .classes :=
    congrArg Kind.family? (kind_of_read accepted)
  rw [Diagram.foundBy_of_family family]
  simp [Family.rules, Rule.classes, Rule.on]

theorem about_members {members : List OuterMember} (sound : ∀ m ∈ members, m.Sound) :
    AboutMembers members ((Duplicates.empty "member").findings (members.map fun m => (m.signature, m.position))) := by
  have joined : repeats OuterMember.signature members = repeats OuterMember.joined members := by
    refine repeatsBehind_congr fun m member m' member' => ?_
    exact OuterMember.signature_inj (sound m member) (sound m' member')
  rw [Duplicates.findings_empty, joined]
  refine ⟨rfl, fun apart => ?_⟩
  have keys : repeats OuterMember.joined members = repeats OuterMember.key members := by
    refine repeatsBehind_congr fun m member m' member' => ?_
    exact OuterMember.joined_eq_iff (apart m member m' member') (apart m' member' m member)
  rw [keys]

/-- Members are found if an earlier one has their owner and name, joined with a full stop, and their kind. -/
theorem findings_about_members (accepted : read (Source.ofText text offset) = .ok diagram) :
    ∃ members, members.Perm diagram.owned ∧ LineByLine (members.map OuterMember.position) ∧
      AboutMembers members ((Diagram.classes diagram).foundBy "class-duplicate-member") := by
  have same : diagram.allMembers.Perm diagram.owned := List.mergeSort_perm _ _
  refine ⟨diagram.allMembers, same, allMembers_lineByLine accepted, ?_⟩
  rw [foundBy_members accepted]
  exact about_members fun m member => owned_sound accepted m (same.mem_iff.mp member)

/-- Members in a body and behind their class, a method with other parameters, and a class with the same members. -/
def sharedNames : Text :=
  "classDiagram\nD : f(int n)\nclass C \x7b\n f(int n)\n f()\n a\n\x7d\nC : f( int n )\nD : a\nC : int a".toList

theorem findings_about_members_sharedNames : ∃ diagram, read (Source.ofText sharedNames 0) = .ok diagram ∧
    ∃ members, members.Perm diagram.owned ∧ LineByLine (members.map OuterMember.position) ∧
      AboutMembers members ((Diagram.classes diagram).foundBy "class-duplicate-member") := by
  obtain ⟨diagram, accepted⟩ := exists_of_isOk (x := read (Source.ofText sharedNames 0)) (by decide +kernel)
  exact ⟨diagram, accepted, findings_about_members accepted⟩

/-- A field of one class, and one of another that goes on with its name. -/
def dottedOwner : Text := "classDiagram\nclass A.B \x7b\n c\n\x7d\nclass A \x7b\n B.c\n\x7d".toList

/-- The two have different owners and different names, and the second is found. -/
theorem dottedOwner_found : ∃ diagram, read (Source.ofText dottedOwner 0) = .ok diagram ∧
    diagram.owned.map OuterMember.key = [("A.B".toList, "c".toList, none), ("A".toList, "B.c".toList, none)] ∧
    (Diagram.classes diagram).foundBy "class-duplicate-member" =
      [Duplicates.finding "member" "A.B.c".toList ⟨6, 2⟩ ⟨3, 2⟩] := by
  let diagram : ClassDiagram :=
    ⟨⟨.classDiagram, dottedOwner, ⟨1, 1⟩⟩, none,
      [⟨"A.B".toList, none, none, none, [⟨none, "c".toList, none, none, none, ⟨3, 2⟩⟩], ⟨2, 1⟩⟩,
       ⟨"A".toList, none, none, none, [⟨none, "B.c".toList, none, none, none, ⟨6, 2⟩⟩], ⟨5, 1⟩⟩], [], [], [], []⟩
  have accepted : read (Source.ofText dottedOwner 0) = .ok diagram := by decide +kernel
  have in_order : diagram.allMembers = diagram.owned := List.mergeSort_of_pairwise (by decide)
  refine ⟨diagram, accepted, rfl, ?_⟩
  rw [foundBy_members accepted, duplicateMembers, in_order]
  decide +kernel

end DiagramLint.ClassDiagram
