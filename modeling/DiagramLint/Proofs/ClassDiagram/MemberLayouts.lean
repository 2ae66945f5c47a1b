import DiagramLint.Proofs.Coverage.ClassDiagram
import DiagramLint.Proofs.LineNumbers
import DiagramLint.Proofs.LineRule
import DiagramLint.Proofs.Text.Identifiers
import DiagramLint.Proofs.Text.Pieces

/-!
Members of classes as they are written. The first opening and the last closing parenthesis of a method stand around its
parameters, which may hold anything. A field has its type in front of its name or behind a colon. As a type holds neither
parentheses nor colons, a line of a body in any of the three layouts is read as the member that was written
(`written_member_read`), and a body of such lines as these members (`readLines_written`).
-/
namespace DiagramLint.ClassDiagram

open Text

/-- The mark of a visibility. -/
def Visibility.mark : Visibility → Char
  | .publicMember => '+'
  | .privateMember => '-'
  | .protectedMember => '#'
  | .packageMember => '~'

/-- The mark of a classifier. -/
def Classifier.mark : Classifier → Char
  | .static => '$'
  | .abstract => '*'

/-- How a member is laid out. -/
inductive MemberLayout where
  /-- The name, the parameters in parentheses, and behind them the type. -/
  | method (parameters : Text)
  /-- The type, and behind it the name. -/
  | typedName
  /-- The name, and behind a colon the type. -/
  | nameColonType
  deriving DecidableEq, Repr

/-- The parameters of a method. -/
def MemberLayout.parameters? : MemberLayout → Option Text
  | .method parameters => some parameters
  | .typedName | .nameColonType => none

/-- A member as it is written. The name is an identifier that begins with a letter or a digit. -/
structure WrittenMember where
  visibility : Option Visibility
  name : Text
  layout : MemberLayout
  classifier : Option Classifier
  type : Option Text
  name_identifier : isIdentifier name = true
  name_begins : BeginsAlphanumeric name
  parameters_trimmed : ∀ t ∈ layout.parameters?, trim t = t
  type_begins : ∀ t ∈ type, BeginsAlphanumeric t
  type_trimmed : ∀ t ∈ type, trim t = t
  type_plain : ∀ t ∈ type, ∀ mark ∈ ['(', ')', ':'], mark ∉ t

namespace WrittenMember

/-- The mark of the classifier, if there is one. -/
def classifierMark (m : WrittenMember) : Text := (m.classifier.map Classifier.mark).toList

/-- The type with a blank in front. -/
def typeBehind (m : WrittenMember) : Text := m.type.elim [] fun t => ' ' :: t

/-- The type with a blank behind. -/
def typeInFront (m : WrittenMember) : Text := m.type.elim [] fun t => t ++ [' ']

/-- What stands behind the visibility. Where the type would stand behind a colon, the colon stays without it. -/
def declaration (m : WrittenMember) : Text :=
  match m.layout with
  | .method parameters => m.name ++ '(' :: (parameters ++ ')' :: (m.classifierMark ++ m.typeBehind))
  | .typedName => m.typeInFront ++ m.name ++ m.classifierMark
  | .nameColonType => m.name ++ m.classifierMark ++ [' '] ++ ':' :: m.typeBehind

/-- The member as it is written. -/
def written (m : WrittenMember) : Text := (m.visibility.map Visibility.mark).toList ++ m.declaration

/-- The member that is written, at a position. -/
def member (m : WrittenMember) (position : Position) : Member :=
  ⟨m.visibility, m.name, m.layout.parameters?, m.type, m.classifier, position⟩

end WrittenMember

variable {d : Draft} {c : Definition} {m : WrittenMember} {line : Line} {t : Text} {a : Char}

/-! ### Marks -/

theorem Visibility.ofMark?_mark (v : Visibility) : Visibility.ofMark? v.mark = some v := by
  cases v <;> rfl

theorem Classifier.ofMark?_mark (k : Classifier) : Classifier.ofMark? k.mark = some k := by
  cases k <;> rfl

theorem Visibility.ofMark?_of_alphanumeric (alphanumeric : isAlphanumeric a = true) : Visibility.ofMark? a = none := by
  unfold Visibility.ofMark?
  split
  · exact absurd alphanumeric (by decide +kernel)
  · exact absurd alphanumeric (by decide +kernel)
  · exact absurd alphanumeric (by decide +kernel)
  · exact absurd alphanumeric (by decide +kernel)
  · rfl

/-- No character of identifiers is the mark of a classifier. -/
theorem Classifier.ofMark?_of_identifierChar (inside : isIdentifierChar a = true) : Classifier.ofMark? a = none := by
  unfold Classifier.ofMark?
  split
  · exact absurd inside (by decide +kernel)
  · exact absurd inside (by decide +kernel)
  · rfl

theorem Classifier.mark_visible (k : Classifier) : isBlank k.mark = false := by
  cases k <;> decide

/-! ### Visibilities and classifiers -/

theorem splitVisibility_written (begins : BeginsAlphanumeric t) (v : Option Visibility) :
    splitVisibility ((v.map Visibility.mark).toList ++ t) = (v, t) := by
  cases v with
  | none =>
    obtain ⟨a, rest, rfl, alphanumeric⟩ := begins
    simp [splitVisibility, Visibility.ofMark?_of_alphanumeric alphanumeric]
  | some v =>
    have kept : trimStart t = t := trimStart_of_begins allBlank_nil begins.visible
    simp [splitVisibility, v.ofMark?_mark, kept]

theorem splitClassifierEnd_written (front : Text) {name : Text} (identifier : isIdentifier name = true)
    (k : Option Classifier) :
    splitClassifierEnd (front ++ name ++ (k.map Classifier.mark).toList) = (front ++ name, k) := by
  cases k with
  | none =>
    have filled := ne_nil_of_identifier identifier
    have last : (front ++ name).getLast? = some (name.getLast filled) := by
      rw [List.getLast?_append, List.getLast?_eq_some_getLast filled]
      rfl
    have unmarked := Classifier.ofMark?_of_identifierChar (isIdentifierChar_of_mem identifier (List.getLast_mem filled))
    simp [splitClassifierEnd, last, unmarked]
  | some k =>
    have kept : trimEnd (front ++ name) = front ++ name := by
      simpa using trimEnd_of_ends (ends_of_identifier identifier front) allBlank_nil
    simp [splitClassifierEnd, k.ofMark?_mark, kept]

namespace WrittenMember

/-! ### Types -/

theorem type_ends (m : WrittenMember) : ∀ t ∈ m.type, EndsVisible t := by
  intro t typed
  obtain ⟨c, rest, begun, -⟩ := m.type_begins t typed
  exact ends_of_trim (by simp [begun]) (m.type_trimmed t typed)

theorem ends_with_type (m : WrittenMember) (ends : EndsVisible t) : EndsVisible (t ++ m.typeBehind) := by
  unfold typeBehind
  cases typed : m.type with
  | none => simpa using ends
  | some u => exact ((m.type_ends u typed).append [' ']).append t

theorem ends_with_mark (m : WrittenMember) (ends : EndsVisible t) : EndsVisible (t ++ m.classifierMark) := by
  unfold classifierMark
  cases m.classifier with
  | none => simpa using ends
  | some k => exact ⟨t, k.mark, rfl, k.mark_visible⟩

theorem trim_typeBehind (m : WrittenMember) : trim m.typeBehind = m.type.getD [] := by
  unfold typeBehind
  cases typed : m.type with
  | none => rfl
  | some t => exact trim_of_blank_front allBlank_space (m.type_begins t typed).visible (m.type_ends t typed)

theorem trimmed?_type (m : WrittenMember) : trimmed? (m.type.getD []) = m.type := by
  cases typed : m.type with
  | none => rfl
  | some t =>
    obtain ⟨c, rest, begun, -⟩ := m.type_begins t typed
    exact trimmed?_of_tight (by simp [begun]) (m.type_trimmed t typed)

theorem trimmed?_typeBehind (m : WrittenMember) : trimmed? m.typeBehind = m.type := by
  have same : trimmed? (trim m.typeBehind) = trimmed? m.typeBehind := by rw [trimmed?, trimmed?, trim_trim]
  rw [← same, m.trim_typeBehind, m.trimmed?_type]

/-- Behind the parameters a classifier is told by its mark, as a type begins otherwise. -/
theorem splitClassifierStart_written (m : WrittenMember) :
    splitClassifierStart (trim (m.classifierMark ++ m.typeBehind)) = (m.classifier, m.type.getD []) := by
  have tight := m.trim_typeBehind
  unfold classifierMark
  cases m.classifier with
  | none =>
    rw [Option.map_none, Option.toList_none, List.nil_append, tight]
    cases typed : m.type with
    | none => rfl
    | some t =>
      obtain ⟨c, rest, begun, alphanumeric⟩ := m.type_begins t typed
      have inside : isIdentifierChar c = true := by simp [isIdentifierChar, alphanumeric]
      simp [begun, splitClassifierStart, Classifier.ofMark?_of_identifierChar inside]
  | some k =>
    have ends : EndsVisible (k.mark :: m.typeBehind) := m.ends_with_type ⟨[], k.mark, rfl, k.mark_visible⟩
    have whole : trim (k.mark :: m.typeBehind) = k.mark :: m.typeBehind :=
      trim_of_visible ⟨k.mark, m.typeBehind, rfl, k.mark_visible⟩ ends
    simp [splitClassifierStart, whole, k.ofMark?_mark, tight]

/-! ### The three layouts -/

/-- Neither a parenthesis nor a colon stands in the name, the type and the mark of the classifier. -/
theorem not_mem_parts (m : WrittenMember) (mark : Char) (listed : mark ∈ ['(', ')', ':']) :
    mark ∉ m.name ∧ mark ∉ m.classifierMark ∧ mark ∉ m.typeBehind ∧ mark ∉ m.typeInFront := by
  have foreign : ∀ mark ∈ ['(', ')', ':'], isIdentifierChar mark = false ∧ mark ≠ ' ' ∧ mark ≠ '$' ∧ mark ≠ '*' := by
    decide +kernel
  obtain ⟨outside, no_blank, no_dollar, no_asterisk⟩ := foreign mark listed
  refine ⟨not_mem_of_identifier m.name_identifier outside, ?_, ?_, ?_⟩
  · unfold classifierMark
    rcases m.classifier with _ | _ | _
    · simp
    · simpa [Classifier.mark] using no_dollar
    · simpa [Classifier.mark] using no_asterisk
  · unfold typeBehind
    cases typed : m.type with
    | none => simp
    | some t => simpa [no_blank] using m.type_plain t typed mark listed
  · unfold typeInFront
    cases typed : m.type with
    | none => simp
    | some t => simpa [no_blank] using m.type_plain t typed mark listed

theorem isMemberName_name (m : WrittenMember) : isMemberName m.name = true := by
  have visible : m.name.any isBlank = false := by
    simpa using visible_of_identifier m.name_identifier
  simp [isMemberName, ne_nil_of_identifier m.name_identifier, visible]

theorem trim_name (m : WrittenMember) : trim m.name = m.name :=
  trim_of_all_visible (ne_nil_of_identifier m.name_identifier) (visible_of_identifier m.name_identifier)

theorem method?_written (m : WrittenMember) {parameters : Text} (layout : m.layout = .method parameters)
    (position : Position) : method? position m.visibility m.name (parameters ++ ')' :: (m.classifierMark ++ m.typeBehind)) =
      some (m.member position) := by
  obtain ⟨-, no_mark, no_type, -⟩ := m.not_mem_parts ')' (by simp)
  have last : cutLast? ')' (parameters ++ ')' :: (m.classifierMark ++ m.typeBehind)) =
      some (parameters, m.classifierMark ++ m.typeBehind) := cutLast?_mark (by simp [no_mark, no_type])
  have tight : trim parameters = parameters := m.parameters_trimmed parameters (by simp [layout, MemberLayout.parameters?])
  simp [method?, last, m.isMemberName_name, m.trim_name, m.splitClassifierStart_written, tight, m.trimmed?_type, member,
    layout, MemberLayout.parameters?]

/-- Without a type behind a colon the last word of a field is its name. -/
theorem typeAndName_written (m : WrittenMember) : typeAndName (m.typeInFront ++ m.name) = (m.type, m.name) := by
  have visible := visible_of_identifier m.name_identifier
  unfold typeInFront
  cases typed : m.type with
  | none => simp [typeAndName, cutLastBlank?_of_visible visible]
  | some t =>
    have cut : cutLastBlank? (t ++ ' ' :: m.name) = some (t, m.name) := cutLastBlank?_written visible (by decide)
    obtain ⟨c, rest, begun, -⟩ := m.type_begins t typed
    have type : trimmed? t = some t := trimmed?_of_tight (by simp [begun]) (m.type_trimmed t typed)
    simp [typeAndName, cut, type]

theorem field?_typedName (m : WrittenMember) (layout : m.layout = .typedName) (position : Position) :
    field? position m.visibility (m.typeInFront ++ m.name ++ m.classifierMark) = some (m.member position) := by
  obtain ⟨no_name, no_mark, -, no_type⟩ := m.not_mem_parts ':' (by simp)
  have uncut : cut? [':'] (m.typeInFront ++ m.name ++ m.classifierMark) = none :=
    cut?_of_not_mem (by simp [no_name, no_mark, no_type])
  have classified : splitClassifierEnd (m.typeInFront ++ m.name ++ m.classifierMark) =
      (m.typeInFront ++ m.name, m.classifier) := splitClassifierEnd_written _ m.name_identifier m.classifier
  simp only [field?, uncut, classified, m.typeAndName_written, m.isMemberName_name, if_true, member, layout,
    MemberLayout.parameters?]

theorem field?_nameColonType (m : WrittenMember) (layout : m.layout = .nameColonType) (position : Position) :
    field? position m.visibility (m.name ++ m.classifierMark ++ [' '] ++ ':' :: m.typeBehind) =
      some (m.member position) := by
  obtain ⟨no_name, no_mark, -, -⟩ := m.not_mem_parts ':' (by simp)
  have cut : cut? [':'] (m.name ++ m.classifierMark ++ [' '] ++ ':' :: m.typeBehind) =
      some (m.name ++ m.classifierMark ++ [' '], m.typeBehind) := cut?_mark (by simp [no_name, no_mark]) _
  have kept : trimEnd (m.name ++ m.classifierMark ++ [' ']) = m.name ++ m.classifierMark :=
    trimEnd_of_ends (m.ends_with_mark (ends_of_identifier m.name_identifier [])) allBlank_space
  have classified : splitClassifierEnd (m.name ++ m.classifierMark) = (m.name, m.classifier) :=
    splitClassifierEnd_written [] m.name_identifier m.classifier
  have named := m.typeAndName_written
  unfold field?
  cases typed : m.type with
  | none =>
    rw [typeInFront, typed] at named
    simp only [cut, kept, classified, m.trimmed?_typeBehind, typed, Option.elim_none, List.nil_append] at named ⊢
    simp [named, m.isMemberName_name, member, layout, MemberLayout.parameters?, typed]
  | some t =>
    simp only [cut, kept, classified, m.trimmed?_typeBehind, typed]
    simp [m.isMemberName_name, member, layout, MemberLayout.parameters?, typed]

theorem declaration_begins (m : WrittenMember) : BeginsAlphanumeric m.declaration := by
  unfold declaration
  split
  · exact m.name_begins.append _
  · unfold typeInFront
    cases typed : m.type with
    | none => exact m.name_begins.append _
    | some t => exact (((m.type_begins t typed).append _).append _).append _
  · exact ((m.name_begins.append _).append _).append _

theorem declaration_ends (m : WrittenMember) : EndsVisible m.declaration := by
  unfold declaration
  split
  · next parameters _ =>
    have closed : EndsVisible (m.name ++ '(' :: (parameters ++ [')'])) := ⟨m.name ++ '(' :: parameters, ')', by simp, by decide⟩
    simpa using m.ends_with_type (m.ends_with_mark closed)
  · exact m.ends_with_mark (ends_of_identifier m.name_identifier m.typeInFront)
  · have colon : EndsVisible (m.name ++ m.classifierMark ++ [' '] ++ [':']) := ⟨_, ':', rfl, by decide⟩
    simpa using m.ends_with_type colon

/-- What is written begins with the mark of a visibility, or with a letter or a digit. -/
theorem written_begins (m : WrittenMember) :
    ∃ a rest, m.written = a :: rest ∧ isBlank a = false ∧ a ∉ ['%', '<', '\x7d'] := by
  unfold written
  cases m.visibility with
  | none =>
    obtain ⟨a, rest, begun, alphanumeric⟩ := m.declaration_begins
    have others : ∀ mark ∈ ['%', '<', '\x7d'], isAlphanumeric mark = false := by decide +kernel
    refine ⟨a, rest, begun, not_blank_of_alphanumeric alphanumeric, ?_⟩
    intro listed
    simp [others a listed] at alphanumeric
  | some v =>
    refine ⟨v.mark, m.declaration, rfl, ?_, ?_⟩
    · cases v <;> decide
    · cases v <;> decide

theorem trim_written (m : WrittenMember) : trim m.written = m.written := by
  obtain ⟨a, rest, begun, visible, -⟩ := m.written_begins
  exact trim_of_visible ⟨a, rest, begun, visible⟩ (m.declaration_ends.append _)

theorem member?_written (m : WrittenMember) (position : Position) :
    member? position m.written = some (m.member position) := by
  obtain ⟨no_name, no_mark, no_type, no_front⟩ := m.not_mem_parts '(' (by simp)
  rw [member?, m.trim_written, written, splitVisibility_written m.declaration_begins]
  cases layout : m.layout with
  | method parameters =>
    have opened : cut? ['('] m.declaration = some (m.name, parameters ++ ')' :: (m.classifierMark ++ m.typeBehind)) := by
      rw [declaration, layout]
      exact cut?_mark no_name _
    simp only [opened, m.method?_written layout]
  | typedName =>
    have declared : m.declaration = m.typeInFront ++ m.name ++ m.classifierMark := by rw [declaration, layout]
    have field : cut? ['('] m.declaration = none := by
      rw [declared]
      exact cut?_of_not_mem (by simp [no_front, no_name, no_mark])
    simp only [field]
    rw [declared, m.field?_typedName layout]
  | nameColonType =>
    have declared : m.declaration = m.name ++ m.classifierMark ++ [' '] ++ ':' :: m.typeBehind := by
      rw [declaration, layout]
    have field : cut? ['('] m.declaration = none := by
      rw [declared]
      exact cut?_of_not_mem (by simp [no_name, no_mark, no_type])
    simp only [field]
    rw [declared, m.field?_nameColonType layout]

end WrittenMember

/-! ### Lines of bodies -/

/-- A written line in an open body adds its member. -/
theorem readLine_written (opened : d.body = some c) (m : WrittenMember) (written : line.text = m.written) :
    readLine (rules d) d line = .ok { d with body := some { c with members := c.members ++ [m.member line.position] } } := by
  obtain ⟨a, rest, begun, -, others⟩ := m.written_begins
  rw [← written] at begun
  have inside : rules d = bodyRules := by rw [rules, opened]; rfl
  have open_still : closeLine d line = pass := by
    rw [closeLine, if_neg]
    rintro brace
    rw [brace] at begun
    obtain ⟨rfl, -⟩ := List.cons.inj begun
    simp at others
  have unannotated : bodyAnnotationLine d line = pass := by
    have unmarked : stereotype? line.text = none := stereotype?_of_begins begun (by rintro rfl; simp at others)
    rw [bodyAnnotationLine, unmarked]
  have listed : bodyMemberLine d line = (Except.ok { d with
      body := some { c with members := c.members ++ [m.member line.position] } }).map some := by
    rw [bodyMemberLine, ClassDiagram.member, written, m.member?_written, opened]
    rfl
  have reached : firstTaking d line bodyRules = firstTaking d line [⟨"member", bodyMemberLine⟩] := by
    rw [bodyRules, firstTaking_cons_of_pass open_still, firstTaking_cons_of_pass unannotated]
  rw [inside]
  exact readLine_of_first reached listed

/-- Written lines in an open body add their members in order. -/
theorem readLines_written (opened : d.body = some c) {ms : List WrittenMember} {lines : List Line}
    (written : List.Forall₂ (fun line m => line.text = m.written) lines ms) :
    readLines rules d lines = .ok { d with body := some { c with
      members := c.members ++ List.zipWith (fun line m => m.member line.position) lines ms } } := by
  induction written generalizing d c with
  | nil => simp [readLines, ← opened]
  | cons first others ih =>
    rw [readLines_cons_ok (readLine_written opened _ first), ih rfl]
    simp

/-- A line of an open body that is written as a member in any of the layouts is one, and it is read as this member and
nothing else. -/
theorem written_member_read (m : WrittenMember) (opened : d.body = some c) (number : Nat) {raw : Text}
    (written : trim raw = m.written) :
    Zone.content.line? number raw = some (.ofRaw number raw) ∧
      readLine (rules d) d (.ofRaw number raw) = .ok { d with
        body := some { c with members := c.members ++ [m.member (Line.ofRaw number raw).position] } } := by
  refine ⟨?_, readLine_written opened m written⟩
  obtain ⟨a, rest, begun, -, others⟩ := m.written_begins
  have spoken : ¬ IsSilent raw := not_silent_of_begins (written.trans begun) (by rintro rfl; simp at others)
  exact Zone.content_line? spoken number

/-- A method whose parameters and type hold what looks like other parts of members. -/
def busyMethod : WrittenMember where
  visibility := some .packageMember
  name := "run_2".toList
  layout := .method "f: (a) -> b$, \"(\"".toList
  classifier := some .abstract
  type := some "List~int~ $".toList
  name_identifier := by decide +kernel
  name_begins := ⟨_, _, rfl, by decide +kernel⟩
  parameters_trimmed := by decide
  type_begins := by
    rintro _ ⟨rfl⟩
    exact ⟨_, _, rfl, by decide +kernel⟩
  type_trimmed := by decide
  type_plain := by decide

theorem written_member_read_busyMethod :
    trim "  ~run_2(f: (a) -> b$, \"(\")* List~int~ $".toList = busyMethod.written ∧
      readLine (rules { body := some ⟨['A'], none, none, none, [], ⟨2, 1⟩⟩ })
        { body := some ⟨['A'], none, none, none, [], ⟨2, 1⟩⟩ }
        (.ofRaw 3 "  ~run_2(f: (a) -> b$, \"(\")* List~int~ $".toList) =
        .ok { body := some ⟨['A'], none, none, none, [⟨some .packageMember, "run_2".toList,
          some "f: (a) -> b$, \"(\"".toList, some "List~int~ $".toList, some .abstract, ⟨3, 3⟩⟩], ⟨2, 1⟩⟩ } := by
  have written : trim "  ~run_2(f: (a) -> b$, \"(\")* List~int~ $".toList = busyMethod.written := by decide
  exact ⟨written, (written_member_read busyMethod (d := { body := some ⟨['A'], none, none, none, [], ⟨2, 1⟩⟩ }) rfl 3
    written).2⟩

end DiagramLint.ClassDiagram
