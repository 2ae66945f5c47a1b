import DiagramLint.Proofs.Bodies.ClassDiagram
import DiagramLint.Proofs.LineNumbers
import DiagramLint.Proofs.Text.Cuts
import DiagramLint.Proofs.Text.Identifiers
import DiagramLint.Proofs.Text.Pieces

/-!
Classes as they are written. Behind the id of a class stand its type parameters between tildes, its label in brackets and
double quotes, a style class behind three colons and the brace that begins its body; each may be missing. The label may
hold brackets, tildes and braces, and the class is read as it is written. The one exception are three colons in the label,
which are taken for those of the style class (`written_class_read`).
-/
namespace DiagramLint.ClassDiagram

open Text

/-- A class as it is written. -/
structure WrittenClass where
  id : Text
  generic : Option Text
  label : Option Text
  styleClass : Option Text
  /-- The line begins the body of the class. -/
  bodied : Bool
  id_identifier : isIdentifier id = true
  generic_filled : ∀ t ∈ generic, t ≠ []
  generic_trimmed : ∀ t ∈ generic, trim t = t
  generic_plain : ∀ t ∈ generic, '[' ∉ t ∧ ':' ∉ t
  label_filled : ∀ t ∈ label, t ≠ []
  label_trimmed : ∀ t ∈ label, trim t = t
  label_unquoted : ∀ t ∈ label, '"' ∉ t
  style_identifier : ∀ t ∈ styleClass, isIdentifier t = true

namespace WrittenClass

/-- The id and the type parameters. -/
def named (m : WrittenClass) : Text := m.id ++ m.generic.elim [] fun t => '~' :: (t ++ ['~'])

/-- The label in brackets and double quotes. -/
def labelled (m : WrittenClass) : Text := m.label.elim [] fun t => '[' :: '"' :: (t ++ ['"', ']'])

/-- The style class behind three colons. -/
def styled (m : WrittenClass) : Text := m.styleClass.elim [] fun t => [':', ':', ':'] ++ t

/-- What stands behind the keyword, but for the brace. -/
def head (m : WrittenClass) : Text := m.named ++ (m.labelled ++ m.styled)

/-- What stands behind the keyword. -/
def behind (m : WrittenClass) : Text := m.head ++ if m.bodied then [' ', '{'] else []

/-- The class as it is written. -/
def written (m : WrittenClass) : Text := "class".toList ++ ([' '] ++ m.behind)

/-- The class that is written, at a position. -/
def definition (m : WrittenClass) (position : Position) : Definition :=
  ⟨m.id, m.generic, m.label, none, [], position⟩

end WrittenClass

/-- The draft with one more class, whose body begins if it has one. -/
def Draft.withClass (d : Draft) (c : Definition) (bodied : Bool) : Draft :=
  if bodied then { d with body := some c } else { d with classes := d.classes ++ [c] }

variable {d : Draft} {c : Definition} {line : Line} {t u q rest : Text}

/-! ### Ends -/

/-- The text ends with a visible character that is no opening brace. -/
def EndsUnbraced (t : Text) : Prop := ∃ front c, t = front ++ [c] ∧ isBlank c = false ∧ c ≠ '{'

theorem EndsUnbraced.visible (ends : EndsUnbraced t) : EndsVisible t := by
  obtain ⟨front, c, same, visible, -⟩ := ends
  exact ⟨front, c, same, visible⟩

theorem EndsUnbraced.append (ends : EndsUnbraced u) (t : Text) : EndsUnbraced (t ++ u) := by
  obtain ⟨front, c, rfl, visible, other⟩ := ends
  exact ⟨t ++ front, c, (List.append_assoc t front [c]).symm, visible, other⟩

theorem EndsUnbraced.of_identifier (identifier : isIdentifier t = true) : EndsUnbraced t := by
  have filled := ne_nil_of_identifier identifier
  have last := List.getLast_mem filled
  refine ⟨t.dropLast, t.getLast filled, (List.dropLast_concat_getLast filled).symm, ?_, ?_⟩
  · exact visible_of_identifier identifier _ last
  · rintro brace
    exact not_mem_of_identifier identifier (by decide +kernel) (brace ▸ last)

theorem splitBrace_written (ends : EndsUnbraced t) (bodied : Bool) :
    splitBrace (t ++ if bodied then [' ', '{'] else []) = (t, bodied) := by
  cases bodied with
  | false =>
    have unbraced : dropEnd? ['{'] t = none := by
      obtain ⟨front, c, rfl, -, other⟩ := ends
      exact dropEnd?_of_other (Ne.symm other)
    simp [splitBrace, unbraced]
  | true =>
    have braced : dropEnd? ['{'] (t ++ [' ', '{']) = some (t ++ [' ']) := by
      simpa using dropEnd?_append (t ++ [' ']) ['{']
    have kept : trimEnd (t ++ [' ']) = t := trimEnd_of_ends ends.visible allBlank_space
    simp [splitBrace, braced, kept]

namespace WrittenClass

theorem named_ends (m : WrittenClass) : EndsUnbraced m.named := by
  unfold named
  cases m.generic with
  | none => simpa using EndsUnbraced.of_identifier m.id_identifier
  | some t => exact ⟨m.id ++ '~' :: t, '~', by simp, by decide, by decide⟩

theorem labelled_ends (m : WrittenClass) : EndsUnbraced (m.named ++ m.labelled) := by
  unfold labelled
  cases m.label with
  | none => simpa using m.named_ends
  | some t => exact ⟨m.named ++ '[' :: '"' :: (t ++ ['"']), ']', by simp, by decide, by decide⟩

theorem head_ends (m : WrittenClass) : EndsUnbraced m.head := by
  unfold head styled
  cases styled : m.styleClass with
  | none => simpa using m.labelled_ends
  | some t => exact (((EndsUnbraced.of_identifier (m.style_identifier t styled)).append _).append _).append _

theorem begins_behind (m : WrittenClass) : BeginsVisible m.behind := by
  rw [behind, head, named, List.append_assoc, List.append_assoc]
  exact begins_of_identifier m.id_identifier _

theorem afterKeyword?_written (m : WrittenClass) : afterKeyword? "class" m.written = some m.behind :=
  Text.afterKeyword?_written (by simp) allBlank_space m.begins_behind

/-! ### The parts of a declaration -/

theorem not_mem_named (m : WrittenClass) : '[' ∉ m.named ∧ ':' ∉ m.named := by
  have no_bracket : '[' ∉ m.id := not_mem_of_identifier m.id_identifier (by decide +kernel)
  have no_colon : ':' ∉ m.id := not_mem_of_identifier m.id_identifier (by decide +kernel)
  unfold named
  cases generic : m.generic with
  | none => simp [no_bracket, no_colon]
  | some t =>
    obtain ⟨plain, plain'⟩ := m.generic_plain t generic
    simp [no_bracket, no_colon, plain, plain']

theorem splitGeneric_named (m : WrittenClass) : splitGeneric m.named = (m.id, m.generic) := by
  have no_tilde : '~' ∉ m.id := not_mem_of_identifier m.id_identifier (by decide +kernel)
  unfold named
  cases generic : m.generic with
  | none => simp [splitGeneric, cut?_of_not_mem no_tilde]
  | some t =>
    have cut : cut? ['~'] (m.id ++ '~' :: (t ++ ['~'])) = some (m.id, t ++ ['~']) := cut?_mark no_tilde _
    have trimmed := trimmed?_of_tight (m.generic_filled t generic) (m.generic_trimmed t generic)
    simp [splitGeneric, cut, dropEnd?_append, trimmed]

/-- A label is what the quotes hold, whatever that is. -/
theorem splitClassLabel_labelled (m : WrittenClass) : splitClassLabel (m.named ++ m.labelled) = (m.named, m.label) := by
  obtain ⟨no_bracket, -⟩ := m.not_mem_named
  unfold labelled
  cases label : m.label with
  | none => simp [splitClassLabel, cutBracketed?, cut?_of_not_mem no_bracket]
  | some t =>
    have cut : cut? ['['] (m.named ++ '[' :: '"' :: (t ++ ['"', ']'])) = some (m.named, '"' :: (t ++ ['"', ']'])) :=
      cut?_mark no_bracket _
    have closed : dropEnd? [']'] ('"' :: (t ++ ['"', ']'])) = some ('"' :: (t ++ ['"'])) := by
      simpa using dropEnd?_append ('"' :: (t ++ ['"'])) [']']
    have tight : trim ('"' :: (t ++ ['"'])) = '"' :: (t ++ ['"']) :=
      trim_of_visible ⟨'"', _, rfl, by decide⟩ ⟨'"' :: t, '"', by simp, by decide⟩
    have kept : trimEnd m.named = m.named := by simpa using trimEnd_of_ends m.named_ends.visible allBlank_nil
    have trimmed := trimmed?_of_tight (m.label_filled t label) (m.label_trimmed t label)
    simp [splitClassLabel, cutBracketed?, cut, closed, tight, unquote_quoted, kept, trimmed]

/-- The first three colons are those of the style class, if none stand in the label. -/
theorem cut?_head (m : WrittenClass) (colonless : ∀ t ∈ m.label, ¬ [':', ':', ':'] <:+: t) :
    cut? [':', ':', ':'] m.head = m.styleClass.map fun t => (m.named ++ m.labelled, t) := by
  have style : cut? [':', ':', ':'] m.styled = m.styleClass.map fun t => ([], t) := by
    unfold styled
    cases m.styleClass with
    | none => rfl
    | some t => exact cut?_at_start _ t
  have front : cut? [':', ':', ':'] (m.labelled ++ m.styled) = m.styleClass.map fun t => (m.labelled, t) := by
    unfold labelled
    cases label : m.label with
    | none => simpa using style
    | some t =>
      have parts : '[' :: '"' :: (t ++ ['"', ']']) ++ m.styled = ['[', '"'] ++ (t ++ '"' :: ([']'] ++ m.styled)) := by simp
      rw [Option.elim_some, parts, cut?_behind (by decide), cut?_behind_mark (colonless t label) (by decide),
        cut?_behind (by decide), style]
      simp [Function.comp_def]
  rw [head, cut?_behind m.not_mem_named.2, front]
  simp [Function.comp_def]

theorem dropClass_head (m : WrittenClass) (colonless : ∀ t ∈ m.label, ¬ [':', ':', ':'] <:+: t) :
    dropClass m.head = m.named ++ m.labelled := by
  rw [dropClass, m.cut?_head colonless]
  cases styled : m.styleClass with
  | none => simp [head, WrittenClass.styled, styled]
  | some t => simpa using trimEnd_of_ends m.labelled_ends.visible allBlank_nil

theorem declared?_written (m : WrittenClass) (colonless : ∀ t ∈ m.label, ¬ [':', ':', ':'] <:+: t)
    (written : line.text = m.written) : declared? line = some (m.definition line.position) := by
  have brace : splitBrace m.behind = (m.head, m.bodied) := splitBrace_written m.head_ends m.bodied
  rw [declared?, written, m.afterKeyword?_written, Option.bind_some, brace, m.dropClass_head colonless,
    m.splitClassLabel_labelled]
  simp only [m.splitGeneric_named, m.id_identifier, if_true]
  rfl

theorem opensBody_written (m : WrittenClass) : opensBody m.written = m.bodied := by
  have brace : splitBrace m.behind = (m.head, m.bodied) := splitBrace_written m.head_ends m.bodied
  rw [opensBody, m.afterKeyword?_written, Option.any_some, ← splitBrace_opens, brace]

/-! ### Colons in a label -/

/-- A text with an open bracket behind the written name names a class only if it is cut behind the id. -/
theorem splitGeneric_torn (m : WrittenClass) (q : Text)
    (identifier : isIdentifier (splitGeneric (m.named ++ '[' :: '"' :: q)).1 = true) :
    (splitGeneric (m.named ++ '[' :: '"' :: q)).1 = m.id := by
  have unbracketed : '[' ∉ (splitGeneric (m.named ++ '[' :: '"' :: q)).1 :=
    not_mem_of_identifier identifier (by decide +kernel)
  have no_tilde : '~' ∉ m.id := not_mem_of_identifier m.id_identifier (by decide +kernel)
  cases cut : cut? ['~'] (m.named ++ '[' :: '"' :: q) with
  | none => simp [splitGeneric, cut] at unbracketed
  | some parts =>
    obtain ⟨before, rest⟩ := parts
    cases closed : dropEnd? ['~'] rest with
    | none => simp [splitGeneric, cut, closed] at unbracketed
    | some generic =>
      simp only [splitGeneric, cut, closed] at unbracketed ⊢
      cases parameters : m.generic with
      | none =>
        have parts : m.named ++ '[' :: '"' :: q = (m.id ++ ['[', '"']) ++ q := by simp [named, parameters]
        rw [parts, cut?_behind (by simp [no_tilde])] at cut
        obtain ⟨⟨front, behind⟩, -, same⟩ := Option.map_eq_some_iff.mp cut
        obtain ⟨rfl, -⟩ := Prod.mk.inj same
        simp at unbracketed
      | some t =>
        have parts : m.named ++ '[' :: '"' :: q = m.id ++ '~' :: (t ++ '~' :: '[' :: '"' :: q) := by
          simp [named, parameters]
        rw [parts, cut?_mark no_tilde] at cut
        exact (Prod.mk.inj (Option.some.inj cut)).1.symm

/-- A class that is read of a label that is not closed has the quote in its label, or no label. -/
theorem splitClassLabel_torn (m : WrittenClass) (absent : '"' ∉ q) :
    (∃ t, splitClassLabel (m.named ++ '[' :: '"' :: q) = (m.named, some t) ∧ '"' ∈ t) ∨
      splitClassLabel (m.named ++ '[' :: '"' :: q) = (m.named ++ '[' :: '"' :: q, none) := by
  have cut : cut? ['['] (m.named ++ '[' :: '"' :: q) = some (m.named, '"' :: q) := cut?_mark m.not_mem_named.1 _
  cases closed : dropEnd? [']'] ('"' :: q) with
  | none => exact .inr (by simp [splitClassLabel, cutBracketed?, cut, closed])
  | some inner =>
    obtain ⟨u, rfl⟩ : ∃ u, inner = '"' :: u := by
      have whole := append_of_dropEnd? closed
      cases inner with
      | nil => simp at whole
      | cons c u =>
        obtain ⟨rfl, -⟩ := List.cons.inj whole
        exact ⟨u, rfl⟩
    have inside : '"' ∉ u := by
      intro member
      have whole := append_of_dropEnd? closed
      refine absent ?_
      rw [(List.cons.inj whole).2]
      exact List.mem_append_left _ member
    obtain ⟨t, read, quoted⟩ := quote_of_unclosed inside
    have kept : trimEnd m.named = m.named := by simpa using trimEnd_of_ends m.named_ends.visible allBlank_nil
    exact .inl ⟨t, by simp [splitClassLabel, cutBracketed?, cut, closed, kept, read], quoted⟩

/-- With three colons in the label the line is cut at the first of them. -/
theorem dropClass_torn (m : WrittenClass) (labelled : t ∈ m.label) (colons : [':', ':', ':'] <:+: t) :
    ∃ q, dropClass m.head = m.named ++ '[' :: '"' :: q ∧ '"' ∉ q := by
  obtain ⟨⟨before, behind⟩, found⟩ := Option.ne_none_iff_exists'.mp fun uncut => cut?_eq_none_iff.mp uncut colons
  have parts : m.head = m.named ++ (['[', '"'] ++ (t ++ ('"' :: ']' :: m.styled))) := by
    rw [head, WrittenClass.labelled, Option.mem_def.mp labelled]
    simp
  have cut : cut? [':', ':', ':'] m.head =
      some (m.named ++ (['[', '"'] ++ before), behind ++ ('"' :: ']' :: m.styled)) := by
    rw [parts, cut?_behind m.not_mem_named.2, cut?_behind (by decide), cut?_append found]
    rfl
  have quote : EndsVisible (m.named ++ ['[', '"']) := ⟨m.named ++ ['['], '"', by simp, by decide⟩
  refine ⟨trimEnd before, ?_, ?_⟩
  · rw [dropClass, cut]
    simpa using trimEnd_append quote before
  · intro member
    refine m.label_unquoted t labelled ?_
    rw [← append_of_cut? found]
    exact List.mem_append_left _ (mem_of_mem_trimEnd _ member)

/-- Of a label with three colons at most a part is read, with the quote in front of it. -/
theorem declared?_torn (m : WrittenClass) (written : line.text = m.written) (labelled : t ∈ m.label)
    (colons : [':', ':', ':'] <:+: t) (declares : declared? line = some c) : c.id = m.id ∧ c.label ≠ m.label := by
  have brace : splitBrace m.behind = (m.head, m.bodied) := splitBrace_written m.head_ends m.bodied
  obtain ⟨q, cut, absent⟩ := m.dropClass_torn labelled colons
  rw [declared?, written, m.afterKeyword?_written, Option.bind_some, brace, cut] at declares
  rcases m.splitClassLabel_torn absent with ⟨u, read, quoted⟩ | unread
  · rw [read] at declares
    simp only [m.splitGeneric_named, m.id_identifier, if_true, Option.some.injEq] at declares
    subst declares
    refine ⟨rfl, ?_⟩
    rw [Option.mem_def.mp labelled]
    rintro ⟨rfl⟩
    exact m.label_unquoted t labelled quoted
  · rw [unread] at declares
    simp only [Option.ite_none_right_eq_some, Option.some.injEq] at declares
    obtain ⟨identifier, rfl⟩ := declares
    refine ⟨m.splitGeneric_torn q identifier, ?_⟩
    rw [Option.mem_def.mp labelled]
    intro same
    cases same

end WrittenClass

/-! ### The line of a class -/

theorem classLine_of_declared (declares : declared? line = some c) :
    classLine d line = take (d.withClass c (opensBody line.text)) := by
  obtain ⟨rest, after, declares⟩ := Option.bind_eq_some_iff.mp declares
  simp only [Option.ite_none_right_eq_some, Option.some.injEq] at declares
  obtain ⟨identifies, rfl⟩ := declares
  rw [classLine, after, opensBody, after, Option.any_some, ← splitBrace_opens]
  dsimp only
  rw [if_pos identifies, Draft.withClass]
  split <;> rfl

theorem classLine_not_passed (after : afterKeyword? "class" line.text = some rest) : classLine d line ≠ .ok none := by
  rw [classLine, after]
  dsimp only
  split
  · split
    · nofun
    · nofun
  · nofun

/-- A line outside bodies that is written as a class declares it. A class is read as it is written, whatever its label
holds but three colons. With three colons in the label the line is refused, or the class that is read has another label. -/
theorem written_class_read (m : WrittenClass) (closed : d.body = none) (number : Nat) {raw : Text}
    (written : trim raw = m.written) :
    Zone.content.line? number raw = some (.ofRaw number raw) ∧
    ((∀ t ∈ m.label, ¬ ":::".toList <:+: t) →
      readLine (rules d) d (.ofRaw number raw) =
        .ok (d.withClass (m.definition (Line.ofRaw number raw).position) m.bodied)) ∧
    (∀ t ∈ m.label, ":::".toList <:+: t → ∀ d', readLine (rules d) d (.ofRaw number raw) = .ok d' →
      ∃ c, d' = d.withClass c m.bodied ∧ c.id = m.id ∧ c.label ≠ m.label) := by
  have text : (Line.ofRaw number raw).text = m.written := written
  have outer : rules d = outerRules := by rw [rules, closed]; rfl
  refine ⟨?_, ?_, ?_⟩
  · have spoken : ¬ IsSilent raw := not_silent_of_begins written (by decide)
    exact Zone.content_line? spoken number
  · intro colonless
    have declares := classLine_of_declared (d := d) (m.declared?_written colonless text)
    rw [text, m.opensBody_written] at declares
    rw [outer]
    exact readLine_of_first rfl declares
  · intro t labelled colons d' taken
    rw [outer, readLine_eq_ok_iff, outerRules, firstTaking_cons] at taken
    rcases taken with declared | ⟨passed, -⟩
    · obtain ⟨c, declares, rfl⟩ := classLine_declares declared
      obtain ⟨named, other⟩ := m.declared?_torn text labelled colons declares
      rw [text, m.opensBody_written]
      exact ⟨c, rfl, named, other⟩
    · have after := m.afterKeyword?_written
      rw [← text] at after
      exact absurd passed (classLine_not_passed after)

/-- A class with type parameters and a style class, in whose label stands what looks like other parts. -/
def busyClass : WrittenClass where
  id := "Map_2".toList
  generic := some "K, List V".toList
  label := some "a[b]~c~ :: \x7b".toList
  styleClass := some "hot".toList
  bodied := true
  id_identifier := by decide +kernel
  generic_filled := by decide
  generic_trimmed := by decide
  generic_plain := by decide
  label_filled := by decide
  label_trimmed := by decide
  label_unquoted := by decide
  style_identifier := by
    rintro _ ⟨rfl⟩
    decide +kernel

theorem written_class_read_busyClass :
    (trim " class Map_2~K, List V~[\"a[b]~c~ :: \x7b\"]:::hot \x7b".toList = busyClass.written ∧
      ∀ t ∈ busyClass.label, ¬ ":::".toList <:+: t) ∧
    readLine (rules {}) {} (.ofRaw 2 " class Map_2~K, List V~[\"a[b]~c~ :: \x7b\"]:::hot \x7b".toList) = .ok {
      body := some ⟨"Map_2".toList, some "K, List V".toList, some "a[b]~c~ :: \x7b".toList, none, [], ⟨2, 2⟩⟩ } := by
  have written : trim " class Map_2~K, List V~[\"a[b]~c~ :: \x7b\"]:::hot \x7b".toList = busyClass.written := by decide
  have colonless : ∀ t ∈ busyClass.label, ¬ ":::".toList <:+: t := by
    rintro _ ⟨rfl⟩
    exact cut?_eq_none_iff.mp (by decide)
  exact ⟨⟨written, colonless⟩, (written_class_read busyClass (d := {}) rfl 2 written).2.1 colonless⟩

/-- A class with three colons in its label. -/
def colonClass : Text := "classDiagram\nclass A[\"a:::b\"]".toList

/-- The line is cut at the colons, and what stands in front of them is no id. -/
theorem colonClass_refused : read (Source.ofText colonClass 0) = .error
    ((Line.ofRaw 2 "class A[\"a:::b\"]".toList).fail (.classNameInvalid "A[\"a".toList)) :=
  eq_error_of_seen (by decide +kernel)

end DiagramLint.ClassDiagram
