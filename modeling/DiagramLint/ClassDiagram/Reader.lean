import DiagramLint.ClassDiagram.Basic

/-!
Reading class diagrams. While the body of a class is read its lines are members; the class is put to
the others when its body is closed.
-/
namespace DiagramLint.ClassDiagram

open Text

/-- What has been read of a class diagram. -/
structure Draft where
  direction : Option Direction := none
  classes : List Definition := []
  members : List OuterMember := []
  relationships : List Relationship := []
  annotations : List OuterAnnotation := []
  notes : List Note := []
  /-- The class whose body is being read. -/
  body : Option Definition := none
  deriving DecidableEq, Repr

/-! ### Members -/

/-- A name of a member is not empty and has no blanks. -/
def isMemberName (t : Text) : Bool := !t.isEmpty && !t.any isBlank

/-- A visibility in front of a member, and what follows. -/
def splitVisibility (t : Text) : Option Visibility × Text :=
  match t with
  | [] => (none, [])
  | c :: rest =>
    match Visibility.ofMark? c with
    | some v => (some v, trimStart rest)
    | none => (none, t)

/-- A classifier in front of the type of a method, and what follows. -/
def splitClassifierStart (t : Text) : Option Classifier × Text :=
  match t with
  | [] => (none, [])
  | c :: rest =>
    match Classifier.ofMark? c with
    | some k => (some k, trim rest)
    | none => (none, t)

/-- A field and the classifier behind it. -/
def splitClassifierEnd (t : Text) : Text × Option Classifier :=
  match t.getLast?.bind Classifier.ofMark? with
  | some k => (trimEnd t.dropLast, some k)
  | none => (t, none)

/-- A method: a name, parameters up to the last closing parenthesis, a classifier and a type. -/
def method? (position : Position) (visibility : Option Visibility) (before after : Text) :
    Option Member :=
  (cutLast? ')' after).bind fun (parameters, rest) =>
    if isMemberName (trim before) then
      let (classifier, type) := splitClassifierStart (trim rest)
      some ⟨visibility, trim before, some (trim parameters), trimmed? type, classifier, position⟩
    else none

/-- The type and the name of a field without a type behind a colon: the name is the last word. -/
def typeAndName (t : Text) : Option Text × Text :=
  match cutLastBlank? t with
  | some (type, name) => (trimmed? type, name)
  | none => (none, t)

/-- A field: a name with its type in front or behind a colon, and a classifier behind the name. -/
def field? (position : Position) (visibility : Option Visibility) (t : Text) : Option Member :=
  let (body, trailing) := match cut? [':'] t with
    | some (body, type) => (trimEnd body, trimmed? type)
    | none => (t, none)
  let (body, classifier) := splitClassifierEnd body
  let (type, name) := match trailing with
    | some type => (some type, body)
    | none => typeAndName body
  if isMemberName name then some ⟨visibility, name, none, type, classifier, position⟩ else none

/-- A member; a parenthesis makes it a method. -/
def member? (position : Position) (t : Text) : Option Member :=
  let (visibility, rest) := splitVisibility (trim t)
  match cut? ['('] rest with
  | some (before, after) => method? position visibility before after
  | none => field? position visibility rest

/-- The member that a text is, or a fault of the line. -/
def member (line : Line) (t : Text) : Except ParseError Member :=
  match member? line.position t with
  | some m => .ok m
  | none => .error (line.fail (.memberInvalid t))

/-! ### Lines outside bodies -/

/-- A text and the label in square brackets behind it. -/
def splitClassLabel (t : Text) : Text × Option Text :=
  match cutBracketed? t with
  | some (before, label) => (trimEnd before, trimmed? (unquote (trim label)))
  | none => (t, none)

/-- A text and the type parameters between tildes behind it. -/
def splitGeneric (t : Text) : Text × Option Text :=
  match cut? ['~'] t with
  | none => (t, none)
  | some (before, rest) =>
    match dropEnd? ['~'] rest with
    | some generic => (before, trimmed? generic)
    | none => (t, none)

/-- A text without the style class behind three colons. -/
def dropClass (t : Text) : Text :=
  match cut? [':', ':', ':'] t with
  | some (before, _) => trimEnd before
  | none => t

/-- A text without an opening brace at its end, and whether it had one. -/
def splitBrace (t : Text) : Text × Bool :=
  match dropEnd? ['{'] t with
  | some before => (trimEnd before, true)
  | none => (t, false)

/-- A class, and perhaps the beginning of its body. -/
def classLine (d : Draft) (line : Line) : Taken Draft :=
  match afterKeyword? "class" line.text with
  | none => pass
  | some rest =>
    let (rest, hasBody) := splitBrace rest
    let (rest, label) := splitClassLabel (dropClass rest)
    let (id, generic) := splitGeneric rest
    if isIdentifier id then
      let definition : Definition := ⟨id, generic, label, none, [], line.position⟩
      if hasBody then take { d with body := some definition }
      else take { d with classes := d.classes ++ [definition] }
    else .error (line.fail (.classNameInvalid id))

/-- An annotation between double angle brackets, and what follows. -/
def stereotype? (t : Text) : Option (Text × Text) :=
  (dropStart? ['<', '<'] t).bind fun inner =>
    (cut? ['>', '>'] inner).bind fun (stereotype, rest) =>
      (trimmed? stereotype).map fun stereotype => (stereotype, trim rest)

/-- An annotation with the name of its class. -/
def annotationLine (d : Draft) (line : Line) : Taken Draft :=
  match stereotype? line.text with
  | none => pass
  | some (stereotype, owner) =>
    if isIdentifier owner then
      take { d with annotations := d.annotations ++ [⟨owner, stereotype, line.position⟩] }
    else .error (line.fail .annotationUnowned)

/-- The class of a note and its text: the class stands behind the word "for". -/
def noteParts (t : Text) : Option Text × Text :=
  match afterKeyword? "for" t with
  | none => (none, t)
  | some rest =>
    match cutBlank? rest with
    | some (target, text) => (some target, trim text)
    | none => (some rest, [])

/-- A note. -/
def noteLine (d : Draft) (line : Line) : Taken Draft :=
  match afterKeyword? "note" line.text with
  | none => pass
  | some rest =>
    let (target, text) := noteParts rest
    if (unquote text).isEmpty then .error (line.fail .classNoteEmpty)
    else take { d with notes := d.notes ++ [⟨target, unquote text, line.position⟩] }

/-- A direction; the last one counts. -/
def directionLine (d : Draft) (line : Line) : Taken Draft :=
  match afterKeyword? "direction" line.text with
  | none => pass
  | some rest => (line.direction rest).map fun direction => some { d with direction := some direction }

/-- The words before the first relation, the relation, and the words behind it. -/
def cutRelation? : List Text → Option (List Text × Relation × List Text)
  | [] => none
  | word :: rest =>
    match Relation.ofSymbol? word with
    | some relation => some ([], relation, rest)
    | none => (cutRelation? rest).map fun (before, relation, after) =>
        (word :: before, relation, after)

/-- A class beside a relation and, between the two, a cardinality in double quotes. The words are
those from the class to the relation. -/
def endpoint? : List Text → Option (Text × Option Text)
  | [id] => some (id, none)
  | [id, cardinality] =>
    if startsWith ['"'] cardinality then some (id, some (unquote cardinality)) else none
  | _ => none

/-- The relation between two classes that words with a relation among them make. -/
def relationship (line : Line) (before : List Text) (relation : Relation) (after : List Text)
    (label : Option Text) : Except ParseError Relationship :=
  match endpoint? before, endpoint? after.reverse with
  | none, _ => .error (line.fail .relationLeftMissing)
  | some _, none => .error (line.fail .relationRightMissing)
  | some (source, sourceCardinality), some (target, targetCardinality) =>
    if isIdentifier source && isIdentifier target then
      .ok ⟨source, target, relation, sourceCardinality, targetCardinality, label, line.position⟩
    else .error (line.fail (.endpointsInvalid source target))

/-- A relation between two classes, with a label behind a colon. -/
def relationshipLine (d : Draft) (line : Line) : Taken Draft :=
  let (head, label) := headAndLabel line.text
  match cutRelation? (words head) with
  | none => pass
  | some (before, relation, after) =>
    (relationship line before relation after (label.bind trimmed?)).map fun r =>
      some { d with relationships := d.relationships ++ [r] }

/-- A member behind the name of its class and a colon. -/
def memberLine (d : Draft) (line : Line) : Taken Draft :=
  match headAndLabel line.text with
  | (_, none) => pass
  | (owner, some text) =>
    if isIdentifier owner then
      (member line text).map fun m => some { d with members := d.members ++ [⟨owner, m⟩] }
    else pass

/-- The rules for the lines outside bodies. -/
def outerRules : List (LineRule Draft) :=
  [⟨"class", classLine⟩, ⟨"annotation", annotationLine⟩, ⟨"note", noteLine⟩,
   ⟨"direction", directionLine⟩, ⟨"relationship", relationshipLine⟩, ⟨"member", memberLine⟩]

/-! ### Lines of bodies -/

/-- The end of the body. -/
def closeLine (d : Draft) (line : Line) : Taken Draft :=
  if line.text = ['}'] then
    take { d with classes := d.classes ++ d.body.toList, body := none }
  else pass

/-- The annotation of the class; the last one counts. -/
def bodyAnnotationLine (d : Draft) (line : Line) : Taken Draft :=
  match stereotype? line.text with
  | none => pass
  | some (stereotype, []) =>
    take { d with body := d.body.map fun c => { c with stereotype := some stereotype } }
  | some _ => .error (line.fail .annotationOwned)

/-- A member of the class. -/
def bodyMemberLine (d : Draft) (line : Line) : Taken Draft :=
  (member line line.text).map fun m =>
    some { d with body := d.body.map fun c => { c with members := c.members ++ [m] } }

/-- The rules for the lines of a body. -/
def bodyRules : List (LineRule Draft) :=
  [⟨"\x7d", closeLine⟩, ⟨"annotation", bodyAnnotationLine⟩, ⟨"member", bodyMemberLine⟩]

/-! ### Diagrams -/

/-- The rules for the next line. -/
def rules (d : Draft) : List (LineRule Draft) := if d.body.isSome then bodyRules else outerRules

/-- The class diagram of a source. -/
def read (s : Source) : Except ParseError ClassDiagram := do
  let header ← s.bareHeader "classDiagram"
  let d ← readLines rules {} s.body
  match d.body with
  | some c => .error ((Fault.classUnclosed c.id).at c.position)
  | none =>
    .ok ⟨s.header .classDiagram header, d.direction, d.classes, d.members, d.relationships,
      d.annotations, d.notes⟩

end DiagramLint.ClassDiagram
