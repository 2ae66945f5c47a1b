import DiagramLint.Toml.Table
import DiagramLint.Toml.Token

/-!
TOML documents: values, which may nest, and statements, one on a line, that make up a table. A
document that breaks the grammar or defines a key twice cannot be read. Readers of nested forms take
the depth that they may still go down, and the length of a text bounds how deep it nests.
-/
namespace DiagramLint.Toml

open Text

/-- Keys with full stops between them, and what follows. -/
def path? : Nat → Text → Option (List Text × Text)
  | 0, _ => none
  | depth + 1, t => do
    let (key, rest) ← key? (skipSpaces t)
    match skipSpaces rest with
    | '.' :: rest => (path? depth rest).map fun (path, rest) => (key :: path, rest)
    | rest => some ([key], rest)

/-! ### Values -/

mutual

/-- A value and what follows it. -/
def value? : Nat → Text → Option (Value × Text)
  | 0, _ => none
  | depth + 1, t =>
    match t with
    | '[' :: rest => (items? depth rest).map fun (items, rest) => (.array items, rest)
    | '{' :: rest => (entries? depth [] rest).map fun (entries, rest) =>
        (.table .inline entries, rest)
    | t =>
      match string? t with
      | some (s, rest) => some (.text s, rest)
      | none => (scalar? t).map fun (written, rest) => (.scalar written, rest)

/-- The items of an array up to its end, and what follows. A comma may stand behind the last one. -/
def items? : Nat → Text → Option (List Value × Text)
  | 0, _ => none
  | depth + 1, t => do
    match ← skipTrivia? false t with
    | ']' :: rest => some ([], rest)
    | t => do
      let (value, rest) ← value? depth t
      match ← skipTrivia? false rest with
      | ',' :: rest => (items? depth rest).map fun (items, rest) => (value :: items, rest)
      | ']' :: rest => some ([value], rest)
      | _ => none

/-- The entries of a table in a value up to its end, put to those before, and what follows. A comma
may stand behind the last one. Line ends and comments may stand between all parts of an entry but
within its key. -/
def entries? : Nat → Entries → Text → Option (Entries × Text)
  | 0, _, _ => none
  | depth + 1, entries, t => do
    match ← skipTrivia? false t with
    | '}' :: rest => some (entries, rest)
    | t => do
      let (path, rest) ← path? depth t
      match ← skipTrivia? false rest with
      | '=' :: rest => do
        let (value, rest) ← value? depth (← skipTrivia? false rest)
        let entries ← entries.insertDotted? path value
        match ← skipTrivia? false rest with
        | ',' :: rest => entries? depth entries rest
        | '}' :: rest => some (entries, rest)
        | _ => none
      | _ => none

end

/-! ### Statements -/

/-- A statement of a document. -/
inductive Statement where
  /-- A header: what follows belongs to the table at the path. -/
  | header (path : List Text)
  /-- A header in double brackets: what follows belongs to a new table at the path. -/
  | item (path : List Text)
  /-- A value under a dotted key. -/
  | entry (path : List Text) (value : Value)
  deriving Repr

/-- A statement and what follows it. -/
def statement? (depth : Nat) (t : Text) : Option (Statement × Text) :=
  match t with
  | '[' :: '[' :: rest => do
    let (path, rest) ← path? depth rest
    let rest ← dropStart? [']', ']'] rest
    some (.item path, rest)
  | '[' :: rest => do
    let (path, rest) ← path? depth rest
    let rest ← dropStart? [']'] rest
    some (.header path, rest)
  | t => do
    let (path, rest) ← path? depth t
    let rest ← dropStart? ['='] rest
    let (value, rest) ← value? depth (skipSpaces rest)
    some (.entry path value, rest)

/-- The statements of a text. -/
def statements? : Nat → Text → Option (List Statement)
  | 0, _ => none
  | depth + 1, t => do
    match ← skipTrivia? false t with
    | [] => some []
    | t => do
      let (statement, rest) ← statement? depth t
      let rest ← skipLineEnd? rest
      (statements? depth rest).map (statement :: ·)

/-- A document as far as it has been read. -/
structure Draft where
  /-- The path to the table that entries belong to. -/
  path : List Text := []
  entries : Entries := []
  deriving Repr

/-- The draft with one more statement. -/
def Draft.add? (d : Draft) : Statement → Option Draft
  | .header path => do
    let key ← path.getLast?
    let entries ← d.entries.update? (Entries.declare? key) path.dropLast
    some ⟨path, entries⟩
  | .item path => do
    let key ← path.getLast?
    let entries ← d.entries.update? (Entries.declareItem? key) path.dropLast
    some ⟨path, entries⟩
  | .entry path value => do
    let entries ← d.entries.update? (Entries.insertDotted? path value) d.path
    some { d with entries := entries }

/-- The mark that may stand at the start of a document. -/
def byteOrderMark : Char := '\ufeff'

/-- The table of a document. -/
def read? (t : Text) : Option Entries := do
  let t := (dropStart? [byteOrderMark] t).getD t
  let statements ← statements? (2 * t.length + 2) t
  let d ← statements.foldlM Draft.add? {}
  some d.entries

end DiagramLint.Toml
