import DiagramLint.Text.Basic

/-!
Tables of TOML documents. A table remembers what made it: tables that are made by a header or stand
in a value are complete, while those that only stand on the way to another table may still get a
header, and those made by dotted keys may get more dotted keys.
-/
namespace DiagramLint.Toml

/-- What made a table. -/
inductive Origin where
  /-- A header of its own. -/
  | header
  /-- The header of a table in it. -/
  | implied
  /-- A dotted key. -/
  | dotted
  /-- A value. -/
  | inline
  deriving DecidableEq, Repr

/-- A value. -/
inductive Value where
  | text (t : Text)
  /-- A number or a boolean, as it is written. -/
  | scalar (written : Text)
  | array (items : List Value)
  | table (origin : Origin) (entries : List (Text × Value))
  /-- The tables of the headers in double brackets, at least one. -/
  | tables (items : List (List (Text × Value)))
  deriving Repr

/-- The entries of a table, each key once. -/
abbrev Entries := List (Text × Value)

namespace Entries

/-- The entries with a new value for a key that they have. -/
def replace (key : Text) (value : Value) (entries : Entries) : Entries :=
  entries.map fun (k, v) => if k = key then (k, value) else (k, v)

/-- The entries with one more; its key must be new. -/
def insert? (key : Text) (value : Value) (entries : Entries) : Option Entries :=
  match entries.lookup key with
  | some _ => none
  | none => some (entries ++ [(key, value)])

/-- The entries with a value under a dotted key, which may only pass through tables made by dotted
keys. -/
def insertDotted? : List Text → Value → Entries → Option Entries
  | [], _, _ => none
  | [key], value, entries => entries.insert? key value
  | key :: path, value, entries =>
    match entries.lookup key with
    | none => (insertDotted? path value []).map fun inner =>
        entries ++ [(key, .table .dotted inner)]
    | some (.table .dotted inner) => (insertDotted? path value inner).map fun inner =>
        entries.replace key (.table .dotted inner)
    | some _ => none

/-- The entries with a change to the table at the end of a path. A path goes to the last of the
tables in double brackets, makes the tables that are missing, and does not enter values. -/
def update? (f : Entries → Option Entries) : List Text → Entries → Option Entries
  | [], entries => f entries
  | key :: path, entries =>
    match entries.lookup key with
    | none => (update? f path []).map fun inner => entries ++ [(key, .table .implied inner)]
    | some (.table .inline _) => none
    | some (.table origin inner) => (update? f path inner).map fun inner =>
        entries.replace key (.table origin inner)
    | some (.tables items) =>
      match items.getLast? with
      | none => none
      | some last => (update? f path last).map fun last =>
          entries.replace key (.tables (items.dropLast ++ [last]))
    | some _ => none

/-- The entries with the table of a header, which must be new or implied. -/
def declare? (key : Text) (entries : Entries) : Option Entries :=
  match entries.lookup key with
  | none => some (entries ++ [(key, .table .header [])])
  | some (.table .implied inner) => some (entries.replace key (.table .header inner))
  | some _ => none

/-- The entries with one more table of a header in double brackets. -/
def declareItem? (key : Text) (entries : Entries) : Option Entries :=
  match entries.lookup key with
  | none => some (entries ++ [(key, .tables [[]])])
  | some (.tables items) => some (entries.replace key (.tables (items ++ [[]])))
  | some _ => none

/-- The entries in the order of their keys. -/
def sorted (entries : Entries) : Entries := entries.mergeSort fun a b => a.1.str ≤ b.1.str

end Entries
end DiagramLint.Toml
