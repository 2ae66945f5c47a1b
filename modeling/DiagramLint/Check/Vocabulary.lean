import DiagramLint.Finding

/-!
Fields whose values come from a fixed list of words.
-/
namespace DiagramLint

open Text

/-- A field and the words it may hold. -/
structure Vocabulary where
  field : String
  allowed : List String
  deriving DecidableEq, Repr

/-- A value of the field: it is found if it is none of the words. -/
def Vocabulary.check (v : Vocabulary) (value : Text) (position : Position) : Option Finding :=
  if v.allowed.any fun word => word.toList == value then none
  else some ((((Finding.ofMessage .error s!"invalid {v.field} {quote value}").withCode
    .e302).withLabel position s!"not a valid {v.field}").withHelp
    s!"expected one of: {Fault.commas v.allowed}")

end DiagramLint
