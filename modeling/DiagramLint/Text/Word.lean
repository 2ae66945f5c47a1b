import DiagramLint.Text.Basic

/-!
Keywords, identifiers, labels and words: the small forms that the lines of all diagram kinds share.
-/
namespace DiagramLint.Text

/-- A text beginning with the keyword, cut behind it: the keyword ends at a blank or at the end of
the text. What is left has no blanks at its start. -/
def afterKeyword? (keyword : String) (t : Text) : Option Text :=
  match dropStart? keyword.toList t with
  | none => none
  | some [] => some []
  | some (c :: rest) => if isBlank c then some (trimStart (c :: rest)) else none

/-- Like `afterKeyword?`, where a colon directly behind the keyword ends it too and is dropped. -/
def afterKeywordColon? (keyword : String) (t : Text) : Option Text :=
  match dropStart? keyword.toList t with
  | none => none
  | some [] => some []
  | some (c :: rest) =>
    if c = ':' then some (trimStart rest)
    else if isBlank c then some (trimStart (c :: rest))
    else none

/-- The cut at the first colon outside double quotes; `quoted` says whether the scan starts inside
them. -/
def cutColon? (quoted : Bool) : Text → Option (Text × Text)
  | [] => none
  | c :: t =>
    if c = ':' && !quoted then some ([], t)
    else (cutColon? (if c = '"' then !quoted else quoted) t).map
      fun (before, rest) => (c :: before, rest)

/-- A head and the label behind the first colon outside double quotes, if there is one. -/
def headAndLabel (t : Text) : Text × Option Text :=
  match cutColon? false t with
  | some (head, label) => (trimEnd head, some (trim label))
  | none => (t, none)

/-- The texts before and inside square brackets that end the text: the first one opens them. -/
def cutBracketed? (t : Text) : Option (Text × Text) :=
  (cut? ['['] t).bind fun (before, rest) => (dropEnd? [']'] rest).map fun inner => (before, inner)

/-- A character of identifiers: alphanumeric, or one of underscore, hyphen and full stop. -/
def isIdentifierChar (c : Char) : Bool := isAlphanumeric c || c = '_' || c = '-' || c = '.'

/-- An identifier is a non-empty text of identifier characters. -/
def isIdentifier (t : Text) : Bool := !t.isEmpty && t.all isIdentifierChar

/-- A word in front of further words; the empty word counts for nothing. -/
def consWord (word : Text) (words : List Text) : List Text :=
  if word.isEmpty then words else word :: words

/-- The end of the word under way and the words after it, where blanks inside double quotes belong
to their word; `quoted` says whether the scan starts inside quotes. -/
def wordsFrom (quoted : Bool) : Text → Text × List Text
  | [] => ([], [])
  | c :: t =>
    let inside := if c = '"' then !quoted else quoted
    let after := wordsFrom inside t
    if isBlank c && !inside then ([], consWord after.1 after.2)
    else (c :: after.1, after.2)

/-- The words of a text: it is cut at blanks outside double quotes, and the quotes are kept. -/
def words (t : Text) : List Text := consWord (wordsFrom false t).1 (wordsFrom false t).2

/-- The end of the token under way and the tokens after it. -/
def tokensFrom : Text → Text × List Text
  | [] => ([], [])
  | c :: t =>
    let after := tokensFrom t
    if isBlank c then ([], consWord after.1 after.2) else (c :: after.1, after.2)

/-- The tokens of a text: it is cut at every blank. -/
def tokens (t : Text) : List Text := consWord (tokensFrom t).1 (tokensFrom t).2

/-- The width of the indentation: a space counts one and a tab two. -/
def indentWidth : Text → Nat
  | ' ' :: t => 1 + indentWidth t
  | '\t' :: t => 2 + indentWidth t
  | _ => 0

end DiagramLint.Text
