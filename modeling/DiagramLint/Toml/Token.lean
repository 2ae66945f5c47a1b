import DiagramLint.Text.Basic

/-!
The small forms of TOML documents: blanks and comments, strings, keys and scalars.
-/
namespace DiagramLint.Toml

open Text

/-! ### Blanks and comments -/

/-- A space or a tab. -/
def isSpace (c : Char) : Bool := c = ' ' || c = '\t'

/-- A character that documents may not hold. Where line ends may stand, they are taken before it is
asked for. -/
def isControl (c : Char) : Bool := (c.val < 0x20 && c != '\t') || c = '\x7f'

/-- The text without spaces and tabs at its start. -/
def skipSpaces (t : Text) : Text := t.dropWhile isSpace

/-- What follows the blanks, line ends and comments at the start of a text; `inComment` says whether
the scan starts inside a comment. -/
def skipTrivia? (inComment : Bool) : Text → Option Text
  | [] => some []
  | '\n' :: t => skipTrivia? false t
  | '\r' :: '\n' :: t => skipTrivia? false t
  | c :: t =>
    if inComment then if isControl c then none else skipTrivia? true t
    else if c = '#' then skipTrivia? true t
    else if isSpace c then skipTrivia? false t
    else some (c :: t)

/-- What follows the end of a line, in front of which a comment may stand. -/
def skipLineEnd? (t : Text) : Option Text :=
  match skipSpaces t with
  | [] => some []
  | '\n' :: rest => some rest
  | '\r' :: '\n' :: rest => some rest
  | '#' :: rest => skipTrivia? true rest
  | _ => none

/-! ### Strings -/

/-- The escapes of one letter. -/
def escapes : List (Char × Char) :=
  [('b', '\x08'), ('t', '\t'), ('n', '\n'), ('f', '\x0c'), ('r', '\r'), ('e', '\x1b'), ('"', '"'),
   ('\\', '\\')]

/-- The escapes by number, with their counts of hexadecimal digits. -/
def numericEscapes : List (Char × Nat) := [('x', 2), ('u', 4), ('U', 8)]

/-- The value of a hexadecimal digit. -/
def hexDigit? (c : Char) : Option Nat :=
  if c.isDigit then some (c.toNat - 48)
  else if 'a' ≤ c ∧ c ≤ 'f' then some (c.toNat - 87)
  else if 'A' ≤ c ∧ c ≤ 'F' then some (c.toNat - 55)
  else none

/-- The character whose number some hexadecimal digits give. -/
def hexChar? (digits : Text) : Option Char := do
  let values ← digits.mapM hexDigit?
  let n := values.foldl (fun n d => 16 * n + d) 0
  if h : n.isValidChar then some (Char.ofNatAux n h) else none

/-- The character that an escape stands for and what follows. The text begins behind the
backslash. -/
def escape? : Text → Option (Char × Text)
  | [] => none
  | c :: t =>
    match escapes.lookup c, numericEscapes.lookup c with
    | some d, _ => some (d, t)
    | none, some n =>
      if t.length < n then none else (hexChar? (t.take n)).map fun d => (d, t.drop n)
    | none, none => none

theorem length_of_escape? {t rest : Text} {c : Char} (found : escape? t = some (c, rest)) :
    rest.length < t.length := by
  cases t with
  | nil => simp [escape?] at found
  | cons d t =>
    rw [escape?] at found
    split at found
    · simp only [Option.some.injEq, Prod.mk.injEq] at found
      simp [← found.2]
    · split at found
      · simp at found
      · obtain ⟨_, _, same⟩ := Option.map_eq_some_iff.1 found
        simp only [Prod.mk.injEq] at same
        simp only [← same.2, List.length_drop, List.length_cons]
        omega
    · simp at found

/-- A backslash in front of the text stands at the end of its line. -/
def endsLine (t : Text) : Bool :=
  match skipSpaces t with
  | '\n' :: _ => true
  | '\r' :: '\n' :: _ => true
  | _ => false

/-- The text without blanks and line ends at its start. -/
def skipLines (t : Text) : Text := t.dropWhile fun c => isSpace c || c = '\n' || c = '\r'

/-- The text that a string with escapes stands for. In a string over several lines a backslash at
the end of a line takes the blanks and line ends behind it away. -/
def unescape? (multiline : Bool) : Text → Option Text
  | [] => some []
  | c :: t =>
    if c = '\\' then
      if multiline && endsLine t then unescape? multiline (skipLines t)
      else match _h : escape? t with
        | none => none
        | some (d, rest) => (unescape? multiline rest).map (d :: ·)
    else (unescape? multiline t).map (c :: ·)
termination_by t => t.length
decreasing_by
  · have := (List.dropWhile_sublist (fun c => isSpace c || c = '\n' || c = '\r') (l := t)).length_le
    simp only [skipLines, List.length_cons]
    omega
  · have := length_of_escape? (by assumption)
    simp only [List.length_cons]
    omega
  · simp

/-- The text holds no control characters; line ends are allowed in strings over several lines. -/
def isClean (multiline : Bool) : Text → Bool
  | [] => true
  | '\r' :: '\n' :: t => multiline && isClean multiline t
  | c :: t => (!isControl c || (multiline && c = '\n')) && isClean multiline t

/-- The texts before and after the quote that closes a string; with escapes, a backslash takes the
next character. -/
def cutQuote? (quote : Char) (escaped : Bool) : Text → Option (Text × Text)
  | [] => none
  | c :: t =>
    if c = quote then some ([], t)
    else if escaped && c = '\\' then
      match t with
      | [] => none
      | d :: t => (cutQuote? quote escaped t).map fun (inner, rest) => (c :: d :: inner, rest)
    else (cutQuote? quote escaped t).map fun (inner, rest) => (c :: inner, rest)

/-- The texts before and after the three quotes that close a string over several lines. Of more than
three quotes the last three close it, and at most two stand before those. -/
def cutQuotes? (quote : Char) (escaped : Bool) : Text → Option (Text × Text)
  | [] => none
  | c :: t =>
    if c = quote && startsWith [quote, quote] t then
      let extra := ((t.drop 2).takeWhile (· == quote)).take 2
      some (extra, t.drop (2 + extra.length))
    else if escaped && c = '\\' then
      match t with
      | [] => none
      | d :: t => (cutQuotes? quote escaped t).map fun (inner, rest) => (c :: d :: inner, rest)
    else (cutQuotes? quote escaped t).map fun (inner, rest) => (c :: inner, rest)

/-- The text without one line end at its start. -/
def dropLineEnd (t : Text) : Text :=
  match t with
  | '\n' :: rest => rest
  | '\r' :: '\n' :: rest => rest
  | rest => rest

/-- What a string stands for, given what is written between its quotes. -/
def content? (escaped multiline : Bool) (written : Text) : Option Text :=
  if isClean multiline written then
    if escaped then unescape? multiline written else some written
  else none

/-- A string in one line and what follows it. -/
def lineString? (t : Text) : Option (Text × Text) :=
  match t with
  | [] => none
  | quote :: t =>
    if quote = '"' || quote = '\'' then
      (cutQuote? quote (quote = '"') t).bind fun (written, rest) =>
        (content? (quote = '"') false written).map fun s => (s, rest)
    else none

/-- A string and what follows it. -/
def string? (t : Text) : Option (Text × Text) :=
  match t with
  | [] => none
  | quote :: _ =>
    match dropStart? [quote, quote, quote] t with
    | none => lineString? t
    | some rest =>
      if quote = '"' || quote = '\'' then
        (cutQuotes? quote (quote = '"') (dropLineEnd rest)).bind fun (written, rest) =>
          (content? (quote = '"') true written).map fun s => (s, rest)
      else none

/-! ### Keys -/

/-- A character of keys without quotes. -/
def isKeyChar (c : Char) : Bool := c.isAlphanum || c = '_' || c = '-'

/-- A key and what follows it. -/
def key? (t : Text) : Option (Text × Text) :=
  match lineString? t with
  | some found => some found
  | none =>
    let (key, rest) := spanWhile isKeyChar t
    if key.isEmpty then none else some (key, rest)

/-! ### Scalars -/

/-- Digits with single underscores between some of them. -/
def isDigits (isDigit : Char → Bool) (t : Text) : Bool :=
  (pieces '_' t).all fun piece => !piece.isEmpty && piece.all isDigit

/-- The text without a sign at its start. -/
def dropSign (t : Text) : Text :=
  match t with
  | '+' :: rest => rest
  | '-' :: rest => rest
  | rest => rest

/-- Decimal digits, of which the first is zero only if it is the only one. -/
def isDecimal (t : Text) : Bool := isDigits Char.isDigit t && (t.head? != some '0' || t.length = 1)

/-- An integer, decimal or with a base in front. -/
def isInteger (t : Text) : Bool :=
  match t with
  | '0' :: 'x' :: digits => isDigits (fun c => (hexDigit? c).isSome) digits
  | '0' :: 'o' :: digits => isDigits (fun c => '0' ≤ c && c ≤ '7') digits
  | '0' :: 'b' :: digits => isDigits (fun c => c = '0' || c = '1') digits
  | t => isDecimal (dropSign t)

/-- A decimal with digits behind a full stop. -/
def isFraction (t : Text) : Bool :=
  match cut? ['.'] t with
  | some (whole, digits) => isDecimal whole && isDigits Char.isDigit digits
  | none => false

/-- A number that is no integer: with a fraction, with an exponent, or no finite number. -/
def isFloat (t : Text) : Bool :=
  let t := dropSign t
  t = "inf".toList || t = "nan".toList || isFraction t ||
    match cut? ['e'] (t.map Char.toLower) with
    | some (mantissa, exponent) =>
      (isDecimal mantissa || isFraction mantissa) && isDigits Char.isDigit (dropSign exponent)
    | none => false

/-- A number or a boolean. -/
def isScalar (t : Text) : Bool :=
  t = "true".toList || t = "false".toList || isInteger t || isFloat t

/-- A character of numbers and booleans. -/
def isScalarChar (c : Char) : Bool := c.isAlphanum || c = '_' || c = '+' || c = '-' || c = '.'

/-- A number or a boolean and what follows it. -/
def scalar? (t : Text) : Option (Text × Text) :=
  let (written, rest) := spanWhile isScalarChar t
  if isScalar written then some (written, rest) else none

end DiagramLint.Toml
