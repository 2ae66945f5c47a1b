import DiagramLint.Number.Integer

/-!
Finite binary floating point numbers of 64 bits, exact in whole numbers: reading a decimal rounds to
the nearest such number, a half going to the even neighbour; writing takes the fewest digits that
read back, and of those the nearest to the value, a half going up.
-/
namespace DiagramLint

/-- The finite number of magnitude `mantissa * 2 ^ exponent`. The numbers that reading makes have a
mantissa below `2 ^ 53`, an exponent from `-1074` to `971`, and a mantissa of at least `2 ^ 52`
unless the exponent is the smallest. -/
structure Binary64 where
  negative : Bool
  mantissa : Nat
  exponent : Int
  deriving DecidableEq, Repr

namespace Binary64

/-- The least mantissa of numbers whose exponent is not the smallest, `2 ^ 52`. -/
def leastMantissa : Nat := Nat.pow 2 52

/-- The numerator and denominator of a number times a power of a base. -/
def scaled (n base : Nat) (e : Int) : Nat × Nat :=
  if 0 ≤ e then (n * Nat.pow base e.toNat, 1) else (n, Nat.pow base (-e).toNat)

/-- A quotient rounded to the nearest whole number, a half to the even neighbour. -/
def roundHalfEven (num den : Nat) : Nat :=
  let q := num / den
  let r := num % den
  if 2 * r < den then q
  else if den < 2 * r then q + 1
  else if q % 2 = 0 then q else q + 1

/-- The exponent of the highest power of two not above a positive quotient. -/
def floorLog2 (num den : Nat) : Int :=
  let guess : Int := (Nat.log2 num : Int) - (Nat.log2 den : Int)
  let (a, b) := scaled den 2 guess
  if a ≤ num * b then guess else guess - 1

/-- The nearest finite number to a positive quotient, if there is one: a quotient that rounds beyond
the largest finite number has none. -/
def nearest? (negative : Bool) (num den : Nat) : Option Binary64 :=
  let exponent := max (-1074) (floorLog2 num den - 52)
  let (a, b) := scaled den 2 exponent
  let mantissa := roundHalfEven (num * b) a
  let (mantissa, exponent) :=
    if mantissa = 2 * leastMantissa then (leastMantissa, exponent + 1) else (mantissa, exponent)
  if 971 < exponent then none else some ⟨negative, mantissa, exponent⟩

/-- The zero with a sign. -/
def zero (negative : Bool) : Binary64 := ⟨negative, 0, -1074⟩

/-- The number nearest to `digits * 10 ^ exponent` for whole `digits`. Magnitudes beyond `10 ^ 310`
have none and those below `10 ^ -330` go to zero, with no large power formed. -/
def ofDecimal? (negative : Bool) (digits : Nat) (exponent : Int) : Option Binary64 :=
  if digits = 0 then some (zero negative)
  else
    let size : Int := (toString digits).length + exponent
    if 310 < size then none
    else if size < -330 then some (zero negative)
    else
      let (num, den) := scaled digits 10 exponent
      nearest? negative num den

/-! ### Reading -/

/-- The sign in front of a text, minus or not, and the rest. -/
def takeSign : Text → Bool × Text
  | '-' :: t => (true, t)
  | '+' :: t => (false, t)
  | t => (false, t)

/-- The exponent part of a number that ends with the text: nothing, or `e` or `E`, an optional sign
and digits. -/
def readExponent? : Text → Option Int
  | [] => some 0
  | c :: t =>
    if c = 'e' || c = 'E' then
      let (negative, ds) := takeSign t
      if ds.isEmpty || !ds.all Integer.isDigit then none
      else some (if negative then -(Integer.ofDigits ds : Int) else Integer.ofDigits ds)
    else none

/-- The number of a text with an optional sign, digits with an optional point and further digits, or
a point and digits, and an optional exponent. Blanks at the ends do not matter; a number too large
to be finite is none. -/
def read? (t : Text) : Option Binary64 :=
  let (negative, t) := takeSign (Text.trim t)
  let whole := t.takeWhile Integer.isDigit
  let (fraction, rest) := match t.dropWhile Integer.isDigit with
    | '.' :: rest => (some (rest.takeWhile Integer.isDigit), rest.dropWhile Integer.isDigit)
    | rest => (none, rest)
  let fractionDigits := fraction.getD []
  if whole.isEmpty && fractionDigits.isEmpty then none
  else match readExponent? rest with
    | none => none
    | some e => ofDecimal? negative (Integer.ofDigits (whole ++ fractionDigits))
        (e - fractionDigits.length)

/-! ### Comparing -/

/-- The number is above zero. -/
def isPositive (x : Binary64) : Bool := !x.negative && 0 < x.mantissa

/-- The number lies in the interval from zero to one, both included. -/
def inUnitInterval (x : Binary64) : Bool :=
  x.mantissa == 0 ||
    (!x.negative && (let (num, den) := scaled x.mantissa 2 x.exponent; decide (num ≤ den)))

/-! ### Writing -/

/-- The magnitudes that read as a number, as quotients over one denominator: the two ends of the
interval around the value, and the value. The ends belong to it when the mantissa is even. -/
structure Interval where
  low : Nat
  value : Nat
  high : Nat
  den : Nat
  closed : Bool

/-- The interval of a positive magnitude: half way to its neighbours. Below a power of two the
neighbours are twice as close. -/
def interval (x : Binary64) : Interval :=
  let below := if x.mantissa = leastMantissa && (-1074) < x.exponent then 1 else 2
  let (num, den) := scaled 1 2 (x.exponent - 2)
  ⟨(4 * x.mantissa - below) * num, 4 * x.mantissa * num, (4 * x.mantissa + 2) * num, den,
    x.mantissa % 2 = 0⟩

/-- The quotient `num / den` lies in the interval. -/
def Interval.contains (i : Interval) (num den : Nat) : Bool :=
  if i.closed then i.low * den ≤ num * i.den && num * i.den ≤ i.high * den
  else i.low * den < num * i.den && num * i.den < i.high * den

/-- The multiple of `10 ^ place` in the interval that is nearest to the value, as the factor. -/
def Interval.candidate? (i : Interval) (place : Int) : Option Nat :=
  let (unit, unitDen) := scaled 1 10 place
  let lower := i.value * unitDen / (i.den * unit)
  let inside (d : Nat) : Bool := 0 < d && i.contains (d * unit) unitDen
  let upIsNearer := decide (i.den * unit ≤ 2 * (i.value * unitDen % (i.den * unit)))
  if inside lower && inside (lower + 1) then some (if upIsNearer then lower + 1 else lower)
  else if inside lower then some lower
  else if inside (lower + 1) then some (lower + 1)
  else none

/-- The first place from `place` down, in at most `fuel` places, with a multiple in the interval. -/
def Interval.firstCandidate (i : Interval) (place : Int) : Nat → Nat × Int
  | 0 => (0, 0)
  | fuel + 1 =>
    match i.candidate? place with
    | some digits => (digits, place)
    | none => i.firstCandidate (place - 1) fuel

/-- The shortest decimal that reads back, as a whole number times a power of ten. The search starts
at the place of the leading digit or above; a place 19 below it is always fine enough. -/
def shortest (x : Binary64) : Nat × Int :=
  let i := x.interval
  let top : Int := (toString i.value).length - (toString i.den).length + 1
  i.firstCandidate top 24

/-- The digits of a whole number times a power of ten, without exponent and without zeros at the end
of a fraction. -/
def positional (digits : Nat) (place : Int) : Text :=
  let ds := (toString digits).toList
  if 0 ≤ place then ds ++ List.replicate place.toNat '0'
  else
    let places := (-place).toNat
    let padded := List.replicate (places + 1 - ds.length) '0' ++ ds
    padded.take (padded.length - places) ++ '.' :: padded.drop (padded.length - places)

/-- The number in decimal notation. -/
def write (x : Binary64) : Text :=
  let magnitude :=
    if x.mantissa = 0 then ['0'] else let (digits, place) := x.shortest; positional digits place
  if x.negative then '-' :: magnitude else magnitude

end Binary64
end DiagramLint
