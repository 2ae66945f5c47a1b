import DiagramLint.Text.Basic

/-!
Decimal integers of 64 bits.
-/
namespace DiagramLint.Integer

/-- An ASCII digit. -/
def isDigit (c : Char) : Bool := '0' ≤ c && c ≤ '9'

/-- The value of a digit. -/
def digitValue (c : Char) : Nat := c.toNat - '0'.toNat

/-- The number that digits write in base ten, the first digit leading. -/
def ofDigits (ds : Text) : Nat := ds.foldl (fun n d => 10 * n + digitValue d) 0

/-- The signed 64-bit range. -/
def InRange (n : Int) : Prop := -9223372036854775808 ≤ n ∧ n ≤ 9223372036854775807

instance (n : Int) : Decidable (InRange n) := inferInstanceAs (Decidable (_ ∧ _))

/-- The integer of a text made of an optional sign and ASCII digits, at least one, if it lies in the
signed 64-bit range. -/
def read? (t : Text) : Option Int :=
  let (negative, ds) := match t with
    | '-' :: ds => (true, ds)
    | '+' :: ds => (false, ds)
    | ds => (false, ds)
  if ds.isEmpty || !ds.all isDigit then none
  else
    let n : Int := if negative then -(ofDigits ds : Int) else ofDigits ds
    if InRange n then some n else none

end DiagramLint.Integer
