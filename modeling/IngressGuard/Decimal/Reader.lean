import IngressGuard.Text.Digits

/-!
# Reading decimals

A decimal has an optional sign, digits with at most one point among them, and an optional
exponent.  It stands for the double nearest to it.
-/

namespace IngressGuard.Decimal

open Text

/-- A decimal `digits * 10 ^ exponent` with a sign. -/
structure Reading where
  isNegative : Bool
  digits : Nat
  exponent : Int
  deriving DecidableEq, Repr

/-- Takes a sign; without one a number is positive. -/
def takeSign : List Char → Bool × List Char
  | '-' :: rest => (true, rest)
  | '+' :: rest => (false, rest)
  | cs => (false, cs)

/-- Reads what follows the mantissa: nothing, or an exponent. -/
def exponentOf? : List Char → Option Int
  | [] => some 0
  | c :: rest =>
    if c = 'e' ∨ c = 'E' then
      let (isNegative, ds) := takeSign rest
      (natOfDigits? 10 ds).map fun n => if isNegative then -(n : Int) else n
    else none

/-- Reads a decimal. -/
def read? (cs : List Char) : Option Reading := do
  let (isNegative, cs) := takeSign cs
  let whole := cs.takeWhile Char.isDigit
  let cs := cs.dropWhile Char.isDigit
  let (fraction, cs) := match cs with
    | '.' :: rest => (rest.takeWhile Char.isDigit, rest.dropWhile Char.isDigit)
    | _ => ([], cs)
  let digits ← natOfDigits? 10 (whole ++ fraction)
  let exponent ← exponentOf? cs
  return ⟨isNegative, digits, exponent - fraction.length⟩

/-- The double nearest to a decimal.  A decimal below the least or above the greatest double by
many orders of magnitude is not worked out. -/
def Reading.toFloat (d : Reading) : Float :=
  let order : Int := d.exponent + (Text.digits 10 d.digits).length
  let magnitude : Float :=
    if d.digits = 0 ∨ order < -400 then 0.0
    else if order > 400 then 1.0 / 0.0
    else if 0 ≤ d.exponent then
      Float.ofScientific (d.digits * Nat.pow 10 d.exponent.toNat) false 0
    else Float.ofScientific d.digits true (-d.exponent).toNat
  if d.isNegative then -magnitude else magnitude

end IngressGuard.Decimal
