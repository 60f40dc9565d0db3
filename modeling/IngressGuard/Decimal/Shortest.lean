import IngressGuard.Text.Digits

/-!
# Shortest decimals

A binary floating-point number stands for every real that rounds to it.  Among the decimals in
that interval, the shortest one is taken, and among equally short ones the one nearest to the
number; of two equally near ones the greater.  All arithmetic is exact, on natural numbers.
-/

namespace IngressGuard.Decimal

/-- A finite positive binary number `mantissa * 2 ^ exponent`.  At the foot of a binade the next
lower number is only half as far away as the next higher one. -/
structure Binary where
  mantissa : Nat
  exponent : Int
  isFoot : Bool
  deriving DecidableEq, Repr

/-- A decimal fraction `digits * 10 ^ exponent`. -/
structure Fraction where
  digits : Nat
  exponent : Int
  deriving DecidableEq, Repr

/-- `b ^ e` as a quotient. -/
def powerQuotient (b : Nat) (e : Int) : Nat × Nat :=
  if 0 ≤ e then (Nat.pow b e.toNat, 1) else (1, Nat.pow b (-e).toNat)

namespace Binary

/-- The number times four, as a quotient; the interval of the reals that round to it has whole
ends on that scale. -/
def scaled (b : Binary) (n : Nat) : Nat × Nat :=
  let (p, q) := powerQuotient 2 b.exponent
  (n * p, 4 * q)

/-- The lower end of the interval of the reals that round to a number. -/
def lower (b : Binary) : Nat × Nat :=
  b.scaled (4 * b.mantissa - (if b.isFoot then 1 else 2))

/-- The upper end of the interval of the reals that round to a number. -/
def upper (b : Binary) : Nat × Nat := b.scaled (4 * b.mantissa + 2)

/-- The number itself. -/
def value (b : Binary) : Nat × Nat := b.scaled (4 * b.mantissa)

end Binary

/-- Whether one quotient is less than another. -/
def quotientLt (x y : Nat × Nat) : Bool := x.1 * y.2 < y.1 * x.2

/-- The value of a decimal as a quotient. -/
def Fraction.value (d : Fraction) : Nat × Nat :=
  let (p, q) := powerQuotient 10 d.exponent
  (d.digits * p, q)

/-- Whether a decimal rounds to a number.  The ends of the interval do if the mantissa is even. -/
def Fraction.roundsTo (d : Fraction) (b : Binary) : Bool :=
  if b.mantissa % 2 = 0 then !quotientLt d.value b.lower && !quotientLt b.upper d.value
  else quotientLt b.lower d.value && quotientLt d.value b.upper

/-- The greatest multiple of a power of ten that is at most a quotient. -/
def floorAt (x : Nat × Nat) (exponent : Int) : Nat :=
  let (p, q) := powerQuotient 10 exponent
  x.1 * q / (x.2 * p)

/-- The exponent of the leading decimal digit of a positive quotient. -/
def leadingExponent (x : Nat × Nat) : Int :=
  if x.2 ≤ x.1 then (Nat.toDigits 10 (x.1 / x.2)).length - 1
  else
    -- The first power of ten that lifts the quotient to at least one.
    let k := (Nat.toDigits 10 (x.2 / x.1)).length
    if x.2 ≤ x.1 * Nat.pow 10 (k - 1) then -((k - 1 : Nat) : Int) else -(k : Int)

/-- The decimal with a given exponent next to a number, if one rounds to it. -/
def candidate? (b : Binary) (exponent : Int) : Option Fraction :=
  let low : Fraction := ⟨floorAt b.value exponent, exponent⟩
  let high : Fraction := ⟨low.digits + 1, exponent⟩
  let lowFits := low.digits ≠ 0 && low.roundsTo b
  let highFits := high.roundsTo b
  if lowFits && highFits then
    -- The number is nearer to the lower one if it is less than their middle.
    let (p, q) := powerQuotient 10 exponent
    some (if quotientLt b.value ((2 * low.digits + 1) * p, 2 * q) then low else high)
  else if lowFits then some low
  else if highFits then some high
  else none

/-- The shortest decimal that rounds to a number.  Seventeen digits always do. -/
def shortest (b : Binary) : Fraction :=
  let lead := leadingExponent b.value
  let found := (List.range 17).findSome? fun (n : Nat) => candidate? b (lead - (n : Int))
  found.getD ⟨floorAt b.value (lead - 17), lead - 17⟩

/-- A decimal in positional notation. -/
def positional (d : Fraction) : List Char :=
  let ds := Nat.toDigits 10 d.digits
  if 0 ≤ d.exponent then ds ++ List.replicate d.exponent.toNat '0'
  else
    let places := (-d.exponent).toNat
    let padded := List.replicate (places + 1 - ds.length) '0' ++ ds
    let fraction := ((padded.drop (padded.length - places)).reverse.dropWhile (· == '0')).reverse
    let whole := padded.take (padded.length - places)
    if fraction.isEmpty then whole else whole ++ '.' :: fraction

/-- The parts of a finite nonzero double: whether it is negative, and its magnitude. -/
def parts (x : Float) : Bool × Binary :=
  let bits : Nat := x.toBits.toNat
  let negative := bits / Nat.pow 2 63 == 1
  let biased : Nat := bits / Nat.pow 2 52 % Nat.pow 2 11
  let fraction : Nat := bits % Nat.pow 2 52
  if biased = 0 then (negative, ⟨fraction, -1074, false⟩)
  else (negative, ⟨fraction + Nat.pow 2 52, (biased : Int) - 1075, fraction == 0 && biased != 1⟩)

/-- A double in positional notation with the fewest digits that read back. -/
def text (x : Float) : String :=
  if x.isNaN then "NaN"
  else
    let (negative, b) := parts x
    let magnitude :=
      if x.isInf then "inf".toList
      else if b.mantissa = 0 then ['0']
      else positional (shortest b)
    String.ofList (if negative then '-' :: magnitude else magnitude)

/-- A double with the fewest digits that read back, but at least one after the point. -/
def pointed (x : Float) : String :=
  let digits := text x
  if x.isFinite && !digits.toList.contains '.' then digits ++ ".0" else digits

end IngressGuard.Decimal
