import IngressGuard.Text.Digits

/-!
# Durations

A duration is written in the largest of the units s, ms, µs and ns in which it is at least one,
with as many fraction digits as it needs.
-/

namespace IngressGuard.Text

/-- A fraction of `10 ^ width` as digits after a point, without trailing zeros. -/
def fractionText (width fraction : Nat) : List Char :=
  let ds := ((paddedDigits width fraction).reverse.dropWhile (· == '0')).reverse
  if ds.isEmpty then [] else '.' :: ds

/-- A number of units of `10 ^ width` nanoseconds, and the name of the unit. -/
def inUnit (nanos width : Nat) (unit : String) : String :=
  let whole := digits 10 (nanos / Nat.pow 10 width)
  String.ofList (whole ++ fractionText width (nanos % Nat.pow 10 width)) ++ unit

/-- The written form of a number of nanoseconds. -/
def duration (nanos : Nat) : String :=
  if nanos ≥ Nat.pow 10 9 then inUnit nanos 9 "s"
  else if nanos ≥ Nat.pow 10 6 then inUnit nanos 6 "ms"
  else if nanos ≥ Nat.pow 10 3 then inUnit nanos 3 "µs"
  else inUnit nanos 0 "ns"

end IngressGuard.Text
