/-!
# Numerals

Reading and writing natural numbers in bases up to sixteen, with lowercase digits.
-/

namespace IngressGuard.Text

/-- The value of a digit in bases up to sixteen, in either case. -/
def digitValue? (c : Char) : Option Nat :=
  if '0' ≤ c ∧ c ≤ '9' then some (c.toNat - '0'.toNat)
  else if 'a' ≤ c ∧ c ≤ 'f' then some (c.toNat - 'a'.toNat + 10)
  else if 'A' ≤ c ∧ c ≤ 'F' then some (c.toNat - 'A'.toNat + 10)
  else none

/-- The value of a digit of a base. -/
def digitOf? (base : Nat) (c : Char) : Option Nat :=
  (digitValue? c).filter (· < base)

/-- Appends digits of a base to a number. -/
def accumulate? (base : Nat) : Nat → List Char → Option Nat
  | n, [] => some n
  | n, c :: rest => do
    let d ← digitOf? base c
    accumulate? base (n * base + d) rest

/-- The number written by a nonempty list of digits of a base. -/
def natOfDigits? (base : Nat) : List Char → Option Nat
  | [] => none
  | cs => accumulate? base 0 cs

/-- The lowercase digits of a number in a base up to sixteen, without leading zeros. -/
def digits (base n : Nat) : List Char := Nat.toDigits base n

/-- A number in decimal. -/
def decimal (n : Nat) : String := String.ofList (digits 10 n)

/-- A number in lowercase hexadecimal. -/
def hex (n : Nat) : String := String.ofList (digits 16 n)

/-- A byte as two lowercase hexadecimal digits. -/
def hexByte (b : UInt8) : String :=
  String.ofList [Nat.digitChar (b.toNat / 16), Nat.digitChar (b.toNat % 16)]

/-- Bytes as hexadecimal digits without blanks. -/
def hexBytes (bytes : List UInt8) : String := String.join (bytes.map hexByte)

/-- The bytes that pairs of hexadecimal digits write. -/
def bytesOfHex? : List Char → Option (List UInt8)
  | [] => some []
  | [_] => none
  | high :: low :: rest => do
    let n ← natOfDigits? 16 [high, low]
    return UInt8.ofNat n :: (← bytesOfHex? rest)

/-- Decimal digits padded with zeros on the left to at least a given width. -/
def paddedDigits (width n : Nat) : List Char :=
  let ds := digits 10 n
  List.replicate (width - ds.length) '0' ++ ds

/-- An unsigned decimal with an optional plus sign and any number of leading zeros, when it is
at most a given bound. -/
def boundedNat? (bound : Nat) (cs : List Char) : Option Nat :=
  let digits := match cs with
    | '+' :: rest => rest
    | _ => cs
  (natOfDigits? 10 digits).filter (· ≤ bound)

end IngressGuard.Text
