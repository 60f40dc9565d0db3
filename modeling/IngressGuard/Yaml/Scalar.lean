import IngressGuard.Decimal.Reader
import IngressGuard.Text.Digits

/-!
# Unquoted scalars

What an unquoted scalar of a YAML text stands for: nothing, a truth value, a number, or itself.
-/

namespace IngressGuard.Yaml

open Text

/-- What an unquoted scalar stands for. -/
inductive Meaning where
  | null
  | bool (value : Bool)
  | unsigned (value : Nat)
  /-- An integer written with a minus sign. -/
  | signed (value : Int)
  | float (value : Float)
  | text

/-- The spellings of nothing. -/
def isNull (cs : List Char) : Bool :=
  ["null".toList, "Null".toList, "NULL".toList, ['~']].contains cs

/-- The truth value that is spelled. -/
def boolOf? (cs : List Char) : Option Bool :=
  if ["true".toList, "True".toList, "TRUE".toList].contains cs then some true
  else if ["false".toList, "False".toList, "FALSE".toList].contains cs then some false
  else none

/-- Digits after a leading zero, with at most one sign in front, are no number. -/
def isZeroPadded (cs : List Char) : Bool :=
  let cs := match cs with
    | '-' :: rest | '+' :: rest => rest
    | _ => cs
  match cs with
  | '0' :: c :: rest => (c :: rest).all Char.isDigit
  | _ => false

/-- The number after a mark of base sixteen, eight or two, or else in decimal.  The second part
tells whether the whole text may be zero-padded decimal. -/
def radixOf (cs : List Char) : Nat × List Char :=
  match cs with
  | '0' :: 'x' :: rest => (16, rest)
  | '0' :: 'o' :: rest => (8, rest)
  | '0' :: 'b' :: rest => (2, rest)
  | _ => (10, cs)

/-- The magnitude of an integer without its sign. -/
def magnitudeOf? (cs : List Char) : Option Nat :=
  let (radix, ds) := radixOf cs
  if radix = 10 ∧ isZeroPadded cs then none else natOfDigits? radix ds

/-- An integer that is not negative, with an optional plus sign. -/
def unsignedOf? (bound : Nat) (cs : List Char) : Option Nat :=
  (magnitudeOf? (match cs with
    | '+' :: rest => rest
    | _ => cs)).filter (· ≤ bound)

/-- An integer with a minus sign. -/
def negativeOf? (bound : Nat) : List Char → Option Int
  | '-' :: rest => ((magnitudeOf? rest).filter (· ≤ bound)).map fun n => -(n : Int)
  | _ => none

/-- The spellings of infinities and of what is no number. -/
def specialFloatOf? (cs : List Char) : Option Float :=
  let infinity : List (List Char) := [".inf".toList, ".Inf".toList, ".INF".toList]
  if infinity.contains cs then some (1.0 / 0.0)
  else
    match cs with
    | '+' :: rest => if infinity.contains rest then some (1.0 / 0.0) else none
    | '-' :: rest => if infinity.contains rest then some (-1.0 / 0.0) else none
    | _ =>
      if [".nan".toList, ".NaN".toList, ".NAN".toList].contains cs then some (0.0 / 0.0) else none

/-- A decimal that does not exceed the doubles. -/
def finiteFloatOf? (cs : List Char) : Option Float :=
  match cs with
  | '+' :: '+' :: _ | '+' :: '-' :: _ => none
  | _ => ((Decimal.read? cs).map (·.toFloat)).filter (·.isFinite)

/-- A floating-point number. -/
def floatOf? (cs : List Char) : Option Float := (specialFloatOf? cs).or (finiteFloatOf? cs)

/-- The integer of at most 128 bits that is spelled. -/
def integerOf? (cs : List Char) : Option Meaning :=
  ((unsignedOf? (Nat.pow 2 128 - 1) cs).map .unsigned).or
    ((negativeOf? (Nat.pow 2 127) cs).map .signed)

/-- What an unquoted scalar stands for. -/
def meaningOf (cs : List Char) : Meaning :=
  if cs.isEmpty || isNull cs then .null
  else
    match boolOf? cs with
    | some b => .bool b
    | none =>
      match integerOf? cs with
      | some number => number
      | none =>
        if isZeroPadded cs then .text
        else
          match floatOf? cs with
          | some x => .float x
          | none => .text

/-- Whether an unquoted scalar stands for itself. -/
def isPlainText (cs : List Char) : Bool :=
  match meaningOf cs with
  | .text => !isZeroPadded cs
  | _ => false

end IngressGuard.Yaml
