import IngressGuard.Net.Address
import IngressGuard.Text.Digits
import IngressGuard.Text.Fields

/-!
# Address text

The written form of addresses.  Reading is strict: four decimal octets without leading zeros, or
eight groups of one to four hexadecimal digits, where one `::` may stand for at least one group
of zeros and the last two groups may be written as a dotted quad.  Writing follows RFC 5952:
lowercase, no leading zeros, the first longest run of at least two zero groups as `::`, and the
dotted form for the addresses that embed an IPv4 address after `::ffff`.
-/

namespace IngressGuard.Address

open Text

/-! ## Reading -/

/-- A decimal octet without sign and leading zero. -/
def octetOfText? (cs : List Char) : Option Nat :=
  if cs.length ≤ 3 ∧ (cs.length = 1 ∨ cs.head? ≠ some '0') then
    (natOfDigits? 10 cs).filter (· < 256)
  else none

/-- The number of a dotted quad. -/
def quadOfText? (cs : List Char) : Option Nat :=
  match (fields '.' cs).mapM octetOfText? with
  | some [a, b, c, d] => some (((a * 256 + b) * 256 + c) * 256 + d)
  | _ => none

/-- A group of one to four hexadecimal digits. -/
def groupOfText? (cs : List Char) : Option Nat :=
  if cs.length ≤ 4 then natOfDigits? 16 cs else none

/-- A run of groups between colons; the empty text is the empty run. -/
def groupsOfText? (cs : List Char) : Option (List Nat) :=
  if cs.isEmpty then some [] else (fields ':' cs).mapM groupOfText?

/-- A run of groups of which the last piece may be a dotted quad, which fills two groups. -/
def tailOfText? (cs : List Char) : Option (List Nat) :=
  if cs.isEmpty then some []
  else
    let pieces := fields ':' cs
    match pieces.getLast?.bind quadOfText? with
    | some quad =>
      (pieces.dropLast.mapM groupOfText?).map (· ++ [quad / 65536, quad % 65536])
    | none => pieces.mapM groupOfText?

/-- The eight groups of an IPv6 address. -/
def groupsOfIpv6? (cs : List Char) : Option (List Nat) :=
  match splitAtDouble? ':' cs with
  | none => (tailOfText? cs).filter (·.length = 8)
  | some (before, after) => do
    let front ← groupsOfText? before
    let back ← tailOfText? after
    if front.length + back.length ≤ 7 then
      some (front ++ List.replicate (8 - front.length - back.length) 0 ++ back)
    else none

/-- The number with given 16-bit groups, most significant first. -/
def ofGroups (groups : List Nat) : Nat := groups.foldl (fun n g => n * 65536 + g) 0

/-- Reads an IPv4 address. -/
def ipv4OfText? (cs : List Char) : Option Address :=
  (quadOfText? cs).map (ofNat .ipv4)

/-- Reads an IPv6 address. -/
def ipv6OfText? (cs : List Char) : Option Address :=
  (groupsOfIpv6? cs).map fun groups => ofNat .ipv6 (ofGroups groups)

/-- Reads an address of either family. -/
def ofText? (text : String) : Option Address :=
  (ipv4OfText? text.toList).or (ipv6OfText? text.toList)

/-! ## Writing -/

/-- The dotted quad of a number. -/
def quadText (n : Nat) : List Char :=
  digits 10 (n / Nat.pow 2 24 % 256) ++ '.' :: digits 10 (n / Nat.pow 2 16 % 256)
    ++ '.' :: digits 10 (n / Nat.pow 2 8 % 256) ++ '.' :: digits 10 (n % 256)

/-- The eight 16-bit groups of a number, most significant first. -/
def groups (n : Nat) : List Nat :=
  [112, 96, 80, 64, 48, 32, 16, 0].map fun shift => n / Nat.pow 2 shift % 65536

/-- Groups in hexadecimal, separated by colons. -/
def groupsText (gs : List Nat) : List Char :=
  List.intercalate [':'] (gs.map (digits 16))

/-- How many zeros a list of groups starts with. -/
def leadingZeros (gs : List Nat) : Nat := (gs.takeWhile (· = 0)).length

/-- Position and length of the first longest run of zeros, counted from a given position. -/
def longestZeroRun : Nat → List Nat → Nat × Nat
  | _, [] => (0, 0)
  | start, g :: rest =>
    let here := leadingZeros (g :: rest)
    let later := longestZeroRun (start + 1) rest
    if later.2 ≤ here then (start, here) else later

/-- The text of an IPv6 address without the form for embedded IPv4 addresses. -/
def compressedText (n : Nat) : List Char :=
  let gs := groups n
  let (start, len) := longestZeroRun 0 gs
  if len ≤ 1 then groupsText gs
  else groupsText (gs.take start) ++ [':', ':'] ++ groupsText (gs.drop (start + len))

/-- The written form of an address, as characters. -/
def chars (a : Address) : List Char :=
  match a.family with
  | .ipv4 => quadText a.value
  | .ipv6 =>
    if a.value / Nat.pow 2 32 = 0xffff then "::ffff:".toList ++ quadText (a.value % Nat.pow 2 32)
    else compressedText a.value

/-- The written form of an address. -/
def text (a : Address) : String := String.ofList a.chars

end IngressGuard.Address
