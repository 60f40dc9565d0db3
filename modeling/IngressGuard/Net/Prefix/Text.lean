import IngressGuard.Net.Address.Text
import IngressGuard.Net.Prefix
import IngressGuard.Text.Blank
import IngressGuard.Tree

/-!
# Prefix text

The written form of a prefix is `ADDRESS/LENGTH`.  Reading also takes a bare address, which
stands for its host prefix, bits set after the prefix, which are cleared, and for IPv4 a
contiguous dotted netmask in place of the length.
-/

namespace IngressGuard

/-- Why there is no prefix for what was given. -/
inductive PrefixError where
  /-- The text is no prefix. -/
  | malformed (text : String)
  /-- The family has fewer bits than the length asks for. -/
  | tooLong (length width : Nat)
  deriving DecidableEq, Repr

/-- What a prefix error tells an operator. -/
def PrefixError.message : PrefixError → String
  | .malformed text => s!"Invalid prefix '{text}'"
  | .tooLong length width =>
    s!"Prefix length {Text.decimal length} exceeds {Text.decimal width} bits"

/-- A prefix error in reports. -/
def PrefixError.tree (e : PrefixError) : Tree :=
  let kind := match e with
    | .malformed _ => "InvalidPrefix"
    | .tooLong .. => "PrefixTooLong"
  .failure kind e.message []

namespace Prefix

open Text

/-! ## Reading -/

/-- The length whose netmask is a given number, if the mask is contiguous. -/
def lengthOfMask? (mask : Nat) : Option Nat :=
  (List.range 33).find? fun length => mask == Nat.pow 2 32 - Nat.pow 2 (32 - length)

/-- The length written after the slash of an IPv4 prefix: a netmask or a number. -/
def ipv4LengthOfText? (cs : List Char) : Option Nat :=
  match Address.quadOfText? cs with
  | some mask => lengthOfMask? mask
  | none => boundedNat? 255 cs

/-- Reads a prefix without surrounding blanks. -/
def ofChars? (cs : List Char) : Option Prefix :=
  match fields '/' cs with
  | [address] =>
    ((Address.ipv4OfText? address).or (Address.ipv6OfText? address)).map host
  | [address, length] =>
    let ipv4 := do around? (← Address.ipv4OfText? address) (← ipv4LengthOfText? length)
    let ipv6 := do around? (← Address.ipv6OfText? address) (← boundedNat? 255 length)
    ipv4.or ipv6
  | _ => none

/-- Reads a prefix, ignoring blanks at both ends. -/
def ofText (text : String) : Except PrefixError Prefix :=
  match ofChars? (trimBlank text.toList) with
  | some p => .ok p
  | none => .error (.malformed (trim text))

/-- The prefix of a given length around an address, or the reason why there is none. -/
def ofAddress (a : Address) (length : Nat) : Except PrefixError Prefix :=
  match around? a length with
  | some p => .ok p
  | none => .error (.tooLong length a.family.width)

theorem ofAddress_eq_ok_iff {a : Address} {n : Nat} {p : Prefix} :
    ofAddress a n = .ok p ↔ around? a n = some p := by
  unfold ofAddress
  cases around? a n <;> simp

/-! ## Writing -/

/-- The written form of a prefix, as characters. -/
def chars (p : Prefix) : List Char := p.address.chars ++ '/' :: digits 10 p.length

/-- The written form of a prefix. -/
def text (p : Prefix) : String := String.ofList p.chars

/-- A prefix as a diagnostic record. -/
def record (p : Prefix) : String :=
  "BlockEntry \x7b addr: " ++ p.address.text ++ ", prefix_len: " ++ decimal p.length ++ " \x7d"

/-- A prefix in reports. -/
def tree (p : Prefix) : Tree := p.text

/-- The parts of a prefix in reports. -/
def parts (p : Prefix) : Tree :=
  let bytes : List UInt8 → Tree := .each fun b => b.toNat
  .record
    [("display", p.text), ("addr", p.address.text), ("prefix_len", p.length),
      ("family", p.family.label), ("octets", bytes p.address.bytes),
      ("key_bytes", bytes p.keyBytes), ("key_hex", p.keyHex)]

end Prefix

/-- A set of prefixes in reports. -/
def PrefixSet.tree (s : PrefixSet) : Tree := .each Prefix.tree s.toList

end IngressGuard
