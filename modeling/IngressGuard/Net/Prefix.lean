import IngressGuard.Net.Address
import IngressGuard.Text.Digits
import Std.Data.ExtTreeSet

/-!
# Network prefixes

A prefix is an address together with a length, where every bit after the first `length` ones is
zero.  The last condition is part of the type, so one network is one value.  Prefixes are
ordered by family, then by address, then by length.
-/

namespace IngressGuard

/-- A network prefix in canonical form. -/
structure Prefix where
  address : Address
  length : Nat
  length_le : length ≤ address.family.width
  hostBits_zero : address.value % Nat.pow 2 (address.hostWidth length) = 0
  deriving DecidableEq, Repr

namespace Prefix

@[ext] theorem ext {p q : Prefix} (ha : p.address = q.address) (hl : p.length = q.length) :
    p = q := by
  cases p
  cases q
  simp_all

/-- The family of the addresses a prefix covers. -/
def family (p : Prefix) : Family := p.address.family

/-! ## Construction -/

/-- The prefix of a given admissible length around an address. -/
def around (a : Address) (length : Nat) (h : length ≤ a.family.width) : Prefix where
  address := a.network length
  length := length
  length_le := h
  hostBits_zero := by
    have hw : (a.network length).hostWidth length = a.hostWidth length := rfl
    rw [hw, Address.value_network, Nat.mul_mod_left]

/-- The prefix of a given length around an address, if the family has that many bits. -/
def around? (a : Address) (length : Nat) : Option Prefix :=
  if h : length ≤ a.family.width then some (around a length h) else none

/-- The prefix that covers one address only. -/
def host (a : Address) : Prefix where
  address := a
  length := a.family.width
  length_le := Nat.le_refl _
  hostBits_zero := by simp [Address.hostWidth, Nat.mod_one]

theorem around?_eq_some_iff {p : Prefix} {a : Address} {n : Nat} :
    around? a n = some p ↔ n ≤ a.family.width ∧ p.address = a.network n ∧ p.length = n := by
  constructor
  · intro h
    obtain ⟨hn, h⟩ := Option.dite_none_right_eq_some.mp h
    obtain rfl := Option.some.inj h
    exact ⟨hn, rfl, rfl⟩
  · rintro ⟨hn, haddress, hlength⟩
    rw [around?, dif_pos hn, Option.some.injEq]
    exact ext haddress.symm hlength.symm

/-- A normalised prefix is the one around its own address. -/
theorem around?_self (p : Prefix) : around? p.address p.length = some p := by
  rw [around?, dif_pos p.length_le, Option.some.injEq]
  refine ext (Address.ext rfl ?_) rfl
  have hzero : p.address.value % Nat.pow 2 (p.address.hostWidth p.length) = 0 := p.hostBits_zero
  simp only [around, Address.network, hzero, Nat.sub_zero]

theorem around?_width (a : Address) : around? a a.family.width = some (host a) :=
  around?_self (host a)

/-! ## Covered addresses -/

/-- Whether an address has the same first bits as the prefix. -/
def contains (p : Prefix) (a : Address) : Bool :=
  a.family == p.family && a.network p.length == p.address

theorem contains_iff (p : Prefix) (a : Address) :
    p.contains a = true ↔ a.family = p.family ∧ a.network p.length = p.address := by
  simp [contains]

/-! ## Order -/

/-- A number that orders prefixes by family, address and length. -/
def orderKey (p : Prefix) : Nat :=
  (match p.family with
    | .ipv4 => p.address.value
    | .ipv6 => Nat.pow 2 128 + p.address.value) * 256 + p.length

theorem length_lt (p : Prefix) : p.length < 256 := by
  have := p.length_le
  have := Family.width_le p.address.family
  omega

theorem orderKey_injective {p q : Prefix} (h : p.orderKey = q.orderKey) : p = q := by
  have hp := p.length_lt
  have hq := q.length_lt
  have vp := p.address.value_lt
  have vq := q.address.value_lt
  have hwidths : Nat.pow 2 32 ≤ Nat.pow 2 128 := by decide
  unfold orderKey family at h
  cases fp : p.address.family <;> cases fq : q.address.family <;>
    simp only [fp, fq, Family.width] at h vp vq
  case ipv4.ipv4 | ipv6.ipv6 =>
    exact ext (Address.ext (by rw [fp, fq]) (by omega)) (by omega)
  all_goals omega

instance : Ord Prefix := ⟨compareOn orderKey⟩

instance : Std.TransOrd Prefix := inferInstanceAs (Std.TransCmp (compareOn orderKey))

instance : Std.LawfulEqOrd Prefix where
  eq_of_compare := by
    intro a b h
    exact orderKey_injective (Std.compare_eq_iff_eq.mp h)

/-! ## Table keys -/

/-- The key of a prefix in a longest-prefix-match table: the length as four bytes, least
significant first, and then the address in network byte order. -/
def keyBytes (p : Prefix) : List UInt8 :=
  littleEndianBytes 4 p.length ++ p.address.bytes

/-- The table key as two-digit hexadecimal bytes separated by blanks. -/
def keyHex (p : Prefix) : String :=
  " ".intercalate (p.keyBytes.map Text.hexByte)

end Prefix

/-- A finite set of prefixes, listed in the order of prefixes. -/
abbrev PrefixSet := Std.ExtTreeSet Prefix

end IngressGuard
