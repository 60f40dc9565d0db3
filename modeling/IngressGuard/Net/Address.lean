import IngressGuard.Net.Family

/-!
# Addresses

An address is a number below two to the width of its family.  Its bytes are the base-256 digits
of that number, most significant first, which is network byte order.
-/

namespace IngressGuard

/-- The base-256 digits of a number, most significant first, cut to a given count. -/
def bigEndianBytes : Nat → Nat → List UInt8
  | 0, _ => []
  | count + 1, n => UInt8.ofNat (n / Nat.pow 256 count) :: bigEndianBytes count n

/-- The number whose base-256 digits are given, most significant first. -/
def ofBigEndianBytes (bytes : List UInt8) : Nat :=
  bytes.foldl (fun n b => n * 256 + b.toNat) 0

/-- The base-256 digits of a number, least significant first, cut to a given count. -/
def littleEndianBytes (count n : Nat) : List UInt8 := (bigEndianBytes count n).reverse

@[simp] theorem length_bigEndianBytes (count n : Nat) :
    (bigEndianBytes count n).length = count := by
  induction count with
  | zero => rfl
  | succ count ih => simp [bigEndianBytes, ih]

/-- An internet address of either family. -/
structure Address where
  family : Family
  value : Nat
  value_lt : value < Nat.pow 2 family.width
  deriving DecidableEq, Repr

namespace Address

@[ext] theorem ext {a b : Address} (hf : a.family = b.family) (hv : a.value = b.value) :
    a = b := by
  cases a
  cases b
  simp_all

/-- The address of a family with a given number, reduced to the family's width. -/
def ofNat (f : Family) (n : Nat) : Address :=
  ⟨f, n % Nat.pow 2 f.width, Nat.mod_lt _ (Nat.two_pow_pos _)⟩

/-- Address bytes in network byte order. -/
def bytes (a : Address) : List UInt8 := bigEndianBytes a.family.byteCount a.value

/-- The address of a family with given bytes in network byte order. -/
def ofBytes (f : Family) (bytes : List UInt8) : Address := ofNat f (ofBigEndianBytes bytes)

/-- The number of bits after the first `length` ones. -/
def hostWidth (a : Address) (length : Nat) : Nat := a.family.width - length

/-- Clears every bit after the first `length` ones. -/
def network (a : Address) (length : Nat) : Address where
  family := a.family
  value := a.value - a.value % Nat.pow 2 (a.hostWidth length)
  value_lt := Nat.lt_of_le_of_lt (Nat.sub_le _ _) a.value_lt

@[simp] theorem family_network (a : Address) (length : Nat) :
    (a.network length).family = a.family := rfl

theorem value_network (a : Address) (length : Nat) :
    (a.network length).value =
      a.value / Nat.pow 2 (a.hostWidth length) * Nat.pow 2 (a.hostWidth length) := by
  have h := Nat.div_add_mod a.value (Nat.pow 2 (a.hostWidth length))
  rw [Nat.mul_comm] at h
  simp only [network]
  omega

end Address

end IngressGuard
