import IngressGuard.Net.Trie

/-!
# Bits and bytes as numbers

A list of bits is determined by its length and by the number that it is the binary form of, and its
first bits are the quotient of that number by a power of two.  The bits of some bytes make up the
number that the bytes make up.  So comparing first bits is comparing quotients.
-/

namespace IngressGuard

/-- The number whose binary digits are given, most significant first. -/
def ofBits (bits : List Bool) : Nat := bits.foldl (fun n b => 2 * n + b.toNat) 0

section Bits

variable {l m : List Bool}

theorem foldl_bits (n : Nat) (l : List Bool) :
    l.foldl (fun n b => 2 * n + b.toNat) n = n * Nat.pow 2 l.length + ofBits l := by
  induction l generalizing n with
  | nil => simp [ofBits]
  | cons b l ih =>
    have hpow : Nat.pow 2 (b :: l).length = Nat.pow 2 l.length * 2 := rfl
    unfold ofBits
    rw [List.foldl_cons, List.foldl_cons, ih, ih (2 * 0 + b.toNat), hpow, Nat.add_mul, Nat.add_mul,
      Nat.mul_comm (Nat.pow 2 l.length), ← Nat.mul_assoc, Nat.mul_comm n 2]
    omega

theorem ofBits_cons (b : Bool) (l : List Bool) :
    ofBits (b :: l) = b.toNat * Nat.pow 2 l.length + ofBits l := by
  have h : ofBits (b :: l) = (2 * 0 + b.toNat) * Nat.pow 2 l.length + ofBits l := foldl_bits _ l
  rwa [Nat.mul_zero, Nat.zero_add] at h

theorem ofBits_append (l m : List Bool) :
    ofBits (l ++ m) = ofBits l * Nat.pow 2 m.length + ofBits m := by
  rw [ofBits, List.foldl_append, foldl_bits, ← ofBits]

theorem ofBits_lt (l : List Bool) : ofBits l < Nat.pow 2 l.length := by
  induction l with
  | nil => decide
  | cons b l ih =>
    have hpow : Nat.pow 2 (b :: l).length = Nat.pow 2 l.length * 2 := rfl
    rw [ofBits_cons, hpow]
    cases b <;> simp only [Bool.toNat_true, Bool.toNat_false] <;> omega

/-- Lists of equally many bits are equal if their numbers are. -/
theorem eq_of_ofBits_eq (hlength : l.length = m.length) (h : ofBits l = ofBits m) : l = m := by
  induction l generalizing m with
  | nil => exact (List.length_eq_zero_iff.mp hlength.symm).symm
  | cons b l ih =>
    cases m with
    | nil => cases hlength
    | cons d m =>
      have hlength' : l.length = m.length := Nat.succ.inj hlength
      rw [ofBits_cons, ofBits_cons, hlength'] at h
      have hl := ofBits_lt l
      have hm := ofBits_lt m
      rw [hlength'] at hl
      -- The remaining bits are too few to make up for a different first one.
      have hfirst : b = d := by
        cases b <;> cases d <;> simp only [Bool.toNat_true, Bool.toNat_false] at h <;>
          first | rfl | omega
      subst hfirst
      rw [ih hlength' (by omega)]

theorem ofBits_take (l : List Bool) (k : Nat) :
    ofBits (l.take k) = ofBits l / Nat.pow 2 (l.length - k) := by
  have hsplit := ofBits_append (l.take k) (l.drop k)
  rw [List.take_append_drop, List.length_drop] at hsplit
  have hrest := ofBits_lt (l.drop k)
  rw [List.length_drop] at hrest
  have hpos : 0 < Nat.pow 2 (l.length - k) := Nat.two_pow_pos _
  rw [hsplit, Nat.mul_comm, Nat.mul_add_div hpos, Nat.div_eq_of_lt hrest, Nat.add_zero]

/-- Equally long lists agree in their first bits if their numbers agree after division. -/
theorem take_eq_take_iff (hlength : l.length = m.length) (k : Nat) :
    l.take k = m.take k ↔
      ofBits l / Nat.pow 2 (l.length - k) = ofBits m / Nat.pow 2 (l.length - k) := by
  have hm := ofBits_take m k
  rw [← hlength] at hm
  rw [← ofBits_take l k, ← hm]
  constructor
  · exact congrArg ofBits
  · exact eq_of_ofBits_eq (by rw [List.length_take, List.length_take, hlength])

end Bits

/-! ## Bytes -/

theorem ofBits_bitsOfByte (b : UInt8) : ofBits (bitsOfByte b) = b.toNat := by
  have hbytes : ∀ n < 256,
      ofBits ((List.range 8).map fun i => n.testBit (7 - i)) = n := by decide +kernel
  exact hbytes b.toNat b.toNat_lt

theorem length_bitsOf (bytes : List UInt8) : (bitsOf bytes).length = 8 * bytes.length := by
  induction bytes with
  | nil => rfl
  | cons b bytes ih =>
    have hcons : bitsOf (b :: bytes) = bitsOfByte b ++ bitsOf bytes := List.flatMap_cons
    rw [hcons, List.length_append, ih, List.length_cons, bitsOfByte, List.length_map,
      List.length_range]
    omega

theorem foldl_bytes (n : Nat) (bytes : List UInt8) :
    bytes.foldl (fun n b => n * 256 + b.toNat) n =
      n * Nat.pow 256 bytes.length + ofBigEndianBytes bytes := by
  induction bytes generalizing n with
  | nil => simp [ofBigEndianBytes]
  | cons b bytes ih =>
    have hpow : Nat.pow 256 (b :: bytes).length = Nat.pow 256 bytes.length * 256 := rfl
    unfold ofBigEndianBytes
    rw [List.foldl_cons, List.foldl_cons, ih, ih (0 * 256 + b.toNat), hpow, Nat.add_mul,
      Nat.add_mul, Nat.mul_comm (Nat.pow 256 bytes.length), ← Nat.mul_assoc]
    omega

theorem ofBigEndianBytes_cons (b : UInt8) (bytes : List UInt8) :
    ofBigEndianBytes (b :: bytes) =
      b.toNat * Nat.pow 256 bytes.length + ofBigEndianBytes bytes := by
  have h : ofBigEndianBytes (b :: bytes) =
      (0 * 256 + b.toNat) * Nat.pow 256 bytes.length + ofBigEndianBytes bytes := foldl_bytes _ bytes
  rwa [Nat.zero_mul, Nat.zero_add] at h

theorem ofBigEndianBytes_lt (bytes : List UInt8) :
    ofBigEndianBytes bytes < Nat.pow 256 bytes.length := by
  induction bytes with
  | nil => decide
  | cons b bytes ih =>
    have hpow : Nat.pow 256 (b :: bytes).length = 256 * Nat.pow 256 bytes.length :=
      Nat.mul_comm ..
    have hb : (b.toNat + 1) * Nat.pow 256 bytes.length ≤ 256 * Nat.pow 256 bytes.length :=
      Nat.mul_le_mul_right _ b.toNat_lt
    rw [Nat.add_mul, Nat.one_mul] at hb
    rw [ofBigEndianBytes_cons, hpow]
    omega

theorem ofBigEndianBytes_bigEndianBytes (count n : Nat) :
    ofBigEndianBytes (bigEndianBytes count n) = n % Nat.pow 256 count := by
  induction count with
  | zero => exact (Nat.mod_one n).symm
  | succ count ih =>
    have hmod : n % Nat.pow 256 (count + 1) =
        n % Nat.pow 256 count + Nat.pow 256 count * (n / Nat.pow 256 count % 256) :=
      Nat.mod_pow_succ
    have hbyte : (UInt8.ofNat (n / Nat.pow 256 count)).toNat = n / Nat.pow 256 count % 256 :=
      UInt8.toNat_ofNat'
    rw [bigEndianBytes, ofBigEndianBytes_cons, length_bigEndianBytes, ih, hbyte, hmod,
      Nat.mul_comm (Nat.pow 256 count)]
    omega

/-- Bytes and their bits make up the same number. -/
theorem ofBits_bitsOf (bytes : List UInt8) : ofBits (bitsOf bytes) = ofBigEndianBytes bytes := by
  induction bytes with
  | nil => rfl
  | cons b bytes ih =>
    have hcons : bitsOf (b :: bytes) = bitsOfByte b ++ bitsOf bytes := List.flatMap_cons
    have hpow : Nat.pow 2 (8 * bytes.length) = Nat.pow 256 bytes.length := Nat.pow_mul 2 8 _
    rw [hcons, ofBits_append, ofBits_bitsOfByte, ih, length_bitsOf, hpow, ofBigEndianBytes_cons]

end IngressGuard
