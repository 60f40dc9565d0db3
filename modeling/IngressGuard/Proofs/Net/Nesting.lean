import IngressGuard.Proofs.Net.Lookup

/-!
# How prefixes lie to each other

A prefix contains the addresses that have its first bits (`Prefix.contains_iff_testBit`).  So of two
prefixes with an address in common the shorter one contains the other.  A longer one leaves out
something, because the next bit of an address may be either, and so prefixes with the same contents
are equal.  Together: prefixes are a laminar family, and every network has one prefix
(`Prefix.laminar`).
-/

namespace IngressGuard

/-! ## First bits -/

namespace Address

variable {a b : Address}

/-- Addresses of one family have the same network if they agree in its bits. -/
theorem network_eq_network_iff (h : a.family = b.family) (n : Nat) :
    a.network n = b.network n ↔
      ∀ i, a.family.width - n ≤ i → a.value.testBit i = b.value.testBit i := by
  have hwidth : b.hostWidth n = a.hostWidth n := by rw [hostWidth, hostWidth, h]
  constructor
  · intro hnetwork i hi
    have hbit := congrArg (fun c => c.value.testBit i) hnetwork
    have hi' : a.hostWidth n ≤ i := hi
    simpa [testBit_value_network, hwidth, hi'] using hbit
  · intro hbits
    refine Address.ext h (Nat.eq_of_testBit_eq fun i => ?_)
    rw [testBit_value_network, testBit_value_network, hwidth]
    by_cases hi : a.hostWidth n ≤ i
    · rw [hbits i hi]
    · simp [hi]

/-- The address that differs in one bit. -/
def flip (a : Address) (i : Nat) (h : i < a.family.width) : Address where
  family := a.family
  value := a.value ^^^ Nat.pow 2 i
  value_lt := Nat.xor_lt_two_pow a.value_lt (Nat.pow_lt_pow_right (by omega) h)

theorem testBit_flip {i : Nat} (h : i < a.family.width) (j : Nat) :
    (a.flip i h).value.testBit j = (a.value.testBit j != decide (i = j)) := by
  have hpow : (Nat.pow 2 i).testBit j = decide (i = j) := Nat.testBit_two_pow
  rw [flip, Nat.testBit_xor, hpow]

end Address

namespace Prefix

variable {p q : Prefix} {a b : Address}

/-! ## Contents -/

theorem contains_address (p : Prefix) : p.contains p.address = true :=
  (p.contains_iff _).mpr ⟨rfl, (around?_eq_some_iff.mp p.around?_self).2.1.symm⟩

/-- A prefix contains the addresses of its family that have its first bits. -/
theorem contains_iff_testBit (p : Prefix) (a : Address) :
    p.contains a = true ↔ a.family = p.family ∧
      ∀ i, p.family.width - p.length ≤ i → a.value.testBit i = p.address.value.testBit i := by
  rw [contains_iff]
  refine and_congr_right fun hfamily => ?_
  have hown : p.address.network p.length = p.address :=
    (around?_eq_some_iff.mp p.around?_self).2.1.symm
  have hbits := Address.network_eq_network_iff (b := p.address) hfamily p.length
  rwa [hown, hfamily] at hbits

/-- Of two prefixes with an address in common, the shorter one contains the other. -/
theorem contains_of_length_le (hp : p.contains a = true) (hq : q.contains a = true)
    (h : p.length ≤ q.length) (hb : q.contains b = true) : p.contains b = true := by
  rw [contains_iff_testBit] at hp hq hb ⊢
  obtain ⟨hpf, hpbits⟩ := hp
  obtain ⟨hqf, hqbits⟩ := hq
  obtain ⟨hbf, hbbits⟩ := hb
  have hfamily : q.family = p.family := hqf.symm.trans hpf
  refine ⟨hbf.trans hfamily, fun i hi => ?_⟩
  have hi' : q.family.width - q.length ≤ i := by
    rw [hfamily]
    omega
  calc b.value.testBit i
      = q.address.value.testBit i := hbbits i hi'
    _ = a.value.testBit i := (hqbits i hi').symm
    _ = p.address.value.testBit i := hpbits i hi

/-- A longer prefix leaves out an address, because it asks for one more bit. -/
theorem exists_contains_and_not (h : p.length < q.length) (hfamily : q.family = p.family) :
    ∃ a, p.contains a = true ∧ q.contains a = false := by
  have hwidth : q.family.width = p.family.width := by rw [hfamily]
  have hle : q.length ≤ p.address.family.width := hwidth ▸ q.length_le
  cases hown : q.contains p.address with
  | false => exact ⟨p.address, p.contains_address, hown⟩
  | true =>
    have hlt : p.address.family.width - q.length < p.address.family.width := by
      have hpos : 0 < q.length := Nat.lt_of_le_of_lt (Nat.zero_le _) h
      omega
    have hflip := Address.testBit_flip hlt
    refine ⟨p.address.flip _ hlt, ?_, ?_⟩
    · refine (p.contains_iff_testBit _).mpr ⟨rfl, fun i hi => ?_⟩
      have hne : p.address.family.width - q.length ≠ i := by
        have hi' : p.address.family.width - p.length ≤ i := hi
        omega
      rw [hflip, decide_eq_false hne, Bool.bne_false]
    · rw [← Bool.not_eq_true, contains_iff_testBit]
      rintro ⟨-, hbits⟩
      have hsame := ((q.contains_iff_testBit _).mp hown).2
      rw [hfamily] at hbits hsame
      have hbit := (hbits _ (Nat.le_refl _)).trans (hsame _ (Nat.le_refl _)).symm
      rw [show p.family = p.address.family from rfl, hflip, decide_eq_true rfl,
        Bool.bne_true] at hbit
      exact (Bool.eq_not_self _).mp hbit.symm

/-- Prefixes with the same contents are equal. -/
theorem contains_injective (h : ∀ a, p.contains a = q.contains a) : p = q := by
  have hown : q.contains p.address = true := (h _).symm.trans p.contains_address
  have hfamily : p.family = q.family := ((q.contains_iff _).mp hown).1
  have notLt : ∀ {r s : Prefix}, (∀ a, r.contains a = s.contains a) → s.family = r.family →
      ¬r.length < s.length := by
    intro r s hsame hfamily hlt
    obtain ⟨a, hr, hs⟩ := exists_contains_and_not hlt hfamily
    rw [hsame, hs] at hr
    cases hr
  have hpq := notLt h hfamily.symm
  have hqp := notLt (fun a => (h a).symm) hfamily
  exact eq_of_contains p.contains_address hown (by omega)

/-! ## Construction -/

/-- What is made from an address and a length has both, up to the bits after the length. -/
theorem ofAddress_eq_ok_iff_network {n : Nat} :
    ofAddress a n = .ok p ↔ n ≤ a.family.width ∧ p.address = a.network n ∧ p.length = n :=
  ofAddress_eq_ok_iff.trans around?_eq_some_iff

theorem length_of_ofAddress {n : Nat} (h : ofAddress a n = .ok p) : p.length = n :=
  (ofAddress_eq_ok_iff_network.mp h).2.2

theorem contains_of_ofAddress {n : Nat} (h : ofAddress a n = .ok p) : p.contains a = true := by
  obtain ⟨-, haddress, rfl⟩ := ofAddress_eq_ok_iff_network.mp h
  refine (contains_iff _ _).mpr ⟨?_, haddress.symm⟩
  rw [family, haddress]
  rfl

theorem exists_ofAddress_eq_ok {n : Nat} (h : n ≤ a.family.width) : ∃ p, ofAddress a n = .ok p :=
  ⟨around a n h, ofAddress_eq_ok_iff_network.mpr ⟨h, rfl, rfl⟩⟩

/-- Prefixes with an address in common lie one in the other, and if they are equally long, they are
equal.  So are prefixes with the same contents, and none is without contents.  A prefix is what is
made from its own address and length; and from one address, a smaller length makes a prefix that
contains no less. -/
theorem laminar (p q : Prefix) :
    (∀ a, p.contains a = true → q.contains a = true →
      (p.length ≤ q.length → ∀ b, q.contains b = true → p.contains b = true) ∧
      (q.length ≤ p.length → ∀ b, p.contains b = true → q.contains b = true) ∧
      (p.length = q.length → p = q)) ∧
    ((∀ a, p.contains a = q.contains a) → p = q) ∧
    p.contains p.address = true ∧
    ofAddress p.address p.length = .ok p ∧
    (∀ a, ofAddress a a.family.width = .ok (host a)) ∧
    ∀ a m n, m ≤ n → ofAddress a n = .ok q →
      ∃ r, ofAddress a m = .ok r ∧ ∀ b, q.contains b = true → r.contains b = true := by
  refine ⟨fun a hp hq => ⟨fun h b hb => contains_of_length_le hp hq h hb,
    fun h b hb => contains_of_length_le hq hp h hb, eq_of_contains hp hq⟩, contains_injective,
    p.contains_address, ofAddress_eq_ok_iff.mpr p.around?_self,
    fun a => ofAddress_eq_ok_iff.mpr (around?_width a), ?_⟩
  intro a m n hmn hq
  have hm : m ≤ a.family.width := Nat.le_trans hmn (ofAddress_eq_ok_iff_network.mp hq).1
  obtain ⟨r, hr⟩ := exists_ofAddress_eq_ok hm
  refine ⟨r, hr, fun b hb => ?_⟩
  have hlength : r.length ≤ q.length := by rwa [length_of_ofAddress hr, length_of_ofAddress hq]
  exact contains_of_length_le (contains_of_ofAddress hr) (contains_of_ofAddress hq) hlength hb

/-- Two ways to write one network of 24 bits, and the network of 8 bits around it. -/
theorem laminar_spellings : ∃ p q r,
    ofAddress (.ofNat .ipv4 0xCB007101) 24 = .ok p ∧
    ofAddress (.ofNat .ipv4 0xCB0071FF) 24 = .ok q ∧ p = q ∧
    ofAddress (.ofNat .ipv4 0xCB0071FF) 8 = .ok r ∧
    ∀ a, q.contains a = true → r.contains a = true := by
  have hlength : ∀ n, 24 ≤ (Address.ofNat .ipv4 n).family.width := by
    simp [Address.ofNat, Family.width]
  obtain ⟨p, hp⟩ := exists_ofAddress_eq_ok (hlength 0xCB007101)
  obtain ⟨q, hq⟩ := exists_ofAddress_eq_ok (hlength 0xCB0071FF)
  have hin : (ofAddress (.ofNat .ipv4 0xCB007101) 24).toOption.map
      (·.contains (.ofNat .ipv4 0xCB0071FF)) = some true := by decide +kernel
  rw [hp] at hin
  obtain ⟨hshared, -, -, -, -, hshorter⟩ := laminar p q
  obtain ⟨-, -, hequal⟩ := hshared _ (Option.some.inj hin) (contains_of_ofAddress hq)
  obtain ⟨r, hr, hwider⟩ := hshorter _ 8 24 (by decide) hq
  have hsame : p.length = q.length := (length_of_ofAddress hp).trans (length_of_ofAddress hq).symm
  exact ⟨p, q, r, hp, hq, hequal hsame, hr, hwider⟩

end Prefix

end IngressGuard
