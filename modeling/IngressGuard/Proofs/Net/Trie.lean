import IngressGuard.Net.Match
import IngressGuard.Proofs.Net.Bits

/-!
# Look-ups by keys are look-ups by prefixes

The kernel's tables compare significant bits of bytes, and the sets of prefixes that they are made
from compare networks of addresses.  Both find something for the same addresses
(`Trie.isSome_lookup?_ofPrefixes`).
-/

namespace IngressGuard

namespace Address

variable {f : Family} {bytes : List UInt8}

theorem pow_byteCount (f : Family) : Nat.pow 256 f.byteCount = Nat.pow 2 f.width := by
  cases f <;> decide

/-- The address of as many bytes as its family has is the number that they make up. -/
theorem value_ofBytes (h : bytes.length = f.byteCount) :
    (ofBytes f bytes).value = ofBigEndianBytes bytes := by
  have hlt := ofBigEndianBytes_lt bytes
  rw [h, pow_byteCount] at hlt
  exact Nat.mod_eq_of_lt hlt

theorem ofBigEndianBytes_bytes (a : Address) : ofBigEndianBytes a.bytes = a.value := by
  rw [bytes, ofBigEndianBytes_bigEndianBytes, pow_byteCount]
  exact Nat.mod_eq_of_lt a.value_lt

theorem length_bytes (a : Address) : a.bytes.length = a.family.byteCount :=
  length_bigEndianBytes ..

/-- Networks are equal if the bits before the host bits are. -/
theorem network_eq_iff {a b : Address} (hf : a.family = b.family) {n : Nat}
    (hb : b.value % Nat.pow 2 (b.hostWidth n) = 0) :
    a.network n = b ↔
      a.value / Nat.pow 2 (b.hostWidth n) = b.value / Nat.pow 2 (b.hostWidth n) := by
  have hwidth : a.hostWidth n = b.hostWidth n := by rw [hostWidth, hostWidth, hf]
  have hpos : 0 < Nat.pow 2 (b.hostWidth n) := Nat.two_pow_pos _
  have hsplit := Nat.div_add_mod b.value (Nat.pow 2 (b.hostWidth n))
  rw [hb, Nat.add_zero, Nat.mul_comm] at hsplit
  constructor
  · intro h
    have hvalue := congrArg Address.value h
    rw [value_network, hwidth] at hvalue
    rw [← hvalue, Nat.mul_div_cancel _ hpos]
  · intro h
    refine Address.ext hf ?_
    rw [value_network, hwidth, h, hsplit]

end Address

namespace TrieKey

theorem length_append (n : Nat) (bytes : List UInt8) (h : n < Nat.pow 256 4) :
    TrieKey.length (littleEndianBytes 4 n ++ bytes) = n := by
  have hlength : (littleEndianBytes 4 n).length = 4 := by simp [littleEndianBytes]
  rw [TrieKey.length, List.take_left' hlength, littleEndianBytes, List.reverse_reverse,
    ofBigEndianBytes_bigEndianBytes, Nat.mod_eq_of_lt h]

theorem data_append (n : Nat) (bytes : List UInt8) :
    TrieKey.data (littleEndianBytes 4 n ++ bytes) = bytes := by
  have hlength : (littleEndianBytes 4 n).length = 4 := by simp [littleEndianBytes]
  rw [data, List.drop_left' hlength]

/-- The key of a prefix covers the key of an address if the prefix contains the address. -/
theorem covers_keyBytes {p : Prefix} {bytes : List UInt8}
    (h : bytes.length = p.family.byteCount) :
    covers p.keyBytes (full bytes) = p.contains (.ofBytes p.family bytes) := by
  have hbits : 8 * bytes.length = p.family.width := by
    rw [h, Nat.mul_comm, Family.byteCount_mul]
  have hle : p.length ≤ p.family.width := p.length_le
  have hsmall : p.family.width < Nat.pow 256 4 :=
    Nat.lt_of_le_of_lt (Family.width_le _) (by decide)
  have hkey : length p.keyBytes = p.length := length_append _ _ (Nat.lt_of_le_of_lt hle hsmall)
  have hfull : length (full bytes) = p.family.width := by
    rw [full, hbits]
    exact length_append _ _ hsmall
  have hdata : data p.keyBytes = p.address.bytes := data_append ..
  have hfulldata : data (full bytes) = bytes := data_append ..
  have hlength : (bitsOf p.address.bytes).length = (bitsOf bytes).length := by
    rw [length_bitsOf, length_bitsOf, Address.length_bytes, h]
    rfl
  have hwidth : (bitsOf p.address.bytes).length - p.length = p.address.hostWidth p.length := by
    rw [hlength, length_bitsOf, hbits]
    rfl
  have hfamily : (Address.ofBytes p.family bytes).family = p.address.family := rfl
  have hnetwork := Address.network_eq_iff hfamily p.hostBits_zero
  rw [Bool.eq_iff_iff, covers, hkey, hfull, hdata, hfulldata, Prefix.contains_iff,
    Bool.and_eq_true, decide_eq_true_iff, beq_iff_eq, take_eq_take_iff hlength, hwidth,
    ofBits_bitsOf, ofBits_bitsOf, Address.ofBigEndianBytes_bytes, ← Address.value_ofBytes h,
    hnetwork]
  constructor
  · exact fun heq => ⟨rfl, heq.2.symm⟩
  · exact fun heq => ⟨hle, heq.2.symm⟩

end TrieKey

/-- Choosing the best of a list finds something if there is something. -/
theorem isSome_foldl_choice {α : Type} {step : Option α → α → Option α}
    (hstep : ∀ best a, (step best a).isSome = true) (l : List α) :
    (l.foldl step none).isSome = true ↔ ∃ a, a ∈ l := by
  have hfrom : ∀ (l : List α) (best : Option α), best.isSome = true →
      (l.foldl step best).isSome = true := by
    intro l
    induction l with
    | nil => exact fun _ hbest => hbest
    | cons b l ih => exact fun best _ => ih _ (hstep best b)
  cases l with
  | nil => simp
  | cons a l => exact iff_of_true (hfrom l _ (hstep none a)) ⟨a, List.mem_cons_self⟩

theorem PrefixSet.isSome_lookup {s : PrefixSet} {a : Address} :
    (lookup s a).isSome = true ↔ ∃ p ∈ s, p.contains a = true := by
  unfold lookup Prefix.longest?
  rw [isSome_foldl_choice]
  · simp only [covering, List.mem_filter, Std.ExtTreeSet.mem_toList]
  · rintro (_ | q) p
    · rfl
    · dsimp only
      split <;> rfl

theorem Trie.isSome_lookup? {t : Trie} {query : TrieKey} :
    (t.lookup? query).isSome = true ↔ ∃ k : TrieKey, k ∈ t ∧ k.covers query = true := by
  unfold lookup?
  rw [isSome_foldl_choice]
  · simp only [List.mem_filter]
  · rintro (_ | b) k
    · rfl
    · dsimp only
      split <;> rfl

/-- A look-up of the bytes of an address finds a key if and only if some prefix of the set that the
table was made from contains the address. -/
theorem Trie.isSome_lookup?_ofPrefixes {s : PrefixSet} {f : Family} (filed : ∀ p ∈ s, p.family = f)
    {bytes : List UInt8} (h : bytes.length = f.byteCount) :
    ((ofPrefixes s).lookup? (.full bytes)).isSome = true ↔
      (PrefixSet.lookup s (.ofBytes f bytes)).isSome = true := by
  rw [isSome_lookup?, PrefixSet.isSome_lookup]
  have hcovers : ∀ p ∈ s, TrieKey.covers p.keyBytes (.full bytes) =
      p.contains (.ofBytes f bytes) := by
    intro p hp
    have hf := filed p hp
    subst hf
    exact TrieKey.covers_keyBytes h
  constructor
  · rintro ⟨k, hk, hcov⟩
    obtain ⟨p, hp, rfl⟩ := List.mem_map.mp hk
    have hp' : p ∈ s := Std.ExtTreeSet.mem_toList.mp hp
    exact ⟨p, hp', by rwa [← hcovers p hp']⟩
  · rintro ⟨p, hp, hcontains⟩
    refine ⟨p.keyBytes, List.mem_map.mpr ⟨p, Std.ExtTreeSet.mem_toList.mpr hp, rfl⟩, ?_⟩
    rwa [hcovers p hp]

end IngressGuard
