import IngressGuard.Kernel.Model
import IngressGuard.Proofs.Net.Trie

/-!
# Look-ups as longest matches of keys

A prefix contains an address if the address, with every bit after the first ones masked out, is the
prefix's own.  The kernel knows neither masks nor addresses: it compares the significant bits of a
key with the first bits of the bytes that it looks up.  Both are the same test
(`Prefix.contains_iff_agrees`), and as host bits are cleared in every prefix, two keys of one table
that pass it and are equally long are equal.  So there is one longest match, and a look-up in the
modelled kernel finds the prefix of its key (`Kernel.Model.lookup_longest_match`).
-/

namespace IngressGuard

/-! ## Masks -/

namespace Address

/-- The word of a family with ones in the first places. -/
def mask (f : Family) (length : Nat) : BitVec f.width :=
  if length = 0 then 0 else BitVec.allOnes f.width <<< (f.width - min length f.width)

theorem testBit_value_network (a : Address) (length i : Nat) :
    (a.network length).value.testBit i =
      (decide (a.hostWidth length ≤ i) && a.value.testBit i) := by
  have hshift : (a.network length).value =
      (a.value >>> a.hostWidth length) <<< a.hostWidth length := by
    rw [value_network, Nat.shiftLeft_eq, Nat.shiftRight_eq_div_pow]
    rfl
  rw [hshift, Nat.testBit_shiftLeft]
  by_cases h : a.hostWidth length ≤ i
  · simp [h, Nat.testBit_shiftRight]
  · simp [h]

theorem getLsbD_mask (f : Family) (length i : Nat) :
    (mask f length).getLsbD i = decide (i < f.width ∧ f.width - length ≤ i) := by
  unfold mask
  by_cases hlength : length = 0
  · simp [hlength]
  · rw [Bool.eq_iff_iff]
    simp [hlength]
    omega

/-- Clearing host bits is masking. -/
theorem value_network_eq_and (a : Address) (length : Nat) :
    (a.network length).value = a.value &&& (mask a.family length).toNat := by
  refine Nat.eq_of_testBit_eq fun i => ?_
  rw [testBit_value_network, Nat.testBit_and, BitVec.testBit_toNat, getLsbD_mask]
  by_cases h : i < a.family.width
  · simp [h, hostWidth, Bool.and_comm]
  · -- An address has no bits there.
    have hlt : a.value < Nat.pow 2 i :=
      Nat.lt_of_lt_of_le a.value_lt (Nat.pow_le_pow_right (by omega) (by omega))
    simp [Nat.testBit_lt_two_pow hlt]

end Address

/-! ## Keys -/

namespace Prefix

variable {p q : Prefix}

theorem length_keyBytes (p : Prefix) : TrieKey.length p.keyBytes = p.length :=
  TrieKey.length_append _ _ (Nat.lt_trans p.length_lt (by decide))

theorem data_keyBytes (p : Prefix) : TrieKey.data p.keyBytes = p.address.bytes :=
  TrieKey.data_append ..

end Prefix

theorem Family.byteCount_injective {f g : Family} (h : f.byteCount = g.byteCount) : f = g := by
  cases f <;> cases g <;> first | rfl | cases h

theorem Address.bytes_injective {a b : Address} (h : a.bytes = b.bytes) : a = b := by
  have hfamily : a.family = b.family := by
    refine Family.byteCount_injective ?_
    rw [← a.length_bytes, ← b.length_bytes, h]
  refine Address.ext hfamily ?_
  rw [← a.ofBigEndianBytes_bytes, ← b.ofBigEndianBytes_bytes, h]

theorem Prefix.keyBytes_injective : Function.Injective Prefix.keyBytes := by
  intro p q h
  have haddress : p.address.bytes = q.address.bytes := by
    rw [← p.data_keyBytes, ← q.data_keyBytes, h]
  have hlength : p.length = q.length := by
    rw [← p.length_keyBytes, ← q.length_keyBytes, h]
  exact Prefix.ext (Address.bytes_injective haddress) hlength

/-! ## Keys in hexadecimal -/

theorem Text.hexByte_injective {b c : UInt8} (h : Text.hexByte b = Text.hexByte c) : b = c := by
  have digits_inj : ∀ m < 16, ∀ n < 16, Nat.digitChar m = Nat.digitChar n → m = n := by decide
  have hchars := String.ofList_injective h
  simp only [List.cons.injEq, and_true] at hchars
  have hb := b.toNat_lt
  have hc := c.toNat_lt
  have hhigh := digits_inj _ (by omega) _ (by omega) hchars.1
  have hlow := digits_inj _ (by omega) _ (by omega) hchars.2
  exact UInt8.toNat_inj.mp (by omega)

theorem Text.blank_notMem_hexByte (b : UInt8) : ' ' ∉ (Text.hexByte b).toList := by
  have digit_ne : ∀ n < 16, Nat.digitChar n ≠ ' ' := by decide
  have hb := b.toNat_lt
  have hhigh := digit_ne (b.toNat / 16) (by omega)
  have hlow := digit_ne (b.toNat % 16) (by omega)
  simp [Text.hexByte, hhigh.symm, hlow.symm]

theorem Prefix.keyHex_injective : Function.Injective Prefix.keyHex := by
  intro p q h
  have pieces : ∀ r : Prefix, r.keyHex.toList.splitOn ' ' =
      r.keyBytes.map fun b => (Text.hexByte b).toList := by
    intro r
    have hblank : ∀ piece ∈ r.keyBytes.map fun b => (Text.hexByte b).toList, ' ' ∉ piece := by
      intro piece hpiece
      obtain ⟨b, -, rfl⟩ := List.mem_map.mp hpiece
      exact Text.blank_notMem_hexByte b
    have hne : (r.keyBytes.map fun b => (Text.hexByte b).toList) ≠ [] := by
      simp [keyBytes, littleEndianBytes, bigEndianBytes]
    rw [keyHex, String.toList_intercalate, List.map_map]
    exact List.splitOn_intercalate ' ' hblank hne
  have hpieces := pieces p
  rw [h, pieces q] at hpieces
  refine keyBytes_injective ((List.map_inj_right ?_).mp hpieces.symm)
  exact fun b c hbc => Text.hexByte_injective (String.toList_inj.mp hbc)

/-! ## Agreement in the significant bits -/

/-- The significant bits of a key are the first bits of some bytes. -/
def TrieKey.AgreesWith (k : TrieKey) (bytes : List UInt8) : Prop :=
  (bitsOf k.data).take k.length = (bitsOf bytes).take k.length

instance (k : TrieKey) (bytes : List UInt8) : Decidable (k.AgreesWith bytes) :=
  inferInstanceAs (Decidable (_ = _))

theorem Address.ofBytes_bytes (a : Address) : ofBytes a.family a.bytes = a :=
  Address.ext rfl (by rw [value_ofBytes a.length_bytes, a.ofBigEndianBytes_bytes])

namespace Prefix

variable {p q : Prefix} {a : Address}

theorem covers_keyBytes (h : p.family = a.family) :
    TrieKey.covers p.keyBytes (.full a.bytes) = p.contains a := by
  have hbytes : a.bytes.length = p.family.byteCount := by rw [h, a.length_bytes]
  rw [TrieKey.covers_keyBytes hbytes, h, a.ofBytes_bytes]

theorem contains_iff_agrees (h : p.family = a.family) :
    p.contains a = true ↔ TrieKey.AgreesWith p.keyBytes a.bytes := by
  have hbits : 8 * a.bytes.length = a.family.width := by
    rw [a.length_bytes, Nat.mul_comm, Family.byteCount_mul]
  have hlength : TrieKey.length (.full a.bytes) = a.family.width := by
    rw [TrieKey.full, hbits]
    exact TrieKey.length_append _ _ (Nat.lt_of_le_of_lt (Family.width_le _) (by decide))
  have hdata : TrieKey.data (.full a.bytes) = a.bytes := TrieKey.data_append ..
  have hle : p.length ≤ a.family.width := h ▸ p.length_le
  rw [← covers_keyBytes h, TrieKey.covers, TrieKey.AgreesWith, hdata, hlength, p.length_keyBytes]
  simp [hle]

theorem contains_eq_false_of_ne (h : p.family ≠ a.family) : p.contains a = false := by
  rw [← Bool.not_eq_true, contains_iff]
  exact fun hcontains => h hcontains.1.symm

/-- What prefixes contain is masked out by their lengths. -/
theorem contains_iff_and (p : Prefix) (a : Address) :
    p.contains a = true ↔ a.family = p.family ∧
      a.value &&& (Address.mask a.family p.length).toNat = p.address.value := by
  rw [contains_iff, ← Address.value_network_eq_and]
  refine and_congr_right fun hfamily => ⟨fun h => by rw [h], fun h => Address.ext hfamily h⟩

/-- Host bits are clear, so an address and a length leave one prefix that contains the address. -/
theorem eq_of_contains (hp : p.contains a = true) (hq : q.contains a = true)
    (h : p.length = q.length) : p = q := by
  refine Prefix.ext ?_ h
  rw [← ((p.contains_iff a).mp hp).2, ← ((q.contains_iff a).mp hq).2, h]

end Prefix

/-! ## Longest matches -/

/-- A choice that goes on with the larger one of two ends with a largest one. -/
theorem foldl_choice_eq_some {α : Type} (size : α → Nat) {step : Option α → α → Option α}
    (hfirst : ∀ a, step none a = some a)
    (hnext : ∀ b a, step (some b) a = if size b ≤ size a then some a else some b)
    {l : List α} {m : α} (h : l.foldl step none = some m) : m ∈ l ∧ ∀ a ∈ l, size a ≤ size m := by
  -- What was chosen before is not smaller than anything before.
  have hfrom : ∀ (l : List α) (b : α), l.foldl step (some b) = some m →
      (m = b ∨ m ∈ l) ∧ size b ≤ size m ∧ ∀ a ∈ l, size a ≤ size m := by
    intro l
    induction l with
    | nil =>
      rintro b ⟨⟩
      simp
    | cons a l ih =>
      intro b hb
      rw [List.foldl_cons, hnext] at hb
      by_cases hle : size b ≤ size a
      · rw [if_pos hle] at hb
        obtain ⟨hmem, hsize, hrest⟩ := ih a hb
        refine ⟨.inr (by simpa using hmem), by omega, ?_⟩
        simpa using ⟨hsize, hrest⟩
      · rw [if_neg hle] at hb
        obtain ⟨hmem, hsize, hrest⟩ := ih b hb
        refine ⟨hmem.imp_right (List.mem_cons_of_mem a), hsize, ?_⟩
        simpa using ⟨by omega, hrest⟩
  cases l with
  | nil => cases h
  | cons a l =>
    rw [List.foldl_cons, hfirst] at h
    obtain ⟨hmem, hsize, hrest⟩ := hfrom l a h
    exact ⟨by simpa using hmem, by simpa using ⟨hsize, hrest⟩⟩

namespace PrefixSet

variable {s : PrefixSet} {a : Address} {p : Prefix}

theorem lookup_eq_some_iff :
    lookup s a = some p ↔
      p ∈ s ∧ p.contains a = true ∧ ∀ q ∈ s, q.contains a = true → q.length ≤ p.length := by
  have hlongest : ∀ {p}, lookup s a = some p →
      p ∈ s ∧ p.contains a = true ∧ ∀ q ∈ s, q.contains a = true → q.length ≤ p.length := by
    intro p h
    have hchoice := foldl_choice_eq_some Prefix.length (fun _ => rfl) (fun _ _ => rfl) h
    simp only [covering, List.mem_filter, Std.ExtTreeSet.mem_toList] at hchoice
    exact ⟨hchoice.1.1, hchoice.1.2, fun q hq hcontains => hchoice.2 q ⟨hq, hcontains⟩⟩
  refine ⟨hlongest, ?_⟩
  rintro ⟨hp, hcontains, hmax⟩
  obtain ⟨q, hq⟩ := Option.isSome_iff_exists.mp (isSome_lookup.mpr ⟨p, hp, hcontains⟩)
  obtain ⟨hmem, hcontains', hmax'⟩ := hlongest hq
  have hlength : p.length = q.length :=
    Nat.le_antisymm (hmax' p hp hcontains) (hmax q hmem hcontains')
  rw [hq, Prefix.eq_of_contains hcontains hcontains' hlength]

theorem lookup_eq_none_iff : lookup s a = none ↔ ∀ p ∈ s, p.contains a = false := by
  rw [← Option.not_isSome_iff_eq_none, isSome_lookup]
  simp

end PrefixSet

/-- The longest matching key is the key of the longest matching prefix. -/
theorem Trie.lookup?_ofPrefixes {s : PrefixSet} {a : Address}
    (filed : ∀ p ∈ s, p.family = a.family) :
    (ofPrefixes s).lookup? (.full a.bytes) = (PrefixSet.lookup s a).map Prefix.keyBytes := by
  have hkeys : (ofPrefixes s).filter (TrieKey.covers · (.full a.bytes)) =
      (s.covering a).map Prefix.keyBytes := by
    rw [ofPrefixes, List.filter_map, PrefixSet.covering]
    refine congrArg (List.map Prefix.keyBytes) (List.filter_congr fun p hp => ?_)
    exact Prefix.covers_keyBytes (filed p (Std.ExtTreeSet.mem_toList.mp hp))
  rw [lookup?, hkeys, List.foldl_map, PrefixSet.lookup, Prefix.longest?]
  refine @List.foldl_hom _ _ _ (Option.map Prefix.keyBytes) _ _ _ none fun best p => ?_
  cases best with
  | none => rfl
  | some q =>
    simp only [Option.map_some, Prefix.length_keyBytes]
    split <;> rfl

namespace Kernel.Model

/-- The keys of the table of an interface and a family. -/
def keys (m : Model) (name : String) (f : Family) : Trie :=
  ((m.table name f).map Trie.ofPrefixes).getD []

theorem mem_keys {m : Model} {name : String} {f : Family} {k : TrieKey} :
    k ∈ m.keys name f ↔ ∃ p ∈ (m.table name f).getD ∅, p.keyBytes = k := by
  unfold keys
  cases m.table name f with
  | none => simp
  | some t => simp [Trie.ofPrefixes]

theorem family_of_mem_table {m : Model} {name : String} {f : Family} {p : Prefix}
    (h : p ∈ (m.table name f).getD ∅) : p.family = f := by
  unfold table at h
  cases htable : (m.interface name).tables.get f with
  | none => simp [htable] at h
  | some t => exact (m.interface name).filed f t p htable (by simpa [htable] using h)

theorem lookup_eq (m : Model) (name : String) (a : Address) :
    (m.interface name).lookup a = PrefixSet.lookup ((m.table name a.family).getD ∅) a := by
  unfold InterfaceState.lookup table
  cases (m.interface name).tables.get a.family with
  | none => rfl
  | some t => rfl

/-- A key is a length and the bytes of an address, and no two prefixes have one key, also as it is
written.  A prefix contains an address if the masked address is its own, and just as well if its key
agrees with the bytes of the address.  In a table there is at most one such key of each length, and
a look-up gives the prefix of the longest one, which is the key that the kernel's own look-up
finds. -/
theorem lookup_longest_match (m : Model) (name : String) (a : Address) :
    (∀ p : Prefix, TrieKey.length p.keyBytes = p.length ∧
      TrieKey.data p.keyBytes = p.address.bytes ∧
      ofBigEndianBytes p.address.bytes = p.address.value) ∧
    (Function.Injective Prefix.keyBytes ∧ Function.Injective Prefix.keyHex) ∧
    (∀ p : Prefix, p.contains a = true ↔ p.family = a.family ∧
      a.value &&& (Address.mask a.family p.length).toNat = p.address.value) ∧
    (∀ p : Prefix, p.contains a = true ↔ p.family = a.family ∧
      TrieKey.AgreesWith p.keyBytes a.bytes) ∧
    (∀ k ∈ m.keys name a.family, ∀ k' ∈ m.keys name a.family,
      TrieKey.AgreesWith k a.bytes → TrieKey.AgreesWith k' a.bytes →
        TrieKey.length k = TrieKey.length k' → k = k') ∧
    (∀ p, (m.interface name).lookup a = some p ↔
      p.keyBytes ∈ m.keys name a.family ∧ TrieKey.AgreesWith p.keyBytes a.bytes ∧
        ∀ k ∈ m.keys name a.family, TrieKey.AgreesWith k a.bytes →
          TrieKey.length k ≤ TrieKey.length p.keyBytes) ∧
    ((m.interface name).lookup a = none ↔
      ∀ k ∈ m.keys name a.family, ¬TrieKey.AgreesWith k a.bytes) ∧
    (m.keys name a.family).lookup? (.full a.bytes) =
      ((m.interface name).lookup a).map Prefix.keyBytes := by
  have hfiled : ∀ p ∈ (m.table name a.family).getD ∅, p.family = a.family :=
    fun p hp => family_of_mem_table hp
  have hagrees : ∀ p ∈ (m.table name a.family).getD ∅,
      (p.contains a = true ↔ TrieKey.AgreesWith p.keyBytes a.bytes) :=
    fun p hp => Prefix.contains_iff_agrees (hfiled p hp)
  refine ⟨fun p => ⟨p.length_keyBytes, p.data_keyBytes, p.address.ofBigEndianBytes_bytes⟩,
    ⟨Prefix.keyBytes_injective, Prefix.keyHex_injective⟩, fun p => ?_, fun p => ?_, ?_, fun p => ?_,
    ?_, ?_⟩
  · rw [Prefix.contains_iff_and, eq_comm]
  · by_cases hfamily : p.family = a.family
    · simp [hfamily, Prefix.contains_iff_agrees hfamily]
    · simp [hfamily, Prefix.contains_eq_false_of_ne hfamily]
  · simp only [mem_keys]
    rintro _ ⟨p, hp, rfl⟩ _ ⟨q, hq, rfl⟩ hkey hkey' hlength
    rw [p.length_keyBytes, q.length_keyBytes] at hlength
    rw [Prefix.eq_of_contains ((hagrees p hp).mpr hkey) ((hagrees q hq).mpr hkey') hlength]
  · have hmem : p.keyBytes ∈ m.keys name a.family ↔ p ∈ (m.table name a.family).getD ∅ := by
      simp [mem_keys, Prefix.keyBytes_injective.eq_iff]
    rw [lookup_eq, PrefixSet.lookup_eq_some_iff, hmem]
    refine and_congr_right fun hp => and_congr (hagrees p hp) ?_
    simp only [mem_keys, forall_exists_index, and_imp, forall_apply_eq_imp_iff₂,
      Prefix.length_keyBytes]
    exact forall₂_congr fun q hq => by rw [hagrees q hq]
  · rw [lookup_eq, PrefixSet.lookup_eq_none_iff]
    simp only [mem_keys, forall_exists_index, and_imp, forall_apply_eq_imp_iff₂]
    exact forall₂_congr fun q hq => by rw [← hagrees q hq, Bool.not_eq_true]
  · have hkeys : m.keys name a.family = Trie.ofPrefixes ((m.table name a.family).getD ∅) := by
      unfold keys
      cases m.table name a.family <;> rfl
    rw [hkeys, lookup_eq, Trie.lookup?_ofPrefixes hfiled]

/-- Two networks, one within the other, in the table of an interface. -/
def nested : Model :=
  let outer := Prefix.around (.ofNat .ipv4 0xC0000000) 8 (by decide)
  let inner := Prefix.around (.ofNat .ipv4 0xC0A80000) 16 (by decide)
  ((fresh ∅ none).tamperInsert "eth0" outer).tamperInsert "eth0" inner

/-- Of two networks around an address the inner one is found, and no other key is as long. -/
theorem lookup_longest_match_nested :
    let a := Address.ofNat .ipv4 0xC0A80203
    let inner := Prefix.around (.ofNat .ipv4 0xC0A80000) 16 (by decide)
    let outer := Prefix.around (.ofNat .ipv4 0xC0000000) 8 (by decide)
    outer.contains a = true ∧ inner.contains a = true ∧
      (∀ k ∈ nested.keys "eth0" .ipv4, TrieKey.AgreesWith k a.bytes → TrieKey.length k = 16 →
        k = inner.keyBytes) ∧
      (nested.interface "eth0").lookup a = some inner ∧
      (nested.keys "eth0" .ipv4).lookup? (.full a.bytes) = some inner.keyBytes := by
  intro a inner outer
  obtain ⟨-, -, -, hcontains, hunique, hsome, -, hkeys⟩ := lookup_longest_match nested "eth0" a
  have houter : outer.contains a = true := (hcontains outer).mpr (by decide)
  have hinner : inner.contains a = true := (hcontains inner).mpr (by decide)
  have hlookup : (nested.interface "eth0").lookup a = some inner :=
    (hsome inner).mpr (by decide +kernel)
  refine ⟨houter, hinner, fun k hk hagrees hlength => ?_, hlookup, ?_⟩
  · have hmem : inner.keyBytes ∈ nested.keys "eth0" .ipv4 := by decide +kernel
    exact hunique k hk _ hmem hagrees (by decide) (hlength.trans inner.length_keyBytes.symm)
  · rw [hlookup] at hkeys
    exact hkeys

end Kernel.Model

end IngressGuard
