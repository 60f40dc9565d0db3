import IngressGuard.Net.Prefix.Data
import IngressGuard.Proofs.Net.AddressText

/-!
# Prefix texts read back

A text stands for an address with a length if it is an address and a length with a slash between
them, or an address alone, with blanks around it or not (`Prefix.Written`).  The reader takes
exactly the texts of admissible lengths and masks what it has read (`Prefix.ofText_eq_ok_iff`).  The
text of a prefix stands for its own address and length, so it is read as that prefix, and no two
prefixes share a text (`Prefix.text_roundTrip`).

The reader tries IPv4 before IPv6 and a netmask before a number.  Neither order matters, since no
text is both.
-/

namespace IngressGuard.Prefix

open Text

variable {p q : Prefix} {a b : Address} {f : Family} {n m mask : Nat} {c : Char} {cs ds : List Char}

/-! ## The grammar of prefixes -/

/-- A length is written in decimal, possibly with a plus sign and leading zeros, or for IPv4 as the
netmask that has as many bits set. -/
inductive SpellsLength : List Char → Family → Nat → Prop
  | decimal {cs : List Char} {n : Nat} (f : Family) (h : SpellsDecimal cs n) (hn : n ≤ 255) :
      SpellsLength cs f n
  | netmask {n : Nat} (hn : n ≤ 32) :
      SpellsLength (Address.quadText (Nat.pow 2 32 - Nat.pow 2 (32 - n))) .ipv4 n

/-- The texts that stand for an address with a length.  Without a slash the length is that of the
whole address. -/
inductive Spells : List Char → Address → Nat → Prop
  | host {cs : List Char} {a : Address} (h : Address.Spells cs a) : Spells cs a a.family.width
  | slash {cs ds : List Char} {a : Address} {n : Nat} (h : Address.Spells cs a)
      (hn : SpellsLength ds a.family n) : Spells (cs ++ '/' :: ds) a n

/-- A text stands for an address with a length also if there are blanks around it. -/
def Written (text : String) (a : Address) (n : Nat) : Prop :=
  ∃ before cs after, text.toList = before ++ cs ++ after ∧ AllBlank before ∧ AllBlank after ∧
    Spells cs a n

/-! ## Lengths -/

theorem lengthOfMask?_netmask :
    ∀ n ≤ 32, lengthOfMask? (Nat.pow 2 32 - Nat.pow 2 (32 - n)) = some n := by
  decide

theorem lengthOfMask?_eq_some_iff :
    lengthOfMask? mask = some n ↔ n ≤ 32 ∧ mask = Nat.pow 2 32 - Nat.pow 2 (32 - n) := by
  constructor
  · intro h
    obtain ⟨hmask, hn, -⟩ := List.find?_range_eq_some.mp h
    exact ⟨Nat.le_of_lt_succ (List.mem_range.mp hn), eq_of_beq hmask⟩
  · rintro ⟨hn, rfl⟩
    exact lengthOfMask?_netmask n hn

theorem not_mem_of_spellsDecimal (h : SpellsDecimal cs n) (hc : c.isDigit = false)
    (hplus : c ≠ '+') : c ∉ cs := by
  intro hmem
  rcases h.isDigit_or_eq hmem with hdigit | rfl
  · simp [hc] at hdigit
  · exact hplus rfl

theorem boundedNat?_eq_some_iff : boundedNat? 255 cs = some n ↔ SpellsLength cs .ipv6 n := by
  rw [Text.boundedNat?_eq_some_iff]
  constructor
  · rintro ⟨hn, h⟩
    exact .decimal .ipv6 h hn
  · rintro ⟨-, h, hn⟩
    exact ⟨hn, h⟩

theorem ipv4LengthOfText?_eq_some_iff :
    ipv4LengthOfText? cs = some n ↔ SpellsLength cs .ipv4 n := by
  constructor
  · intro h
    unfold ipv4LengthOfText? at h
    split at h
    case h_1 mask hquad =>
      obtain ⟨hn, rfl⟩ := lengthOfMask?_eq_some_iff.mp h
      rw [(Address.quadOfText?_eq_some_iff.mp hquad).2]
      exact .netmask hn
    case h_2 =>
      obtain ⟨hn, h⟩ := Text.boundedNat?_eq_some_iff.mp h
      exact .decimal .ipv4 h hn
  · intro h
    cases h with
    | decimal _ h hn =>
      have hquad : Address.quadOfText? cs = none :=
        Address.quadOfText?_eq_none (not_mem_of_spellsDecimal h rfl (by decide))
      rw [ipv4LengthOfText?, hquad]
      exact Text.boundedNat?_eq_some_iff.mpr ⟨hn, h⟩
    | netmask hn =>
      have hmask : Nat.pow 2 32 - Nat.pow 2 (32 - n) < Nat.pow 2 32 :=
        Nat.sub_lt (by decide) (Nat.two_pow_pos _)
      rw [ipv4LengthOfText?, Address.quadOfText?_eq_some_iff.mpr ⟨hmask, rfl⟩]
      exact lengthOfMask?_netmask n hn

theorem SpellsLength.slash_not_mem (h : SpellsLength cs f n) : '/' ∉ cs := by
  cases h with
  | decimal _ h => exact not_mem_of_spellsDecimal h rfl (by decide)
  | netmask => exact Address.not_mem_quadText rfl (by decide) _

/-- No text stands for two lengths. -/
theorem SpellsLength.eq (hn : SpellsLength cs f n) (hm : SpellsLength cs f m) : n = m := by
  cases f with
  | ipv4 =>
    rw [← ipv4LengthOfText?_eq_some_iff] at hn hm
    exact Option.some.inj (hn.symm.trans hm)
  | ipv6 =>
    rw [← boundedNat?_eq_some_iff] at hn hm
    exact Option.some.inj (hn.symm.trans hm)

/-! ## Reading -/

theorem slash_not_mem_address (h : Address.Spells cs a) : '/' ∉ cs := by
  intro hmem
  exact absurd (h.isAddressChar '/' hmem) (by simp [Address.IsAddressChar, digitValue?])

theorem fields_host (h : Address.Spells cs a) : fields '/' cs = [cs] :=
  fields_of_not_mem (slash_not_mem_address h)

theorem fields_slash (h : Address.Spells cs a) (hn : SpellsLength ds a.family n) :
    fields '/' (cs ++ '/' :: ds) = [cs, ds] := by
  rw [fields_append_cons (slash_not_mem_address h), fields_of_not_mem hn.slash_not_mem]

theorem ofChars?_host (h : Address.Spells cs a) : ofChars? cs = some (host a) := by
  simp only [ofChars?, fields_host h, Address.ofText_eq_some_iff.mpr h, Option.map_some]

theorem ofChars?_slash (h : Address.Spells cs a) (hn : SpellsLength ds a.family n) :
    ofChars? (cs ++ '/' :: ds) = around? a n := by
  simp only [ofChars?, fields_slash h hn]
  cases h with
  | ipv4 hf =>
    rw [hf, ← ipv4LengthOfText?_eq_some_iff] at hn
    have haddress := Address.ipv4OfText?_eq_some_iff.mpr ⟨hf, rfl⟩
    simp only [haddress, hn, Address.ipv6OfText?_quadText, bind, Option.bind_some,
      Option.bind_none, Option.or_none]
  | ipv6 hf hgroups =>
    rw [hf, ← boundedNat?_eq_some_iff] at hn
    have haddress := Address.ipv6OfText?_eq_some_iff.mpr ⟨hf, hgroups⟩
    simp only [Address.ipv4OfText?_eq_none hgroups, haddress, hn, bind, Option.bind_some,
      Option.bind_none, Option.none_or]

theorem ofChars?_eq_some_iff :
    ofChars? cs = some p ↔ ∃ a n, Spells cs a n ∧ around? a n = some p := by
  constructor
  · intro h
    have hjoin := intercalate_fields '/' cs
    unfold ofChars? at h
    split at h
    case h_1 address hfields =>
      obtain ⟨a, ha, rfl⟩ := Option.map_eq_some_iff.mp h
      rw [hfields, List.intercalate_singleton] at hjoin
      rw [← hjoin]
      exact ⟨a, a.family.width, .host (Address.ofText_eq_some_iff.mp ha), around?_width a⟩
    case h_2 address length hfields =>
      rw [hfields, intercalate_cons_cons, List.intercalate_singleton] at hjoin
      rw [← hjoin]
      rcases Option.or_eq_some_iff.mp h with h4 | ⟨-, h6⟩
      · obtain ⟨a, ha, hrest⟩ := Option.bind_eq_some_iff.mp h4
        obtain ⟨n, hn, hp⟩ := Option.bind_eq_some_iff.mp hrest
        obtain ⟨hf, haddress⟩ := Address.ipv4OfText?_eq_some_iff.mp ha
        rw [ipv4LengthOfText?_eq_some_iff, ← hf] at hn
        rw [haddress]
        exact ⟨a, n, .slash (.ipv4 hf) hn, hp⟩
      · obtain ⟨a, ha, hrest⟩ := Option.bind_eq_some_iff.mp h6
        obtain ⟨n, hn, hp⟩ := Option.bind_eq_some_iff.mp hrest
        obtain ⟨hf, hgroups⟩ := Address.ipv6OfText?_eq_some_iff.mp ha
        rw [boundedNat?_eq_some_iff, ← hf] at hn
        exact ⟨a, n, .slash (.ipv6 hf hgroups) hn, hp⟩
    case h_3 => cases h
  · rintro ⟨a, n, h | ⟨h, hn⟩, haround⟩
    · rw [ofChars?_host h, ← haround, around?_width]
    · rw [ofChars?_slash h hn, haround]

theorem testBit_eq_false (p : Prefix) {i : Nat} (hi : i < p.family.width - p.length) :
    p.address.value.testBit i = false := by
  have hbit := Nat.testBit_mod_two_pow p.address.value (p.family.width - p.length) i
  have hzero : p.address.value % 2 ^ (p.family.width - p.length) = 0 := p.hostBits_zero
  rw [hzero] at hbit
  simpa [hi] using hbit

/-- No text stands for two addresses or for two lengths. -/
theorem Spells.eq (ha : Spells cs a n) (hb : Spells cs b m) : a = b ∧ n = m := by
  cases ha with
  | host ha =>
    cases hb with
    | host hb =>
      obtain rfl := ha.eq hb
      exact ⟨rfl, rfl⟩
    | slash hb hm => exact absurd (by simp) (slash_not_mem_address ha)
  | slash ha hn =>
    generalize htext : _ ++ '/' :: _ = text at hb
    cases hb with
    | host hb => exact absurd (by simp [← htext]) (slash_not_mem_address hb)
    | slash hb hm =>
      have hfields := fields_slash ha hn
      rw [htext, fields_slash hb hm] at hfields
      obtain ⟨rfl, rfl⟩ : _ = _ ∧ _ = _ := by simpa using hfields
      obtain rfl := ha.eq hb
      exact ⟨rfl, hn.eq hm⟩

/-! ## Blanks -/

theorem Spells.ne_nil (h : Spells cs a n) : cs ≠ [] := by
  cases h with
  | host h => exact h.ne_nil
  | slash => simp

theorem isBlank_of_isAddressChar (h : Address.IsAddressChar c) : isBlank c = false := by
  rcases h with hdigit | rfl | rfl
  · obtain ⟨hlow, hhigh⟩ := toNat_of_isSome_digitValue? hdigit
    exact isBlank_eq_false (by omega) (by omega)
  · rfl
  · rfl

theorem SpellsLength.not_blank (h : SpellsLength cs f n) : ∀ c ∈ cs, isBlank c = false := by
  intro c hc
  cases h with
  | decimal _ h =>
    rcases h.isDigit_or_eq hc with hdigit | rfl
    · obtain ⟨hlow, hhigh⟩ := Char.isDigit_iff_toNat.mp hdigit
      exact isBlank_eq_false (Nat.le_trans (by decide) hlow) (Nat.le_trans hhigh (by decide))
    · rfl
  | netmask => exact isBlank_of_isAddressChar (Address.isAddressChar_of_mem_quadText c hc)

theorem Spells.not_blank (h : Spells cs a n) : ∀ c ∈ cs, isBlank c = false := by
  cases h with
  | host h => exact fun c hc => isBlank_of_isAddressChar (h.isAddressChar c hc)
  | slash h hn =>
    rw [List.forall_mem_append, List.forall_mem_cons]
    exact ⟨fun c hc => isBlank_of_isAddressChar (h.isAddressChar c hc), rfl, hn.not_blank⟩

theorem Written.spells_trimBlank {text : String} (h : Written text a n) :
    Spells (trimBlank text.toList) a n := by
  obtain ⟨before, cs, after, htext, hbefore, hafter, hspells⟩ := h
  rwa [htext, trimBlank_append hbefore hafter hspells.ne_nil hspells.not_blank]

theorem written_iff {text : String} :
    Written text a n ↔ Spells (trimBlank text.toList) a n := by
  refine ⟨Written.spells_trimBlank, fun h => ?_⟩
  obtain ⟨before, after, htext, hbefore, hafter⟩ := exists_trimBlank text.toList
  exact ⟨before, _, after, htext, hbefore, hafter, h⟩

theorem ofText_eq_ok_iff {text : String} :
    ofText text = .ok p ↔ ∃ a n, Written text a n ∧ ofAddress a n = .ok p := by
  simp only [written_iff, ofAddress_eq_ok_iff, ← ofChars?_eq_some_iff]
  unfold ofText
  cases ofChars? (trimBlank text.toList) <;> simp

/-! ## The written form -/

theorem spells_chars (p : Prefix) : Spells p.chars p.address p.length :=
  .slash (Address.spells_chars p.address)
    (.decimal _ ⟨[], 0, .inl rfl, rfl⟩ (Nat.le_of_lt_succ p.length_lt))

theorem written_text (p : Prefix) : Written p.text p.address p.length :=
  ⟨[], p.chars, [], by simp [text], allBlank_nil, allBlank_nil, p.spells_chars⟩

theorem ofText_text (p : Prefix) : ofText p.text = .ok p :=
  ofText_eq_ok_iff.mpr
    ⟨p.address, p.length, p.written_text, ofAddress_eq_ok_iff.mpr p.around?_self⟩

theorem text_injective (h : p.text = q.text) : p = q := by
  have hread := p.ofText_text
  rw [h, q.ofText_text] at hread
  exact (Except.ok.inj hread).symm

theorem ofTree_tree (p : Prefix) : ofTree p.tree = .ok p :=
  congrArg (Except.mapError PrefixDataError.invalid) p.ofText_text

/-- The text of a prefix and its form as data both read back as the prefix, whatever the address and
the admissible length it was made from.  A text is read as a prefix exactly if it stands for an
address with an admissible length, and then there is only one of each, and the prefix is the one of
that length around that address.  So what was read is normalised, its text is read as itself, and
two texts are written in the same way exactly if they were read as the same prefix. -/
theorem text_roundTrip :
    (∀ (a : Address) (n : Nat) (p : Prefix), ofAddress a n = .ok p ↔
      n ≤ a.family.width ∧ p.address = a.network n ∧ p.length = n) ∧
    (∀ a : Address, ofAddress a a.family.width = .ok (host a)) ∧
    (∀ p : Prefix, ofText p.text = .ok p ∧ ofTree p.tree = .ok p) ∧
    (∀ t p, ofText t = .ok p ↔ ∃ a n, Written t a n ∧ ofAddress a n = .ok p) ∧
    (∀ t a n b m, Written t a n → Written t b m → a = b ∧ n = m) ∧
    (∀ t p, ofText t = .ok p → p.length ≤ p.family.width ∧
      (∀ i < p.family.width - p.length, p.address.value.testBit i = false) ∧
      (ofText p.text).map text = .ok p.text) ∧
    ∀ t u p q, ofText t = .ok p → ofText u = .ok q → (p.text = q.text ↔ p = q) := by
  refine ⟨fun a n p => ofAddress_eq_ok_iff.trans around?_eq_some_iff, fun a => ?_,
    fun p => ⟨p.ofText_text, p.ofTree_tree⟩, fun t p => ofText_eq_ok_iff,
    fun t a n b m ha hb => ?_, fun t p _ => ?_,
    fun t u p q _ _ => ⟨text_injective, congrArg text⟩⟩
  · exact ofAddress_eq_ok_iff.mpr (around?_width a)
  · exact (written_iff.mp ha).eq (written_iff.mp hb)
  · exact ⟨p.length_le, fun i => p.testBit_eq_false, congrArg (Except.map text) p.ofText_text⟩

/-- The address `::ffff:10.1.2.3`. -/
def embedded : Address := .ofNat .ipv6 0xffff0a010203

/-- Masking keeps the form of an embedded IPv4 address, and another way to write the same network is
read as the same prefix. -/
theorem text_roundTrip_embedded :
    ∃ p, ofAddress embedded 104 = .ok p ∧ p.text = "::ffff:10.0.0.0/104" ∧
      ofText "::ffff:10.0.0.0/104" = .ok p ∧ ofTree p.tree = .ok p ∧
      ∃ q, ofText " 0:0:0:0:0:FFFF:a01:203/+0104" = .ok q ∧ q.text = p.text ∧
        q.length = 104 ∧ q.address.value.testBit 23 = false ∧
        ∀ a n, Written " 0:0:0:0:0:FFFF:a01:203/+0104" a n → a = embedded ∧ n = 104 := by
  obtain ⟨hmakes, -, hreads, hexact, hunique, hnormal, hsame⟩ := text_roundTrip
  obtain ⟨p, haddress, hlength, hp⟩ : ∃ p : Prefix, p.address = embedded.network 104 ∧
      p.length = 104 ∧ ofAddress embedded 104 = .ok p :=
    ⟨around embedded 104 (by decide), rfl, rfl, (hmakes _ _ _).mpr ⟨by decide, rfl, rfl⟩⟩
  have hprinted : (ofAddress embedded 104).toOption.map text = some "::ffff:10.0.0.0/104" := by
    decide +kernel
  have htext : p.text = "::ffff:10.0.0.0/104" := by
    rw [hp] at hprinted
    exact Option.some.inj hprinted
  have hwritten : Written " 0:0:0:0:0:FFFF:a01:203/+0104" embedded 104 := by
    refine written_iff.mpr ?_
    have hspells : Address.Spells "0:0:0:0:0:FFFF:a01:203".toList embedded :=
      Address.ofText_eq_some_iff.mp (by decide +kernel)
    have hdecimal : SpellsLength "+0104".toList embedded.family 104 :=
      boundedNat?_eq_some_iff.mp (by decide +kernel)
    have htrim : trimBlank " 0:0:0:0:0:FFFF:a01:203/+0104".toList =
        "0:0:0:0:0:FFFF:a01:203".toList ++ '/' :: "+0104".toList := by
      decide +kernel
    rw [htrim]
    exact .slash hspells hdecimal
  have hread := (hexact _ p).mpr ⟨embedded, 104, hwritten, hp⟩
  have hback := (hreads p).1
  have heq := (hsame _ _ p p hback hread).mpr rfl
  have hhost : 23 < p.family.width - p.length := by
    rw [family, haddress, hlength]
    decide
  exact ⟨p, hp, htext, htext ▸ hback, (hreads p).2, p, hread, heq, hlength,
    (hnormal _ p hread).2.1 23 hhost, fun a n h => hunique _ a n embedded 104 h hwritten⟩

end IngressGuard.Prefix
