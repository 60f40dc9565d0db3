import IngressGuard.Net.Address.Text
import IngressGuard.Proofs.Text.Numerals
import IngressGuard.Proofs.Text.Splitting
import Mathlib.Data.List.Forall2

/-!
# Address texts read back

The texts that stand for an address are given by a grammar that does not mention the reader
(`Address.Spells`).  An IPv4 address has one text.  An IPv6 address has many: its groups take
leading zeros and letters of either case, any of its runs of zeros may be left out, and its last two
groups may be a dotted quad.  The reader takes exactly these texts (`Address.ofText_eq_some_iff`),
each for one address (`Address.Spells.eq`), and the written form is one of them
(`Address.spells_chars`).

The reader cuts at the first `::`, at colons and at points.  That it finds the pieces that the
grammar has put together rests on what is not in them: no group is empty or holds a colon or a
point, and every dotted quad holds a point and no colon.
-/

namespace IngressGuard.Address

open Text

variable {a : Address} {c : Char} {cs : List Char} {n v g : Nat} {gs front : List Nat}
  {pieces : List (List Char)}

/-! ## The grammar of addresses -/

/-- A group in writing has at most four hexadecimal digits, in either case and with any number of
leading zeros. -/
def SpellsGroup (cs : List Char) (g : Nat) : Prop :=
  cs.length ≤ 4 ∧ ∃ k, cs.map Char.toLower = List.replicate k '0' ++ digits 16 g

/-- A run of groups in writing has a colon between any two. -/
def SpellsRun (cs : List Char) (gs : List Nat) : Prop :=
  ∃ pieces, List.Forall₂ SpellsGroup pieces gs ∧ cs = [':'].intercalate pieces

/-- In the last run of an address a dotted quad may stand for the last two groups. -/
inductive SpellsTail : List Char → List Nat → Prop
  | run {cs : List Char} {gs : List Nat} (h : SpellsRun cs gs) : SpellsTail cs gs
  | quad {pieces : List (List Char)} {front : List Nat} {v : Nat}
      (hfront : List.Forall₂ SpellsGroup pieces front) (hv : v < Nat.pow 2 32) :
      SpellsTail ([':'].intercalate (pieces ++ [quadText v])) (front ++ [v / 65536, v % 65536])

/-- Eight groups are written out, or all but at least one group of zeros are. -/
inductive SpellsGroups : List Char → List Nat → Prop
  | full {cs : List Char} {gs : List Nat} (h : SpellsTail cs gs) (hlength : gs.length = 8) :
      SpellsGroups cs gs
  | compressed {before after : List Char} {front back : List Nat} (hfront : SpellsRun before front)
      (hback : SpellsTail after back) (hlength : front.length + back.length ≤ 7) :
      SpellsGroups (before ++ ':' :: ':' :: after)
        (front ++ List.replicate (8 - front.length - back.length) 0 ++ back)

/-- The texts that stand for an address.  There is only one for an IPv4 address. -/
inductive Spells : List Char → Address → Prop
  | ipv4 {a : Address} (hf : a.family = .ipv4) : Spells (quadText a.value) a
  | ipv6 {cs : List Char} {a : Address} (hf : a.family = .ipv6)
      (h : SpellsGroups cs (groups a.value)) : Spells cs a

/-! ## Pieces read one by one -/

theorem mapM_eq_some_iff {α β : Type} {f : α → Option β} {xs : List α} {ys : List β} :
    xs.mapM f = some ys ↔ List.Forall₂ (fun x y => f x = some y) xs ys := by
  induction xs generalizing ys with
  | nil => simp [eq_comm]
  | cons x xs ih =>
    rw [List.mapM_cons, List.forall₂_cons_left_iff]
    simp only [bind, Option.bind_eq_some_iff, pure, Option.some.injEq, ih]
    constructor
    · rintro ⟨y, hy, ys, hys, rfl⟩
      exact ⟨y, ys, hy, hys, rfl⟩
    · rintro ⟨y, ys, hy, hys, rfl⟩
      exact ⟨y, hy, ys, hys, rfl⟩

/-! ## Dotted quads -/

theorem octetOfText?_eq_some_iff : octetOfText? cs = some n ↔ n < 256 ∧ cs = digits 10 n := by
  constructor
  · intro h
    obtain ⟨hform, hread⟩ := Option.ite_none_right_eq_some.mp h
    obtain ⟨hread, hn⟩ := Option.filter_eq_some_iff.mp hread
    obtain ⟨k, rfl⟩ := natOfDigits?_ten_eq_some_iff.mp hread
    refine ⟨of_decide_eq_true hn, ?_⟩
    cases k with
    | zero => rfl
    | succ k =>
      rcases hform.2 with hlength | hhead
      · have hdigits : 0 < (digits 10 n).length := Nat.length_toDigits_pos
        rw [List.length_append, List.length_replicate] at hlength
        omega
      · exact absurd rfl hhead
  · rintro ⟨hn, rfl⟩
    have hlength : (digits 10 n).length ≤ 3 :=
      (Nat.length_toDigits_le_iff (by decide) (by decide)).mpr (by omega)
    have hfirst : (digits 10 n).length = 1 ∨ (digits 10 n).head? ≠ some '0' := by
      rcases Nat.eq_zero_or_pos n with rfl | hpos
      · exact .inl rfl
      · exact .inr (head?_digits_ne_zero hpos)
    rw [octetOfText?, if_pos ⟨hlength, hfirst⟩, natOfDigits?_digits (by decide) (by decide)]
    simpa using hn

theorem mapM_octetOfText?_eq_some_iff :
    pieces.mapM octetOfText? = some gs ↔ (∀ n ∈ gs, n < 256) ∧ pieces = gs.map (digits 10) := by
  rw [mapM_eq_some_iff]
  simp only [octetOfText?_eq_some_iff]
  constructor
  · intro h
    induction h with
    | nil => simp
    | cons hfirst _ ih =>
      exact ⟨List.forall_mem_cons.mpr ⟨hfirst.1, ih.1⟩, by rw [List.map_cons, hfirst.2, ih.2]⟩
  · rintro ⟨hgs, rfl⟩
    exact List.forall₂_map_left_iff.mpr (List.forall₂_same.mpr fun n hn => ⟨hgs n hn, rfl⟩)

/-- The four numbers of a dotted quad. -/
def octets (v : Nat) : List Nat :=
  [v / Nat.pow 2 24 % 256, v / Nat.pow 2 16 % 256, v / Nat.pow 2 8 % 256, v % 256]

theorem quadText_eq (v : Nat) : quadText v = ['.'].intercalate ((octets v).map (digits 10)) := by
  simp [quadText, octets]

theorem fields_quadText (v : Nat) : fields '.' (quadText v) = (octets v).map (digits 10) := by
  refine fields_eq_iff.mpr ⟨by simp [octets], fun piece hpiece => ?_, quadText_eq v⟩
  obtain ⟨n, -, rfl⟩ := List.mem_map.mp hpiece
  exact not_mem_digits (by decide) (by decide) rfl

theorem quadOfText?_eq_some_iff :
    quadOfText? cs = some v ↔ v < Nat.pow 2 32 ∧ cs = quadText v := by
  constructor
  · intro h
    unfold quadOfText? at h
    split at h
    case h_1 a b c d hread =>
      obtain ⟨hlt, hpieces⟩ := mapM_octetOfText?_eq_some_iff.mp hread
      obtain ⟨ha, hb, hc, hd⟩ : a < 256 ∧ b < 256 ∧ c < 256 ∧ d < 256 := by simpa using hlt
      obtain rfl := Option.some.inj h
      have hoctets : octets (((a * 256 + b) * 256 + c) * 256 + d) = [a, b, c, d] := by
        simp only [octets, Nat.pow_eq, List.cons.injEq, and_true]
        omega
      refine ⟨?_, ?_⟩
      · rw [Nat.pow_eq]
        omega
      · rw [quadText_eq, hoctets, ← hpieces, intercalate_fields]
    case h_2 => cases h
  · rintro ⟨hv, rfl⟩
    have hread : (fields '.' (quadText v)).mapM octetOfText? = some (octets v) := by
      refine mapM_octetOfText?_eq_some_iff.mpr ⟨?_, fields_quadText v⟩
      simp [octets, Nat.mod_lt]
    simp only [quadOfText?, hread, octets, Nat.pow_eq, Option.some.injEq] at hv ⊢
    omega

/-! ## Groups -/

theorem groupOfText?_eq_some_iff : groupOfText? cs = some g ↔ SpellsGroup cs g := by
  rw [groupOfText?, Option.ite_none_right_eq_some, natOfDigits?_eq_some_iff (by decide) (by decide),
    SpellsGroup]

namespace SpellsGroup

variable (h : SpellsGroup cs g)

include h

theorem lt : g < 65536 := by
  obtain ⟨hlength, k, hdigits⟩ := h
  have hlengths := congrArg List.length hdigits
  rw [List.length_map, List.length_append] at hlengths
  exact (Nat.length_toDigits_le_iff (b := 16) (by decide) (k := 4) (by decide)).mp
    (show (digits 16 g).length ≤ 4 by omega)

theorem natOfDigits?_eq : natOfDigits? 16 cs = some g :=
  (natOfDigits?_eq_some_iff (by decide) (by decide)).mpr h.2

theorem ne_nil : cs ≠ [] := by
  rintro rfl
  cases h.natOfDigits?_eq

theorem isSome_digitValue? (hc : c ∈ cs) : (digitValue? c).isSome = true :=
  isSome_digitValue?_of_mem h.natOfDigits?_eq hc

theorem not_mem (hc : digitValue? c = none) : c ∉ cs := by
  intro hmem
  have hsome := h.isSome_digitValue? hmem
  simp [hc] at hsome

end SpellsGroup

theorem spellsGroup_digits (hg : g < 65536) : SpellsGroup (digits 16 g) g :=
  ⟨(Nat.length_toDigits_le_iff (by decide) (by decide)).mpr hg, 0,
    map_toLower_digits (by decide) (by decide)⟩

theorem length_groups (n : Nat) : (groups n).length = 8 := rfl

theorem lt_of_mem_groups (h : g ∈ groups n) : g < 65536 := by
  obtain ⟨shift, -, rfl⟩ := List.mem_map.mp h
  exact Nat.mod_lt _ (by decide)

theorem ofGroups_groups (h : n < Nat.pow 2 128) : ofGroups (groups n) = n := by
  have hstep (shift : Nat) :
      n / Nat.pow 2 (shift + 16) * 65536 + n / Nat.pow 2 shift % 65536 = n / Nat.pow 2 shift := by
    rw [Nat.pow_eq, Nat.pow_eq, Nat.pow_add, ← Nat.div_div_eq_div_mul]
    exact Nat.div_add_mod' _ _
  have hfirst : n / Nat.pow 2 112 % 65536 = n / Nat.pow 2 112 :=
    Nat.mod_eq_of_lt ((Nat.div_lt_iff_lt_mul (by decide)).mpr h)
  simp only [groups, ofGroups, List.map_cons, List.map_nil, List.foldl_cons, List.foldl_nil,
    Nat.zero_mul, Nat.zero_add, hfirst]
  rw [hstep 96, hstep 80, hstep 64, hstep 48, hstep 32, hstep 16, hstep 0]
  exact Nat.div_one n

theorem groups_ofGroups (hlength : gs.length = 8) (hgs : ∀ g ∈ gs, g < 65536) :
    ofGroups gs < Nat.pow 2 128 ∧ groups (ofGroups gs) = gs := by
  match gs, hlength with
  | [a, b, c, d, e, f, g, h], _ =>
    simp only [List.forall_mem_cons, List.not_mem_nil, false_implies, implies_true, and_true] at hgs
    simp only [Nat.pow_eq, groups, ofGroups, List.map_cons, List.map_nil, List.foldl_cons,
      List.foldl_nil, List.cons.injEq, and_true]
    omega

/-! ## Runs -/

theorem not_mem_quadText (hc : digitValue? c = none) (hdot : c ≠ '.') (v : Nat) :
    c ∉ quadText v := by
  rw [quadText_eq]
  intro hmem
  rcases eq_or_exists_of_mem_intercalate hmem with rfl | ⟨piece, hpiece, hmem⟩
  · exact hdot rfl
  · obtain ⟨n, -, rfl⟩ := List.mem_map.mp hpiece
    exact not_mem_digits (by decide) (by decide) hc hmem

theorem dot_mem_quadText (v : Nat) : '.' ∈ quadText v := by
  rw [quadText_eq]
  exact mem_intercalate (by simp [octets])

theorem quadOfText?_eq_none (h : '.' ∉ cs) : quadOfText? cs = none := by
  refine Option.eq_none_iff_forall_not_mem.mpr fun v hv => h ?_
  rw [(quadOfText?_eq_some_iff.mp hv).2]
  exact dot_mem_quadText v

/-- Pieces that are neither empty nor hold a colon, as the pieces of every run are. -/
def Plain (pieces : List (List Char)) : Prop := ∀ piece ∈ pieces, piece ≠ [] ∧ ':' ∉ piece

theorem exists_spellsGroup_of_mem (h : List.Forall₂ SpellsGroup pieces gs) (hmem : cs ∈ pieces) :
    ∃ g, SpellsGroup cs g := by
  induction h with
  | nil => cases hmem
  | cons hfirst _ ih =>
    rcases List.mem_cons.mp hmem with rfl | hmem
    · exact ⟨_, hfirst⟩
    · exact ih hmem

theorem plain_of_forall₂ (h : List.Forall₂ SpellsGroup pieces gs) : Plain pieces := by
  intro piece hpiece
  obtain ⟨g, hg⟩ := exists_spellsGroup_of_mem h hpiece
  exact ⟨hg.ne_nil, hg.not_mem rfl⟩

theorem plain_concat_quadText (h : Plain pieces) (v : Nat) : Plain (pieces ++ [quadText v]) := by
  intro piece hpiece
  rcases List.mem_append.mp hpiece with hpiece | hpiece
  · exact h piece hpiece
  · rw [List.mem_singleton.mp hpiece]
    exact ⟨List.ne_nil_of_mem (dot_mem_quadText v), not_mem_quadText rfl (by decide) v⟩

theorem fields_intercalate (hne : pieces ≠ []) (h : Plain pieces) :
    fields ':' ([':'].intercalate pieces) = pieces :=
  fields_eq_iff.mpr ⟨hne, fun piece hpiece => (h piece hpiece).2, rfl⟩

theorem isEmpty_intercalate (hne : pieces ≠ []) (h : Plain pieces) :
    ([':'].intercalate pieces).isEmpty = false := by
  obtain ⟨first, rest, rfl⟩ := List.exists_cons_of_ne_nil hne
  obtain ⟨tail, htail⟩ := exists_intercalate_cons ':' first rest
  have hfirst := (h first List.mem_cons_self).1
  simp [htail, hfirst]

theorem mapM_groupOfText?_eq_some_iff :
    pieces.mapM groupOfText? = some gs ↔ List.Forall₂ SpellsGroup pieces gs := by
  simp only [mapM_eq_some_iff, groupOfText?_eq_some_iff]

theorem groupsOfText?_eq_some_iff : groupsOfText? cs = some gs ↔ SpellsRun cs gs := by
  constructor
  · intro h
    unfold groupsOfText? at h
    split at h
    case isTrue hempty =>
      obtain rfl := Option.some.inj h
      exact ⟨[], .nil, List.isEmpty_iff.mp hempty⟩
    case isFalse =>
      exact ⟨fields ':' cs, mapM_groupOfText?_eq_some_iff.mp h, (intercalate_fields ':' cs).symm⟩
  · rintro ⟨pieces, hpieces, rfl⟩
    have hplain := plain_of_forall₂ hpieces
    by_cases hne : pieces = []
    · subst hne
      cases hpieces
      rfl
    · rw [groupsOfText?, isEmpty_intercalate hne hplain, fields_intercalate hne hplain]
      exact mapM_groupOfText?_eq_some_iff.mpr hpieces

theorem spellsTail_of_tailOfText? (h : tailOfText? cs = some gs) : SpellsTail cs gs := by
  have hjoin := intercalate_fields ':' cs
  unfold tailOfText? at h
  split at h
  case isTrue hempty =>
    obtain rfl := Option.some.inj h
    exact .run ⟨[], .nil, List.isEmpty_iff.mp hempty⟩
  case isFalse =>
    dsimp only at h
    split at h
    case h_1 v hquad =>
      obtain ⟨last, hlast, hquad⟩ := Option.bind_eq_some_iff.mp hquad
      obtain ⟨hv, rfl⟩ := quadOfText?_eq_some_iff.mp hquad
      obtain ⟨front, hfront, rfl⟩ := Option.map_eq_some_iff.mp h
      obtain ⟨pieces, hpieces⟩ := List.getLast?_eq_some_iff.mp hlast
      rw [hpieces, List.dropLast_concat] at hfront
      rw [← hjoin, hpieces]
      exact .quad (mapM_groupOfText?_eq_some_iff.mp hfront) hv
    case h_2 => exact .run ⟨_, mapM_groupOfText?_eq_some_iff.mp h, hjoin.symm⟩

theorem tailOfText?_run (h : SpellsRun cs gs) : tailOfText? cs = some gs := by
  obtain ⟨pieces, hpieces, rfl⟩ := h
  have hplain := plain_of_forall₂ hpieces
  by_cases hne : pieces = []
  · subst hne
    cases hpieces
    rfl
  · have hlast : pieces.getLast?.bind quadOfText? = none := by
      refine Option.bind_eq_none_iff.mpr fun last hlast => ?_
      obtain ⟨g, hg⟩ := exists_spellsGroup_of_mem hpieces (List.mem_of_getLast? hlast)
      exact quadOfText?_eq_none (hg.not_mem rfl)
    rw [tailOfText?, isEmpty_intercalate hne hplain, fields_intercalate hne hplain]
    simp only [Bool.false_eq_true, if_false, hlast]
    exact mapM_groupOfText?_eq_some_iff.mpr hpieces

theorem tailOfText?_quad (hfront : List.Forall₂ SpellsGroup pieces front)
    (hv : v < Nat.pow 2 32) :
    tailOfText? ([':'].intercalate (pieces ++ [quadText v])) =
      some (front ++ [v / 65536, v % 65536]) := by
  have hplain := plain_concat_quadText (plain_of_forall₂ hfront) v
  have hne : pieces ++ [quadText v] ≠ [] := by simp
  have hquad : quadOfText? (quadText v) = some v := quadOfText?_eq_some_iff.mpr ⟨hv, rfl⟩
  rw [tailOfText?, isEmpty_intercalate hne hplain, fields_intercalate hne hplain]
  simp only [Bool.false_eq_true, if_false, List.getLast?_concat, Option.bind_some, hquad,
    List.dropLast_concat, mapM_groupOfText?_eq_some_iff.mpr hfront, Option.map_some]

theorem tailOfText?_eq_some_iff : tailOfText? cs = some gs ↔ SpellsTail cs gs := by
  refine ⟨spellsTail_of_tailOfText?, ?_⟩
  rintro (h | ⟨hfront, hv⟩)
  · exact tailOfText?_run h
  · exact tailOfText?_quad hfront hv

theorem SpellsRun.exists_plain (h : SpellsRun cs gs) :
    ∃ pieces, Plain pieces ∧ cs = [':'].intercalate pieces := by
  obtain ⟨pieces, hpieces, rfl⟩ := h
  exact ⟨pieces, plain_of_forall₂ hpieces, rfl⟩

theorem SpellsTail.exists_plain (h : SpellsTail cs gs) :
    ∃ pieces, Plain pieces ∧ cs = [':'].intercalate pieces := by
  cases h with
  | run h => exact h.exists_plain
  | quad hfront hv => exact ⟨_, plain_concat_quadText (plain_of_forall₂ hfront) _, rfl⟩

theorem groupsOfIpv6?_eq_some_iff : groupsOfIpv6? cs = some gs ↔ SpellsGroups cs gs := by
  constructor
  · intro h
    unfold groupsOfIpv6? at h
    split at h
    case h_1 =>
      obtain ⟨htail, hlength⟩ := Option.filter_eq_some_iff.mp h
      exact .full (tailOfText?_eq_some_iff.mp htail) (of_decide_eq_true hlength)
    case h_2 before after hsplit =>
      obtain ⟨front, hfront, h⟩ := Option.bind_eq_some_iff.mp h
      obtain ⟨back, hback, h⟩ := Option.bind_eq_some_iff.mp h
      obtain ⟨hlength, hgs⟩ := Option.ite_none_right_eq_some.mp h
      rw [eq_of_splitAtDouble?_eq_some hsplit, ← Option.some.inj hgs]
      exact .compressed (groupsOfText?_eq_some_iff.mp hfront) (tailOfText?_eq_some_iff.mp hback)
        hlength
  · rintro (⟨htail, hlength⟩ | ⟨hfront, hback, hlength⟩)
    case full =>
      obtain ⟨pieces, hplain, rfl⟩ := htail.exists_plain
      have hsplit := splitAtDouble?_intercalate_append hplain []
      rw [List.append_nil] at hsplit
      simp only [groupsOfIpv6?, hsplit, splitAtDouble?, Option.map_none,
        tailOfText?_eq_some_iff.mpr htail]
      simpa using hlength
    case compressed before after front back =>
      obtain ⟨pieces, hplain, rfl⟩ := hfront.exists_plain
      have hsplit := splitAtDouble?_intercalate_append hplain (':' :: ':' :: after)
      simp only [groupsOfIpv6?, hsplit, splitAtDouble?, and_self, if_true, Option.map_some,
        List.append_nil, groupsOfText?_eq_some_iff.mpr hfront, tailOfText?_eq_some_iff.mpr hback,
        bind, Option.bind_some, if_pos hlength]

/-! ## Addresses -/

theorem lt_of_forall₂ (h : List.Forall₂ SpellsGroup pieces gs) : ∀ g ∈ gs, g < 65536 := by
  induction h with
  | nil => simp
  | cons hfirst _ ih => exact List.forall_mem_cons.mpr ⟨hfirst.lt, ih⟩

theorem SpellsRun.lt (h : SpellsRun cs gs) : ∀ g ∈ gs, g < 65536 := by
  obtain ⟨pieces, hpieces, -⟩ := h
  exact lt_of_forall₂ hpieces

theorem SpellsTail.lt (h : SpellsTail cs gs) : ∀ g ∈ gs, g < 65536 := by
  cases h with
  | run h => exact h.lt
  | quad hfront hv =>
    rw [List.forall_mem_append]
    refine ⟨lt_of_forall₂ hfront, ?_⟩
    rw [Nat.pow_eq] at hv
    simp only [List.forall_mem_cons, List.not_mem_nil, false_implies, implies_true, and_true]
    omega

namespace SpellsGroups

variable (h : SpellsGroups cs gs)

include h

theorem length_eq : gs.length = 8 := by
  cases h with
  | full h hlength => exact hlength
  | compressed hfront hback hlength =>
    simp only [List.length_append, List.length_replicate]
    omega

theorem lt : ∀ g ∈ gs, g < 65536 := by
  cases h with
  | full h => exact h.lt
  | compressed hfront hback =>
    rw [List.forall_mem_append, List.forall_mem_append]
    refine ⟨⟨hfront.lt, fun g hg => ?_⟩, hback.lt⟩
    rw [List.eq_of_mem_replicate hg]
    decide

theorem colon_mem : ':' ∈ cs := by
  cases h with
  | full h hlength =>
    cases h with
    | run h =>
      obtain ⟨pieces, hpieces, rfl⟩ := h
      exact mem_intercalate (by have := hpieces.length_eq; omega)
    | quad hfront hv =>
      have hlengths := hfront.length_eq
      simp only [List.length_append, List.length_cons, List.length_nil] at hlength
      exact mem_intercalate (by rw [List.length_append]; omega)
  | compressed => simp

end SpellsGroups

theorem ipv4OfText?_eq_some_iff :
    ipv4OfText? cs = some a ↔ a.family = .ipv4 ∧ cs = quadText a.value := by
  simp only [ipv4OfText?, Option.map_eq_some_iff, quadOfText?_eq_some_iff]
  constructor
  · rintro ⟨v, ⟨hv, rfl⟩, rfl⟩
    exact ⟨rfl, congrArg quadText (Nat.mod_eq_of_lt hv).symm⟩
  · rintro ⟨hf, rfl⟩
    have hv := a.value_lt
    rw [hf] at hv
    exact ⟨a.value, ⟨hv, rfl⟩, ext hf.symm (Nat.mod_eq_of_lt hv)⟩

theorem ipv6OfText?_eq_some_iff :
    ipv6OfText? cs = some a ↔ a.family = .ipv6 ∧ SpellsGroups cs (groups a.value) := by
  simp only [ipv6OfText?, Option.map_eq_some_iff, groupsOfIpv6?_eq_some_iff]
  constructor
  · rintro ⟨gs, hgs, rfl⟩
    obtain ⟨hlt, hgroups⟩ := groups_ofGroups hgs.length_eq hgs.lt
    have hvalue : (ofNat .ipv6 (ofGroups gs)).value = ofGroups gs := Nat.mod_eq_of_lt hlt
    rw [hvalue, hgroups]
    exact ⟨rfl, hgs⟩
  · rintro ⟨hf, hgs⟩
    have hv := a.value_lt
    rw [hf] at hv
    refine ⟨groups a.value, hgs, ext hf.symm ?_⟩
    rw [ofGroups_groups hv]
    exact Nat.mod_eq_of_lt hv

/-- No text stands for addresses of both families. -/
theorem not_spellsGroups_quadText : ¬SpellsGroups (quadText v) gs :=
  fun h => not_mem_quadText rfl (by decide) v h.colon_mem

theorem ipv4OfText?_eq_none (h : SpellsGroups cs gs) : ipv4OfText? cs = none := by
  refine Option.eq_none_iff_forall_not_mem.mpr fun a ha => ?_
  rw [(ipv4OfText?_eq_some_iff.mp ha).2] at h
  exact not_spellsGroups_quadText h

theorem ipv6OfText?_quadText : ipv6OfText? (quadText v) = none :=
  Option.eq_none_iff_forall_not_mem.mpr fun _ ha =>
    not_spellsGroups_quadText (ipv6OfText?_eq_some_iff.mp ha).2

theorem ofText_eq_some_iff : (ipv4OfText? cs).or (ipv6OfText? cs) = some a ↔ Spells cs a := by
  constructor
  · intro h
    rcases Option.or_eq_some_iff.mp h with h | ⟨-, h⟩
    · obtain ⟨hf, rfl⟩ := ipv4OfText?_eq_some_iff.mp h
      exact .ipv4 hf
    · obtain ⟨hf, hgs⟩ := ipv6OfText?_eq_some_iff.mp h
      exact .ipv6 hf hgs
  · rintro (hf | ⟨hf, hgs⟩)
    · rw [ipv4OfText?_eq_some_iff.mpr ⟨hf, rfl⟩]
      rfl
    · rw [ipv4OfText?_eq_none hgs, ipv6OfText?_eq_some_iff.mpr ⟨hf, hgs⟩]
      rfl

/-- No text stands for two addresses. -/
theorem Spells.eq {b : Address} (ha : Spells cs a) (hb : Spells cs b) : a = b :=
  Option.some.inj ((ofText_eq_some_iff.mpr ha).symm.trans (ofText_eq_some_iff.mpr hb))

/-! ## Characters -/

/-- The characters that addresses are written with. -/
def IsAddressChar (c : Char) : Prop := (digitValue? c).isSome = true ∨ c = '.' ∨ c = ':'

theorem isAddressChar_of_mem_intercalate {sep : Char} (hsep : IsAddressChar sep)
    (h : ∀ piece ∈ pieces, ∀ c ∈ piece, IsAddressChar c) :
    ∀ c ∈ [sep].intercalate pieces, IsAddressChar c := by
  intro c hc
  rcases eq_or_exists_of_mem_intercalate hc with rfl | ⟨piece, hpiece, hc⟩
  · exact hsep
  · exact h piece hpiece c hc

theorem isAddressChar_of_mem_quadText : ∀ c ∈ quadText v, IsAddressChar c := by
  rw [quadText_eq]
  refine isAddressChar_of_mem_intercalate (.inr (.inl rfl)) fun piece hpiece c hc => ?_
  obtain ⟨n, -, rfl⟩ := List.mem_map.mp hpiece
  exact .inl (isSome_digitValue?_of_mem (natOfDigits?_digits (by decide) (by decide)) hc)

theorem isAddressChar_of_forall₂ (h : List.Forall₂ SpellsGroup pieces gs) :
    ∀ piece ∈ pieces, ∀ c ∈ piece, IsAddressChar c := by
  intro piece hpiece c hc
  obtain ⟨g, hg⟩ := exists_spellsGroup_of_mem h hpiece
  exact .inl (hg.isSome_digitValue? hc)

theorem SpellsRun.isAddressChar (h : SpellsRun cs gs) : ∀ c ∈ cs, IsAddressChar c := by
  obtain ⟨pieces, hpieces, rfl⟩ := h
  exact isAddressChar_of_mem_intercalate (.inr (.inr rfl)) (isAddressChar_of_forall₂ hpieces)

theorem SpellsTail.isAddressChar (h : SpellsTail cs gs) : ∀ c ∈ cs, IsAddressChar c := by
  cases h with
  | run h => exact h.isAddressChar
  | quad hfront =>
    refine isAddressChar_of_mem_intercalate (.inr (.inr rfl)) (List.forall_mem_append.mpr
      ⟨isAddressChar_of_forall₂ hfront, fun piece hpiece => ?_⟩)
    rw [List.mem_singleton.mp hpiece]
    exact isAddressChar_of_mem_quadText

theorem SpellsGroups.isAddressChar (h : SpellsGroups cs gs) : ∀ c ∈ cs, IsAddressChar c := by
  cases h with
  | full h => exact h.isAddressChar
  | compressed hfront hback =>
    rw [List.forall_mem_append, List.forall_mem_cons, List.forall_mem_cons]
    exact ⟨hfront.isAddressChar, .inr (.inr rfl), .inr (.inr rfl), hback.isAddressChar⟩

theorem Spells.isAddressChar (h : Spells cs a) : ∀ c ∈ cs, IsAddressChar c := by
  cases h with
  | ipv4 => exact isAddressChar_of_mem_quadText
  | ipv6 _ h => exact h.isAddressChar

theorem Spells.ne_nil (h : Spells cs a) : cs ≠ [] := by
  cases h with
  | ipv4 => exact List.ne_nil_of_mem (dot_mem_quadText a.value)
  | ipv6 _ h => exact List.ne_nil_of_mem h.colon_mem

/-! ## The written form -/

theorem exists_leadingZeros (gs : List Nat) :
    ∃ back, gs = List.replicate (leadingZeros gs) 0 ++ back := by
  refine ⟨gs.dropWhile (· = 0), ?_⟩
  have hzeros : gs.takeWhile (· = 0) = List.replicate (leadingZeros gs) 0 := by
    refine List.eq_replicate_iff.mpr ⟨rfl, fun g hg => ?_⟩
    exact of_decide_eq_true (List.all_eq_true.mp List.all_takeWhile g hg)
  rw [← hzeros, List.takeWhile_append_dropWhile]

/-- The run of zeros is where it is said to be. -/
theorem exists_longestZeroRun {start : Nat} (h : 0 < (longestZeroRun start gs).2) :
    ∃ front back, gs = front ++ List.replicate (longestZeroRun start gs).2 0 ++ back ∧
      (longestZeroRun start gs).1 = start + front.length := by
  induction gs generalizing start with
  | nil => cases h
  | cons g rest ih =>
    by_cases hhere : (longestZeroRun (start + 1) rest).2 ≤ leadingZeros (g :: rest)
    · obtain ⟨back, hback⟩ := exists_leadingZeros (g :: rest)
      have hrun : longestZeroRun start (g :: rest) = (start, leadingZeros (g :: rest)) :=
        if_pos hhere
      rw [hrun]
      exact ⟨[], back, hback, rfl⟩
    · have hrun : longestZeroRun start (g :: rest) = longestZeroRun (start + 1) rest :=
        if_neg hhere
      rw [hrun] at h ⊢
      obtain ⟨front, back, hgs, hposition⟩ := ih h
      refine ⟨g :: front, back, ?_, ?_⟩
      · rw [List.cons_append, List.cons_append, ← hgs]
      · rw [hposition, List.length_cons]
        omega

theorem spellsRun_groupsText (h : ∀ g ∈ gs, g < 65536) : SpellsRun (groupsText gs) gs :=
  ⟨gs.map (digits 16), List.forall₂_map_left_iff.mpr (List.forall₂_same.mpr fun g hg =>
    spellsGroup_digits (h g hg)), rfl⟩

theorem spellsGroups_compressedText (n : Nat) : SpellsGroups (compressedText n) (groups n) := by
  have hlt : ∀ g ∈ groups n, g < 65536 := fun g => lt_of_mem_groups
  unfold compressedText
  dsimp only
  split
  case isTrue => exact .full (.run (spellsRun_groupsText hlt)) rfl
  case isFalse hlong =>
    obtain ⟨front, back, hgs, hposition⟩ := exists_longestZeroRun (Nat.zero_lt_of_lt
      (Nat.lt_of_not_le hlong))
    generalize longestZeroRun 0 (groups n) = zeros at hgs hposition hlong ⊢
    have hlength := congrArg List.length hgs
    simp only [length_groups, List.length_append, List.length_replicate] at hlength
    have hzeros : zeros.2 = 8 - front.length - back.length := by omega
    have htake : (groups n).take zeros.1 = front := by simp [hgs, hposition]
    have hdrop : (groups n).drop (zeros.1 + zeros.2) = back := by
      rw [hgs, hposition]
      exact List.drop_left' (by simp)
    rw [htake, hdrop, List.append_assoc, hgs, hzeros]
    rw [hgs, List.forall_mem_append, List.forall_mem_append] at hlt
    exact .compressed (spellsRun_groupsText hlt.1.1) (.run (spellsRun_groupsText hlt.2)) (by omega)

/-- An address is among the things that its written form stands for. -/
theorem spells_chars (a : Address) : Spells a.chars a := by
  have hv := a.value_lt
  unfold chars
  split
  case h_1 hf => exact .ipv4 hf
  case h_2 hf =>
    refine .ipv6 hf ?_
    split
    case isFalse => exact spellsGroups_compressedText a.value
    case isTrue hmapped =>
      have hlow : a.value % Nat.pow 2 32 < Nat.pow 2 32 := Nat.mod_lt _ (by decide)
      have hgroups : groups a.value = List.replicate 5 0 ++ ([0xffff] ++
          [a.value % Nat.pow 2 32 / 65536, a.value % Nat.pow 2 32 % 65536]) := by
        simp only [groups, Nat.pow_eq, List.map_cons, List.map_nil, List.replicate,
          List.cons_append, List.nil_append, List.cons.injEq, and_true] at hmapped ⊢
        omega
      have htail := SpellsTail.quad (.cons (spellsGroup_digits (by decide : 0xffff < 65536)) .nil)
        hlow
      have htext : "::ffff:".toList ++ quadText (a.value % Nat.pow 2 32) =
          [] ++ ':' :: ':' :: [':'].intercalate ([digits 16 0xffff] ++
            [quadText (a.value % Nat.pow 2 32)]) := by
        have hmark : "::ffff:".toList = ':' :: ':' :: (digits 16 0xffff ++ [':']) := by decide
        simp [hmark]
      rw [hgroups, htext]
      exact .compressed ⟨[], .nil, rfl⟩ htail (by simp)

end IngressGuard.Address
