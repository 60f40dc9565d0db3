import IngressGuard.Text.Digits
import Mathlib.Data.List.Induction

/-!
# Reading numerals back

The reader of numerals goes from the first digit to the last, and the digits of a number are made
from the last to the first.  So what the reader accepts is described from the end: a list of digits
names a number exactly if it is the digits of that number after some zeros, letters in either case
(`natOfDigits?_eq_some_iff`).  In decimal, where case is no matter, that is an equation between
texts (`natOfDigits?_ten_eq_some_iff`).
-/

namespace IngressGuard.Text

variable {base n d : Nat} {c : Char} {cs ds : List Char}

/-! ## Digits -/

theorem toNat_toLower (c : Char) :
    c.toLower.toNat = if 65 ≤ c.toNat ∧ c.toNat ≤ 90 then c.toNat + 32 else c.toNat := by
  unfold Char.toLower
  split
  case isTrue h =>
    have hupper : 65 ≤ c.toNat ∧ c.toNat ≤ 90 := h
    have hsum : (c.val + 32).toNat = c.toNat + 32 := by
      rw [UInt32.toNat_add]
      exact Nat.mod_eq_of_lt (Nat.lt_of_le_of_lt (Nat.add_le_add_right hupper.2 32) (by decide))
    rw [if_pos hupper]
    exact hsum
  case isFalse h =>
    have hother : ¬(65 ≤ c.toNat ∧ c.toNat ≤ 90) := h
    rw [if_neg hother]

theorem toNat_digitChar :
    ∀ d < 16, (Nat.digitChar d).toNat = if d < 10 then 48 + d else 87 + d := by
  decide

theorem digitValue?_eq_some_iff :
    digitValue? c = some d ↔ d < 16 ∧ c.toLower = Nat.digitChar d := by
  have hlower := toNat_toLower c
  have hle (x y : Char) : x ≤ y ↔ x.toNat ≤ y.toNat := Iff.rfl
  rw [← Char.toNat_inj, hlower]
  unfold digitValue?
  simp only [hle, Char.reduceToNat]
  by_cases hd : d < 16
  · rw [toNat_digitChar d hd]
    grind
  · grind

theorem digitOf?_eq_some_iff (hb : base ≤ 16) :
    digitOf? base c = some d ↔ d < base ∧ c.toLower = Nat.digitChar d := by
  simp only [digitOf?, Option.filter_eq_some_iff, digitValue?_eq_some_iff, decide_eq_true_eq]
  constructor
  · rintro ⟨⟨-, hc⟩, hd⟩
    exact ⟨hd, hc⟩
  · rintro ⟨hd, hc⟩
    exact ⟨⟨Nat.lt_of_lt_of_le hd hb, hc⟩, hd⟩

theorem digits_eq_single (h : d < base) : digits base d = [Nat.digitChar d] :=
  Nat.toDigits_of_lt_base h

@[simp] theorem digits_zero : digits base 0 = ['0'] := Nat.toDigits_zero base

theorem digits_concat (hb : 1 < base) (hn : 0 < n) (hd : d < base) :
    digits base (n * base + d) = digits base n ++ [Nat.digitChar d] := by
  rw [Nat.mul_comm, ← digits_eq_single hd]
  exact (Nat.toDigits_append_toDigits hb hn hd).symm

@[simp] theorem digits_ne_nil : digits base n ≠ [] := Nat.toDigits_ne_nil

/-! ## Accumulation -/

theorem accumulate?_append {m : Nat} :
    accumulate? base m (cs ++ ds) =
      (accumulate? base m cs).bind fun k => accumulate? base k ds := by
  induction cs generalizing m with
  | nil => rfl
  | cons c cs ih =>
    simp only [List.cons_append, accumulate?, bind]
    cases digitOf? base c with
    | none => rfl
    | some d => exact ih

theorem accumulate?_concat_eq_some_iff {m : Nat} :
    accumulate? base m (cs ++ [c]) = some n ↔
      ∃ k d, accumulate? base m cs = some k ∧ digitOf? base c = some d ∧ n = k * base + d := by
  rw [accumulate?_append]
  simp only [accumulate?, bind, Option.bind_eq_some_iff, Option.some.injEq]
  constructor
  · rintro ⟨k, hk, d, hd, rfl⟩
    exact ⟨k, d, hk, hd, rfl⟩
  · rintro ⟨k, d, hk, hd, rfl⟩
    exact ⟨k, hk, d, hd, rfl⟩

/-- A list of digits that ends in a given one names a number whose digits end in it, too. -/
theorem exists_zeros_concat_iff (hb : 1 < base) :
    (∃ k, cs ++ [c] = List.replicate k '0' ++ digits base n) ↔
      ∃ m d, (cs = [] ∧ m = 0 ∨ ∃ k, cs = List.replicate k '0' ++ digits base m) ∧
        (d < base ∧ c = Nat.digitChar d) ∧ n = m * base + d := by
  constructor
  · rintro ⟨k, h⟩
    by_cases hn : n < base
    · rw [digits_eq_single hn] at h
      obtain ⟨hcs, hc⟩ := List.append_inj' h rfl
      refine ⟨0, n, ?_, ⟨hn, List.singleton_inj.mp hc⟩, by omega⟩
      cases k with
      | zero => exact .inl ⟨hcs, rfl⟩
      | succ k => exact .inr ⟨k, by rw [hcs, digits_zero, List.replicate_succ']⟩
    · have hsplit : digits base n = digits base (n / base) ++ [Nat.digitChar (n % base)] :=
        Nat.toDigits_of_base_le hb (Nat.le_of_not_lt hn)
      rw [hsplit, ← List.append_assoc] at h
      obtain ⟨hcs, hc⟩ := List.append_inj' h rfl
      exact ⟨n / base, n % base, .inr ⟨k, hcs⟩,
        ⟨Nat.mod_lt _ (by omega), List.singleton_inj.mp hc⟩, (Nat.div_add_mod' n base).symm⟩
  · rintro ⟨m, d, hcs, ⟨hd, rfl⟩, rfl⟩
    rcases hcs with ⟨rfl, rfl⟩ | ⟨k, rfl⟩
    · exact ⟨0, by rw [Nat.zero_mul, Nat.zero_add, digits_eq_single hd]; rfl⟩
    · rcases Nat.eq_zero_or_pos m with rfl | hm
      · refine ⟨k + 1, ?_⟩
        rw [Nat.zero_mul, Nat.zero_add, digits_eq_single hd, digits_zero, List.replicate_succ']
      · exact ⟨k, by rw [digits_concat hb hm hd, List.append_assoc]⟩

/-- No digits at all name zero; else what follows the leading zeros are the digits of the
number. -/
theorem accumulate?_zero_eq_some_iff (hb : 1 < base) (hb' : base ≤ 16) :
    accumulate? base 0 cs = some n ↔
      cs = [] ∧ n = 0 ∨ ∃ k, cs.map Char.toLower = List.replicate k '0' ++ digits base n := by
  induction cs using List.reverseRecOn generalizing n with
  | nil =>
    have hdigits : ¬∃ k, [].map Char.toLower = List.replicate k '0' ++ digits base n := by simp
    rw [or_iff_left hdigits, accumulate?, Option.some.injEq]
    exact ⟨fun h => ⟨rfl, h.symm⟩, fun h => h.2.symm⟩
  | append_singleton cs c ih =>
    have hsome : ¬(cs ++ [c] = [] ∧ n = 0) := by simp
    rw [accumulate?_concat_eq_some_iff, or_iff_right hsome, List.map_append, List.map_cons,
      List.map_nil, exists_zeros_concat_iff hb]
    simp only [ih, digitOf?_eq_some_iff hb', List.map_eq_nil_iff]

theorem natOfDigits?_eq_some_iff (hb : 1 < base) (hb' : base ≤ 16) :
    natOfDigits? base cs = some n ↔
      ∃ k, cs.map Char.toLower = List.replicate k '0' ++ digits base n := by
  cases cs with
  | nil => simp [natOfDigits?]
  | cons c cs => simp [natOfDigits?, accumulate?_zero_eq_some_iff hb hb']

/-! ## Decimals -/

theorem isDigit_of_mem_digits (h : c ∈ digits 10 n) : c.isDigit = true :=
  Nat.isDigit_of_mem_toDigits (by decide) (by decide) h

theorem isDigit_of_mem_zeros_digits {k : Nat} (h : c ∈ List.replicate k '0' ++ digits 10 n) :
    c.isDigit = true := by
  rcases List.mem_append.mp h with hzero | h
  · rw [List.eq_of_mem_replicate hzero]
    rfl
  · exact isDigit_of_mem_digits h

theorem toLower_eq_iff_of_isDigit {d : Char} (h : d.isDigit = true) : c.toLower = d ↔ c = d := by
  have hrange : 48 ≤ d.toNat ∧ d.toNat ≤ 57 := Char.isDigit_iff_toNat.mp h
  rw [← Char.toNat_inj, toNat_toLower, ← Char.toNat_inj]
  grind

theorem map_toLower_eq_iff (h : ∀ d ∈ ds, d.isDigit = true) :
    cs.map Char.toLower = ds ↔ cs = ds := by
  induction ds generalizing cs with
  | nil => simp
  | cons d ds ih =>
    cases cs with
    | nil => simp
    | cons c cs =>
      obtain ⟨hd, hds⟩ := List.forall_mem_cons.mp h
      rw [List.map_cons, List.cons.injEq, List.cons.injEq, toLower_eq_iff_of_isDigit hd, ih hds]

theorem natOfDigits?_ten_eq_some_iff :
    natOfDigits? 10 cs = some n ↔ ∃ k, cs = List.replicate k '0' ++ digits 10 n := by
  rw [natOfDigits?_eq_some_iff (by decide) (by decide)]
  exact exists_congr fun k => map_toLower_eq_iff fun d => isDigit_of_mem_zeros_digits

/-- The texts of a number that may have a plus sign and leading zeros. -/
def SpellsDecimal (cs : List Char) (n : Nat) : Prop :=
  ∃ sign k, (sign = [] ∨ sign = ['+']) ∧ cs = sign ++ List.replicate k '0' ++ digits 10 n

theorem SpellsDecimal.isDigit_or_eq (h : SpellsDecimal cs n) (hc : c ∈ cs) :
    c.isDigit = true ∨ c = '+' := by
  obtain ⟨sign, k, rfl | rfl, rfl⟩ := h
  · exact .inl (isDigit_of_mem_zeros_digits hc)
  · exact (List.mem_cons.mp hc).symm.imp_left isDigit_of_mem_zeros_digits

theorem boundedNat?_eq_some_iff {bound : Nat} :
    boundedNat? bound cs = some n ↔ n ≤ bound ∧ SpellsDecimal cs n := by
  unfold boundedNat?
  split
  case h_1 rest =>
    simp only [Option.filter_eq_some_iff, natOfDigits?_ten_eq_some_iff, decide_eq_true_eq]
    constructor
    · rintro ⟨⟨k, rfl⟩, hn⟩
      exact ⟨hn, ['+'], k, .inr rfl, rfl⟩
    · rintro ⟨hn, sign, k, rfl | rfl, h⟩
      · exact absurd (isDigit_of_mem_zeros_digits (h ▸ List.mem_cons_self)) (by decide)
      · exact ⟨⟨k, (List.cons.inj h).2⟩, hn⟩
  case h_2 hplain =>
    simp only [Option.filter_eq_some_iff, natOfDigits?_ten_eq_some_iff, decide_eq_true_eq]
    constructor
    · rintro ⟨⟨k, rfl⟩, hn⟩
      exact ⟨hn, [], k, .inl rfl, rfl⟩
    · rintro ⟨hn, sign, k, rfl | rfl, h⟩
      · exact ⟨⟨k, h⟩, hn⟩
      · exact absurd h (hplain _)

theorem head?_digits_ne_zero (hn : 0 < n) : (digits 10 n).head? ≠ some '0' := by
  induction n using Nat.strongRecOn with
  | ind n ih =>
    rw [digits, Nat.toDigits_eq_if (by decide)]
    split
    · simp
      omega
    · rw [List.head?_append, Option.or_of_isSome (by simp)]
      exact ih (n / 10) (by omega) (by omega)

/-! ## Characters -/

theorem toLower_digitChar : ∀ d < 16, (Nat.digitChar d).toLower = Nat.digitChar d := by decide

theorem map_toLower_digits (hb : 1 < base) (hb' : base ≤ 16) :
    (digits base n).map Char.toLower = digits base n := by
  induction n using Nat.strongRecOn with
  | ind n ih =>
    rw [digits, Nat.toDigits_eq_if hb]
    split
    case isTrue hn => simp [toLower_digitChar n (by omega)]
    case isFalse hn =>
      have hlast : n % base < 16 := Nat.lt_of_lt_of_le (Nat.mod_lt n (by omega)) hb'
      rw [List.map_append, List.map_singleton, toLower_digitChar _ hlast]
      exact congrArg (· ++ _) (ih (n / base) (Nat.div_lt_self (by omega) hb))

theorem natOfDigits?_digits (hb : 1 < base) (hb' : base ≤ 16) :
    natOfDigits? base (digits base n) = some n :=
  (natOfDigits?_eq_some_iff hb hb').mpr ⟨0, map_toLower_digits hb hb'⟩

theorem isSome_digitValue?_of_accumulate? {m : Nat} (h : accumulate? base m cs = some n)
    (hc : c ∈ cs) : (digitValue? c).isSome = true := by
  induction cs generalizing m with
  | nil => cases hc
  | cons c' cs ih =>
    obtain ⟨d, hd, hrest⟩ := Option.bind_eq_some_iff.mp h
    rcases List.mem_cons.mp hc with rfl | hc
    · exact Option.isSome_of_mem (Option.filter_eq_some_iff.mp hd).1
    · exact ih hrest hc

theorem isSome_digitValue?_of_mem (h : natOfDigits? base cs = some n) (hc : c ∈ cs) :
    (digitValue? c).isSome = true := by
  cases cs with
  | nil => cases h
  | cons c' cs => exact isSome_digitValue?_of_accumulate? h hc

theorem toNat_of_isSome_digitValue? (h : (digitValue? c).isSome = true) :
    48 ≤ c.toNat ∧ c.toNat ≤ 102 := by
  have hle (x y : Char) : x ≤ y ↔ x.toNat ≤ y.toNat := Iff.rfl
  unfold digitValue? at h
  simp only [hle, Char.reduceToNat] at h
  grind

theorem not_mem_digits (hb : 1 < base) (hb' : base ≤ 16) (hc : digitValue? c = none) :
    c ∉ digits base n := by
  intro hmem
  have hsome := isSome_digitValue?_of_mem (natOfDigits?_digits hb hb') hmem
  simp [hc] at hsome

end IngressGuard.Text
