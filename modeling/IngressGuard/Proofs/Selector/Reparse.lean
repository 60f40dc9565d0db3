import IngressGuard.Proofs.Selector.Printing
import Mathlib.Algebra.Order.BigOperators.Group.List
import Mathlib.Algebra.Order.Ring.Nat
import Mathlib.Data.List.Perm.Subperm

/-!
# Which selectors are read back

A tree that was read is printed as a text that reads back as the tree if and only if no value
contains a single quote (`reparse_iff`).

That such a value is never read back is seen by counting double quotes.  A text has at least the
double quotes inside the values of the tree it stands for, and two more around each value with a
single quote (`Derives.weight_le`).  The printed form has only the ones inside (`count_chars`).
-/

namespace IngressGuard.Selector

open Reader

/-! ## Double quotes in texts -/

/-- The number of double quotes around a value that can stand between no other quotes. -/
def enclosing (v : String) : Nat := if '\'' ∈ v.toList then 2 else 0

/-- The least number of double quotes in a text of a value. -/
def weight (v : String) : Nat := v.toList.count '"' + enclosing v

/-- The least number of double quotes in a text of values. -/
def totalWeight (vs : List String) : Nat := (vs.map weight).sum

@[simp] theorem totalWeight_nil : totalWeight [] = 0 := rfl

@[simp] theorem totalWeight_cons (v : String) (vs : List String) :
    totalWeight (v :: vs) = weight v + totalWeight vs := by
  simp [totalWeight]

@[simp] theorem totalWeight_append (vs ws : List String) :
    totalWeight (vs ++ ws) = totalWeight vs + totalWeight ws := by
  simp [totalWeight]

theorem totalWeight_ofList_le (vs : List String) :
    totalWeight (TextSet.ofList vs).toList ≤ totalWeight vs := by
  have hnodup : (TextSet.ofList vs).toList.Nodup :=
    Std.ExtTreeSet.distinct_toList.imp fun h heq => h (by simp [heq])
  have hsub : (TextSet.ofList vs).toList ⊆ vs := by
    intro v hv
    rw [Std.ExtTreeSet.mem_toList, TextSet.ofList, Std.ExtTreeSet.mem_ofList] at hv
    exact List.contains_iff_mem.mp hv
  obtain ⟨ws, hperm, hsublist⟩ := hnodup.subperm hsub
  calc totalWeight (TextSet.ofList vs).toList = totalWeight ws := (hperm.symm.map weight).sum_nat
    _ ≤ totalWeight vs := (hsublist.map weight).sum_le_sum fun _ _ => Nat.zero_le _

theorem Word.count_le {word text rest : List Char} (h : Word word text rest) :
    word.count '"' + rest.count '"' ≤ text.count '"' := by
  obtain ⟨gap, -, rfl⟩ := h
  simp only [List.count_append]
  omega

theorem Value.weight_le {v : String} {text rest : List Char} (h : Value v text rest) :
    weight v + rest.count '"' ≤ text.count '"' := by
  obtain ⟨quote, hquote, hv, hword⟩ := h
  have hcount := hword.count_le
  suffices hweight : weight v ≤ (quote :: v.toList ++ [quote]).count '"' by omega
  rcases hquote with rfl | rfl
  · simp [weight, enclosing, hv]
  · have hnone : v.toList.count '"' = 0 := List.count_eq_zero.mpr hv
    simp only [weight, enclosing, hnone]
    split <;> simp

theorem MoreValues.weight_le {vs : List String} {text rest : List Char}
    (h : MoreValues vs text rest) : totalWeight vs + rest.count '"' ≤ text.count '"' := by
  induction h with
  | stop => simp
  | more comma value _ ih =>
    have hcomma := comma.count_le
    have hvalue := value.weight_le
    rw [totalWeight_cons]
    omega

theorem Values.weight_le {vs : TextSet} {text rest : List Char} (h : Values vs text rest) :
    totalWeight vs.toList + rest.count '"' ≤ text.count '"' := by
  cases h with
  | none opening closing =>
    have hopening := opening.count_le
    have hclosing := closing.count_le
    have hset := totalWeight_ofList_le []
    rw [totalWeight_nil] at hset
    omega
  | @some v vs _ _ _ _ _ opening first more closing =>
    have hopening := opening.count_le
    have hfirst := first.weight_le
    have hmore := more.weight_le
    have hclosing := closing.count_le
    have hset := totalWeight_ofList_le (v :: vs)
    rw [totalWeight_cons] at hset
    omega

theorem Leaf.weight_le {t : Selector} {text rest : List Char} (h : Leaf t text rest) :
    totalWeight t.values + rest.count '"' ≤ text.count '"' := by
  have hle : rest.count '"' ≤ text.count '"' := h.suffix.sublist.count_le _
  cases h with
  | all | has => simpa [values] using hle
  | eq key operator value | ne key operator value =>
    have hkey := key.1.count_le
    have hoperator := operator.count_le
    have hvalue := value.weight_le
    simp only [values, totalWeight_cons, totalWeight_nil]
    omega
  | isIn key operator set =>
    have hkey := key.1.count_le
    have hoperator := operator.count_le
    have hset := set.weight_le
    simp only [values]
    omega
  | notIn key negation _ operator set =>
    have hkey := key.1.count_le
    have hnegation := negation.count_le
    have hoperator := operator.count_le
    have hset := set.weight_le
    simp only [values]
    omega

/-- The least number of double quotes before what is left of a form. -/
def Form.weight : Form → Nat
  | .operand | .chain _ => 0
  | .more _ front => totalWeight front.values

theorem weight_part (o : Operator) : o.part.weight = 0 := by
  cases o <;> rfl

/-- A text has the double quotes of the values of the tree it stands for. -/
theorem Derives.weight_le {form : Form} {t : Selector} {n : Nat} {text rest : List Char}
    (h : Derives form t n text rest) :
    totalWeight t.values + rest.count '"' ≤ text.count '"' + form.weight := by
  induction h with
  | leaf leaf => exact leaf.weight_le
  | negation bang _ ih =>
    have hbang := bang.count_le
    simp only [values, Form.weight] at ih ⊢
    omega
  | group opening _ closing ih =>
    have hopening := opening.count_le
    have hclosing := closing.count_le
    simp only [Form.weight] at ih ⊢
    omega
  | @chain o _ _ _ _ _ _ _ _ _ ihFirst ihMore =>
    rw [weight_part] at ihFirst
    simp only [Form.weight] at ihMore ⊢
    omega
  | stop =>
    simp only [Form.weight]
    omega
  | @more o _ _ _ _ _ _ _ _ _ operator _ _ ihPart ihMore =>
    have hoperator := operator.count_le
    rw [weight_part] at ihPart
    simp only [Form.weight, values_join, totalWeight_append] at ihMore ⊢
    omega

/-! ## Double quotes in printed forms -/

theorem count_quotedChars (v : String) : (quotedChars v).count '"' = v.toList.count '"' := by
  simp [quotedChars]

theorem count_valuesChars (vs : TextSet) :
    (valuesChars vs).count '"' = (vs.toList.map fun v => v.toList.count '"').sum := by
  unfold valuesChars
  cases vs.toList with
  | nil => rfl
  | cons v others =>
    rw [List.map_cons, intercalate_cons]
    simp [List.count_flatten, Function.comp_def, count_quotedChars]

theorem count_key {k : String} (hk : ∀ c ∈ k.toList, isKeyChar c = true) :
    k.toList.count '"' = 0 := by
  rw [List.count_eq_zero]
  intro hmem
  exact absurd (hk _ hmem) (by decide)

/-- A printed tree has no double quotes but those inside its values. -/
theorem count_chars {t : Selector} (hkeys : t.WellKeyed) :
    t.chars.count '"' = (t.values.map fun v => v.toList.count '"').sum := by
  induction t with
  | all => rfl
  | has k | eq k _ | ne k _ | isIn k _ | notIn k _ =>
    have hkey := count_key (hkeys k (by simp [keys])).2
    simp [chars, values, hkey, count_quotedChars, count_valuesChars]
  | not t ih =>
    have hinner := ih hkeys
    simp [chars, values, hinner]
  | and l r ihl ihr | or l r ihl ihr =>
    obtain ⟨hleft, hright⟩ := List.forall_mem_append.mp hkeys
    simp [chars, values, ihl hleft, ihr hright]

/-! ## Reading back -/

/-- A tree whose printed form stands for it has no single quotes in its values. -/
theorem plain_of_derives {t : Selector} {n : Nat} {rest : List Char} (hkeys : t.WellKeyed)
    (h : Derives (.chain .or) t n t.chars rest) : ∀ v ∈ t.values, '\'' ∉ v.toList := by
  have hweight := h.weight_le
  have hsplit : totalWeight t.values = t.chars.count '"' + (t.values.map enclosing).sum := by
    rw [count_chars hkeys]
    exact List.sum_map_add
  have hnone : (t.values.map enclosing).sum = 0 := by
    simp only [Form.weight] at hweight
    omega
  intro v hv hquote
  have hzero : enclosing v = 0 :=
    List.sum_eq_zero_iff_forall_eq_nat.mp hnone _ (List.mem_map_of_mem hv)
  simp [enclosing, hquote] at hzero

/-- The printed form of a tree that was read is read as that tree if and only if no value contains
a single quote. -/
theorem reparse_iff {input : String} {t : Selector} (h : parse input = .ok t) :
    parse t.text = .ok t ↔ ∀ v ∈ t.values, '\'' ∉ v.toList := by
  obtain ⟨⟨n, rest, hderives, -⟩, hheight⟩ := denotes_of_parse h
  have hkeys : t.WellKeyed := hderives.wellKeyed nofun
  constructor
  · intro hparse
    obtain ⟨⟨m, after, hprinted, -⟩, -⟩ := denotes_of_parse hparse
    rw [text, String.toList_ofList] at hprinted
    exact plain_of_derives hkeys hprinted
  · intro hvalues
    have hprinted := (printable hkeys hvalues [] [] nofun).chain_or
    have hdenotes : Denotes t.text t (t.height - 1) := by
      refine ⟨[], ?_, nofun⟩
      rw [text, String.toList_ofList]
      simpa using hprinted
    rw [parse_of_denotes hdenotes, if_pos ⟨hheight, by omega⟩]

/-- Neither double quotes nor keys that look like operators keep a tree from being read back. -/
theorem reparse_iff_keywords :
    ∃ t, parse "!not in \x7b\"y\",'x','y'\x7d || has( in )" = .ok t ∧ parse t.text = .ok t := by
  have hread : parse "!not in \x7b\"y\",'x','y'\x7d || has( in )" =
      .ok (.or (.not (.isIn "not" (.ofList ["y", "x", "y"]))) (.has "in")) := by decide +kernel
  have hback := reparse_iff hread
  refine ⟨_, hread, hback.mpr ?_⟩
  decide +kernel

/-- A single quote between double quotes is printed between single quotes. -/
theorem not_every_selector_reparses : ¬∀ input t, parse input = .ok t → parse t.text = .ok t := by
  intro hall
  have hread : parse "a == \"it's\"" = .ok (.eq "a" "it's") := by decide +kernel
  have hback : parse (Selector.eq "a" "it's").text = .error (.malformed "a == 'it's'" 9) := by
    decide +kernel
  rw [hall _ _ hread] at hback
  cases hback

end IngressGuard.Selector
