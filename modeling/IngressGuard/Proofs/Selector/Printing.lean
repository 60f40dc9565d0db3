import IngressGuard.Proofs.Selector.Parser

/-!
# What printed selectors stand for

A selector is printed with single quotes around its values, whatever quotes it was read with.  As
long as no value contains a single quote, the text of a tree stands for it (`printable`).  Every
conjunction, disjunction and negation costs one parenthesis or negation, so no more of them are
open at once than the tree is high, and a tree within the limits is printed within the limits.

The keys have to be runs of key characters.  Those of a tree that a text stands for are
(`Derives.wellKeyed`).
-/

namespace IngressGuard.Selector

open Reader

/-! ## Keys and values -/

/-- The label keys in a selector. -/
def keys : Selector → List String
  | all => []
  | has k | eq k _ | ne k _ | isIn k _ | notIn k _ => [k]
  | not inner => inner.keys
  | and left right | or left right => left.keys ++ right.keys

/-- The values in a selector. -/
def values : Selector → List String
  | all | has _ => []
  | eq _ v | ne _ v => [v]
  | isIn _ vs | notIn _ vs => vs.toList
  | not inner => inner.values
  | and left right | or left right => left.values ++ right.values

theorem keys_join (o : Operator) (l r : Selector) : (o.join l r).keys = l.keys ++ r.keys := by
  cases o <;> rfl

theorem values_join (o : Operator) (l r : Selector) :
    (o.join l r).values = l.values ++ r.values := by
  cases o <;> rfl

/-- Every key of a selector is a run of key characters. -/
def WellKeyed (t : Selector) : Prop :=
  ∀ k ∈ t.keys, k.toList ≠ [] ∧ ∀ c ∈ k.toList, isKeyChar c = true

theorem wellKeyed_join {o : Operator} {l r : Selector} (hl : l.WellKeyed) (hr : r.WellKeyed) :
    (o.join l r).WellKeyed := by
  intro k hk
  rw [keys_join, List.mem_append] at hk
  exact hk.elim (hl k) (hr k)

theorem Leaf.wellKeyed {t : Selector} {text rest : List Char} (h : Leaf t text rest) :
    t.WellKeyed := by
  have hsingle : ∀ {k text rest}, Key k text rest →
      ∀ k' ∈ [k], k'.toList ≠ [] ∧ ∀ c ∈ k'.toList, isKeyChar c = true := by
    intro k text rest hkey k' hk'
    rw [List.mem_singleton.mp hk']
    exact ⟨hkey.2.1, hkey.2.2.1⟩
  cases h with
  | all => exact nofun
  | has _ _ key | eq key | ne key | isIn key | notIn key => exact hsingle key

theorem Derives.wellKeyed {form : Form} {t : Selector} {n : Nat} {text rest : List Char}
    (h : Derives form t n text rest) (hfront : ∀ o front, form = .more o front → front.WellKeyed) :
    t.WellKeyed := by
  induction h with
  | leaf leaf => exact leaf.wellKeyed
  | negation _ _ ih => exact ih nofun
  | group _ _ _ ih => exact ih nofun
  | @chain o _ _ _ _ _ _ _ _ _ ihFirst ihMore =>
    refine ihMore ?_
    rintro _ _ ⟨⟩
    refine ihFirst ?_
    cases o <;> exact nofun
  | stop => exact hfront _ _ rfl
  | @more o front next _ _ _ _ _ _ _ _ _ _ ihPart ihMore =>
    refine ihMore ?_
    rintro _ _ ⟨⟩
    refine wellKeyed_join (hfront o front rfl) (ihPart ?_)
    cases o <;> exact nofun

/-! ## Printing -/

theorem Derives.congr {form : Form} {t : Selector} {n n' : Nat} {text text' rest : List Char}
    (h : Derives form t n text rest) (hn : n = n') (htext : text = text') :
    Derives form t n' text' rest := by
  rw [← hn, ← htext]
  exact h

theorem height_pos (t : Selector) : 0 < t.height := by
  cases t <;> simp [height]

theorem key_printed {k : String}
    (hk : k.toList ≠ [] ∧ ∀ c ∈ k.toList, isKeyChar c = true) {gap text rest : List Char}
    (hgap : ∀ c ∈ gap, isGap c = true) (htext : text = gap ++ k.toList ++ ' ' :: rest) :
    Key k text (' ' :: rest) := by
  refine ⟨⟨gap, hgap, htext⟩, hk.1, hk.2, ?_⟩
  rintro _ ⟨⟩
  rfl

theorem value_quoted {v : String} (hv : '\'' ∉ v.toList) {gap rest : List Char}
    (hgap : ∀ c ∈ gap, isGap c = true) : Value v (gap ++ quotedChars v ++ rest) rest :=
  ⟨'\'', .inl rfl, hv, gap, hgap, rfl⟩

theorem moreValues_printed {vs : List String} (hvs : ∀ v ∈ vs, '\'' ∉ v.toList)
    (rest : List Char) :
    MoreValues vs ((vs.map fun v => [',', ' '] ++ quotedChars v).flatten ++ rest) rest := by
  induction vs with
  | nil => exact .stop
  | cons v vs ih =>
    have hgap : ∀ c ∈ [' '], isGap c = true := List.all_eq_true.mp rfl
    have hv : '\'' ∉ v.toList := hvs v List.mem_cons_self
    have hmore := ih fun v' hv' => hvs v' (List.mem_cons_of_mem v hv')
    exact .more ⟨[], nofun, by simp⟩ (value_quoted hv hgap) hmore

theorem intercalate_cons {sep : List Char} (first : List Char) (others : List (List Char)) :
    List.intercalate sep (first :: others) = first ++ (others.map (sep ++ ·)).flatten := by
  induction others generalizing first with
  | nil => simp
  | cons next others ih => rw [List.intercalate_cons_cons, ih]; simp

theorem ofList_toList (vs : TextSet) : TextSet.ofList vs.toList = vs := by
  refine Std.ExtTreeSet.ext_mem fun v => ?_
  rw [TextSet.ofList, Std.ExtTreeSet.mem_ofList, List.contains_iff_mem, Std.ExtTreeSet.mem_toList]

theorem values_printed {vs : TextSet} (hvs : ∀ v ∈ vs.toList, '\'' ∉ v.toList)
    {gap rest : List Char} (hgap : ∀ c ∈ gap, isGap c = true) :
    Values vs (gap ++ valuesChars vs ++ rest) rest := by
  have hset := ofList_toList vs
  unfold valuesChars
  cases hlist : vs.toList with
  | nil =>
    rw [← hset, hlist]
    have hclosing : Word ['\x7d'] ('\x7d' :: rest) rest := ⟨[], nofun, rfl⟩
    exact .none ⟨gap, hgap, by simp⟩ hclosing
  | cons v others =>
    have hfirst : '\'' ∉ v.toList := hvs v (by simp [hlist])
    have hothers : ∀ v' ∈ others, '\'' ∉ v'.toList := fun v' hv' => hvs v' (by simp [hlist, hv'])
    have hnone : ∀ c ∈ ([] : List Char), isGap c = true := nofun
    rw [← hset, hlist, List.map_cons, intercalate_cons, List.map_map]
    refine .some ⟨gap, hgap, ?_⟩ (value_quoted hfirst hnone)
      (moreValues_printed hothers ('\x7d' :: rest)) ⟨[], nofun, rfl⟩
    simp [Function.comp_def]

/-- An operand is what either operator joins. -/
theorem Derives.part {t : Selector} {n : Nat} {text rest : List Char}
    (h : Derives .operand t n text rest) (o : Operator) : Derives o.part t n text rest := by
  cases o with
  | and => exact h
  | or =>
    have hand : Derives (.chain .and) t (max n 0) text rest := .chain h .stop
    exact hand.congr (Nat.max_zero n) rfl

/-- Two operands with an operator between them. -/
theorem Derives.pair {o : Operator} {l r : Selector} {m n : Nat} {text r₁ r₂ rest : List Char}
    (hl : Derives .operand l m text r₁) (operator : Word o.word r₁ r₂)
    (hr : Derives .operand r n r₂ rest) :
    Derives (.chain .or) (o.join l r) (max m n) text rest := by
  have hchain : Derives (.chain o) (o.join l r) (max m (max n 0)) text rest :=
    .chain (hl.part o) (.more operator (hr.part o) .stop)
  rw [Nat.max_zero] at hchain
  cases o with
  | or => exact hchain
  | and =>
    have hor : Derives (.chain .or) (.and l r) (max (max m n) 0) text rest := .chain hchain .stop
    exact hor.congr (Nat.max_zero _) rfl

theorem chars_join (o : Operator) (l r : Selector) :
    (o.join l r).chars = '(' :: l.chars ++ ' ' :: o.word ++ ' ' :: r.chars ++ [')'] := by
  cases o <;> simp [Operator.join, Operator.word, chars]

/-- A tree whose printed form stands for it wherever it is written. -/
def Printable (t : Selector) : Prop :=
  ∀ gap rest, (∀ c ∈ gap, isGap c = true) →
    Derives .operand t (t.height - 1) (gap ++ t.chars ++ rest) rest

theorem Printable.join {o : Operator} {l r : Selector} (hl : l.Printable) (hr : r.Printable) :
    (o.join l r).Printable := by
  intro gap rest hgap
  have hnone : ∀ c ∈ ([] : List Char), isGap c = true := nofun
  have hblank : ∀ c ∈ [' '], isGap c = true := List.all_eq_true.mp rfl
  have hpair := (hl [] (' ' :: o.word ++ ([' '] ++ r.chars ++ ')' :: rest)) hnone).pair
    ⟨[' '], hblank, rfl⟩ (hr [' '] (')' :: rest) hblank)
  have hgroup : Derives .operand (o.join l r) _ (gap ++ ['('] ++ _) rest :=
    .group ⟨gap, hgap, rfl⟩ hpair ⟨[], nofun, rfl⟩
  refine hgroup.congr ?_ ?_
  · have hleft := height_pos l
    have hright := height_pos r
    rw [height_join]
    omega
  · simp [chars_join]

theorem Printable.not {t : Selector} (h : t.Printable) : t.not.Printable := by
  intro gap rest hgap
  have hnegation : Derives .operand t.not _ (gap ++ ['!'] ++ _) rest :=
    .negation ⟨gap, hgap, rfl⟩ (h [] rest nofun)
  refine hnegation.congr ?_ ?_
  · exact Nat.sub_add_cancel (height_pos t)
  · simp [chars]

theorem printable_of_leaf {t : Selector}
    (h : ∀ gap rest, (∀ c ∈ gap, isGap c = true) → Leaf t (gap ++ t.chars ++ rest) rest) :
    t.Printable := by
  intro gap rest hgap
  have hleaf := h gap rest hgap
  refine Derives.congr (.leaf hleaf) ?_ rfl
  rw [hleaf.height_eq]

/-- A tree of label keys and values without single quotes is printed as a text that stands for it,
and no more parentheses and negations are open at once than the tree is high. -/
theorem printable {t : Selector} (hkeys : t.WellKeyed) (hvalues : ∀ v ∈ t.values, '\'' ∉ v.toList) :
    t.Printable := by
  have hblank : ∀ c ∈ [' '], isGap c = true := List.all_eq_true.mp rfl
  induction t with
  | all =>
    refine printable_of_leaf fun gap rest hgap => ?_
    exact .all ⟨gap, hgap, by simp [chars]⟩ ⟨[], nofun, rfl⟩ ⟨[], nofun, rfl⟩
  | has k =>
    obtain ⟨hne, hchars⟩ := hkeys k (by simp [keys])
    refine printable_of_leaf fun gap rest hgap => ?_
    refine .has ⟨gap, hgap, ?_⟩ ⟨[], nofun, rfl⟩ ⟨⟨[], nofun, rfl⟩, hne, hchars, ?_⟩
      ⟨[], nofun, rfl⟩
    · simp [chars]
    · rintro _ ⟨⟩
      rfl
  | eq k v =>
    have hv := hvalues v (by simp [values])
    refine printable_of_leaf fun gap rest hgap => ?_
    exact .eq (key_printed (hkeys k (by simp [keys])) hgap (by simp [chars]))
      ⟨[' '], hblank, rfl⟩ (value_quoted hv hblank)
  | ne k v =>
    have hv := hvalues v (by simp [values])
    refine printable_of_leaf fun gap rest hgap => ?_
    exact .ne (key_printed (hkeys k (by simp [keys])) hgap (by simp [chars]))
      ⟨[' '], hblank, rfl⟩ (value_quoted hv hblank)
  | isIn k vs =>
    refine printable_of_leaf fun gap rest hgap => ?_
    exact .isIn (key_printed (hkeys k (by simp [keys])) hgap (by simp [chars]))
      ⟨[' '], hblank, rfl⟩ (values_printed hvalues hblank)
  | notIn k vs =>
    refine printable_of_leaf fun gap rest hgap => ?_
    exact .notIn (key_printed (hkeys k (by simp [keys])) hgap (by simp [chars]))
      ⟨[' '], hblank, rfl⟩ ⟨' ', rfl, rfl⟩ ⟨[' '], hblank, rfl⟩ (values_printed hvalues hblank)
  | not t ih => exact (ih hkeys hvalues).not
  | and l r ihl ihr =>
    obtain ⟨hkeysLeft, hkeysRight⟩ := List.forall_mem_append.mp hkeys
    obtain ⟨hvaluesLeft, hvaluesRight⟩ := List.forall_mem_append.mp hvalues
    exact Printable.join (o := .and) (ihl hkeysLeft hvaluesLeft) (ihr hkeysRight hvaluesRight)
  | or l r ihl ihr =>
    obtain ⟨hkeysLeft, hkeysRight⟩ := List.forall_mem_append.mp hkeys
    obtain ⟨hvaluesLeft, hvaluesRight⟩ := List.forall_mem_append.mp hvalues
    exact Printable.join (o := .or) (ihl hkeysLeft hvaluesLeft) (ihr hkeysRight hvaluesRight)

end IngressGuard.Selector
