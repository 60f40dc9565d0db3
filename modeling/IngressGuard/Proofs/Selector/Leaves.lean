import IngressGuard.Proofs.Selector.Grammar

/-!
# Reading tokens, sets and leaves

The readers below trees agree with the grammar: each one succeeds exactly on the texts that the
grammar's relation describes, and leaves over what that relation leaves over, up to gaps.  The
readers of leaves are tried one after the other, so a text that is one kind of leaf must not be
read as another kind first: `all` and `has` are keys as well.
-/

namespace IngressGuard.Selector

open Reader

/-! ## Tokens -/

theorem literal_dropGaps_iff {w text rest : List Char} (hw : isToken w = true) :
    literal w (dropGaps text) = .ok ((), rest) ↔ Word w text rest := by
  rw [literal_eq_ok, word_iff hw]

theorem padded_literal_iff {w text final : List Char} (hw : isToken w = true) :
    padded (literal w) text = .ok ((), final) ↔ ∃ rest, Word w text rest ∧ final = dropGaps rest := by
  simp only [padded_eq_ok, literal_dropGaps_iff hw]

theorem key_iff {k : String} {text rest : List Char} :
    key (dropGaps text) = .ok (k, rest) ↔ Key k text rest := by
  unfold key Key
  rw [map_eq_ok]
  constructor
  · rintro ⟨word, hword, rfl⟩
    obtain ⟨hrun, hne⟩ := run1_eq_ok hword
    obtain ⟨htext, hchars, hrest⟩ := run_eq_ok hrun
    rw [String.toList_ofList]
    refine ⟨?_, hne, hchars, hrest⟩
    have htoken := isToken_key (k := String.ofList word)
    rw [String.toList_ofList] at htoken
    exact (word_iff (htoken hne hchars)).mpr htext
  · rintro ⟨hword, hne, hchars, hrest⟩
    refine ⟨k.toList, ?_, String.ofList_toList⟩
    rw [(word_iff (isToken_key hne hchars)).mp hword]
    exact run1_of_run (run_append hchars hrest) hne

theorem valueIn_iff {quote : Char} {v : String} {text rest : List Char}
    (hquote : quote = '\'' ∨ quote = '"') :
    valueIn quote (dropGaps text) = .ok (v, rest) ↔
      quote ∉ v.toList ∧ Word (quote :: v.toList ++ [quote]) text rest := by
  unfold valueIn
  rw [skipThen_eq_ok]
  constructor
  · rintro ⟨_, r₁, hopen, hvalue⟩
    obtain ⟨r₂, _, hrun, hclose⟩ := thenSkip_eq_ok.mp hvalue
    obtain ⟨word, hword, rfl⟩ := map_eq_ok.mp hrun
    obtain ⟨hr₁, hchars, -⟩ := run_eq_ok hword
    rw [literal_eq_ok] at hopen hclose
    rw [String.toList_ofList]
    refine ⟨fun hmem => by simpa using hchars quote hmem, ?_⟩
    rw [List.cons_append, word_iff (isToken_quoted hquote _), hopen, hr₁, hclose]
    simp
  · rintro ⟨hv, hword⟩
    rw [List.cons_append, word_iff (isToken_quoted hquote _)] at hword
    refine ⟨(), v.toList ++ [quote] ++ rest, literal_eq_ok.mpr hword, ?_⟩
    have hrun : run (· != quote) (v.toList ++ ([quote] ++ rest)) =
        .ok (v.toList, [quote] ++ rest) := by
      refine run_append (fun c hc => ?_) (by simp)
      have hne : c ≠ quote := fun h => hv (h ▸ hc)
      simpa using hne
    rw [List.append_assoc]
    refine thenSkip_of_ok ((map_of_ok hrun).trans ?_) (literal_append ..)
    rw [String.ofList_toList]

theorem valueIn_misfit {quote : Char} {input : List Char} (h : input.head? ≠ some quote) :
    valueIn quote input = .error (.misfit input) :=
  skipThen_of_error (literal_misfit rfl h)

theorem value_iff {v : String} {text rest : List Char} :
    value (dropGaps text) = .ok (v, rest) ↔ Value v text rest := by
  constructor
  · intro h
    rcases of_orElse_eq_ok h with h | h
    · obtain ⟨hv, hword⟩ := (valueIn_iff (.inl rfl)).mp h
      exact ⟨_, .inl rfl, hv, hword⟩
    · obtain ⟨hv, hword⟩ := (valueIn_iff (.inr rfl)).mp h
      exact ⟨_, .inr rfl, hv, hword⟩
  · rintro ⟨quote, rfl | rfl, hv, hword⟩
    · exact orElse_of_ok ((valueIn_iff (.inl rfl)).mpr ⟨hv, hword⟩)
    · have hother : valueIn '\'' (dropGaps text) = .error (.misfit (dropGaps text)) := by
        refine valueIn_misfit ?_
        rw [hword.head?_eq rfl]
        simp
      rw [value, orElse_of_misfit hother]
      exact (valueIn_iff (.inr rfl)).mpr ⟨hv, hword⟩

theorem value_misfit {input : List Char} (h : input.head? ≠ some '\'')
    (h' : input.head? ≠ some '"') : value input = .error (.misfit input) := by
  rw [value, orElse_of_misfit (valueIn_misfit h)]
  exact valueIn_misfit h'

/-! ## Sets of values -/

/-- Reads a comma and a value. -/
abbrev nextValue : Reader String := (padded (literal [','])).skipThen value

theorem nextValue_iff {v : String} {text rest : List Char} :
    nextValue text = .ok (v, rest) ↔ ∃ r, Word [','] text r ∧ Value v r rest := by
  rw [skipThen_eq_ok]
  constructor
  · rintro ⟨_, _, hcomma, hvalue⟩
    obtain ⟨r, hword, rfl⟩ := (padded_literal_iff rfl).mp hcomma
    exact ⟨r, hword, value_iff.mp hvalue⟩
  · rintro ⟨r, hword, hvalue⟩
    refine ⟨(), dropGaps r, ?_, value_iff.mpr hvalue⟩
    exact (padded_literal_iff rfl).mpr ⟨r, hword, rfl⟩

theorem moreValues_of_many {vs : List String} {text rest : List Char}
    (h : many nextValue text = .ok (vs, rest)) : MoreValues vs text rest := by
  induction vs generalizing text with
  | nil =>
    obtain ⟨-, rfl⟩ | ⟨_, _, _, hcons, -⟩ := many_eq_ok h
    · exact .stop
    · cases hcons
  | cons v vs ih =>
    obtain ⟨hnil, -⟩ | ⟨_, _, _, hcons, hvalue, hmany⟩ := many_eq_ok h
    · cases hnil
    · cases hcons
      obtain ⟨r, hcomma, hv⟩ := nextValue_iff.mp hvalue
      exact .more hcomma hv (ih hmany)

theorem many_of_moreValues {vs : List String} {text rest : List Char} (h : MoreValues vs text rest)
    (hrest : (dropGaps rest).head? ≠ some ',') : many nextValue text = .ok (vs, rest) := by
  induction h with
  | stop => exact many_of_misfit (skipThen_of_error (padded_of_error (literal_misfit rfl hrest)))
  | more comma value more ih =>
    rw [many_of_ok (nextValue_iff.mpr ⟨_, comma, value⟩)
      (Nat.lt_trans value.length_lt (comma.length_lt rfl))]
    exact map_of_ok (ih hrest)

theorem sepBy_value_iff {vs : List String} {text final : List Char}
    (hfinal : (dropGaps final).head? = some '\x7d') :
    sepBy value (padded (literal [','])) (dropGaps text) = .ok (vs, final) ↔
      (vs = [] ∧ final = dropGaps text) ∨
        ∃ v vs' r, vs = v :: vs' ∧ Value v text r ∧ MoreValues vs' r final := by
  have hcomma : (dropGaps final).head? ≠ some ',' := by rw [hfinal]; decide
  constructor
  · intro h
    rcases of_orElse_eq_ok h with h | h
    · obtain ⟨v, r, hvalue, hmore⟩ := andThen_eq_ok.mp h
      obtain ⟨vs', hmany, rfl⟩ := map_eq_ok.mp hmore
      exact .inr ⟨v, vs', r, rfl, value_iff.mp hvalue, moreValues_of_many hmany⟩
    · cases h
      exact .inl ⟨rfl, rfl⟩
  · rintro (⟨rfl, rfl⟩ | ⟨v, vs', r, rfl, hvalue, hmore⟩)
    · rw [dropGaps_dropGaps] at hfinal
      refine orElse_of_misfit (andThen_of_error (value_misfit ?_ ?_)) <;>
        (rw [hfinal]; decide)
    · refine orElse_of_ok ((andThen_of_ok (value_iff.mpr hvalue)).trans ?_)
      exact map_of_ok (many_of_moreValues hmore hcomma)

theorem valueSet_iff {vs : TextSet} {text final : List Char} :
    valueSet text = .ok (vs, final) ↔ ∃ rest, Values vs text rest ∧ final = dropGaps rest := by
  unfold valueSet
  rw [map_eq_ok]
  constructor
  · rintro ⟨l, hset, rfl⟩
    obtain ⟨_, _, hopen, hrest⟩ := skipThen_eq_ok.mp hset
    obtain ⟨r₂, _, hvalues, hclose⟩ := thenSkip_eq_ok.mp hrest
    obtain ⟨r₁, hopening, rfl⟩ := (padded_literal_iff rfl).mp hopen
    obtain ⟨rest, hclosing, rfl⟩ := (padded_literal_iff rfl).mp hclose
    have hhead : (dropGaps r₂).head? = some '\x7d' := hclosing.head?_eq rfl
    refine ⟨rest, ?_, rfl⟩
    obtain ⟨rfl, rfl⟩ | ⟨v, vs, r, rfl, hvalue, hmore⟩ := (sepBy_value_iff hhead).mp hvalues
    · exact .none hopening ((word_dropGaps_iff rfl).mp hclosing)
    · exact .some hopening hvalue hmore hclosing
  · rintro ⟨rest, hvalues, rfl⟩
    have hread : ∀ {l r₁ r₂}, Word ['\x7b'] text r₁ → Word ['\x7d'] r₂ rest →
        sepBy value (padded (literal [','])) (dropGaps r₁) = .ok (l, r₂) →
        ((padded (literal ['\x7b'])).skipThen ((sepBy value (padded (literal [',']))).thenSkip
          (padded (literal ['\x7d'])))) text = .ok (l, dropGaps rest) := by
      intro l r₁ r₂ hopening hclosing hsep
      refine (skipThen_of_ok ((padded_literal_iff rfl).mpr ⟨r₁, hopening, rfl⟩)).trans ?_
      exact thenSkip_of_ok hsep ((padded_literal_iff rfl).mpr ⟨rest, hclosing, rfl⟩)
    cases hvalues with
    | none opening closing =>
      have hclosing := (word_dropGaps_iff rfl).mpr closing
      have hhead := hclosing.head?_eq rfl
      exact ⟨_, hread opening hclosing ((sepBy_value_iff hhead).mpr (.inl ⟨rfl, rfl⟩)), rfl⟩
    | some opening first more closing =>
      have hhead := closing.head?_eq rfl
      exact ⟨_, hread opening closing
        ((sepBy_value_iff hhead).mpr (.inr ⟨_, _, _, rfl, first, more⟩)), rfl⟩

/-! ## Leaves -/

theorem valueSet_dropGaps {text : List Char} : valueSet (dropGaps text) = valueSet text := by
  unfold valueSet Reader.map skipThen andThen
  rw [padded_dropGaps]

/-- Reads a leaf. -/
abbrev leaf : Reader Selector := everything.orElse (presence.orElse comparison)

theorem gaps_skipThen {α : Type} {r : Reader α} {input : List Char} :
    gaps.skipThen r input = r (dropGaps input) := rfl

theorem padded_key_iff {k : String} {text final : List Char} :
    padded key text = .ok (k, final) ↔ ∃ rest, Key k text rest ∧ final = dropGaps rest := by
  simp only [padded_eq_ok, key_iff]

theorem everything_iff {t : Selector} {text rest : List Char} :
    everything (dropGaps text) = .ok (t, rest) ↔
      t = .all ∧ ∃ r₁ r₂, Word "all".toList text r₁ ∧ Word ['('] r₁ r₂ ∧ Word [')'] r₂ rest := by
  simp only [everything, map_eq_ok, skipThen_eq_ok, gaps_skipThen,
    literal_dropGaps_iff (w := "all".toList) rfl, literal_dropGaps_iff (w := ['(']) rfl,
    literal_dropGaps_iff (w := [')']) rfl]
  constructor
  · rintro ⟨_, ⟨_, r₁, hname, _, r₂, hopening, hclosing⟩, rfl⟩
    exact ⟨rfl, r₁, r₂, hname, hopening, hclosing⟩
  · rintro ⟨rfl, r₁, r₂, hname, hopening, hclosing⟩
    exact ⟨(), ⟨(), r₁, hname, (), r₂, hopening, hclosing⟩, rfl⟩

theorem presence_iff {t : Selector} {text rest : List Char} :
    presence (dropGaps text) = .ok (t, rest) ↔
      ∃ k r₁ r₂ r₃, t = .has k ∧ Word "has".toList text r₁ ∧ Word ['('] r₁ r₂ ∧ Key k r₂ r₃ ∧
        Word [')'] r₃ rest := by
  simp only [presence, map_eq_ok, skipThen_eq_ok, thenSkip_eq_ok, gaps_skipThen,
    padded_key_iff, literal_dropGaps_iff (w := "has".toList) rfl,
    literal_dropGaps_iff (w := ['(']) rfl]
  constructor
  · rintro ⟨k, ⟨_, r₂, ⟨_, r₁, hname, hopening⟩, _, _, ⟨r₃, hkey, rfl⟩, hclosing⟩, rfl⟩
    exact ⟨k, r₁, r₂, r₃, rfl, hname, hopening, hkey, (literal_dropGaps_iff rfl).mp hclosing⟩
  · rintro ⟨k, r₁, r₂, r₃, rfl, hname, hopening, hkey, hclosing⟩
    exact ⟨k, ⟨(), r₂, ⟨(), r₁, hname, hopening⟩, dropGaps r₃, (), ⟨r₃, hkey, rfl⟩,
      (literal_dropGaps_iff rfl).mpr hclosing⟩, rfl⟩

theorem operator_iff {α : Type} {w text final : List Char} {r : Reader α} {a : α}
    (hw : isToken w = true) :
    ((literal w).skipThen gaps).skipThen r (dropGaps text) = .ok (a, final) ↔
      ∃ rest, Word w text rest ∧ r (dropGaps rest) = .ok (a, final) := by
  simp only [skipThen_eq_ok, literal_dropGaps_iff hw, gaps_apply]
  constructor
  · rintro ⟨_, _, ⟨_, rest, hword, ⟨⟩⟩, h⟩
    exact ⟨rest, hword, h⟩
  · rintro ⟨rest, hword, h⟩
    exact ⟨(), dropGaps rest, ⟨(), rest, hword, rfl⟩, h⟩

theorem operator_misfit {α β : Type} {w input : List Char} {r : Reader α} {f : α → β}
    {skip : Reader Unit} (hsome : w.head?.isSome = true) (h : input.head? ≠ w.head?) :
    (((literal w).skipThen skip).skipThen r).map f input = .error (.misfit input) :=
  map_of_error (skipThen_of_error (skipThen_of_error (literal_misfit hsome h)))

theorem run1_isGap_iff {text rest : List Char} :
    (∃ gap, run1 isGap text = .ok (gap, rest)) ↔
      (∃ c ∈ text.head?, isGap c = true) ∧ rest = dropGaps text := by
  cases text with
  | nil => simp [run1]
  | cons c cs =>
    by_cases hc : isGap c = true
    · have hrun : run1 isGap (c :: cs) = .ok (c :: cs.takeWhile isGap, dropGaps (c :: cs)) := by
        simp [run1, run, dropGaps, hc]
      rw [hrun]
      constructor
      · rintro ⟨_, ⟨⟩⟩
        exact ⟨⟨c, rfl, hc⟩, rfl⟩
      · rintro ⟨-, rfl⟩
        exact ⟨_, rfl⟩
    · simp [run1, hc]

theorem notIn_iff {vs : TextSet} {text final : List Char} :
    ((literal "not".toList).skipThen ((run1 isGap).skipThen
        ((literal "in".toList).skipThen gaps))).skipThen valueSet (dropGaps text) =
          .ok (vs, final) ↔
      ∃ r₁ r₂, Word "not".toList text r₁ ∧ (∃ c ∈ r₁.head?, isGap c = true) ∧
        Word "in".toList r₁ r₂ ∧ valueSet r₂ = .ok (vs, final) := by
  simp only [skipThen_eq_ok, literal_dropGaps_iff (w := "not".toList) rfl, gaps_apply]
  constructor
  · rintro ⟨_, _, ⟨_, r₁, hnot, gap, _, hgap, _, r₂, hin, ⟨⟩⟩, h⟩
    obtain ⟨hhead, rfl⟩ := run1_isGap_iff.mp ⟨gap, hgap⟩
    rw [valueSet_dropGaps] at h
    exact ⟨r₁, r₂, hnot, hhead, (literal_dropGaps_iff rfl).mp hin, h⟩
  · rintro ⟨r₁, r₂, hnot, hhead, hin, h⟩
    obtain ⟨gap, hgap⟩ := run1_isGap_iff.mpr ⟨hhead, rfl⟩
    refine ⟨(), dropGaps r₂, ⟨(), r₁, hnot, gap, dropGaps r₁, hgap, (), r₂, ?_, rfl⟩, ?_⟩
    · exact (literal_dropGaps_iff rfl).mpr hin
    · rwa [valueSet_dropGaps]

/-- What follows the key of a comparison has been read. -/
theorem leaf_of_comparisonOf {k : String} {t : Selector} {text r₁ final : List Char}
    (hkey : Key k text r₁) (h : comparisonOf k (dropGaps r₁) = .ok (t, final)) :
    ∃ rest, Leaf t text rest ∧ dropGaps final = dropGaps rest := by
  rcases of_orElse_eq_ok h with h | h
  · obtain ⟨v, hv, rfl⟩ := map_eq_ok.mp h
    obtain ⟨r₂, hoperator, hvalue⟩ := (operator_iff rfl).mp hv
    exact ⟨final, .eq hkey hoperator (value_iff.mp hvalue), rfl⟩
  rcases of_orElse_eq_ok h with h | h
  · obtain ⟨v, hv, rfl⟩ := map_eq_ok.mp h
    obtain ⟨r₂, hoperator, hvalue⟩ := (operator_iff rfl).mp hv
    exact ⟨final, .ne hkey hoperator (value_iff.mp hvalue), rfl⟩
  rcases of_orElse_eq_ok h with h | h
  · obtain ⟨vs, hvs, rfl⟩ := map_eq_ok.mp h
    obtain ⟨r₂, r₃, hnot, hgap, hoperator, hvalues⟩ := notIn_iff.mp hvs
    obtain ⟨rest, hset, rfl⟩ := valueSet_iff.mp hvalues
    exact ⟨rest, .notIn hkey hnot hgap hoperator hset, dropGaps_dropGaps⟩
  · obtain ⟨vs, hvs, rfl⟩ := map_eq_ok.mp h
    obtain ⟨r₂, hoperator, hvalues⟩ := (operator_iff rfl).mp hvs
    rw [valueSet_dropGaps] at hvalues
    obtain ⟨rest, hset, rfl⟩ := valueSet_iff.mp hvalues
    exact ⟨rest, .isIn hkey hoperator hset, dropGaps_dropGaps⟩

theorem leaf_sound {t : Selector} {text final : List Char}
    (h : leaf (dropGaps text) = .ok (t, final)) :
    ∃ rest, Leaf t text rest ∧ dropGaps final = dropGaps rest := by
  rcases of_orElse_eq_ok h with h | h
  · obtain ⟨rfl, r₁, r₂, hname, hopening, hclosing⟩ := everything_iff.mp h
    exact ⟨final, .all hname hopening hclosing, rfl⟩
  rcases of_orElse_eq_ok h with h | h
  · obtain ⟨k, r₁, r₂, r₃, rfl, hname, hopening, hkey, hclosing⟩ := presence_iff.mp h
    exact ⟨final, .has hname hopening hkey hclosing, rfl⟩
  · obtain ⟨k, r₁, hkey, hcomparison⟩ := andThen_eq_ok.mp h
    obtain ⟨r₁, _, hk, ⟨⟩⟩ := thenSkip_eq_ok.mp hkey
    exact leaf_of_comparisonOf (key_iff.mp hk) hcomparison

/-- A name at the front of a key is not followed by a parenthesis. -/
theorem call_misfit {α : Type} {name text r₁ : List Char} {k : String} {r : Reader α}
    (hkey : Key k text r₁) (hname : ∀ c ∈ name, isKeyChar c = true)
    (hr₁ : (dropGaps r₁).head? ≠ some '(')
    (hr : ∀ input, input.head? ≠ some '(' → ∃ place, r input = .error (.misfit place)) :
    ∃ place, (literal name).skipThen (gaps.skipThen r) (dropGaps text) =
      .error (.misfit place) := by
  obtain ⟨hword, hne, hchars, hrest⟩ := hkey
  rw [word_iff (isToken_key hne hchars)] at hword
  by_cases hprefix : name <+: dropGaps text
  · obtain ⟨after, hafter⟩ := hprefix
    rw [← hafter, skipThen_of_ok (literal_append ..), gaps_skipThen]
    refine hr _ ?_
    -- The key goes on after the name, or it is the name.
    rw [hword, List.append_eq_append_iff] at hafter
    obtain ⟨more, hk, rfl⟩ | ⟨more, hname', hr₁'⟩ := hafter
    · cases more with
      | nil => exact hr₁
      | cons c cs =>
        have hc : isKeyChar c = true := hchars c (by simp [hk])
        rw [List.cons_append, dropGaps_cons (isGap_of_isKeyChar hc), List.head?_cons]
        rintro ⟨⟩
        revert hc
        decide
    · cases more with
      | nil =>
        rw [List.nil_append] at hr₁'
        rwa [← hr₁']
      | cons c cs =>
        have hc : isKeyChar c = true := hname c (by simp [hname'])
        rw [hrest c (by simp [hr₁'])] at hc
        cases hc
  · refine ⟨dropGaps text, skipThen_of_error ?_⟩
    unfold literal
    rw [if_neg (by simpa using hprefix)]

/-- A key that no parenthesis follows is read as the key of a comparison. -/
theorem leaf_eq_comparisonOf {k : String} {text r₁ : List Char} (hkey : Key k text r₁)
    (hr₁ : (dropGaps r₁).head? ≠ some '(') :
    leaf (dropGaps text) = comparisonOf k (dropGaps r₁) := by
  obtain ⟨_, hall⟩ : ∃ place, (literal "all".toList).skipThen (gaps.skipThen
      ((literal ['(']).skipThen (gaps.skipThen (literal [')'])))) (dropGaps text) =
        .error (.misfit place) :=
    call_misfit hkey (List.all_eq_true.mp rfl) hr₁ fun input h =>
      ⟨input, skipThen_of_error (literal_misfit rfl h)⟩
  obtain ⟨_, hhas⟩ : ∃ place, (literal "has".toList).skipThen (gaps.skipThen (literal ['(']))
      (dropGaps text) = .error (.misfit place) :=
    call_misfit hkey (List.all_eq_true.mp rfl) hr₁ fun input h => ⟨input, literal_misfit rfl h⟩
  refine (orElse_of_misfit (map_of_error hall)).trans ?_
  refine (orElse_of_misfit (map_of_error (skipThen_of_error hhas))).trans ?_
  exact andThen_of_ok (thenSkip_of_ok (key_iff.mpr hkey) gaps_apply)

theorem leaf_complete {t : Selector} {text rest : List Char} (h : Leaf t text rest) :
    ∃ final, leaf (dropGaps text) = .ok (t, final) ∧ dropGaps final = dropGaps rest := by
  cases h with
  | all name opening closing =>
    exact ⟨rest, orElse_of_ok (everything_iff.mpr ⟨rfl, _, _, name, opening, closing⟩), rfl⟩
  | has name opening key closing =>
    refine ⟨rest, ?_, rfl⟩
    have hother : everything (dropGaps text) = .error (.misfit (dropGaps text)) := by
      refine map_of_error (skipThen_of_error (literal_misfit rfl ?_))
      rw [name.head?_eq rfl]
      decide
    rw [leaf, orElse_of_misfit hother]
    exact orElse_of_ok (presence_iff.mpr ⟨_, _, _, _, rfl, name, opening, key, closing⟩)
  | eq key operator value =>
    have hhead := operator.head?_eq rfl
    rw [leaf_eq_comparisonOf key (by rw [hhead]; decide)]
    exact ⟨rest, orElse_of_ok (map_of_ok ((operator_iff rfl).mpr ⟨_, operator,
      value_iff.mpr value⟩)), rfl⟩
  | ne key operator value =>
    have hhead := operator.head?_eq rfl
    rw [leaf_eq_comparisonOf key (by rw [hhead]; decide)]
    refine ⟨rest, ?_, rfl⟩
    rw [comparisonOf, orElse_of_misfit (operator_misfit rfl (by rw [hhead]; decide))]
    exact orElse_of_ok (map_of_ok ((operator_iff rfl).mpr ⟨_, operator, value_iff.mpr value⟩))
  | isIn key operator values =>
    have hhead := operator.head?_eq rfl
    rw [leaf_eq_comparisonOf key (by rw [hhead]; decide)]
    refine ⟨dropGaps rest, ?_, dropGaps_dropGaps⟩
    rw [comparisonOf, orElse_of_misfit (operator_misfit rfl (by rw [hhead]; decide)),
      orElse_of_misfit (operator_misfit rfl (by rw [hhead]; decide)),
      orElse_of_misfit (operator_misfit rfl (by rw [hhead]; decide))]
    refine map_of_ok ((operator_iff rfl).mpr ⟨_, operator, ?_⟩)
    rw [valueSet_dropGaps]
    exact valueSet_iff.mpr ⟨rest, values, rfl⟩
  | notIn key negation gap operator values =>
    have hhead := negation.head?_eq rfl
    rw [leaf_eq_comparisonOf key (by rw [hhead]; decide)]
    refine ⟨dropGaps rest, ?_, dropGaps_dropGaps⟩
    rw [comparisonOf, orElse_of_misfit (operator_misfit rfl (by rw [hhead]; decide)),
      orElse_of_misfit (operator_misfit rfl (by rw [hhead]; decide))]
    refine orElse_of_ok (map_of_ok (notIn_iff.mpr ⟨_, _, negation, gap, operator, ?_⟩))
    exact valueSet_iff.mpr ⟨rest, values, rfl⟩

end IngressGuard.Selector
