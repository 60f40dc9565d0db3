import IngressGuard.Proofs.Selector.Leaves

/-!
# What the selector parser accepts

The parser agrees with the grammar of selectors within its limits.  `Derives.reader_eq` says what
becomes of a text that stands for a tree: it is read as that tree, or reading stops because the
tree is too high or too many parentheses and negations are open at once.  It is by induction on
the derivation, for every number of parentheses and negations that may still be open.  `Sound`
says the converse, that what is read stands for its tree, and follows the recursion of the reader.

Chains are read as long as their operator comes next, so what is left over after a chain must not
go on with it (`Form.Ends`).
-/

namespace IngressGuard.Selector

open Reader

/-! ## Readers of forms -/

/-- Reads on in a chain. -/
def tail (operator : List Char) (join : Selector → Selector → Selector) (part : Reader Selector)
    (front : Selector) : Reader Selector :=
  bounded ((many ((literal operator).skipThen part)).map fun rest => rest.foldl join front)

/-- Reads what an operator joins. -/
def Operator.partReader (budget : Nat) : Operator → Reader Selector
  | .and => operand budget
  | .or => conjunction (operand budget)

/-- Reads a form in which fewer than a given number of parentheses and negations may be open at
once. -/
def Form.reader (budget : Nat) : Form → Reader Selector
  | .operand => Selector.operand budget
  | .chain o => Selector.chain o.word o.join (o.partReader budget)
  | .more o front => tail o.word o.join (o.partReader budget) front

theorem reader_part (o : Operator) (budget : Nat) :
    o.part.reader budget = o.partReader budget := by
  cases o <;> rfl

theorem bounded_of_ok {r : Reader Selector} {t : Selector} {input rest : List Char}
    (h : r input = .ok (t, rest)) :
    bounded r input = if t.height ≤ depthLimit then .ok (t, rest) else .error .tooDeep := by
  unfold bounded
  rw [h]

theorem bounded_of_error {r : Reader Selector} {stop : Stop} {input : List Char}
    (h : r input = .error stop) : bounded r input = .error stop := by
  unfold bounded
  rw [h]

theorem chain_eq (operator : List Char) (join : Selector → Selector → Selector)
    (part : Reader Selector) :
    Selector.chain operator join part = part.andThen (tail operator join part) := by
  funext input
  cases h : part input with
  | error stop => rw [andThen_of_error h, Selector.chain, bounded_of_error (andThen_of_error h)]
  | ok answer =>
    obtain ⟨first, rest⟩ := answer
    rw [andThen_of_ok h, tail, Selector.chain]
    unfold bounded
    rw [andThen_of_ok h]

/-- Reads an operand without the gaps around it. -/
def bareOperand (budget : Nat) : Reader Selector :=
  (((literal ['!']).skipThen (operand budget)).map .not).orElse <|
    ((literal ['(']).skipThen ((disjunction (operand budget)).thenSkip (literal [')']))).orElse leaf

theorem operand_succ (budget : Nat) : operand (budget + 1) = bounded (padded (bareOperand budget)) :=
  rfl

theorem operand_dropGaps (budget : Nat) (text : List Char) :
    operand budget (dropGaps text) = operand budget text := by
  cases budget with
  | zero => rfl
  | succ budget =>
    rw [operand_succ]
    unfold bounded
    rw [padded_dropGaps]

theorem partReader_dropGaps (o : Operator) (budget : Nat) (text : List Char) :
    o.partReader budget (dropGaps text) = o.partReader budget text := by
  cases o with
  | and => exact operand_dropGaps budget text
  | or =>
    show conjunction (operand budget) (dropGaps text) = conjunction (operand budget) text
    rw [conjunction, chain_eq]
    unfold andThen
    rw [operand_dropGaps]

theorem chain_dropGaps (o : Operator) (budget : Nat) (text : List Char) :
    (Form.chain o).reader budget (dropGaps text) = (Form.chain o).reader budget text := by
  unfold Form.reader
  simp only [chain_eq]
  unfold andThen
  rw [partReader_dropGaps]

/-- A chain ends where its operator does not come next. -/
theorem tail_of_misfit {w input place : List Char} {join : Selector → Selector → Selector}
    {part : Reader Selector} {front : Selector}
    (h : (literal w).skipThen part input = .error (.misfit place)) :
    tail w join part front input =
      if front.height ≤ depthLimit then .ok (front, input) else .error .tooDeep :=
  bounded_of_ok (map_of_ok (many_of_misfit h))

/-- A chain goes on with what its operator joins to the front. -/
theorem tail_of_ok {w input rest : List Char} {join : Selector → Selector → Selector}
    {part : Reader Selector} {front next : Selector}
    (h : (literal w).skipThen part input = .ok (next, rest)) (hlen : rest.length < input.length) :
    tail w join part front input = tail w join part (join front next) rest := by
  have hmany := many_of_ok h hlen
  cases hrest : many ((literal w).skipThen part) rest with
  | error stop =>
    rw [map_of_error hrest] at hmany
    rw [tail, tail, bounded_of_error (map_of_error hmany), bounded_of_error (map_of_error hrest)]
  | ok answer =>
    obtain ⟨others, final⟩ := answer
    rw [map_of_ok hrest] at hmany
    rw [tail, tail, bounded_of_ok (map_of_ok hmany), bounded_of_ok (map_of_ok hrest),
      List.foldl_cons]

/-! ## Completeness -/

/-- How reading a tree ends: it is there, unless it is too high or too many parentheses and
negations are open at once. -/
def outcome (budget : Nat) (t : Selector) (opens : Nat) (rest : List Char) :
    Except Stop (Selector × List Char) :=
  if t.height ≤ depthLimit ∧ opens < budget then .ok (t, dropGaps rest) else .error .tooDeep

/-- No operator comes next that would go on with a form. -/
def Form.Ends : Form → List Char → Prop
  | .operand, _ => True
  | .chain .and, rest | .more .and _, rest => (dropGaps rest).head? ≠ some '&'
  | .chain .or, rest | .more .or _, rest =>
    (dropGaps rest).head? ≠ some '&' ∧ (dropGaps rest).head? ≠ some '|'

theorem ends_part_of_more {o : Operator} {front t : Selector} {n : Nat} {text rest : List Char}
    (h : Derives (.more o front) t n text rest) (hrest : (Form.more o front).Ends rest) :
    o.part.Ends text := by
  cases o with
  | and => trivial
  | or =>
    cases h with
    | stop => exact hrest.1
    | more operator =>
      show (dropGaps text).head? ≠ some '&'
      rw [operator.head?_eq rfl]
      decide

theorem outcome_of_exceeds {budget : Nat} {t : Selector} {n : Nat} {rest : List Char}
    (h : ¬(t.height ≤ depthLimit ∧ n < budget)) : outcome budget t n rest = .error .tooDeep := by
  rw [outcome, if_neg h]

theorem outcome_of_lt {budget : Nat} {t : Selector} {n : Nat} {rest : List Char}
    (h : n < budget) :
    outcome budget t n rest =
      if t.height ≤ depthLimit then .ok (t, dropGaps rest) else .error .tooDeep := by
  unfold outcome
  simp only [h, and_true]

/-- An operand without gaps around it has been read, or it is too deep inside. -/
theorem operand_succ_eq {budget n : Nat} {t : Selector} {text rest final : List Char}
    (hn : n ≤ budget) (h : bareOperand budget (dropGaps text) = .ok (t, final))
    (hfinal : dropGaps final = dropGaps rest) :
    operand (budget + 1) (dropGaps text) = outcome (budget + 1) t n rest := by
  rw [operand_dropGaps, operand_succ, bounded_of_ok (padded_of_ok h), hfinal,
    outcome_of_lt (Nat.lt_succ_of_le hn)]

theorem operand_succ_tooDeep {budget : Nat} {text : List Char}
    (h : bareOperand budget (dropGaps text) = .error .tooDeep) :
    operand (budget + 1) (dropGaps text) = .error .tooDeep := by
  rw [operand_dropGaps, operand_succ, bounded_of_error (padded_of_error h)]

theorem bareOperand_eq_leaf {budget : Nat} {input : List Char} (hbang : input.head? ≠ some '!')
    (hparen : input.head? ≠ some '(') : bareOperand budget input = leaf input := by
  refine (orElse_of_misfit (map_of_error (skipThen_of_error (literal_misfit rfl hbang)))).trans ?_
  exact orElse_of_misfit (skipThen_of_error (literal_misfit rfl hparen))

theorem Leaf.reader_eq {t : Selector} {text rest : List Char} (h : Leaf t text rest)
    (budget : Nat) : operand budget (dropGaps text) = outcome budget t 0 rest := by
  cases budget with
  | zero => exact (outcome_of_exceeds (by simp)).symm
  | succ budget =>
    obtain ⟨c, hhead, hc⟩ := h.head?_eq
    have hbang : (dropGaps text).head? ≠ some '!' := by
      rw [hhead]
      rintro ⟨⟩
      cases hc
    have hparen : (dropGaps text).head? ≠ some '(' := by
      rw [hhead]
      rintro ⟨⟩
      cases hc
    obtain ⟨final, hleaf, hfinal⟩ := leaf_complete h
    exact operand_succ_eq (Nat.zero_le _) ((bareOperand_eq_leaf hbang hparen).trans hleaf) hfinal

theorem operand_negation {budget n : Nat} {t : Selector} {text r₁ rest : List Char}
    (bang : Word ['!'] text r₁) (hinner : operand budget r₁ = outcome budget t n rest) :
    operand (budget + 1) (dropGaps text) = outcome (budget + 1) (.not t) (n + 1) rest := by
  have hskip : (literal ['!']).skipThen (operand budget) (dropGaps text) =
      outcome budget t n rest :=
    (skipThen_of_ok ((literal_dropGaps_iff rfl).mpr bang)).trans hinner
  by_cases hwithin : t.height ≤ depthLimit ∧ n < budget
  · rw [outcome, if_pos hwithin] at hskip
    exact operand_succ_eq hwithin.2 (orElse_of_ok (map_of_ok hskip)) dropGaps_dropGaps
  · rw [outcome_of_exceeds hwithin] at hskip
    refine (operand_succ_tooDeep (orElse_of_tooDeep (map_of_error hskip))).trans ?_
    refine (outcome_of_exceeds fun h => hwithin ?_).symm
    simp only [height] at h
    omega

theorem operand_group {budget n : Nat} {t : Selector} {text r₁ r₂ rest : List Char}
    (opening : Word ['('] text r₁)
    (hinner : disjunction (operand budget) r₁ = outcome budget t n r₂)
    (closing : Word [')'] r₂ rest) :
    operand (budget + 1) (dropGaps text) = outcome (budget + 1) t (n + 1) rest := by
  have hbang : (dropGaps text).head? ≠ some '!' := by
    rw [opening.head?_eq rfl]
    decide
  have hother : ((literal ['!']).skipThen (operand budget)).map Selector.not (dropGaps text) =
      .error (.misfit (dropGaps text)) :=
    map_of_error (skipThen_of_error (literal_misfit rfl hbang))
  have hopen := (literal_dropGaps_iff rfl).mpr opening
  by_cases hwithin : t.height ≤ depthLimit ∧ n < budget
  · rw [outcome, if_pos hwithin] at hinner
    have hgroup : (literal ['(']).skipThen
        ((disjunction (operand budget)).thenSkip (literal [')'])) (dropGaps text) =
          .ok (t, rest) :=
      (skipThen_of_ok hopen).trans (thenSkip_of_ok hinner ((literal_dropGaps_iff rfl).mpr closing))
    exact operand_succ_eq hwithin.2 ((orElse_of_misfit hother).trans (orElse_of_ok hgroup)) rfl
  · rw [outcome_of_exceeds hwithin] at hinner
    have hgroup : (literal ['(']).skipThen
        ((disjunction (operand budget)).thenSkip (literal [')'])) (dropGaps text) =
          .error .tooDeep :=
      (skipThen_of_ok hopen).trans (thenSkip_of_error hinner)
    refine (operand_succ_tooDeep
      ((orElse_of_misfit hother).trans (orElse_of_tooDeep hgroup))).trans ?_
    refine (outcome_of_exceeds fun h => hwithin ?_).symm
    omega

theorem outcome_max {budget m n : Nat} {t : Selector} {rest : List Char} (h : m < budget) :
    outcome budget t (max m n) rest = outcome budget t n rest := by
  simp only [outcome, Nat.max_lt, h, true_and]

theorem outcome_max_of_exceeds {budget m n : Nat} {part t : Selector} {rest : List Char}
    (hpart : part.height ≤ t.height) (h : ¬(part.height ≤ depthLimit ∧ m < budget)) :
    outcome budget t (max m n) rest = .error .tooDeep := by
  refine outcome_of_exceeds fun hwithin => h ?_
  omega

/-- Reading a text that stands for a tree gives that tree, or it stops because the tree is too
high or too much is open at once.  Reading on in a chain presumes that something may be open. -/
theorem Derives.reader_eq {form : Form} {t : Selector} {n : Nat} {text rest : List Char}
    (h : Derives form t n text rest) {budget : Nat} (hrest : form.Ends rest)
    (hbudget : ∀ o front, form = .more o front → 0 < budget) :
    form.reader budget (dropGaps text) = outcome budget t n rest := by
  induction h generalizing budget with
  | leaf leaf => exact leaf.reader_eq budget
  | negation bang _ ih =>
    cases budget with
    | zero => exact (outcome_of_exceeds (by simp)).symm
    | succ budget =>
      refine operand_negation bang ?_
      rw [← operand_dropGaps]
      exact ih trivial nofun
  | @group t n text r₁ r₂ rest opening _ closing ih =>
    cases budget with
    | zero => exact (outcome_of_exceeds (by simp)).symm
    | succ budget =>
      refine operand_group opening ?_ closing
      have hhead := closing.head?_eq rfl
      have hends : (Form.chain .or).Ends r₂ :=
        ⟨by rw [hhead]; decide, by rw [hhead]; decide⟩
      exact (chain_dropGaps .or budget r₁).symm.trans (ih hends nofun)
  | @chain o front t m n text r₁ rest first more ihFirst ihMore =>
    have hpart : o.partReader budget (dropGaps text) = outcome budget front m r₁ := by
      rw [← reader_part]
      refine ihFirst (ends_part_of_more more ?_) ?_
      · cases o <;> exact hrest
      · cases o <;> exact nofun
    show Selector.chain o.word o.join (o.partReader budget) (dropGaps text) = _
    rw [chain_eq]
    by_cases hwithin : front.height ≤ depthLimit ∧ m < budget
    · rw [outcome, if_pos hwithin] at hpart
      rw [andThen_of_ok hpart, outcome_max hwithin.2]
      refine ihMore ?_ fun _ _ _ => Nat.lt_of_le_of_lt (Nat.zero_le m) hwithin.2
      cases o <;> exact hrest
    · rw [outcome_of_exceeds hwithin] at hpart
      rw [andThen_of_error hpart, outcome_max_of_exceeds more.front_le hwithin]
  | @stop o t text =>
    have hmisfit : (literal o.word).skipThen (o.partReader budget) (dropGaps text) =
        .error (.misfit (dropGaps text)) := by
      cases o with
      | and => exact skipThen_of_error (literal_misfit rfl hrest)
      | or => exact skipThen_of_error (literal_misfit rfl hrest.2)
    exact (tail_of_misfit hmisfit).trans (outcome_of_lt (hbudget o t rfl)).symm
  | @more o front next t m n text r₁ r₂ rest operator part more ihPart ihMore =>
    have htoken : isToken o.word = true := by cases o <;> rfl
    have hpart : (literal o.word).skipThen (o.partReader budget) (dropGaps text) =
        outcome budget next m r₂ := by
      rw [skipThen_of_ok ((literal_dropGaps_iff htoken).mpr operator), ← partReader_dropGaps,
        ← reader_part]
      refine ihPart (ends_part_of_more more ?_) ?_
      · cases o <;> exact hrest
      · cases o <;> exact nofun
    have hheight := more.front_le
    rw [height_join] at hheight
    show tail o.word o.join (o.partReader budget) front (dropGaps text) = _
    by_cases hwithin : next.height ≤ depthLimit ∧ m < budget
    · rw [outcome, if_pos hwithin] at hpart
      have hlen : (dropGaps r₂).length < (dropGaps text).length := by
        have h₁ := ((word_dropGaps_iff htoken).mpr operator).length_lt htoken
        have h₂ := part.suffix.length_le
        have h₃ := (dropGaps_suffix r₂).length_le
        omega
      rw [tail_of_ok hpart hlen, outcome_max hwithin.2]
      refine ihMore ?_ fun _ _ _ => Nat.lt_of_le_of_lt (Nat.zero_le m) hwithin.2
      cases o <;> exact hrest
    · rw [outcome_of_exceeds hwithin] at hpart
      rw [outcome_max_of_exceeds (by omega) hwithin]
      exact bounded_of_error (map_of_error (many_of_tooDeep hpart))

/-! ## Soundness -/

/-- A reader only takes texts that stand for the trees it gives, with the gaps after them. -/
def Sound (form : Form) (r : Reader Selector) : Prop :=
  ∀ text t final, r (dropGaps text) = .ok (t, final) →
    ∃ n rest, Derives form t n text rest ∧ final = dropGaps rest

theorem of_bounded_eq_ok {r : Reader Selector} {t : Selector} {input rest : List Char}
    (h : bounded r input = .ok (t, rest)) : r input = .ok (t, rest) ∧ t.height ≤ depthLimit := by
  unfold bounded at h
  split at h
  case h_1 t' rest' hr =>
    split at h
    case isTrue hheight =>
      cases h
      exact ⟨hr, hheight⟩
    case isFalse => cases h
  case h_2 => cases h

theorem sound_tail {o : Operator} {budget : Nat} (hpart : Sound o.part (o.partReader budget))
    (front : Selector) : Sound (.more o front) (tail o.word o.join (o.partReader budget) front) := by
  intro text t final h
  have htoken : isToken o.word = true := by cases o <;> rfl
  obtain ⟨others, hmany, rfl⟩ := map_eq_ok.mp (of_bounded_eq_ok h).1
  clear h
  induction others generalizing front text with
  | nil =>
    obtain ⟨-, rfl⟩ | ⟨_, _, _, hcons, -⟩ := many_eq_ok hmany
    · exact ⟨0, text, .stop, rfl⟩
    · cases hcons
  | cons next others ih =>
    obtain ⟨hnil, -⟩ | ⟨_, final', _, hcons, hread, hrest⟩ := many_eq_ok hmany
    · cases hnil
    · cases hcons
      obtain ⟨_, r₁, hword, hnext⟩ := skipThen_eq_ok.mp hread
      rw [← partReader_dropGaps] at hnext
      obtain ⟨m, r₂, hpart', rfl⟩ := hpart _ _ _ hnext
      obtain ⟨n, rest, hmore, rfl⟩ := ih (o.join front next) r₂ hrest
      exact ⟨max m n, rest, .more ((literal_dropGaps_iff htoken).mp hword) hpart' hmore, rfl⟩

theorem sound_chain {o : Operator} {budget : Nat} (hpart : Sound o.part (o.partReader budget)) :
    Sound (.chain o) (Selector.chain o.word o.join (o.partReader budget)) := by
  intro text t final h
  rw [chain_eq] at h
  obtain ⟨front, _, hfirst, htail⟩ := andThen_eq_ok.mp h
  obtain ⟨m, r₁, hfirst', rfl⟩ := hpart _ _ _ hfirst
  obtain ⟨n, rest, hmore, rfl⟩ := sound_tail hpart front _ _ _ htail
  exact ⟨max m n, rest, .chain hfirst' hmore, rfl⟩

theorem sound_disjunction {budget : Nat} (hoperand : Sound .operand (operand budget)) :
    Sound (.chain .or) (disjunction (operand budget)) :=
  sound_chain (o := .or) (sound_chain (o := .and) hoperand)

theorem sound_operand (budget : Nat) : Sound .operand (operand budget) := by
  induction budget with
  | zero => exact fun text t final h => by cases h
  | succ budget ih =>
    have hdisjunction := sound_disjunction ih
    intro text t final h
    obtain ⟨rest', hbare, rfl⟩ := padded_eq_ok.mp (of_bounded_eq_ok h).1
    rw [dropGaps_dropGaps] at hbare
    rcases of_orElse_eq_ok hbare with h | h
    · obtain ⟨inner, hinner, rfl⟩ := map_eq_ok.mp h
      obtain ⟨_, r₁, hbang, hread⟩ := skipThen_eq_ok.mp hinner
      rw [← operand_dropGaps] at hread
      obtain ⟨n, rest, hoperand, rfl⟩ := ih _ _ _ hread
      exact ⟨n + 1, rest, .negation ((literal_dropGaps_iff rfl).mp hbang) hoperand,
        dropGaps_dropGaps⟩
    rcases of_orElse_eq_ok h with h | h
    · obtain ⟨_, r₁, hopening, hinner⟩ := skipThen_eq_ok.mp h
      obtain ⟨_, _, hread, hclosing⟩ := thenSkip_eq_ok.mp hinner
      have hread' : disjunction (operand budget) (dropGaps r₁) = _ :=
        (chain_dropGaps .or budget r₁).trans hread
      obtain ⟨n, r₂, hchain, rfl⟩ := hdisjunction _ _ _ hread'
      exact ⟨n + 1, rest', .group ((literal_dropGaps_iff rfl).mp hopening) hchain
        ((literal_dropGaps_iff rfl).mp hclosing), rfl⟩
    · obtain ⟨rest, hleaf, hrest⟩ := leaf_sound h
      exact ⟨0, rest, .leaf hleaf, hrest⟩

theorem sound_reader : Sound (.chain .or) reader :=
  sound_disjunction (sound_operand (depthLimit + 1))

/-! ## Whole texts -/

theorem reader_dropGaps (text : List Char) : reader (dropGaps text) = reader text :=
  chain_dropGaps .or (depthLimit + 1) text

/-- What reading a whole text makes of the end of its reader. -/
def conclude (input : String) :
    Except Stop (Selector × List Char) → Except SelectorError Selector
  | .ok (t, []) => .ok t
  | .ok (_, rest) | .error (.misfit rest) =>
    .error (.malformed input (byteLength input.toList - byteLength rest))
  | .error .tooDeep => .error (.tooDeep depthLimit)

theorem parse_eq (input : String) :
    parse input =
      if (Text.trimBlank input.toList).isEmpty then .error .empty
      else conclude input (reader input.toList) := by
  unfold parse
  refine ite_congr rfl (fun _ => rfl) fun _ => ?_
  cases reader input.toList with
  | error stop => cases stop <;> rfl
  | ok answer =>
    obtain ⟨t, rest⟩ := answer
    cases rest <;> rfl

theorem mem_dropWhile {p : Char → Bool} {cs : List Char} {c : Char} (hc : c ∈ cs)
    (hp : p c = false) : c ∈ cs.dropWhile p := by
  rw [← List.takeWhile_append_dropWhile (p := p) (l := cs), List.mem_append] at hc
  rcases hc with hc | hc
  · rw [List.all_eq_true.mp List.all_takeWhile c hc] at hp
    cases hp
  · exact hc

/-- Trimming a text does not take away what is not blank. -/
theorem mem_trimBlank {cs : List Char} {c : Char} (hc : c ∈ cs) (hblank : Text.isBlank c = false) :
    c ∈ Text.trimBlank cs := by
  unfold Text.trimBlank
  rw [List.mem_reverse]
  refine mem_dropWhile ?_ hblank
  rw [List.mem_reverse]
  exact mem_dropWhile hc hblank

/-- A text that stands for a tree is not blank. -/
theorem Denotes.not_blank {input : String} {t : Selector} {n : Nat} (h : Denotes input t n) :
    (Text.trimBlank input.toList).isEmpty = false := by
  obtain ⟨rest, hderives, -⟩ := h
  obtain ⟨c, hhead, hc⟩ := hderives.head?_eq nofun
  have hmem : c ∈ input.toList :=
    (dropGaps_suffix input.toList).subset (List.mem_of_head? hhead)
  have hblank : Text.isBlank c = false := by
    rcases hc with hc | rfl | rfl
    · exact isBlank_of_isKeyChar hc
    · rfl
    · rfl
  exact List.isEmpty_eq_false_iff_exists_mem.mpr ⟨c, mem_trimBlank hmem hblank⟩

/-- A text that stands for a tree is read as that tree, within the limits. -/
theorem parse_of_denotes {input : String} {t : Selector} {n : Nat} (h : Denotes input t n) :
    parse input = if t.height ≤ depthLimit ∧ n ≤ depthLimit then .ok t
      else .error (.tooDeep depthLimit) := by
  have hblank := h.not_blank
  obtain ⟨rest, hderives, hrest⟩ := h
  have hnil : dropGaps rest = [] := dropGaps_eq_nil_iff.mpr hrest
  have hread : reader input.toList = outcome (depthLimit + 1) t n rest := by
    rw [← reader_dropGaps]
    exact hderives.reader_eq (by simp [Form.Ends, hnil]) nofun
  rw [parse_eq, if_neg (by simp [hblank]), hread, outcome, hnil]
  simp only [Nat.lt_succ_iff]
  by_cases hwithin : t.height ≤ depthLimit ∧ n ≤ depthLimit
  · rw [if_pos hwithin, if_pos hwithin]
    rfl
  · rw [if_neg hwithin, if_neg hwithin]
    rfl

/-- A text that is read as a tree stands for it. -/
theorem denotes_of_parse {input : String} {t : Selector} (h : parse input = .ok t) :
    (∃ n, Denotes input t n) ∧ t.height ≤ depthLimit := by
  have hread : reader input.toList = .ok (t, []) := by
    rw [parse_eq] at h
    split at h
    case isTrue => cases h
    case isFalse =>
      cases hreader : reader input.toList with
      | error stop =>
        rw [hreader] at h
        cases stop <;> cases h
      | ok answer =>
        obtain ⟨t', rest⟩ := answer
        rw [hreader] at h
        cases rest <;> cases h
        rfl
  rw [← reader_dropGaps] at hread
  obtain ⟨n, rest, hderives, hrest⟩ := sound_reader _ _ _ hread
  refine ⟨⟨n, rest, hderives, dropGaps_eq_nil_iff.mp hrest.symm⟩, ?_⟩
  exact (of_bounded_eq_ok hread).2

/-- A text that stands for a tree is read as that tree if neither its height nor the number of
parentheses and negations open at once is above the limit, and is too deep otherwise.  A text that
stands for no tree is an error. -/
theorem parse_exact (input : String) :
    (∀ t n, Denotes input t n →
      parse input = if t.height ≤ 64 ∧ n ≤ 64 then .ok t else .error (.tooDeep 64)) ∧
    ((∀ t n, ¬Denotes input t n) → ∃ e, parse input = .error e) ∧
    ∀ t, parse input = .ok t → t.height ≤ 64 := by
  refine ⟨fun t n h => parse_of_denotes h, fun hnone => ?_, fun t h => (denotes_of_parse h).2⟩
  cases hparse : parse input with
  | error e => exact ⟨e, rfl⟩
  | ok t =>
    obtain ⟨⟨n, hdenotes⟩, -⟩ := denotes_of_parse hparse
    exact absurd hdenotes (hnone t n)

/-- A selector inside a number of parentheses. -/
def nested (n : Nat) : String :=
  String.ofList (List.replicate n '(' ++ "all()".toList ++ List.replicate n ')')

theorem derives_nested (n : Nat) (rest : List Char) :
    Derives .operand .all n
      (List.replicate n '(' ++ "all()".toList ++ List.replicate n ')' ++ rest) rest := by
  induction n generalizing rest with
  | zero =>
    have hname : Word "all".toList ("all()".toList ++ rest) ('(' :: ')' :: rest) :=
      ⟨[], nofun, rfl⟩
    exact .leaf (.all hname ⟨[], nofun, rfl⟩ ⟨[], nofun, rfl⟩)
  | succ n ih =>
    have hclosing : List.replicate (n + 1) ')' ++ rest = List.replicate n ')' ++ ')' :: rest := by
      rw [List.replicate_succ', List.append_assoc, List.singleton_append]
    rw [List.append_assoc, hclosing, ← List.append_assoc, List.replicate_succ]
    exact .group ⟨[], nofun, rfl⟩ (ih (')' :: rest)).chain_or ⟨[], nofun, rfl⟩

theorem denotes_nested (n : Nat) : Denotes (nested n) .all n := by
  refine ⟨[], ?_, nofun⟩
  rw [nested, String.toList_ofList, ← List.append_nil (_ ++ _)]
  exact (derives_nested n []).chain_or

/-- Parentheses may be open up to the limit, and a blank text is no selector. -/
theorem parse_exact_nested :
    parse (nested 64) = .ok .all ∧ parse (nested 65) = .error (.tooDeep 64) ∧
      ∃ e, parse " " = .error e := by
  have hdeepest := (parse_exact (nested 64)).1 .all 64 (denotes_nested 64)
  have htooDeep := (parse_exact (nested 65)).1 .all 65 (denotes_nested 65)
  refine ⟨hdeepest, htooDeep, (parse_exact " ").2.1 fun t n h => ?_⟩
  have hblank := h.not_blank
  revert hblank
  decide

end IngressGuard.Selector
