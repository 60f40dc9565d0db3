import IngressGuard.Proofs.Selector.Reader
import IngressGuard.Selector.Parser

/-!
# The grammar of selectors

The grammar, apart from any reader: which texts stand for which trees.  A rule relates a text to
the tree that its front stands for and to the rest that follows, so that rules compose without
taking texts apart.  Gaps stand before tokens, and only those after the last one are left over.

`Derives` also counts how many parentheses around trees and negations are open at once.
-/

namespace IngressGuard.Selector

open Reader

/-! ## Tokens -/

/-- Gaps, and then a given text. -/
def Word (word text rest : List Char) : Prop :=
  ∃ gap, (∀ c ∈ gap, isGap c = true) ∧ text = gap ++ word ++ rest

/-- Gaps, and then the longest run of key characters. -/
def Key (key : String) (text rest : List Char) : Prop :=
  Word key.toList text rest ∧ key.toList ≠ [] ∧ (∀ c ∈ key.toList, isKeyChar c = true) ∧
    ∀ c ∈ rest.head?, isKeyChar c = false

/-- Gaps, and then a value between two quotes of a kind. -/
def Value (value : String) (text rest : List Char) : Prop :=
  ∃ quote, (quote = '\'' ∨ quote = '"') ∧ quote ∉ value.toList ∧
    Word (quote :: value.toList ++ [quote]) text rest

/-- More values, each after a comma. -/
inductive MoreValues : List String → List Char → List Char → Prop
  | stop {text} : MoreValues [] text text
  | more {v vs text r₁ r₂ rest} (comma : Word [','] text r₁) (value : Value v r₁ r₂)
      (more : MoreValues vs r₂ rest) : MoreValues (v :: vs) text rest

/-- A set of values between braces. -/
inductive Values : TextSet → List Char → List Char → Prop
  | none {text r₁ rest} (opening : Word ['\x7b'] text r₁) (closing : Word ['\x7d'] r₁ rest) :
      Values (.ofList []) text rest
  | some {v vs text r₁ r₂ r₃ rest} (opening : Word ['\x7b'] text r₁) (first : Value v r₁ r₂)
      (more : MoreValues vs r₂ r₃) (closing : Word ['\x7d'] r₃ rest) :
      Values (.ofList (v :: vs)) text rest

/-! ## Trees -/

/-- The selectors without smaller ones inside. -/
inductive Leaf : Selector → List Char → List Char → Prop
  | all {text r₁ r₂ rest} (name : Word "all".toList text r₁) (opening : Word ['('] r₁ r₂)
      (closing : Word [')'] r₂ rest) : Leaf .all text rest
  | has {k text r₁ r₂ r₃ rest} (name : Word "has".toList text r₁) (opening : Word ['('] r₁ r₂)
      (key : Key k r₂ r₃) (closing : Word [')'] r₃ rest) : Leaf (.has k) text rest
  | eq {k v text r₁ r₂ rest} (key : Key k text r₁) (operator : Word "==".toList r₁ r₂)
      (value : Value v r₂ rest) : Leaf (.eq k v) text rest
  | ne {k v text r₁ r₂ rest} (key : Key k text r₁) (operator : Word "!=".toList r₁ r₂)
      (value : Value v r₂ rest) : Leaf (.ne k v) text rest
  | isIn {k vs text r₁ r₂ rest} (key : Key k text r₁) (operator : Word "in".toList r₁ r₂)
      (values : Values vs r₂ rest) : Leaf (.isIn k vs) text rest
  | notIn {k vs text r₁ r₂ r₃ rest} (key : Key k text r₁) (negation : Word "not".toList r₁ r₂)
      (gap : ∃ c ∈ r₂.head?, isGap c = true) (operator : Word "in".toList r₂ r₃)
      (values : Values vs r₃ rest) : Leaf (.notIn k vs) text rest

/-- The operators that join selectors. -/
inductive Operator where
  | and
  | or

/-- An operator as it is written. -/
def Operator.word : Operator → List Char
  | and => "&&".toList
  | or => "||".toList

/-- The tree of two selectors with an operator between them. -/
def Operator.join : Operator → Selector → Selector → Selector
  | and => Selector.and
  | or => Selector.or

/-- What a text can stand for. -/
inductive Form where
  /-- A negation, a selector in parentheses, or a leaf. -/
  | operand
  /-- A chain of an operator: a conjunction of operands, or a disjunction of conjunctions. -/
  | chain (o : Operator)
  /-- What is left of a chain whose front stands for a given tree. -/
  | more (o : Operator) (front : Selector)

/-- What an operator joins. -/
def Operator.part : Operator → Form
  | and => .operand
  | or => .chain .and

/-- The trees that texts stand for, with the greatest number of parentheses and negations that are
open at once.  Chains lean to the left. -/
inductive Derives : Form → Selector → Nat → List Char → List Char → Prop
  | leaf {t text rest} (leaf : Leaf t text rest) : Derives .operand t 0 text rest
  | negation {t n text r₁ rest} (bang : Word ['!'] text r₁) (inner : Derives .operand t n r₁ rest) :
      Derives .operand (.not t) (n + 1) text rest
  | group {t n text r₁ r₂ rest} (opening : Word ['('] text r₁)
      (inner : Derives (.chain .or) t n r₁ r₂) (closing : Word [')'] r₂ rest) :
      Derives .operand t (n + 1) text rest
  | chain {o front t m n text r₁ rest} (first : Derives o.part front m text r₁)
      (more : Derives (.more o front) t n r₁ rest) : Derives (.chain o) t (max m n) text rest
  | stop {o t text} : Derives (.more o t) t 0 text text
  | more {o front next t m n text r₁ r₂ rest} (operator : Word o.word text r₁)
      (part : Derives o.part next m r₁ r₂)
      (more : Derives (.more o (o.join front next)) t n r₂ rest) :
      Derives (.more o front) t (max m n) text rest

/-- An operand is a chain of one. -/
theorem Derives.chain_or {t : Selector} {n : Nat} {text rest : List Char}
    (h : Derives .operand t n text rest) : Derives (.chain .or) t n text rest := by
  have hand : Derives (.chain .and) t (max n 0) text rest := .chain h .stop
  have hor : Derives (.chain .or) t (max (max n 0) 0) text rest := .chain hand .stop
  simpa using hor

/-- A whole text stands for a tree, with a number of parentheses and negations open at once. -/
def Denotes (input : String) (t : Selector) (opens : Nat) : Prop :=
  ∃ rest, Derives (.chain .or) t opens input.toList rest ∧ ∀ c ∈ rest, isGap c = true

/-! ## What comes first -/

/-- Whether a text starts with something else than a gap. -/
def isToken (word : List Char) : Bool := word.head?.any fun c => !isGap c

theorem exists_of_isToken {word : List Char} (h : isToken word = true) :
    ∃ c cs, word = c :: cs ∧ isGap c = false := by
  cases word with
  | nil => cases h
  | cons c cs => exact ⟨c, cs, rfl, by simpa [isToken] using h⟩

theorem word_iff {word text rest : List Char} (hword : isToken word = true) :
    Word word text rest ↔ dropGaps text = word ++ rest := by
  constructor
  · rintro ⟨gap, hgap, rfl⟩
    obtain ⟨c, cs, rfl, hc⟩ := exists_of_isToken hword
    rw [List.append_assoc, dropGaps_append hgap, List.cons_append, dropGaps_cons hc]
  · intro h
    obtain ⟨gap, hgap, htext⟩ := exists_gaps text
    refine ⟨gap, hgap, ?_⟩
    rw [List.append_assoc, ← h]
    exact htext

theorem word_dropGaps_iff {word text rest : List Char} (hword : isToken word = true) :
    Word word (dropGaps text) rest ↔ Word word text rest := by
  rw [word_iff hword, word_iff hword, dropGaps_dropGaps]

theorem Word.head?_eq {word text rest : List Char} (h : Word word text rest)
    (hword : isToken word = true) : (dropGaps text).head? = word.head? := by
  rw [(word_iff hword).mp h]
  obtain ⟨c, cs, rfl, -⟩ := exists_of_isToken hword
  rfl

theorem isGap_of_isKeyChar {c : Char} (h : isKeyChar c = true) : isGap c = false := by
  rw [Bool.eq_false_iff]
  intro hgap
  simp only [isGap, Bool.or_eq_true, beq_iff_eq] at hgap
  rcases hgap with ((rfl | rfl) | rfl) | rfl <;> revert h <;> decide

theorem isToken_key {k : String} (hne : k.toList ≠ [])
    (hchars : ∀ c ∈ k.toList, isKeyChar c = true) : isToken k.toList = true := by
  obtain ⟨c, cs, hk⟩ := List.exists_cons_of_ne_nil hne
  have hc := isGap_of_isKeyChar (hchars c (by simp [hk]))
  simp [isToken, hk, hc]

theorem isToken_quoted {quote : Char} (hquote : quote = '\'' ∨ quote = '"') (cs : List Char) :
    isToken (quote :: cs) = true := by
  rcases hquote with rfl | rfl <;> rfl

theorem Key.head?_eq {k : String} {text rest : List Char} (h : Key k text rest) :
    ∃ c, (dropGaps text).head? = some c ∧ isKeyChar c = true := by
  obtain ⟨hword, hne, hchars, -⟩ := h
  rw [hword.head?_eq (isToken_key hne hchars)]
  obtain ⟨c, cs, hk⟩ := List.exists_cons_of_ne_nil hne
  exact ⟨c, by simp [hk], hchars c (by simp [hk])⟩

/-- A leaf starts with a character of a key. -/
theorem Leaf.head?_eq {t : Selector} {text rest : List Char} (h : Leaf t text rest) :
    ∃ c, (dropGaps text).head? = some c ∧ isKeyChar c = true := by
  cases h with
  | all name => exact ⟨'a', name.head?_eq rfl, rfl⟩
  | has name => exact ⟨'h', name.head?_eq rfl, rfl⟩
  | eq key | ne key | isIn key | notIn key => exact key.head?_eq

theorem toNat_of_isKeyChar {c : Char} (h : isKeyChar c = true) :
    45 ≤ c.toNat ∧ c.toNat ≤ 122 := by
  have hupper : c.isUpper = decide ('A'.val ≤ c.val ∧ c.val ≤ 'Z'.val) := rfl
  have hlower : c.isLower = (decide ('a'.val ≤ c.val) && decide (c.val ≤ 'z'.val)) := rfl
  have hdigit : c.isDigit = (decide ('0'.val ≤ c.val) && decide (c.val ≤ '9'.val)) := rfl
  have halphanum : c.isAlphanum = ((c.isUpper || c.isLower) || c.isDigit) := rfl
  simp only [isKeyChar, halphanum, hupper, hlower, hdigit, Bool.or_eq_true, Bool.and_eq_true,
    beq_iff_eq, decide_eq_true_eq, UInt32.le_iff_toNat_le] at h
  rcases h with (((((h | h) | h) | rfl) | rfl) | rfl) | rfl
  · exact ⟨Nat.le_trans (by decide) h.1, Nat.le_trans h.2 (by decide)⟩
  · exact ⟨Nat.le_trans (by decide) h.1, Nat.le_trans h.2 (by decide)⟩
  · exact ⟨Nat.le_trans (by decide) h.1, Nat.le_trans h.2 (by decide)⟩
  all_goals decide

theorem isBlank_of_isKeyChar {c : Char} (h : isKeyChar c = true) : Text.isBlank c = false := by
  obtain ⟨hlow, hhigh⟩ := toNat_of_isKeyChar h
  have hranges : ∀ range ∈ Text.blankRanges, range.2 < 45 ∨ 122 < range.1 := by decide
  rw [Bool.eq_false_iff]
  intro hblank
  obtain ⟨range, hrange, hc⟩ := List.any_eq_true.mp hblank
  simp only [Bool.and_eq_true, decide_eq_true_eq] at hc
  have hout := hranges range hrange
  omega

/-- A selector starts with a character of a key, an exclamation mark or a parenthesis. -/
theorem Derives.head?_eq {form : Form} {t : Selector} {n : Nat} {text rest : List Char}
    (h : Derives form t n text rest) (hform : ∀ o front, form ≠ .more o front) :
    ∃ c, (dropGaps text).head? = some c ∧ (isKeyChar c = true ∨ c = '!' ∨ c = '(') := by
  induction h with
  | leaf leaf =>
    obtain ⟨c, hhead, hc⟩ := leaf.head?_eq
    exact ⟨c, hhead, .inl hc⟩
  | negation bang => exact ⟨'!', bang.head?_eq rfl, .inr (.inl rfl)⟩
  | group opening => exact ⟨'(', opening.head?_eq rfl, .inr (.inr rfl)⟩
  | @chain o _ _ _ _ _ _ _ _ _ ihFirst =>
    refine ihFirst ?_
    cases o <;> exact nofun
  | stop | more => exact absurd rfl (hform _ _)

/-! ## What is left over -/

theorem Word.suffix {word text rest : List Char} (h : Word word text rest) : rest <:+ text := by
  obtain ⟨gap, -, rfl⟩ := h
  exact List.suffix_append ..

theorem Word.length_lt {word text rest : List Char} (h : Word word text rest)
    (hword : isToken word = true) : rest.length < text.length := by
  obtain ⟨gap, -, rfl⟩ := h
  obtain ⟨c, cs, rfl, -⟩ := exists_of_isToken hword
  simp only [List.length_append, List.length_cons]
  omega

theorem Value.length_lt {v : String} {text rest : List Char} (h : Value v text rest) :
    rest.length < text.length := by
  obtain ⟨quote, hquote, -, hword⟩ := h
  exact hword.length_lt (isToken_quoted hquote _)

theorem Value.suffix {v : String} {text rest : List Char} (h : Value v text rest) :
    rest <:+ text := by
  obtain ⟨quote, -, -, hword⟩ := h
  exact hword.suffix

theorem MoreValues.suffix {vs : List String} {text rest : List Char} (h : MoreValues vs text rest) :
    rest <:+ text := by
  induction h with
  | stop => exact List.suffix_rfl
  | more comma value _ ih => exact ih.trans (value.suffix.trans comma.suffix)

theorem Values.suffix {vs : TextSet} {text rest : List Char} (h : Values vs text rest) :
    rest <:+ text := by
  cases h with
  | none opening closing => exact closing.suffix.trans opening.suffix
  | some opening first more closing =>
    exact closing.suffix.trans (more.suffix.trans (first.suffix.trans opening.suffix))

theorem Leaf.suffix {t : Selector} {text rest : List Char} (h : Leaf t text rest) :
    rest <:+ text := by
  cases h with
  | all name opening closing => exact closing.suffix.trans (opening.suffix.trans name.suffix)
  | has name opening key closing =>
    exact closing.suffix.trans (key.1.suffix.trans (opening.suffix.trans name.suffix))
  | eq key operator value | ne key operator value =>
    exact value.suffix.trans (operator.suffix.trans key.1.suffix)
  | isIn key operator values => exact values.suffix.trans (operator.suffix.trans key.1.suffix)
  | notIn key negation gap operator values =>
    exact values.suffix.trans (operator.suffix.trans (negation.suffix.trans key.1.suffix))

/-- The front of a text stands for a tree, and the end of the text is left over. -/
theorem Derives.suffix {form : Form} {t : Selector} {n : Nat} {text rest : List Char}
    (h : Derives form t n text rest) : rest <:+ text := by
  induction h with
  | leaf leaf => exact leaf.suffix
  | negation bang _ ih => exact ih.trans bang.suffix
  | group opening _ closing ih => exact closing.suffix.trans (ih.trans opening.suffix)
  | chain _ _ ihFirst ihMore => exact ihMore.trans ihFirst
  | stop => exact List.suffix_rfl
  | more operator _ _ ihPart ihMore => exact ihMore.trans (ihPart.trans operator.suffix)

/-! ## Heights -/

@[simp] theorem height_join (o : Operator) (l r : Selector) :
    (o.join l r).height = max l.height r.height + 1 := by
  cases o <;> rfl

theorem Leaf.height_eq {t : Selector} {text rest : List Char} (h : Leaf t text rest) :
    t.height = 1 := by
  cases h <;> rfl

/-- A chain is at least as high as its front. -/
theorem Derives.front_le {o : Operator} {front t : Selector} {n : Nat} {text rest : List Char}
    (h : Derives (.more o front) t n text rest) : front.height ≤ t.height := by
  generalize hform : Form.more o front = form at h
  induction h generalizing front with
  | leaf | negation | group | chain => cases hform
  | stop =>
    cases hform
    exact Nat.le_refl _
  | more operator part more _ ih =>
    cases hform
    have hjoin := ih rfl
    rw [height_join] at hjoin
    omega

end IngressGuard.Selector
