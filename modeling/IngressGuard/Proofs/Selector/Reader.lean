import IngressGuard.Selector.Reader

/-!
# What readers do

A reader is described by the texts on which it goes on, and by what it has taken where it
succeeds.  The first kind of statement makes a reader run on a text whose form is known; the
second one tells the form of a text on which it has succeeded.
-/

namespace IngressGuard.Reader

variable {α β : Type} {input rest final : List Char} {r : Reader α} {a : α} {b : β} {stop : Stop}

/-! ## Gaps -/

/-- What is left of a text after the gaps at its front. -/
def dropGaps (input : List Char) : List Char := input.dropWhile isGap

@[simp] theorem gaps_apply : gaps input = .ok ((), dropGaps input) := rfl

theorem dropGaps_append {gap : List Char} (hgap : ∀ c ∈ gap, isGap c = true) :
    dropGaps (gap ++ input) = dropGaps input := by
  unfold dropGaps
  rw [List.dropWhile_append_of_pos hgap]

theorem dropGaps_cons {c : Char} (hc : isGap c = false) : dropGaps (c :: rest) = c :: rest := by
  unfold dropGaps
  rw [List.dropWhile_cons_of_neg (by simp [hc])]

/-- A text is its gaps and what is left after them. -/
theorem exists_gaps (input : List Char) :
    ∃ gap, (∀ c ∈ gap, isGap c = true) ∧ input = gap ++ dropGaps input := by
  refine ⟨input.takeWhile isGap, ?_, (List.takeWhile_append_dropWhile ..).symm⟩
  exact fun c hc => List.all_eq_true.mp List.all_takeWhile c hc

/-- What is left after the gaps does not start with one. -/
theorem isGap_of_dropGaps {c : Char} (h : dropGaps input = c :: rest) : isGap c = false := by
  unfold dropGaps at h
  have hhead := List.head?_dropWhile_not isGap input
  rw [h] at hhead
  simpa using hhead

@[simp] theorem dropGaps_dropGaps : dropGaps (dropGaps input) = dropGaps input := by
  cases h : dropGaps input with
  | nil => rfl
  | cons c cs => exact dropGaps_cons (isGap_of_dropGaps h)

theorem dropGaps_suffix (input : List Char) : dropGaps input <:+ input :=
  List.dropWhile_suffix isGap

theorem dropGaps_eq_nil_iff : dropGaps input = [] ↔ ∀ c ∈ input, isGap c = true := by
  constructor
  · intro h
    obtain ⟨gap, hgap, hinput⟩ := exists_gaps input
    rw [h, List.append_nil] at hinput
    rwa [hinput]
  · intro h
    rw [← List.append_nil input, dropGaps_append h]
    rfl

/-! ## Tokens -/

@[simp] theorem literal_append (text rest : List Char) :
    literal text (text ++ rest) = .ok ((), rest) := by
  unfold literal
  rw [if_pos (List.isPrefixOf_iff_prefix.mpr (List.prefix_append ..)), List.drop_left]

theorem literal_eq_ok {text : List Char} {u : Unit} :
    literal text input = .ok (u, rest) ↔ input = text ++ rest := by
  constructor
  · intro h
    unfold literal at h
    split at h
    case isTrue hprefix =>
      obtain ⟨after, rfl⟩ := List.isPrefixOf_iff_prefix.mp hprefix
      rw [List.drop_left] at h
      cases h
      rfl
    case isFalse => cases h
  · rintro rfl
    exact literal_append ..

/-- A given text misfits where another character comes first. -/
theorem literal_misfit {text : List Char} (hsome : text.head?.isSome = true)
    (h : input.head? ≠ text.head?) : literal text input = .error (.misfit input) := by
  obtain ⟨c, cs, rfl⟩ : ∃ c cs, text = c :: cs := by
    cases text with
    | nil => cases hsome
    | cons c cs => exact ⟨c, cs, rfl⟩
  unfold literal
  rw [if_neg]
  intro hprefix
  obtain ⟨after, rfl⟩ := List.isPrefixOf_iff_prefix.mp hprefix
  exact h rfl

/-- The longest run of characters of a class goes up to the first one that is not of it. -/
theorem run_append {p : Char → Bool} {word : List Char} (hword : ∀ c ∈ word, p c = true)
    (hrest : ∀ c ∈ rest.head?, p c = false) : run p (word ++ rest) = .ok (word, rest) := by
  unfold run
  rw [List.takeWhile_append_of_pos hword, List.dropWhile_append_of_pos hword]
  cases rest with
  | nil => simp
  | cons c cs =>
    have hc := hrest c rfl
    simp [hc]

theorem run_eq_ok {p : Char → Bool} {word : List Char} (h : run p input = .ok (word, rest)) :
    input = word ++ rest ∧ (∀ c ∈ word, p c = true) ∧ ∀ c ∈ rest.head?, p c = false := by
  cases h
  refine ⟨(List.takeWhile_append_dropWhile ..).symm, ?_, ?_⟩
  · exact fun c hc => List.all_eq_true.mp List.all_takeWhile c hc
  · intro c hc
    have hhead := List.head?_dropWhile_not p input
    rw [show (input.dropWhile p).head? = some c from hc] at hhead
    simpa using hhead

theorem run1_of_run {p : Char → Bool} {word : List Char} (h : run p input = .ok (word, rest))
    (hne : word ≠ []) : run1 p input = .ok (word, rest) := by
  have hword : input.takeWhile p = word := congrArg Prod.fst (Except.ok.inj h)
  unfold run1
  rw [hword, if_neg (by simpa using hne), h]

theorem run1_eq_ok {p : Char → Bool} {word : List Char} (h : run1 p input = .ok (word, rest)) :
    run p input = .ok (word, rest) ∧ word ≠ [] := by
  unfold run1 at h
  split at h
  case isTrue => cases h
  case isFalse hne =>
    have hword : input.takeWhile p = word := congrArg Prod.fst (Except.ok.inj h)
    exact ⟨h, by simpa [hword] using hne⟩

/-! ## Combinators -/

theorem andThen_of_ok {next : α → Reader β} (h : r input = .ok (a, rest)) :
    r.andThen next input = next a rest := by
  unfold andThen
  rw [h]

theorem andThen_of_error {next : α → Reader β} (h : r input = .error stop) :
    r.andThen next input = .error stop := by
  unfold andThen
  rw [h]

theorem andThen_eq_ok {next : α → Reader β} :
    r.andThen next input = .ok (b, final) ↔
      ∃ a rest, r input = .ok (a, rest) ∧ next a rest = .ok (b, final) := by
  unfold andThen
  cases hr : r input with
  | error stop => simp
  | ok answer =>
    constructor
    · exact fun h => ⟨answer.1, answer.2, rfl, h⟩
    · rintro ⟨a, rest, ⟨⟩, h⟩
      exact h

theorem map_of_ok {f : α → β} (h : r input = .ok (a, rest)) : r.map f input = .ok (f a, rest) :=
  andThen_of_ok h

theorem map_of_error {f : α → β} (h : r input = .error stop) : r.map f input = .error stop :=
  andThen_of_error h

theorem map_eq_ok {f : α → β} :
    r.map f input = .ok (b, final) ↔ ∃ a, r input = .ok (a, final) ∧ f a = b := by
  refine andThen_eq_ok.trans ⟨?_, ?_⟩
  · rintro ⟨a, rest, hr, ⟨⟩⟩
    exact ⟨a, hr, rfl⟩
  · rintro ⟨a, hr, rfl⟩
    exact ⟨a, final, hr, rfl⟩

theorem skipThen_of_ok {second : Reader β} (h : r input = .ok (a, rest)) :
    r.skipThen second input = second rest :=
  andThen_of_ok h

theorem skipThen_of_error {second : Reader β} (h : r input = .error stop) :
    r.skipThen second input = .error stop :=
  andThen_of_error h

theorem skipThen_eq_ok {second : Reader β} :
    r.skipThen second input = .ok (b, final) ↔
      ∃ a rest, r input = .ok (a, rest) ∧ second rest = .ok (b, final) :=
  andThen_eq_ok

theorem thenSkip_of_ok {second : Reader β} (h : r input = .ok (a, rest))
    (hsecond : second rest = .ok (b, final)) : r.thenSkip second input = .ok (a, final) :=
  (andThen_of_ok h).trans (map_of_ok hsecond)

theorem thenSkip_of_error {second : Reader β} (h : r input = .error stop) :
    r.thenSkip second input = .error stop :=
  andThen_of_error h

theorem thenSkip_eq_ok {second : Reader β} :
    r.thenSkip second input = .ok (a, final) ↔
      ∃ rest b, r input = .ok (a, rest) ∧ second rest = .ok (b, final) := by
  refine andThen_eq_ok.trans ⟨?_, ?_⟩
  · rintro ⟨a', rest, hr, hsecond⟩
    obtain ⟨b, hb, rfl⟩ := map_eq_ok.mp hsecond
    exact ⟨rest, b, hr, hb⟩
  · rintro ⟨rest, b, hr, hb⟩
    exact ⟨a, rest, hr, map_of_ok hb⟩

theorem orElse_of_misfit {second : Reader α} {place : List Char}
    (h : r input = .error (.misfit place)) : r.orElse second input = second input := by
  unfold Reader.orElse
  rw [h]

theorem orElse_of_ok {second : Reader α} (h : r input = .ok (a, rest)) :
    r.orElse second input = .ok (a, rest) := by
  unfold Reader.orElse
  rw [h]

theorem orElse_of_tooDeep {second : Reader α} (h : r input = .error .tooDeep) :
    r.orElse second input = .error .tooDeep := by
  unfold Reader.orElse
  rw [h]

theorem of_orElse_eq_ok {second : Reader α} (h : r.orElse second input = .ok (a, rest)) :
    r input = .ok (a, rest) ∨ second input = .ok (a, rest) := by
  unfold Reader.orElse at h
  split at h
  · exact .inr h
  · exact .inl h

theorem padded_of_ok (h : r (dropGaps input) = .ok (a, rest)) :
    padded r input = .ok (a, dropGaps rest) :=
  (skipThen_of_ok gaps_apply).trans (thenSkip_of_ok h gaps_apply)

theorem padded_of_error (h : r (dropGaps input) = .error stop) :
    padded r input = .error stop :=
  (skipThen_of_ok gaps_apply).trans (thenSkip_of_error h)

/-- Gaps before a padded value do not matter. -/
theorem padded_dropGaps : padded r (dropGaps input) = padded r input := by
  unfold padded skipThen andThen
  simp only [gaps_apply, dropGaps_dropGaps]

theorem padded_eq_ok :
    padded r input = .ok (a, final) ↔
      ∃ rest, r (dropGaps input) = .ok (a, rest) ∧ final = dropGaps rest := by
  constructor
  · intro h
    obtain ⟨_, _, ⟨⟩, hrest⟩ := skipThen_eq_ok.mp h
    obtain ⟨rest, _, hr, ⟨⟩⟩ := thenSkip_eq_ok.mp hrest
    exact ⟨rest, hr, rfl⟩
  · rintro ⟨rest, hr, rfl⟩
    exact padded_of_ok hr

/-! ## Repetition -/

theorem many_of_misfit {place : List Char} (h : r input = .error (.misfit place)) :
    many r input = .ok ([], input) := by
  rw [many, h]

theorem many_of_tooDeep (h : r input = .error .tooDeep) : many r input = .error .tooDeep := by
  rw [many, h]

theorem many_of_ok (h : r input = .ok (a, rest)) (hlen : rest.length < input.length) :
    many r input = (many r).map (a :: ·) rest := by
  rw [many, h]
  simp only [hlen, if_true]
  unfold Reader.map andThen
  split <;> simp_all

theorem many_eq_ok {as : List α} (h : many r input = .ok (as, final)) :
    (as = [] ∧ final = input) ∨
      ∃ a rest as', as = a :: as' ∧ r input = .ok (a, rest) ∧ many r rest = .ok (as', final) := by
  cases hr : r input with
  | error stop =>
    cases stop with
    | tooDeep =>
      rw [many_of_tooDeep hr] at h
      cases h
    | misfit place =>
      rw [many_of_misfit hr] at h
      cases h
      exact .inl ⟨rfl, rfl⟩
  | ok answer =>
    obtain ⟨a, rest⟩ := answer
    by_cases hlen : rest.length < input.length
    · rw [many_of_ok hr hlen] at h
      obtain ⟨as', hmany, rfl⟩ := map_eq_ok.mp h
      exact .inr ⟨a, rest, as', rfl, rfl, hmany⟩
    · rw [many, hr] at h
      simp only [hlen, if_false] at h
      cases h

end IngressGuard.Reader
