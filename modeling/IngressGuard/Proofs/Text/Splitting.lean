import IngressGuard.Text.Blank
import IngressGuard.Text.Fields

/-!
# Splitting, joining and trimming

The pieces that a text is cut into are the only ones without the separator that join to it
(`fields_eq_iff`).  In joined pieces that are not empty the separator never stands twice in a row,
so the first double separator is the one that was put after them
(`splitAtDouble?_intercalate_append`).
Trimming takes blanks away at both ends and nothing else (`exists_trimBlank`, `trimBlank_append`).
-/

namespace IngressGuard.Text

variable {sep c : Char} {cs rest back front piece : List Char} {pieces : List (List Char)}

/-! ## Pieces -/

theorem fields_of_not_mem (h : sep ∉ cs) : fields sep cs = [cs] := by
  induction cs with
  | nil => rfl
  | cons c cs ih =>
    obtain ⟨hc, hcs⟩ := not_or.mp (mt List.mem_cons.mpr h)
    simp [fields, Ne.symm hc, ih hcs]

theorem fields_append_cons (h : sep ∉ piece) :
    fields sep (piece ++ sep :: rest) = piece :: fields sep rest := by
  induction piece with
  | nil => simp [fields]
  | cons c piece ih =>
    obtain ⟨hc, hpiece⟩ := not_or.mp (mt List.mem_cons.mpr h)
    simp [fields, Ne.symm hc, ih hpiece]

theorem intercalate_cons_cons (first second : List Char) :
    [sep].intercalate (first :: second :: pieces) =
      first ++ sep :: [sep].intercalate (second :: pieces) := by
  rw [List.intercalate_cons_cons, List.append_assoc, List.singleton_append]

theorem exists_intercalate_cons (sep : Char) (first : List Char) (pieces : List (List Char)) :
    ∃ tail, [sep].intercalate (first :: pieces) = first ++ tail := by
  cases pieces with
  | nil => exact ⟨[], by rw [List.intercalate_singleton, List.append_nil]⟩
  | cons second pieces => exact ⟨_, intercalate_cons_cons first second⟩

/-- Cutting is the inverse of joining. -/
theorem fields_eq_iff :
    fields sep cs = pieces ↔
      pieces ≠ [] ∧ (∀ piece ∈ pieces, sep ∉ piece) ∧ cs = [sep].intercalate pieces := by
  constructor
  · rintro rfl
    exact ⟨fields_ne_nil sep cs, fun _ => notMem_of_mem_fields, (intercalate_fields sep cs).symm⟩
  · rintro ⟨hne, hpieces, rfl⟩
    induction pieces with
    | nil => exact absurd rfl hne
    | cons first rest ih =>
      obtain ⟨hfirst, hrest⟩ := List.forall_mem_cons.mp hpieces
      cases rest with
      | nil => rw [List.intercalate_singleton, fields_of_not_mem hfirst]
      | cons second rest =>
        rw [intercalate_cons_cons, fields_append_cons hfirst, ih (by simp) hrest]

theorem eq_or_exists_of_mem_intercalate (h : c ∈ [sep].intercalate pieces) :
    c = sep ∨ ∃ piece ∈ pieces, c ∈ piece := by
  induction pieces with
  | nil => cases h
  | cons first rest ih =>
    cases rest with
    | nil => exact .inr ⟨first, List.mem_cons_self, by rwa [List.intercalate_singleton] at h⟩
    | cons second rest =>
      rw [intercalate_cons_cons, List.mem_append, List.mem_cons] at h
      rcases h with hfirst | rfl | hrest
      · exact .inr ⟨first, List.mem_cons_self, hfirst⟩
      · exact .inl rfl
      · refine (ih hrest).imp_right ?_
        rintro ⟨piece, hpiece, hc⟩
        exact ⟨piece, List.mem_cons_of_mem _ hpiece, hc⟩

theorem mem_intercalate (h : 2 ≤ pieces.length) : sep ∈ [sep].intercalate pieces := by
  match pieces, h with
  | first :: second :: rest, _ => simp

/-! ## Double separators -/

theorem splitAtDouble?_cons (h : ¬(c = sep ∧ cs.head? = some sep)) :
    splitAtDouble? sep (c :: cs) =
      (splitAtDouble? sep cs).map fun (before, after) => (c :: before, after) := by
  cases cs with
  | nil => rfl
  | cons next cs =>
    rw [splitAtDouble?, if_neg]
    simpa using h

theorem eq_of_splitAtDouble?_eq_some (h : splitAtDouble? sep cs = some (front, back)) :
    cs = front ++ sep :: sep :: back := by
  induction cs generalizing front with
  | nil => cases h
  | cons c cs ih =>
    by_cases hdouble : c = sep ∧ cs.head? = some sep
    · obtain ⟨rfl, hhead⟩ := hdouble
      obtain ⟨tail, rfl⟩ := List.head?_eq_some_iff.mp hhead
      rw [splitAtDouble?, if_pos ⟨rfl, rfl⟩, Option.some.injEq, Prod.mk.injEq] at h
      obtain ⟨rfl, rfl⟩ := h
      rfl
    · rw [splitAtDouble?_cons hdouble, Option.map_eq_some_iff] at h
      obtain ⟨⟨before, after⟩, hrest, heq⟩ := h
      obtain ⟨rfl, rfl⟩ := Prod.mk.inj heq
      rw [ih hrest, List.cons_append]

theorem splitAtDouble?_append_of_not_mem (h : sep ∉ piece) (cs : List Char) :
    splitAtDouble? sep (piece ++ cs) =
      (splitAtDouble? sep cs).map fun (before, after) => (piece ++ before, after) := by
  induction piece with
  | nil => simp
  | cons c piece ih =>
    obtain ⟨hc, hpiece⟩ := not_or.mp (mt List.mem_cons.mpr h)
    rw [List.cons_append, splitAtDouble?_cons fun hboth => hc hboth.1.symm, ih hpiece,
      Option.map_map]
    rfl

/-- Joined pieces hold no double separator if none of them is empty. -/
theorem splitAtDouble?_intercalate_append
    (h : ∀ piece ∈ pieces, piece ≠ [] ∧ sep ∉ piece) (cs : List Char) :
    splitAtDouble? sep ([sep].intercalate pieces ++ cs) =
      (splitAtDouble? sep cs).map fun (before, after) =>
        ([sep].intercalate pieces ++ before, after) := by
  induction pieces with
  | nil => simp
  | cons first rest ih =>
    obtain ⟨⟨-, hfirst⟩, hrest⟩ := List.forall_mem_cons.mp h
    cases rest with
    | nil => rw [List.intercalate_singleton, splitAtDouble?_append_of_not_mem hfirst]
    | cons second rest =>
      obtain ⟨⟨hne, hsecond⟩, -⟩ := List.forall_mem_cons.mp hrest
      have hhead : ([sep].intercalate (second :: rest) ++ cs).head? ≠ some sep := by
        obtain ⟨c, piece, rfl⟩ := List.exists_cons_of_ne_nil hne
        obtain ⟨tail, htail⟩ := exists_intercalate_cons sep (c :: piece) rest
        rw [htail, List.cons_append, List.cons_append, List.head?_cons]
        rintro ⟨⟩
        exact hsecond List.mem_cons_self
      rw [intercalate_cons_cons, List.append_assoc, splitAtDouble?_append_of_not_mem hfirst,
        List.cons_append, splitAtDouble?_cons fun hboth => hhead hboth.2, ih hrest,
        Option.map_map, Option.map_map]
      congr 1
      funext ⟨before, after⟩
      simp

/-! ## Blanks -/

theorem isBlank_eq_false (hlow : 33 ≤ c.toNat) (hhigh : c.toNat ≤ 126) : isBlank c = false := by
  simp only [isBlank, blankRanges, List.any_cons, List.any_nil, Bool.or_false, Bool.or_eq_false_iff,
    Bool.and_eq_false_iff, decide_eq_false_iff_not]
  omega

/-- Whether every character of a text is blank. -/
def AllBlank (cs : List Char) : Prop := ∀ c ∈ cs, isBlank c = true

theorem allBlank_nil : AllBlank [] := fun _ h => absurd h List.not_mem_nil

theorem allBlank_takeWhile (cs : List Char) : AllBlank (cs.takeWhile isBlank) :=
  List.all_eq_true.mp List.all_takeWhile

theorem exists_trimBlank (cs : List Char) :
    ∃ before after, cs = before ++ trimBlank cs ++ after ∧ AllBlank before ∧ AllBlank after := by
  have hstart := List.takeWhile_append_dropWhile (p := isBlank) (l := cs)
  have hend := List.takeWhile_append_dropWhile (p := isBlank) (l := (cs.dropWhile isBlank).reverse)
  refine ⟨cs.takeWhile isBlank, ((cs.dropWhile isBlank).reverse.takeWhile isBlank).reverse, ?_,
    allBlank_takeWhile cs, fun c hc => allBlank_takeWhile _ c (List.mem_reverse.mp hc)⟩
  rw [List.append_assoc, trimBlank, ← List.reverse_append, hend, List.reverse_reverse, hstart]

theorem dropWhile_isBlank_append (hfront : AllBlank front) (hne : cs ≠ [])
    (hcs : ∀ c ∈ cs, isBlank c = false) (rest : List Char) :
    (front ++ (cs ++ rest)).dropWhile isBlank = cs ++ rest := by
  obtain ⟨c, cs, rfl⟩ := List.exists_cons_of_ne_nil hne
  have hc := hcs c List.mem_cons_self
  rw [List.dropWhile_append_of_pos hfront, List.cons_append,
    List.dropWhile_cons_of_neg (by simp [hc])]

theorem trimBlank_append (hfront : AllBlank front) (hback : AllBlank back) (hne : cs ≠ [])
    (hcs : ∀ c ∈ cs, isBlank c = false) : trimBlank (front ++ cs ++ back) = cs := by
  have hback' : AllBlank back.reverse := fun c hc => hback c (List.mem_reverse.mp hc)
  have hcs' : ∀ c ∈ cs.reverse, isBlank c = false := fun c hc => hcs c (List.mem_reverse.mp hc)
  rw [trimBlank, List.append_assoc, dropWhile_isBlank_append hfront hne hcs, List.reverse_append,
    ← List.append_nil cs.reverse, dropWhile_isBlank_append hback' (by simpa using hne) hcs']
  simp

end IngressGuard.Text
