/-!
# Splitting a list of characters

`fields` cuts a list at every occurrence of a separator, and `splitAtDouble?` at the first place
where it stands twice in a row.
-/

namespace IngressGuard.Text

/-- The pieces between the occurrences of a separator; a list without one is a single piece. -/
def fields (sep : Char) : List Char → List (List Char)
  | [] => [[]]
  | c :: rest =>
    if c = sep then [] :: fields sep rest
    else
      match fields sep rest with
      | [] => [[c]]
      | piece :: pieces => (c :: piece) :: pieces

/-- The parts before and after the first place where a separator stands twice in a row. -/
def splitAtDouble? (sep : Char) : List Char → Option (List Char × List Char)
  | a :: b :: rest =>
    if a = sep ∧ b = sep then some ([], rest)
    else (splitAtDouble? sep (b :: rest)).map fun (before, after) => (a :: before, after)
  | _ => none

theorem fields_ne_nil (sep : Char) (cs : List Char) : fields sep cs ≠ [] := by
  cases cs with
  | nil => simp [fields]
  | cons c rest =>
    unfold fields
    split
    · simp
    · split <;> simp

theorem fields_cons_of_ne {sep c : Char} (h : c ≠ sep) (cs : List Char) :
    ∃ piece pieces, fields sep cs = piece :: pieces ∧
      fields sep (c :: cs) = (c :: piece) :: pieces := by
  cases hf : fields sep cs with
  | nil => exact absurd hf (fields_ne_nil sep cs)
  | cons piece pieces => exact ⟨piece, pieces, rfl, by simp [fields, h, hf]⟩

/-- Joining the pieces with the separator gives the list back. -/
theorem intercalate_fields (sep : Char) (cs : List Char) :
    List.intercalate [sep] (fields sep cs) = cs := by
  induction cs with
  | nil => simp [fields, List.intercalate]
  | cons c rest ih =>
    by_cases h : c = sep
    · subst h
      simp only [fields, if_true]
      cases hf : fields c rest with
      | nil => exact absurd hf (fields_ne_nil c rest)
      | cons piece pieces =>
        rw [hf] at ih
        simp only [List.intercalate, List.intersperse, List.flatten_cons, List.nil_append,
          List.cons_append] at ih ⊢
        rw [ih]
    · obtain ⟨piece, pieces, hf, hc⟩ := fields_cons_of_ne h rest
      rw [hc]
      rw [hf] at ih
      cases pieces with
      | nil =>
        simp only [List.intercalate, List.intersperse, List.flatten_cons, List.flatten_nil,
          List.append_nil] at ih ⊢
        rw [ih]
      | cons p ps =>
        simp only [List.intercalate, List.intersperse, List.flatten_cons,
          List.cons_append] at ih ⊢
        rw [ih]

/-- No piece holds the separator. -/
theorem notMem_of_mem_fields {sep : Char} {cs piece : List Char} (h : piece ∈ fields sep cs) :
    sep ∉ piece := by
  induction cs generalizing piece with
  | nil => simp_all [fields]
  | cons c rest ih =>
    by_cases hc : c = sep
    · simp only [fields, hc, if_true, List.mem_cons] at h
      rcases h with rfl | h
      · simp
      · exact ih h
    · obtain ⟨first, pieces, hf, hcons⟩ := fields_cons_of_ne hc rest
      rw [hcons, List.mem_cons] at h
      rcases h with rfl | h
      · have hfirst : first ∈ fields sep rest := by simp [hf]
        simp [Ne.symm hc, ih hfirst]
      · exact ih (by simp [hf, h])

end IngressGuard.Text
