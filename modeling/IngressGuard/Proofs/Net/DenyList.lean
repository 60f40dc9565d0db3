import IngressGuard.Net.DenyList
import IngressGuard.Net.Match

/-!
# Contents of deny lists

When a set of prefixes and a deny list are empty, what it takes for every prefix to be filed under
its own family, and the tables that enforce a deny list.
-/

namespace IngressGuard

namespace PrefixSet

variable {s : PrefixSet} {p : Prefix}

theorem isEmpty_iff : s.isEmpty = true ↔ ∀ p, p ∉ s :=
  Std.ExtTreeSet.isEmpty_iff.trans Std.ExtTreeSet.eq_empty_iff_forall_not_mem

theorem isEmpty_eq_false_iff : s.isEmpty = false ↔ ∃ p, p ∈ s := by
  rw [← Bool.not_eq_true, isEmpty_iff]
  simp

theorem isEmpty_eq_false_of_mem (h : p ∈ s) : s.isEmpty = false :=
  isEmpty_eq_false_iff.mpr ⟨p, h⟩

theorem mem_insert {q : Prefix} : q ∈ s.insert p ↔ q = p ∨ q ∈ s := by
  rw [Std.ExtTreeSet.mem_insert, Std.LawfulEqCmp.compare_eq_iff_eq, eq_comm]

theorem covers_iff {a : Address} : s.covers a = true ↔ ∃ p ∈ s, p.contains a = true := by
  simp [covers]

theorem mem_erase {q : Prefix} : q ∈ s.erase p ↔ q ≠ p ∧ q ∈ s := by
  rw [Std.ExtTreeSet.mem_erase, ne_eq, Std.LawfulEqCmp.compare_eq_iff_eq, eq_comm]

theorem nodup_toList (s : PrefixSet) : s.toList.Nodup := by
  refine List.Pairwise.imp ?_ Std.ExtTreeSet.distinct_toList
  intro p q hne heq
  exact hne (heq ▸ Std.ReflCmp.compare_self)

theorem size_le_of_subset {t : PrefixSet} (h : ∀ q ∈ s, q ∈ t) : s.size ≤ t.size := by
  rw [← Std.ExtTreeSet.length_toList, ← Std.ExtTreeSet.length_toList]
  refine (nodup_toList s).length_le_of_subset fun q hq => ?_
  exact Std.ExtTreeSet.mem_toList.mpr (h q (Std.ExtTreeSet.mem_toList.mp hq))

theorem size_le_of_not_mem {t : PrefixSet} (h : ∀ q, q ≠ p → q ∈ s → q ∈ t) (hp : p ∉ s) :
    s.size ≤ t.size := by
  refine size_le_of_subset fun q hq => h q ?_ hq
  rintro rfl
  exact hp hq

/-- A set that has only one prefix besides those of another has at most one more. -/
theorem size_le_succ {t : PrefixSet} (h : ∀ q, q ≠ p → q ∈ s → q ∈ t) :
    s.size ≤ t.size + 1 := by
  have hsub : ∀ q ∈ s, q ∈ t.insert p := by
    intro q hq
    by_cases hne : q = p
    · exact mem_insert.mpr (.inl hne)
    · exact mem_insert.mpr (.inr (h q hne hq))
  calc
    s.size ≤ (t.insert p).size := size_le_of_subset hsub
    _ ≤ t.size + 1 := Std.ExtTreeSet.size_insert_le

end PrefixSet

namespace DenyList

variable {d : DenyList} {p q : Prefix}

theorem isEmpty_iff : d.isEmpty = true ↔ ∀ f, (d.get f).isEmpty = true := by
  unfold isEmpty
  rw [Bool.and_eq_true]
  constructor
  · rintro ⟨h4, h6⟩ (_ | _)
    · exact h4
    · exact h6
  · exact fun h => ⟨h .ipv4, h .ipv6⟩

/-- The table of a family that enforces a deny list: there is none if there is nothing to hold. -/
def table (d : DenyList) (f : Family) : Option PrefixSet :=
  if (d.get f).isEmpty then none else some (d.get f)

theorem table_empty (f : Family) : empty.table f = none := by
  cases f <;> rfl

theorem getD_table (d : DenyList) (f : Family) : (d.table f).getD ∅ = d.get f := by
  unfold table
  split
  case isTrue h => exact (Std.ExtTreeSet.isEmpty_iff.mp h).symm
  case isFalse => rfl

theorem isSome_table (d : DenyList) (f : Family) :
    (d.table f).isSome = true ↔ (d.get f).isEmpty = false := by
  unfold table
  split <;> simp_all

/-! ## Filing -/

theorem wellFiled_empty : empty.WellFiled := by
  intro f p hp
  simp [empty] at hp

theorem WellFiled.insert (h : d.WellFiled) (p : Prefix) : (d.insert p).WellFiled := by
  intro f q hq
  unfold DenyList.insert at hq
  rw [PerFamily.get_set] at hq
  split at hq
  case isTrue hf =>
    rcases PrefixSet.mem_insert.mp hq with rfl | hq
    · exact hf.symm
    · exact hf ▸ h p.family q hq
  case isFalse => exact h f q hq

theorem wellFiled_ofList (ps : List Prefix) : (ofList ps).WellFiled := by
  suffices h : ∀ d : DenyList, d.WellFiled → (ps.foldl DenyList.insert d).WellFiled from
    h empty wellFiled_empty
  induction ps with
  | nil => exact fun d hd => hd
  | cons p ps ih => exact fun d hd => ih (d.insert p) (hd.insert p)

end DenyList

end IngressGuard
