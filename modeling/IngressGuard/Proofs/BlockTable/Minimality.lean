import IngressGuard.Proofs.BlockTable

/-!
# As few writes as possible

A table difference is written one prefix at a time.  In whatever order its inserts go out, and then
its removes, they turn the table into the desired one; the inserts lose no prefix that was there,
and the removes lose none that is desired.  No sequence of single writes gets there with fewer
(`TableDiff.between_optimal`).

The argument takes the number of writes that a difference needs as a distance.  A single write
changes a set in one prefix only, so it shortens the distance by one at most
(`TableDiff.writeCount_le_succ`), and any sequence by at most its length.
-/

namespace IngressGuard

/-- A write of a single prefix. -/
inductive TableWrite where
  | insert (p : Prefix)
  | remove (p : Prefix)
  deriving DecidableEq, Repr

namespace TableWrite

/-- The prefix that is written. -/
def entry : TableWrite → Prefix
  | insert p | remove p => p

/-- What a write turns a set into. -/
def carryOut (s : PrefixSet) : TableWrite → PrefixSet
  | insert p => s.insert p
  | remove p => s.erase p

/-- What writes turn a set into, one after the other. -/
def carryOutAll (ws : List TableWrite) (s : PrefixSet) : PrefixSet := ws.foldl carryOut s

variable {s : PrefixSet} {w : TableWrite} {q : Prefix} {ps : List Prefix}

theorem mem_carryOut_of_ne (h : q ≠ w.entry) : q ∈ carryOut s w ↔ q ∈ s := by
  cases w with
  | insert p => exact PrefixSet.mem_insert.trans (or_iff_right h)
  | remove p => exact PrefixSet.mem_erase.trans (and_iff_right h)

theorem carryOutAll_append (before after : List TableWrite) (s : PrefixSet) :
    carryOutAll (before ++ after) s = carryOutAll after (carryOutAll before s) :=
  List.foldl_append

theorem mem_carryOutAll_inserts :
    q ∈ carryOutAll (ps.map insert) s ↔ q ∈ ps ∨ q ∈ s := by
  have hstep : ∀ (p : Prefix) (s : PrefixSet), q ∈ carryOut s (insert p) ↔ q = p ∨ q ∈ s :=
    fun _ _ => PrefixSet.mem_insert
  rw [carryOutAll, List.foldl_map]
  refine (BlockTables.foldl_gains (P := (q ∈ ·)) hstep).trans ?_
  simp

theorem mem_carryOutAll_removes :
    q ∈ carryOutAll (ps.map remove) s ↔ q ∉ ps ∧ q ∈ s := by
  have hstep : ∀ (p : Prefix) (s : PrefixSet), q ∈ carryOut s (remove p) ↔ ¬q = p ∧ q ∈ s :=
    fun _ _ => PrefixSet.mem_erase
  rw [carryOutAll, List.foldl_map]
  refine (BlockTables.foldl_loses (P := (q ∈ ·)) hstep).trans ?_
  simp

end TableWrite

namespace TableDiff

open TableWrite (carryOut carryOutAll)

variable {s t baseline desired : PrefixSet} {p : Prefix}

/-! ## A difference in any order -/

section AnyOrder

variable {adds removes : List Prefix} {done : List TableWrite}
  (hadds : adds.Perm (between baseline desired).toAdd.toList)
  (hremoves : removes.Perm (between baseline desired).toRemove.toList)

include hadds in
theorem mem_adds : p ∈ adds ↔ p ∈ desired ∧ p ∉ baseline :=
  hadds.mem_iff.trans (Std.ExtTreeSet.mem_toList.trans Std.ExtTreeSet.mem_diff_iff)

include hremoves in
theorem mem_removes : p ∈ removes ↔ p ∈ baseline ∧ p ∉ desired :=
  hremoves.mem_iff.trans (Std.ExtTreeSet.mem_toList.trans Std.ExtTreeSet.mem_diff_iff)

include hadds in
/-- When the inserts are done, everything is there that was there before or is desired. -/
theorem mem_inserted :
    p ∈ carryOutAll (adds.map .insert) baseline ↔ p ∈ desired ∨ p ∈ baseline := by
  rw [TableWrite.mem_carryOutAll_inserts, mem_adds hadds]
  by_cases hp : p ∈ baseline <;> simp [hp]

include hadds hremoves in
theorem carryOutAll_eq_desired :
    carryOutAll (adds.map .insert ++ removes.map .remove) baseline = desired := by
  refine Std.ExtTreeSet.ext_mem fun p => ?_
  rw [TableWrite.carryOutAll_append, TableWrite.mem_carryOutAll_removes, mem_inserted hadds,
    mem_removes hremoves]
  by_cases hp : p ∈ desired <;> simp [hp]

/-- The inserts never lose a prefix, however many of them are done. -/
theorem mem_of_inserting (hdone : done <+: adds.map .insert) (hp : p ∈ baseline) :
    p ∈ carryOutAll done baseline := by
  obtain ⟨ps, -, rfl⟩ := List.prefix_map_iff.mp hdone
  exact TableWrite.mem_carryOutAll_inserts.mpr (.inr hp)

include hadds hremoves in
/-- The removes never lose a prefix that is desired, however many of them are done. -/
theorem mem_of_removing (hdone : done <+: removes.map .remove) (hp : p ∈ desired) :
    p ∈ carryOutAll (adds.map .insert ++ done) baseline := by
  obtain ⟨ps, hps, rfl⟩ := List.prefix_map_iff.mp hdone
  rw [TableWrite.carryOutAll_append, TableWrite.mem_carryOutAll_removes, mem_inserted hadds]
  exact ⟨fun hmem => ((mem_removes hremoves).mp (hps.subset hmem)).2 hp, .inl hp⟩

include hadds hremoves in
theorem length_writes :
    (adds.map TableWrite.insert ++ removes.map TableWrite.remove).length =
      (between baseline desired).writeCount := by
  rw [List.length_append, List.length_map, List.length_map, hadds.length_eq, hremoves.length_eq,
    Std.ExtTreeSet.length_toList, Std.ExtTreeSet.length_toList]
  rfl

end AnyOrder

/-! ## No fewer writes -/

theorem writeCount_between_self (s : PrefixSet) : (between s s).writeCount = 0 := by
  have hnone : s \ s = ∅ := by
    refine Std.ExtTreeSet.eq_empty_iff_forall_not_mem.mpr fun p hp => ?_
    obtain ⟨hmem, hnot⟩ := Std.ExtTreeSet.mem_diff_iff.mp hp
    exact hnot hmem
  rw [writeCount, between, hnone]
  rfl

/-- If a set changes in one prefix only, at most one write less is needed: that prefix is either
desired, and then it is no longer to be inserted, or it is not, and then it is no longer to be
removed. -/
theorem writeCount_le_succ (h : ∀ q, q ≠ p → (q ∈ t ↔ q ∈ s)) :
    (between s desired).writeCount ≤ (between t desired).writeCount + 1 := by
  have hadd : ∀ q, q ≠ p → q ∈ desired \ s → q ∈ desired \ t := by
    intro q hq hmem
    rw [Std.ExtTreeSet.mem_diff_iff] at hmem ⊢
    rwa [h q hq]
  have hremove : ∀ q, q ≠ p → q ∈ s \ desired → q ∈ t \ desired := by
    intro q hq hmem
    rw [Std.ExtTreeSet.mem_diff_iff] at hmem ⊢
    rwa [h q hq]
  show (desired \ s).size + (s \ desired).size ≤ (desired \ t).size + (t \ desired).size + 1
  by_cases hp : p ∈ desired
  · have hnot : p ∉ s \ desired := fun hmem => (Std.ExtTreeSet.mem_diff_iff.mp hmem).2 hp
    have hadds := PrefixSet.size_le_succ hadd
    have hremoves := PrefixSet.size_le_of_not_mem hremove hnot
    omega
  · have hnot : p ∉ desired \ s := fun hmem => hp (Std.ExtTreeSet.mem_diff_iff.mp hmem).1
    have hadds := PrefixSet.size_le_of_not_mem hadd hnot
    have hremoves := PrefixSet.size_le_succ hremove
    omega

/-- Writes bring a set closer to the desired one by at most as much as they are. -/
theorem writeCount_le_add_length (ws : List TableWrite) (s : PrefixSet) :
    (between s desired).writeCount ≤
      (between (carryOutAll ws s) desired).writeCount + ws.length := by
  induction ws generalizing s with
  | nil => exact Nat.le_refl _
  | cons w ws ih =>
    have hfirst : (between s desired).writeCount ≤
        (between (carryOut s w) desired).writeCount + 1 :=
      writeCount_le_succ fun q => TableWrite.mem_carryOut_of_ne
    have hrest := ih (carryOut s w)
    show _ ≤ (between (carryOutAll ws (carryOut s w)) desired).writeCount + (ws.length + 1)
    omega

theorem writeCount_le_length {ws : List TableWrite} (h : carryOutAll ws baseline = desired) :
    (between baseline desired).writeCount ≤ ws.length := by
  calc
    (between baseline desired).writeCount ≤
        (between (carryOutAll ws baseline) desired).writeCount + ws.length :=
      writeCount_le_add_length ws baseline
    _ = ws.length := by rw [h, writeCount_between_self, Nat.zero_add]

/-- In whatever order the inserts of a difference go out, and then its removes, they turn the
baseline into the desired set.  On the way, the inserts lose no prefix of the baseline, and the
removes lose no desired one.  Any single writes that turn the baseline into the desired set are at
least as many. -/
theorem between_optimal (baseline desired : PrefixSet) :
    (∀ adds removes : List Prefix, adds.Perm (between baseline desired).toAdd.toList →
      removes.Perm (between baseline desired).toRemove.toList →
      let inserts := adds.map TableWrite.insert
      let removals := removes.map TableWrite.remove
      carryOutAll (inserts ++ removals) baseline = desired ∧
      (inserts ++ removals).length = (between baseline desired).writeCount ∧
      (∀ done, done <+: inserts → ∀ p ∈ baseline, p ∈ carryOutAll done baseline) ∧
      ∀ done, done <+: removals → ∀ p ∈ desired, p ∈ carryOutAll (inserts ++ done) baseline) ∧
    ∀ ws, carryOutAll ws baseline = desired → (between baseline desired).writeCount ≤ ws.length := by
  refine ⟨fun adds removes hadds hremoves => ⟨?_, ?_, ?_, ?_⟩, fun ws => writeCount_le_length⟩
  · exact carryOutAll_eq_desired hadds hremoves
  · exact length_writes hadds hremoves
  · exact fun done hdone p => mem_of_inserting hdone
  · exact fun done hdone p => mem_of_removing hadds hremoves hdone

/-- The prefix of one IPv4 address. -/
def address (n : Nat) : Prefix := .host (.ofNat .ipv4 n)

/-- A set of two addresses. -/
def earlier : PrefixSet := .ofList [address 1, address 2]

/-- One address of `earlier`, and two others. -/
def later : PrefixSet := .ofList [address 2, address 3, address 4]

/-- The two new addresses may go out in either order.  The address that stays is there all the
time, and the change takes three writes however it is made. -/
theorem between_optimal_reversed :
    [address 4, address 3].Perm (between earlier later).toAdd.toList ∧
    [address 1].Perm (between earlier later).toRemove.toList ∧
    carryOutAll [.insert (address 4), .insert (address 3), .remove (address 1)] earlier = later ∧
    address 2 ∈ carryOutAll [.insert (address 4)] earlier ∧
    address 2 ∈ carryOutAll [.insert (address 4), .insert (address 3)] earlier ∧
    ∀ ws, carryOutAll ws earlier = later → 3 ≤ ws.length := by
  have hadds : [address 4, address 3].Perm (between earlier later).toAdd.toList := by
    decide +kernel
  have hremoves : [address 1].Perm (between earlier later).toRemove.toList := by decide +kernel
  have hcount : (between earlier later).writeCount = 3 := by decide +kernel
  have hearlier : address 2 ∈ earlier := by decide +kernel
  have hlater : address 2 ∈ later := by decide +kernel
  obtain ⟨hall, hfewest⟩ := between_optimal earlier later
  obtain ⟨hreaches, -, hinserting, hremoving⟩ := hall _ _ hadds hremoves
  refine ⟨hadds, hremoves, hreaches, ?_, ?_, fun ws hws => ?_⟩
  · exact hinserting _ (List.prefix_append [TableWrite.insert (address 4)] _) _ hearlier
  · exact hremoving [] List.nil_prefix _ hlater
  · rw [← hcount]
    exact hfewest ws hws

end TableDiff

end IngressGuard
