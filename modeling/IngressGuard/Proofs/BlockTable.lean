import IngressGuard.BlockTable
import IngressGuard.Proofs.Kernel.Interface

/-!
# Bringing tables to a deny list

The writes of a run are computed from a baseline, which may be wrong about the kernel.  The
writes themselves are described by what they do to `Holds` and `HasTable`, one phase after the
other; planning adds which prefixes they are about.  Together they say when a run that succeeds
leaves the tables that enforce the deny list (`BlockTables.ensures_apply`): always if it has read
the kernel, and otherwise exactly if what was applied last is right where it matters.
-/

namespace IngressGuard

open Kernel (Work InterfaceState)

namespace BlockTables

/-! ## Folds of changes -/

section Folds

variable {σ β : Type} {op : σ → β → σ} {P : σ → Prop} {A : β → Prop} {l : List β} {s : σ}

theorem foldl_gains (h : ∀ b s, P (op s b) ↔ A b ∨ P s) :
    P (l.foldl op s) ↔ (∃ b ∈ l, A b) ∨ P s := by
  induction l generalizing s with
  | nil => simp
  | cons b l ih =>
    simp only [List.foldl_cons, ih, h, List.mem_cons, or_and_right, exists_or, exists_eq_left]
    rw [or_assoc, or_left_comm]

theorem foldl_loses (h : ∀ b s, P (op s b) ↔ ¬A b ∧ P s) :
    P (l.foldl op s) ↔ (¬∃ b ∈ l, A b) ∧ P s := by
  induction l generalizing s with
  | nil => simp
  | cons b l ih =>
    simp only [List.foldl_cons, ih, h, List.mem_cons, or_and_right, exists_or, exists_eq_left,
      not_or]
    rw [and_assoc, and_left_comm]

theorem foldl_keeps {γ : Type} {V : σ → γ} (h : ∀ b s, V (op s b) = V s) :
    V (l.foldl op s) = V s := by
  induction l generalizing s with
  | nil => rfl
  | cons b l ih => rw [List.foldl_cons, ih, h]

end Folds

/-! ## Writing -/

variable {mayFail : Prop} {name : String} {t : BlockTables} {s : InterfaceState}

/-- A run that failed: something made a call fail, nothing is remembered of the run, and the
program is as it was. -/
structure Failed (mayFail : Prop) (t : BlockTables) (s : InterfaceState) (e : CycleError)
    (t' : BlockTables) (s' : InterfaceState) : Prop where
  cause : mayFail
  error : ∃ i f stage k, e = .applyFailed i f stage k
  tables : t' = t
  program : s'.program = s.program

/-- A loop over writes that leave the program alone carries out all of them. -/
theorem ensures_writes {β : Type} {w : β → TableWork Unit}
    (op : InterfaceState → β → InterfaceState) (hprogram : ∀ b s, (op s b).program = s.program)
    (hw : ∀ b s, Work.Ensures (InterfaceState.behaviour mayFail) (w b)
      (fun _ t' s' => t' = t ∧ s' = op s b) (Failed mayFail t s) t s) (l : List β) :
    Work.Ensures (InterfaceState.behaviour mayFail) (Work.each w l)
      (fun _ t' s' => t' = t ∧ s' = l.foldl op s) (Failed mayFail t s) t s := by
  refine Work.ensures_each (I := fun before s' => s' = before.foldl op s) ?_ rfl
  rintro before b after - _ rfl
  refine (hw b (before.foldl op s)).mono ?_ ?_
  · rintro _ t' s' ⟨rfl, rfl⟩
    exact ⟨rfl, by rw [List.foldl_append, List.foldl_cons, List.foldl_nil]⟩
  · rintro e t' s' ⟨cause, error, rfl, program⟩
    exact ⟨cause, error, rfl, program.trans (foldl_keeps hprogram)⟩

theorem ensures_insertEntry (f : Family) (p : Prefix) :
    Work.Ensures (InterfaceState.behaviour mayFail) (insertEntry name f p)
      (fun _ t' s' => t' = t ∧ s' = s.insert p) (Failed mayFail t s) t s := by
  refine Work.ensures_bind.mpr (Work.ensures_note.mpr (InterfaceState.ensures_insert.mpr ?_))
  exact ⟨⟨rfl, rfl⟩, fun hf e => ⟨hf, ⟨_, _, _, _, rfl⟩, rfl, rfl⟩⟩

theorem ensures_removeEntry (f : Family) (p : Prefix) :
    Work.Ensures (InterfaceState.behaviour mayFail) (removeEntry name f p)
      (fun _ t' s' => t' = t ∧ s' = s.remove p) (Failed mayFail t s) t s := by
  refine Work.ensures_bind.mpr (Work.ensures_note.mpr (InterfaceState.ensures_remove.mpr ?_))
  exact ⟨⟨rfl, rfl⟩, fun hf e => ⟨hf, ⟨_, _, _, _, rfl⟩, rfl, rfl⟩⟩

/-- Inserts the prefixes of a plan. -/
def FamilyPlan.insertAll (s : InterfaceState) (plan : FamilyPlan) : InterfaceState :=
  plan.diff.toAdd.toList.foldl InterfaceState.insert s

/-- Removes the prefixes of a plan. -/
def FamilyPlan.removeAll (s : InterfaceState) (plan : FamilyPlan) : InterfaceState :=
  plan.diff.toRemove.toList.foldl InterfaceState.remove s

/-- Deletes the table of a plan, if it should be deleted. -/
def FamilyPlan.destroyTable (s : InterfaceState) (plan : FamilyPlan) : InterfaceState :=
  if plan.destroys then s.destroy plan.family else s

/-- What plans turn a state into. -/
def written (plans : List FamilyPlan) (s : InterfaceState) : InterfaceState :=
  plans.foldl FamilyPlan.destroyTable
    (plans.foldl FamilyPlan.removeAll (plans.foldl FamilyPlan.insertAll s))

theorem FamilyPlan.program_insertAll (plan : FamilyPlan) (s : InterfaceState) :
    (insertAll s plan).program = s.program :=
  foldl_keeps fun _ _ => rfl

theorem FamilyPlan.program_removeAll (plan : FamilyPlan) (s : InterfaceState) :
    (removeAll s plan).program = s.program :=
  foldl_keeps fun _ _ => rfl

theorem FamilyPlan.program_destroyTable (plan : FamilyPlan) (s : InterfaceState) :
    (destroyTable s plan).program = s.program := by
  unfold destroyTable
  split <;> rfl

theorem program_written (plans : List FamilyPlan) : (written plans s).program = s.program := by
  unfold written
  rw [foldl_keeps FamilyPlan.program_destroyTable, foldl_keeps FamilyPlan.program_removeAll,
    foldl_keeps FamilyPlan.program_insertAll]

theorem FamilyPlan.holds_insertAll (plan : FamilyPlan) (s : InterfaceState) (q : Prefix) :
    (insertAll s plan).Holds q ↔ q ∈ plan.diff.toAdd ∨ s.Holds q := by
  have hstep : ∀ (p : Prefix) (s : InterfaceState), (s.insert p).Holds q ↔ q = p ∨ s.Holds q :=
    fun _ _ => InterfaceState.holds_insert
  refine (foldl_gains (P := (InterfaceState.Holds · q)) hstep).trans ?_
  simp

theorem FamilyPlan.holds_removeAll (plan : FamilyPlan) (s : InterfaceState) (q : Prefix) :
    (removeAll s plan).Holds q ↔ ¬q ∈ plan.diff.toRemove ∧ s.Holds q := by
  have hstep : ∀ (p : Prefix) (s : InterfaceState), (s.remove p).Holds q ↔ ¬q = p ∧ s.Holds q :=
    fun _ _ => InterfaceState.holds_remove
  refine (foldl_loses (P := (InterfaceState.Holds · q)) hstep).trans ?_
  simp

theorem FamilyPlan.holds_destroyTable (plan : FamilyPlan) (s : InterfaceState) (q : Prefix) :
    (destroyTable s plan).Holds q ↔
      ¬(plan.destroys = true ∧ q.family = plan.family) ∧ s.Holds q := by
  unfold destroyTable
  split <;> simp_all

/-- What the tables hold when all inserts are done. -/
theorem holds_inserted (plans : List FamilyPlan) (q : Prefix) :
    (plans.foldl FamilyPlan.insertAll s).Holds q ↔
      (∃ plan ∈ plans, q ∈ plan.diff.toAdd) ∨ s.Holds q :=
  foldl_gains (P := (InterfaceState.Holds · q)) fun plan s => plan.holds_insertAll s q

theorem holds_written (plans : List FamilyPlan) (q : Prefix) :
    (written plans s).Holds q ↔
      (¬∃ plan ∈ plans, plan.destroys = true ∧ q.family = plan.family) ∧
      (¬∃ plan ∈ plans, q ∈ plan.diff.toRemove) ∧
      ((∃ plan ∈ plans, q ∈ plan.diff.toAdd) ∨ s.Holds q) := by
  unfold written
  rw [foldl_loses (P := (InterfaceState.Holds · q)) fun plan s => plan.holds_destroyTable s q,
    foldl_loses (P := (InterfaceState.Holds · q)) fun plan s => plan.holds_removeAll s q,
    holds_inserted]

theorem hasTable_written (plans : List FamilyPlan) (f : Family) :
    (written plans s).HasTable f ↔
      (¬∃ plan ∈ plans, plan.destroys = true ∧ f = plan.family) ∧
      ((∃ plan ∈ plans, ∃ p ∈ plan.diff.toAdd, f = p.family) ∨ s.HasTable f) := by
  have hinsert : ∀ (plan : FamilyPlan) (s : InterfaceState),
      (FamilyPlan.insertAll s plan).HasTable f ↔
        (∃ p ∈ plan.diff.toAdd, f = p.family) ∨ s.HasTable f := by
    intro plan s
    have hstep : ∀ (p : Prefix) (s : InterfaceState),
        (s.insert p).HasTable f ↔ f = p.family ∨ s.HasTable f :=
      fun _ _ => InterfaceState.hasTable_insert
    refine (foldl_gains (P := (InterfaceState.HasTable · f)) hstep).trans ?_
    simp
  have hremove : ∀ (plan : FamilyPlan) (s : InterfaceState),
      (FamilyPlan.removeAll s plan).HasTable f = s.HasTable f :=
    fun _ _ => foldl_keeps (V := (InterfaceState.HasTable · f)) fun _ _ =>
      propext InterfaceState.hasTable_remove
  have hdestroy : ∀ (plan : FamilyPlan) (s : InterfaceState),
      (FamilyPlan.destroyTable s plan).HasTable f ↔
        ¬(plan.destroys = true ∧ f = plan.family) ∧ s.HasTable f := by
    intro plan s
    unfold FamilyPlan.destroyTable
    split <;> simp_all
  unfold written
  rw [foldl_loses (P := (InterfaceState.HasTable · f)) hdestroy,
    foldl_keeps (V := (InterfaceState.HasTable · f)) hremove,
    foldl_gains (P := (InterfaceState.HasTable · f)) hinsert]

theorem ensures_insertAll (plan : FamilyPlan) (s : InterfaceState) :
    Work.Ensures (InterfaceState.behaviour mayFail)
      (Work.each (insertEntry name plan.family) plan.diff.toAdd.toList)
      (fun _ t' s' => t' = t ∧ s' = plan.insertAll s) (Failed mayFail t s) t s :=
  ensures_writes .insert (fun _ _ => rfl) (fun p _ => ensures_insertEntry plan.family p) _

theorem ensures_removeAll (plan : FamilyPlan) (s : InterfaceState) :
    Work.Ensures (InterfaceState.behaviour mayFail)
      (Work.each (removeEntry name plan.family) plan.diff.toRemove.toList)
      (fun _ t' s' => t' = t ∧ s' = plan.removeAll s) (Failed mayFail t s) t s :=
  ensures_writes .remove (fun _ _ => rfl) (fun p _ => ensures_removeEntry plan.family p) _

theorem ensures_destroyTable (plan : FamilyPlan) (s : InterfaceState) :
    Work.Ensures (InterfaceState.behaviour mayFail) (destroyTable name plan)
      (fun _ t' s' => t' = t ∧ s' = plan.destroyTable s) (Failed mayFail t s) t s := by
  by_cases hdestroys : plan.destroys = true
  · simp only [BlockTables.destroyTable, FamilyPlan.destroyTable, hdestroys, if_true]
    refine InterfaceState.ensures_destroy.mpr ?_
    exact ⟨⟨rfl, rfl⟩, fun hf e => ⟨hf, ⟨_, _, _, _, rfl⟩, rfl, rfl⟩⟩
  · simp only [BlockTables.destroyTable, FamilyPlan.destroyTable, hdestroys]
    refine Work.ensures_pure.mpr ?_
    exact ⟨rfl, rfl⟩

theorem ensures_writePlans (plans : List FamilyPlan) :
    Work.Ensures (InterfaceState.behaviour mayFail) (writePlans name plans)
      (fun _ t' s' => t' = t ∧ s' = written plans s) (Failed mayFail t s) t s := by
  refine Work.ensures_bind.mpr
    ((ensures_writes _ FamilyPlan.program_insertAll ensures_insertAll plans).mono ?_ ?_)
  · rintro _ _ _ ⟨rfl, rfl⟩
    refine Work.ensures_bind.mpr
      ((ensures_writes _ FamilyPlan.program_removeAll ensures_removeAll plans).mono ?_ ?_)
    · rintro _ _ _ ⟨rfl, rfl⟩
      refine (ensures_writes _ FamilyPlan.program_destroyTable ensures_destroyTable plans).mono
        (fun _ _ _ h => h) ?_
      rintro e t' s' ⟨cause, error, rfl, program⟩
      rw [foldl_keeps FamilyPlan.program_removeAll, foldl_keeps FamilyPlan.program_insertAll]
        at program
      exact ⟨cause, error, rfl, program⟩
    · rintro e t' s' ⟨cause, error, rfl, program⟩
      rw [foldl_keeps FamilyPlan.program_insertAll] at program
      exact ⟨cause, error, rfl, program⟩
  · exact fun _ _ _ h => h

/-! ## Planning -/

section Planning

variable {f g : Family} {base wanted : PrefixSet} {tableExists : Bool} {q : Prefix}

/-- A plan that is left out would not write anything. -/
theorem exists_mem_planOf {P : FamilyPlan → Prop}
    (h : P ⟨f, .between base wanted, wanted.isEmpty && tableExists⟩ →
      (!(TableDiff.between base wanted).isEmpty || wanted.isEmpty && tableExists) = true) :
    (∃ plan ∈ planOf f base wanted tableExists, P plan) ↔
      P ⟨f, .between base wanted, wanted.isEmpty && tableExists⟩ := by
  unfold planOf
  dsimp only
  split
  case isTrue => simp
  case isFalse hempty => simpa using fun hP => hempty (h hP)

theorem exists_plan_adds :
    (∃ plan ∈ planOf f base wanted tableExists, q ∈ plan.diff.toAdd) ↔
      q ∈ wanted ∧ q ∉ base := by
  rw [exists_mem_planOf]
  · exact Std.ExtTreeSet.mem_diff_iff
  · intro hq
    have hne := PrefixSet.isEmpty_eq_false_of_mem hq
    simp only [TableDiff.isEmpty, hne, Bool.false_and, Bool.not_false, Bool.true_or]

theorem exists_plan_removes :
    (∃ plan ∈ planOf f base wanted tableExists, q ∈ plan.diff.toRemove) ↔
      q ∈ base ∧ q ∉ wanted := by
  rw [exists_mem_planOf]
  · exact Std.ExtTreeSet.mem_diff_iff
  · intro hq
    have hne := PrefixSet.isEmpty_eq_false_of_mem hq
    simp only [TableDiff.isEmpty, hne, Bool.and_false, Bool.not_false, Bool.true_or]

theorem exists_plan_destroys :
    (∃ plan ∈ planOf f base wanted tableExists, plan.destroys = true ∧ g = plan.family) ↔
      wanted.isEmpty = true ∧ tableExists = true ∧ g = f := by
  rw [exists_mem_planOf]
  · rw [Bool.and_eq_true, and_assoc]
  · intro hdestroys
    exact Bool.or_eq_true_iff.mpr (.inr hdestroys.1)

end Planning

end BlockTables

namespace Baseline

variable {b : Baseline} {t : BlockTables} {s : InterfaceState} {f : Family} {p : Prefix}

/-- The prefixes that a family's table is taken to hold. -/
def entries (b : Baseline) (t : BlockTables) (s : InterfaceState) (f : Family) : PrefixSet :=
  match b with
  | .lastApplied => t.lastApplied.get f
  | .kernel => (s.tables.get f).getD ∅

/-- Whether a family is taken to have a table. -/
def tableExists (b : Baseline) (t : BlockTables) (s : InterfaceState) (f : Family) : Bool :=
  match b with
  | .lastApplied => !(t.lastApplied.get f).isEmpty
  | .kernel => (s.tables.get f).isSome

/-- Whether a baseline has every prefix under its own family.  A table always has. -/
def Filed (b : Baseline) (t : BlockTables) : Prop := b = .kernel ∨ t.lastApplied.WellFiled

theorem Filed.family_eq (h : b.Filed t) (hp : p ∈ b.entries t s f) : p.family = f := by
  cases b with
  | lastApplied => exact h.resolve_left nofun f p hp
  | kernel => exact (InterfaceState.mem_getD_iff.mp hp).1

end Baseline

namespace BlockTables

variable {mayFail : Prop} {name : String} {t : BlockTables} {s : InterfaceState}
  {wanted : DenyList} {b : Baseline}

/-- The plans of both families. -/
def plans (wanted : DenyList) (b : Baseline) (t : BlockTables) (s : InterfaceState) :
    List FamilyPlan :=
  planOf .ipv4 (b.entries t s .ipv4) (wanted.get .ipv4) (b.tableExists t s .ipv4) ++
    planOf .ipv6 (b.entries t s .ipv6) (wanted.get .ipv6) (b.tableExists t s .ipv6)

theorem exists_mem_plans {P : FamilyPlan → Prop} :
    (∃ plan ∈ plans wanted b t s, P plan) ↔
      ∃ f, ∃ plan ∈ planOf f (b.entries t s f) (wanted.get f) (b.tableExists t s f), P plan := by
  simp only [plans, List.mem_append, or_and_right, exists_or]
  constructor
  · rintro (h | h)
    · exact ⟨.ipv4, h⟩
    · exact ⟨.ipv6, h⟩
  · rintro ⟨_ | _, h⟩
    · exact .inl h
    · exact .inr h

theorem ensures_planFamily (f : Family) :
    Work.Ensures (InterfaceState.behaviour mayFail) (planFamily name wanted b f)
      (fun r t' s' => t' = t ∧ s' = s ∧
        r.1 = planOf f (b.entries t s f) (wanted.get f) (b.tableExists t s f))
      (Failed mayFail t s) t s := by
  refine Work.ensures_bind.mpr (Work.ensures_get.mpr ?_)
  cases b with
  | lastApplied => exact Work.ensures_pure.mpr ⟨rfl, rfl, rfl⟩
  | kernel =>
    refine Work.ensures_bind.mpr (InterfaceState.ensures_read.mpr ⟨?_, fun hf e => ?_⟩)
    · exact Work.ensures_pure.mpr ⟨rfl, rfl, rfl⟩
    · exact ⟨hf, ⟨_, _, _, _, rfl⟩, rfl, rfl⟩

/-- A run that succeeds has carried out the plans of its baseline. -/
theorem ensures_apply_written :
    Work.Ensures (InterfaceState.behaviour mayFail) (apply name wanted b)
      (fun _ t' s' => t' = ⟨wanted, true⟩ ∧ s' = written (plans wanted b t s) s)
      (Failed mayFail t s) t s := by
  refine Work.ensures_bind.mpr ((ensures_planFamily .ipv4).mono ?_ fun _ _ _ h => h)
  rintro ⟨plans4, drift4⟩ _ _ ⟨rfl, rfl, rfl⟩
  refine Work.ensures_bind.mpr ((ensures_planFamily .ipv6).mono ?_ fun _ _ _ h => h)
  rintro ⟨plans6, drift6⟩ _ _ ⟨rfl, rfl, rfl⟩
  refine Work.ensures_bind.mpr ((ensures_writePlans _).mono ?_ fun _ _ _ h => h)
  rintro _ _ _ ⟨rfl, rfl⟩
  refine Work.ensures_bind.mpr (Work.ensures_modify.mpr ?_)
  dsimp only
  split
  · refine Work.ensures_bind.mpr (Work.ensures_note.mpr (Work.ensures_pure.mpr ?_))
    exact ⟨rfl, rfl⟩
  · refine Work.ensures_bind.mpr (Work.ensures_pure.mpr (Work.ensures_pure.mpr ?_))
    exact ⟨rfl, rfl⟩

/-! ## What is left in the tables -/

/-- A family is only concerned with prefixes of its own. -/
theorem exists_family {P : Family → Prop} {q : Prefix} (h : ∀ f, P f → q.family = f) :
    (∃ f, P f) ↔ P q.family := by
  constructor
  · rintro ⟨f, hP⟩
    rwa [h f hP]
  · exact fun hP => ⟨_, hP⟩

theorem exists_plan_adds_iff (filed : wanted.WellFiled) (q : Prefix) :
    (∃ plan ∈ plans wanted b t s, q ∈ plan.diff.toAdd) ↔
      q ∈ wanted.get q.family ∧ q ∉ b.entries t s q.family := by
  rw [exists_mem_plans]
  simp only [exists_plan_adds]
  exact exists_family fun f hq => filed f q hq.1

theorem exists_plan_removes_iff (hb : b.Filed t) (q : Prefix) :
    (∃ plan ∈ plans wanted b t s, q ∈ plan.diff.toRemove) ↔
      q ∈ b.entries t s q.family ∧ q ∉ wanted.get q.family := by
  rw [exists_mem_plans]
  simp only [exists_plan_removes]
  exact exists_family fun f hq => hb.family_eq hq.1

theorem exists_plan_destroys_iff (f : Family) :
    (∃ plan ∈ plans wanted b t s, plan.destroys = true ∧ f = plan.family) ↔
      (wanted.get f).isEmpty = true ∧ b.tableExists t s f = true := by
  rw [exists_mem_plans]
  simp only [exists_plan_destroys]
  constructor
  · rintro ⟨g, hempty, hexists, rfl⟩
    exact ⟨hempty, hexists⟩
  · exact fun h => ⟨f, h.1, h.2, rfl⟩

theorem hasTable_written_plans (filed : wanted.WellFiled) (f : Family) :
    (written (plans wanted b t s) s).HasTable f ↔
      ¬((wanted.get f).isEmpty = true ∧ b.tableExists t s f = true) ∧
      ((∃ p ∈ wanted.get f, p ∉ b.entries t s f) ∨ s.HasTable f) := by
  rw [hasTable_written, exists_plan_destroys_iff]
  refine and_congr_right' (or_congr_left ?_)
  constructor
  · rintro ⟨plan, hplan, p, hp, rfl⟩
    exact ⟨p, (exists_plan_adds_iff filed p).mp ⟨plan, hplan, hp⟩⟩
  · rintro ⟨p, hp, hnew⟩
    have hpf := filed f p hp
    subst hpf
    obtain ⟨plan, hplan, hadd⟩ := (exists_plan_adds_iff filed p).mpr ⟨hp, hnew⟩
    exact ⟨plan, hplan, p, hadd, rfl⟩

theorem holds_written_plans (filed : wanted.WellFiled) (hb : b.Filed t) (q : Prefix) :
    (written (plans wanted b t s) s).Holds q ↔
      ¬((wanted.get q.family).isEmpty = true ∧ b.tableExists t s q.family = true) ∧
      ¬(q ∈ b.entries t s q.family ∧ q ∉ wanted.get q.family) ∧
      (q ∈ wanted.get q.family ∧ q ∉ b.entries t s q.family ∨ s.Holds q) := by
  rw [holds_written, exists_plan_destroys_iff, exists_plan_removes_iff hb,
    exists_plan_adds_iff filed]

/-- What was applied last is right about a family where it matters for a new deny list: of the
wanted prefixes that it has, none is missing from the table, and it has every prefix of the table
that is not wanted.  If no table is wanted, it only has to have something if there is one. -/
def Trustworthy (applied wanted : DenyList) (s : InterfaceState) (f : Family) : Prop :=
  if (wanted.get f).isEmpty then s.HasTable f → (applied.get f).isEmpty = false
  else ∀ p, p.family = f → (p ∈ wanted.get f → p ∈ applied.get f → s.Holds p) ∧
    (s.Holds p → p ∉ wanted.get f → p ∈ applied.get f)

/-- A run that has read the kernel leaves the tables that enforce the deny list. -/
theorem tables_written_kernel (filed : wanted.WellFiled) (f : Family) :
    (written (plans wanted .kernel t s) s).tables.get f = wanted.table f := by
  refine (InterfaceState.tables_eq_table_iff filed).mpr ⟨fun p => ?_, fun f => ?_⟩ f
  · have hentry : p ∈ Baseline.kernel.entries t s p.family ↔ s.Holds p :=
      InterfaceState.mem_getD_iff.trans (and_iff_right rfl)
    rw [holds_written_plans filed (.inl rfl), hentry]
    constructor
    · rintro ⟨-, hkept, hnew | hold⟩
      · exact hnew.1
      · exact Classical.byContradiction fun hp => hkept ⟨hold, hp⟩
    · intro hp
      refine ⟨fun h => ?_, fun h => h.2 hp, ?_⟩
      · rw [PrefixSet.isEmpty_eq_false_of_mem hp] at h
        cases h.1
      · by_cases hold : s.Holds p
        · exact .inr hold
        · exact .inl ⟨hp, hold⟩
  · rw [hasTable_written_plans filed]
    constructor
    · rintro ⟨hkept, ⟨p, hp, -⟩ | htable⟩
      · exact PrefixSet.isEmpty_eq_false_of_mem hp
      · exact Bool.eq_false_iff.mpr fun hempty => hkept ⟨hempty, htable⟩
    · intro hne
      refine ⟨fun h => by simp [hne] at h, ?_⟩
      obtain ⟨p, hp⟩ := PrefixSet.isEmpty_eq_false_iff.mp hne
      by_cases hold : p ∈ Baseline.kernel.entries t s f
      · obtain ⟨rfl, hholds⟩ := InterfaceState.mem_getD_iff.mp hold
        exact .inr hholds.hasTable
      · exact .inl ⟨p, hp, hold⟩

theorem tableExists_lastApplied (f : Family) :
    Baseline.lastApplied.tableExists t s f = true ↔ (t.lastApplied.get f).isEmpty = false :=
  iff_of_eq (Bool.not_eq_true' _)

section LastApplied

variable (filed : wanted.WellFiled) (ht : t.lastApplied.WellFiled)
include filed ht

theorem holds_written_of_trustworthy (p : Prefix)
    (h : Trustworthy t.lastApplied wanted s p.family) :
    (written (plans wanted .lastApplied t s) s).Holds p ↔ p ∈ wanted.get p.family := by
  rw [holds_written_plans filed (.inr ht), tableExists_lastApplied]
  unfold Trustworthy at h
  split at h
  case isTrue hempty =>
    -- Nothing is wanted, so whatever table there is gets deleted.
    have hp : p ∉ wanted.get p.family := PrefixSet.isEmpty_iff.mp hempty p
    refine iff_of_false ?_ hp
    rintro ⟨hkept, -, hnew | hold⟩
    · exact hp hnew.1
    · exact hkept ⟨hempty, h hold.hasTable⟩
  case isFalse hne =>
    obtain ⟨hpresent, hknown⟩ := h p rfl
    constructor
    · rintro ⟨-, hkept, hnew | hold⟩
      · exact hnew.1
      · exact Classical.byContradiction fun hp => hkept ⟨hknown hold hp, hp⟩
    · intro hp
      refine ⟨fun h => hne h.1, fun h => h.2 hp, ?_⟩
      by_cases happlied : p ∈ t.lastApplied.get p.family
      · exact .inr (hpresent hp happlied)
      · exact .inl ⟨hp, happlied⟩

theorem hasTable_written_of_trustworthy (f : Family)
    (h : Trustworthy t.lastApplied wanted s f) :
    (written (plans wanted .lastApplied t s) s).HasTable f ↔
      (wanted.get f).isEmpty = false := by
  by_cases hempty : (wanted.get f).isEmpty = true
  · rw [hasTable_written_plans filed, tableExists_lastApplied]
    refine iff_of_false ?_ (by simp [hempty])
    rw [Trustworthy, if_pos hempty] at h
    rintro ⟨hkept, ⟨p, hp, -⟩ | htable⟩
    · exact PrefixSet.isEmpty_iff.mp hempty p hp
    · exact hkept ⟨hempty, h htable⟩
  · refine iff_of_true ?_ (by simpa using hempty)
    obtain ⟨p, hp⟩ := PrefixSet.isEmpty_eq_false_iff.mp (Bool.eq_false_iff.mpr hempty)
    have hpf := filed f p hp
    subst hpf
    exact ((holds_written_of_trustworthy filed ht p h).mpr hp).hasTable

theorem trustworthy_of_tables_written
    (hholds : ∀ p, (written (plans wanted .lastApplied t s) s).Holds p ↔
      p ∈ wanted.get p.family)
    (htable : ∀ f, (written (plans wanted .lastApplied t s) s).HasTable f ↔
      (wanted.get f).isEmpty = false) (f : Family) :
    Trustworthy t.lastApplied wanted s f := by
  simp only [holds_written_plans filed (.inr ht), tableExists_lastApplied] at hholds
  simp only [hasTable_written_plans filed, tableExists_lastApplied] at htable
  unfold Trustworthy
  split
  case isTrue hempty =>
    intro hhas
    refine Bool.eq_false_iff.mpr fun happlied => ?_
    have hleft := (htable f).mp ⟨fun h => by simp [happlied] at h, .inr hhas⟩
    rw [hempty] at hleft
    cases hleft
  case isFalse hne =>
    rintro p rfl
    constructor
    · intro hp happlied
      obtain ⟨-, -, hnew | hold⟩ := (hholds p).mpr hp
      · exact absurd happlied hnew.2
      · exact hold
    · intro hold hp
      refine Classical.byContradiction fun happlied => hp ?_
      exact (hholds p).mp ⟨fun h => hne h.1, fun h => happlied h.1, .inr hold⟩

/-- A run that has not read the kernel leaves the tables that enforce the deny list exactly if
what was applied last can be trusted. -/
theorem tables_written_lastApplied :
    (∀ f, (written (plans wanted .lastApplied t s) s).tables.get f = wanted.table f) ↔
      ∀ f, Trustworthy t.lastApplied wanted s f := by
  rw [InterfaceState.tables_eq_table_iff filed]
  constructor
  · rintro ⟨hholds, htable⟩
    exact trustworthy_of_tables_written filed ht hholds htable
  · intro h
    exact ⟨fun p => holds_written_of_trustworthy filed ht p (h p.family),
      fun f => hasTable_written_of_trustworthy filed ht f (h f)⟩

end LastApplied

/-- Every run either fails, or it leaves the tables that enforce the deny list unless it has not
read the kernel and what was applied last cannot be trusted. -/
theorem ensures_apply (filed : wanted.WellFiled) :
    Work.Ensures (InterfaceState.behaviour mayFail) (apply name wanted b)
      (fun _ t' s' => t' = ⟨wanted, true⟩ ∧ s'.program = s.program ∧
        (b.Filed t → ((∀ f, s'.tables.get f = wanted.table f) ↔
          b = .kernel ∨ ∀ f, Trustworthy t.lastApplied wanted s f)))
      (Failed mayFail t s) t s := by
  refine ensures_apply_written.mono ?_ fun _ _ _ h => h
  rintro _ _ _ ⟨rfl, rfl⟩
  refine ⟨rfl, program_written _, fun hb => ?_⟩
  cases b with
  | kernel => exact iff_of_true (tables_written_kernel filed) (.inl rfl)
  | lastApplied =>
    have ht := hb.resolve_left nofun
    rw [tables_written_lastApplied filed ht, or_iff_right nofun]

end BlockTables

end IngressGuard
