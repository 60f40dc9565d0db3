import IngressGuard.Proofs.Cycle.Exactness
import IngressGuard.Proofs.Kernel.Passing

/-!
# What stays blocked while a cycle runs

Every insert goes out before any remove, across both families, so the states on the way are of
two kinds.  Until the last insert the tables only grow: nothing is lost.  From then on they hold
everything that is wanted: what they lose is not wanted, even where the wanted prefixes are other
ones than before.  In neither do they hold a prefix that was neither there nor wanted.  And while
there is something to block, a program of ours that is attached is left alone.

So an address that was blocked and is to stay blocked is blocked all the time, and a packet from
it is dropped all the time (`Context.cycle_passes`), wherever the cycle is cut off by a failure.
This is about states, not about ends of runs, so it rests on `Work.Maintains`.
-/

namespace IngressGuard

open Kernel (Work InterfaceState Model)

namespace Baseline

/-- No wanted prefix is taken to be in the tables that is not. -/
def Sound (b : Baseline) (wanted : DenyList) (t : BlockTables) (s : InterfaceState) : Prop :=
  ∀ p, p ∈ wanted.get p.family → p ∈ b.entries t s p.family → s.Holds p

variable {b : Baseline} {wanted : DenyList} {t : BlockTables} {s : InterfaceState}

theorem sound_kernel : Baseline.kernel.Sound wanted t s := by
  intro p _ hentry
  exact (InterfaceState.mem_getD_iff.mp hentry).2

theorem sound_of_eq_lastApplied (h : ∀ f, (s.tables.get f).getD ∅ = t.lastApplied.get f) :
    b.Sound wanted t s := by
  cases b with
  | kernel => exact sound_kernel
  | lastApplied =>
    intro p _ hentry
    rw [entries, ← h] at hentry
    exact (InterfaceState.mem_getD_iff.mp hentry).2

theorem filed_of_eq_lastApplied (h : ∀ f, (s.tables.get f).getD ∅ = t.lastApplied.get f) :
    b.Filed t := by
  refine .inr fun f p hp => ?_
  rw [← h] at hp
  exact (InterfaceState.mem_getD_iff.mp hp).1

theorem Sound.congr {s' : InterfaceState} (h : b.Sound wanted t s) (hs : s'.tables = s.tables) :
    b.Sound wanted t s' := by
  intro p hp hentry
  have hentries : b.entries t s' p.family = b.entries t s p.family := by
    cases b <;> simp only [entries, hs]
  have hheld := h p hp (hentries ▸ hentry)
  rwa [InterfaceState.Holds, hs]

end Baseline

namespace BlockTables

variable {mayFail : Prop} {name : String} {t : BlockTables} {s s' s'' : InterfaceState}
  {wanted : DenyList} {b : Baseline} {sound : Prop}

/-! ## States between two tables -/

/-- A state on the way from a state to a deny list. -/
structure Between (sound : Prop) (wanted : DenyList) (s s' : InterfaceState) : Prop where
  /-- A wanted prefix that was there stays. -/
  spared : ∀ p, p ∈ wanted.get p.family → s.Holds p → s'.Holds p
  /-- Nothing is missing that was there, or nothing is missing that is wanted. -/
  covered : sound →
    (∀ p, s.Holds p → s'.Holds p) ∨ ∀ p, p ∈ wanted.get p.family → s'.Holds p
  /-- Nothing is there that neither was there nor is wanted. -/
  within : ∀ p, s'.Holds p → s.Holds p ∨ p ∈ wanted.get p.family
  /-- With something to block, our program stays. -/
  program : wanted.isEmpty = false → s.carriesOurs = true → s'.program = s.program

theorem Between.start (s : InterfaceState) : Between sound wanted s s :=
  ⟨fun _ _ h => h, fun _ => .inl fun _ h => h, fun _ => .inl, fun _ _ => rfl⟩

theorem Between.congr {s₁ s₁' : InterfaceState} {sound' : Prop} (h : Between sound wanted s s')
    (hsound : sound' → sound) (hs : s₁.tables = s.tables) (hs' : s₁'.tables = s'.tables)
    (program : wanted.isEmpty = false → s₁.carriesOurs = true → s₁'.program = s₁.program) :
    Between sound' wanted s₁ s₁' := by
  obtain ⟨spared, covered, within, -⟩ := h
  simp only [InterfaceState.Holds, ← hs, ← hs'] at spared covered within
  exact ⟨spared, fun hs => covered (hsound hs), within, program⟩

/-- A state from the start to the last insert: the tables have only grown. -/
structure Growing (wanted : DenyList) (s s' : InterfaceState) : Prop where
  kept : ∀ p, s.Holds p → s'.Holds p
  within : ∀ p, s'.Holds p → s.Holds p ∨ p ∈ wanted.get p.family
  program : s'.program = s.program

/-- A state from the last insert on: everything that is wanted is there, except where a wrong
baseline has taken it to be there when it was not. -/
structure Shrinking (sound : Prop) (wanted : DenyList) (s s' : InterfaceState) : Prop where
  complete : ∀ p, p ∈ wanted.get p.family → sound ∨ s.Holds p → s'.Holds p
  within : ∀ p, s'.Holds p → s.Holds p ∨ p ∈ wanted.get p.family
  program : s'.program = s.program

theorem Growing.between (h : Growing wanted s s') : Between sound wanted s s' :=
  ⟨fun p _ => h.kept p, fun _ => .inl h.kept, h.within, fun _ _ => h.program⟩

theorem Shrinking.between (h : Shrinking sound wanted s s') : Between sound wanted s s' :=
  ⟨fun p hp hs => h.complete p hp (.inr hs),
    fun hsound => .inr fun p hp => h.complete p hp (.inl hsound), h.within,
    fun _ _ => h.program⟩

/-! ## Writes -/

theorem Growing.insert (h : Growing wanted s s') {p : Prefix} (hp : p ∈ wanted.get p.family) :
    Growing wanted s (s'.insert p) where
  kept q hq := InterfaceState.holds_insert.mpr (.inr (h.kept q hq))
  within q hq := by
    rcases InterfaceState.holds_insert.mp hq with rfl | hq
    · exact .inr hp
    · exact h.within q hq
  program := h.program

theorem Shrinking.remove (h : Shrinking sound wanted s s') {p : Prefix}
    (hp : p ∉ wanted.get p.family) : Shrinking sound wanted s (s'.remove p) where
  complete q hq hs := by
    refine InterfaceState.holds_remove.mpr ⟨?_, h.complete q hq hs⟩
    rintro rfl
    exact hp hq
  within q hq := h.within q (InterfaceState.holds_remove.mp hq).2
  program := h.program

theorem Shrinking.destroy (h : Shrinking sound wanted s s') {f : Family}
    (hf : (wanted.get f).isEmpty = true) : Shrinking sound wanted s (s'.destroy f) where
  complete q hq hs := by
    refine InterfaceState.holds_destroy.mpr ⟨?_, h.complete q hq hs⟩
    rintro rfl
    exact PrefixSet.isEmpty_iff.mp hf q hq
  within q hq := h.within q (InterfaceState.holds_destroy.mp hq).2
  program := h.program

/-- When all inserts are done, nothing is missing that was there or is wanted. -/
theorem shrinking_inserted (filed : wanted.WellFiled) :
    Shrinking (b.Sound wanted t s) wanted s
      ((plans wanted b t s).foldl FamilyPlan.insertAll s) where
  complete p hp hs := by
    refine (holds_inserted _ p).mpr ?_
    rw [exists_plan_adds_iff filed]
    by_cases hentry : p ∈ b.entries t s p.family
    · exact .inr (hs.elim (fun hsound => hsound p hp hentry) id)
    · exact .inl ⟨hp, hentry⟩
  within p hp := by
    rcases (holds_inserted _ p).mp hp with hadded | hheld
    · exact .inr ((exists_plan_adds_iff filed p).mp hadded).1
    · exact .inl hheld
  program := foldl_keeps FamilyPlan.program_insertAll

/-! ## Runs -/

theorem maintains_insertEntry (f : Family) {p : Prefix} (hp : p ∈ wanted.get p.family)
    (h : Growing wanted s s') :
    Work.Maintains (InterfaceState.behaviour mayFail) (insertEntry name f p)
      (Growing wanted s) t s' := by
  refine (Work.maintains_note.mpr h).bind fun _ t' s₁ h₁ => ?_
  refine InterfaceState.maintains_call h₁ ?_
  rintro - _ - rfl
  exact h₁.insert hp

theorem maintains_removeEntry (f : Family) {p : Prefix} (hp : p ∉ wanted.get p.family)
    (h : Shrinking sound wanted s s') :
    Work.Maintains (InterfaceState.behaviour mayFail) (removeEntry name f p)
      (Shrinking sound wanted s) t s' := by
  refine (Work.maintains_note.mpr h).bind fun _ t' s₁ h₁ => ?_
  refine InterfaceState.maintains_call h₁ ?_
  rintro - _ - rfl
  exact h₁.remove hp

theorem maintains_destroyTable {plan : FamilyPlan}
    (hplan : plan.destroys = true → (wanted.get plan.family).isEmpty = true)
    (h : Shrinking sound wanted s s') :
    Work.Maintains (InterfaceState.behaviour mayFail) (destroyTable name plan)
      (Shrinking sound wanted s) t s' := by
  by_cases hdestroys : plan.destroys = true
  · simp only [destroyTable, hdestroys]
    refine InterfaceState.maintains_call h ?_
    rintro - _ - rfl
    exact h.destroy (hplan hdestroys)
  · simp only [destroyTable, hdestroys]
    exact Work.maintains_pure.mpr h

/-- The writes of the plans pass through states of the first kind, and then through states of the
second kind. -/
theorem maintains_writePlans (filed : wanted.WellFiled) (hb : b.Filed t) {t' : BlockTables} :
    Work.Maintains (InterfaceState.behaviour mayFail) (writePlans name (plans wanted b t s))
      (Between (b.Sound wanted t s) wanted s) t' s := by
  have hadd : ∀ plan ∈ plans wanted b t s, ∀ p ∈ plan.diff.toAdd.toList,
      p ∈ wanted.get p.family := by
    intro plan hplan p hp
    have hadded := (exists_plan_adds_iff filed p).mp
      ⟨plan, hplan, Std.ExtTreeSet.mem_toList.mp hp⟩
    exact hadded.1
  have hremove : ∀ plan ∈ plans wanted b t s, ∀ p ∈ plan.diff.toRemove.toList,
      p ∉ wanted.get p.family := by
    intro plan hplan p hp
    have hremoved := (exists_plan_removes_iff hb p).mp
      ⟨plan, hplan, Std.ExtTreeSet.mem_toList.mp hp⟩
    exact hremoved.2
  have hdestroy : ∀ plan ∈ plans wanted b t s, plan.destroys = true →
      (wanted.get plan.family).isEmpty = true := by
    intro plan hplan hdestroys
    exact ((exists_plan_destroys_iff plan.family).mp ⟨plan, hplan, hdestroys, rfl⟩).1
  -- The removes start from the one state that the inserts end in.
  refine Work.maintains_bind.mpr ⟨?_, ?_⟩
  · have hstart : Growing wanted s s := ⟨fun _ h => h, fun _ => .inl, rfl⟩
    have hinserts : Work.Maintains (InterfaceState.behaviour mayFail)
        (Work.each (fun plan => Work.each (insertEntry name plan.family) plan.diff.toAdd.toList)
          (plans wanted b t s)) (Growing wanted s) t' s := by
      refine Work.Maintains.each (fun plan hplan _ s₁ h₁ => ?_) hstart
      refine Work.Maintains.each (fun p hp _ s₂ h₂ => ?_) h₁
      exact maintains_insertEntry plan.family (hadd plan hplan p hp) h₂
    exact hinserts.mono fun s₁ h₁ => h₁.between
  · refine (ensures_writes _ FamilyPlan.program_insertAll ensures_insertAll
      (plans wanted b t s)).mono ?_ fun _ _ _ _ => trivial
    rintro _ t₁ _ ⟨rfl, rfl⟩
    have hrest : Work.Maintains (InterfaceState.behaviour mayFail)
        (do
          Work.each (fun plan => Work.each (removeEntry name plan.family)
            plan.diff.toRemove.toList) (plans wanted b t s)
          Work.each (destroyTable name) (plans wanted b t s))
        (Shrinking (b.Sound wanted t s) wanted s) t₁
        ((plans wanted b t s).foldl FamilyPlan.insertAll s) := by
      refine Work.Maintains.bind ?_ fun _ _ s₁ h₁ => ?_
      · refine Work.Maintains.each (fun plan hplan _ s₁ h₁ => ?_) (shrinking_inserted filed)
        refine Work.Maintains.each (fun p hp _ s₂ h₂ => ?_) h₁
        exact maintains_removeEntry plan.family (hremove plan hplan p hp) h₂
      · refine Work.Maintains.each (fun plan hplan _ s₂ h₂ => ?_) h₁
        exact maintains_destroyTable (hdestroy plan hplan) h₂
    exact hrest.mono fun s₁ h₁ => h₁.between

theorem maintains_planFamily {I : InterfaceState → Prop} {f : Family} (h : I s) :
    Work.Maintains (InterfaceState.behaviour mayFail) (planFamily name wanted b f) I t s := by
  refine (Work.maintains_get.mpr h).bind fun _ t' s₁ h₁ => ?_
  cases b with
  | lastApplied => exact Work.maintains_pure.mpr h₁
  | kernel =>
    have hread : Work.Maintains (InterfaceState.behaviour mayFail)
        (Work.call (.read f) (CycleError.applyFailed name f .read)) I t' s₁ := by
      refine InterfaceState.maintains_call h₁ ?_
      rintro _ _ - ⟨-, rfl⟩
      exact h₁
    exact hread.bind fun _ _ s₂ h₂ => Work.maintains_pure.mpr h₂

/-- A run over the tables passes through states between the one that it finds and the deny
list. -/
theorem maintains_apply (filed : wanted.WellFiled) (hb : b.Filed t) :
    Work.Maintains (InterfaceState.behaviour mayFail) (apply name wanted b)
      (Between (b.Sound wanted t s) wanted s) t s := by
  have hstart : Between (b.Sound wanted t s) wanted s s := .start s
  refine Work.maintains_bind.mpr ⟨maintains_planFamily hstart,
    (ensures_planFamily .ipv4).mono ?_ fun _ _ _ _ => trivial⟩
  rintro ⟨plans4, drift4⟩ _ _ ⟨rfl, rfl, rfl⟩
  refine Work.maintains_bind.mpr ⟨maintains_planFamily hstart,
    (ensures_planFamily .ipv6).mono ?_ fun _ _ _ _ => trivial⟩
  rintro ⟨plans6, drift6⟩ _ _ ⟨rfl, rfl, rfl⟩
  refine Work.Maintains.bind (maintains_writePlans filed hb) fun _ _ s₁ h₁ => ?_
  refine (Work.maintains_modify.mpr h₁).bind fun _ _ s₂ h₂ => ?_
  dsimp only
  split
  · exact (Work.maintains_note.mpr h₂).bind fun _ _ s₃ h₃ => Work.maintains_pure.mpr h₃
  · exact (Work.maintains_pure.mpr h₂).bind fun _ _ s₃ h₃ => Work.maintains_pure.mpr h₃

end BlockTables

namespace Hook

variable {mayFail : Prop} {name : String} {h : Hook} {s : InterfaceState}
  {I : InterfaceState → Prop}

theorem maintains_tell {level : Log.Level} {message : String} {more : List (String × String)}
    (hs : I s) :
    Work.Maintains (InterfaceState.behaviour mayFail) (tell level message name more) I h s :=
  Work.maintains_note.mpr hs

/-- The end of most steps: something is remembered, and a result is given. -/
theorem maintains_update {β : Type} {f : Hook → Hook} {b : β} (hs : I s) :
    Work.Maintains (InterfaceState.behaviour mayFail)
      (do Work.modify f; return b : HookWork β) I h s :=
  (Work.maintains_modify.mpr hs).bind fun _ _ _ hs => Work.maintains_pure.mpr hs

theorem maintains_requireSupport (hs : I s) :
    Work.Maintains (InterfaceState.behaviour mayFail) (requireSupport name) I h s := by
  refine (Work.maintains_get.mpr hs).bind fun _ _ s₁ h₁ => ?_
  split
  · exact Work.maintains_fail.mpr h₁
  · exact Work.maintains_pure.mpr h₁

theorem maintains_ensureSupported (hs : I s) :
    Work.Maintains (InterfaceState.behaviour mayFail) (ensureSupported name) I h s := by
  have hprobe : Work.Maintains (InterfaceState.behaviour mayFail) (probe name) I h s := by
    refine (Work.maintains_get.mpr hs).bind fun h _ s₁ h₁ => ?_
    split
    · exact Work.maintains_pure.mpr h₁
    · refine Work.Maintains.bind ?_ fun answer _ s₂ h₂ => ?_
      · refine InterfaceState.maintains_call h₁ ?_
        rintro _ _ - ⟨-, rfl⟩
        exact h₁
      · cases answer with
        | supported => exact maintains_update h₂
        | unsupported reason => exact (maintains_tell h₂).bind fun _ _ s₃ h₃ => maintains_update h₃
  exact hprobe.bind fun _ _ s₁ h₁ => maintains_requireSupport h₁

theorem maintains_adopt {p : Program} (hs : I s) :
    Work.Maintains (InterfaceState.behaviour mayFail) (adopt name p) I h s := by
  refine (Work.maintains_get.mpr hs).bind fun h _ s₁ h₁ => ?_
  cases h.program with
  | none =>
    refine (maintains_tell h₁).bind fun _ _ s₂ h₂ => ?_
    exact (Work.maintains_pure.mpr h₂).bind fun _ _ s₃ h₃ => maintains_update h₃
  | some known =>
    dsimp only
    split
    · refine (maintains_tell h₁).bind fun _ _ s₂ h₂ => ?_
      exact (Work.maintains_pure.mpr h₂).bind fun _ _ s₃ h₃ => maintains_update h₃
    · exact (Work.maintains_pure.mpr h₁).bind fun _ _ s₂ h₂ => maintains_update h₂

section Programs

variable (hI : ∀ s o, I s → I (s.withProgram o))
include hI

theorem maintains_detach {p : Program} {onError : KernelError → CycleError} (hs : I s) :
    Work.Maintains (InterfaceState.behaviour mayFail) (Work.call (.detach p) onError) I h s := by
  refine InterfaceState.maintains_call hs ?_
  rintro - _ - rfl
  exact hI _ _ hs

theorem maintains_attach {foreign : Option Program} (hs : I s) :
    Work.Maintains (InterfaceState.behaviour mayFail) (attach name foreign) I h s := by
  have hattach : ∀ (h : Hook) (s : InterfaceState), I s →
      Work.Maintains (InterfaceState.behaviour mayFail)
        (Work.call .attach (CycleError.attachFailed name)) I h s := by
    intro _ s hs
    refine InterfaceState.maintains_call hs ?_
    rintro _ _ - ⟨-, rfl⟩
    exact hI _ _ hs
  refine (Work.maintains_get.mpr hs).bind fun h _ s₁ h₁ => ?_
  dsimp only
  split
  case isTrue =>
    refine (maintains_tell h₁).bind fun _ _ s₂ h₂ => ?_
    refine (Work.maintains_modify.mpr h₂).bind fun _ h₀ s₃ h₃ => ?_
    refine (hattach h₀ s₃ h₃).bind fun _ _ s₄ h₄ => ?_
    exact (maintains_tell h₄).bind fun _ _ s₅ h₅ => maintains_update h₅
  case isFalse =>
    refine (Work.maintains_modify.mpr h₁).bind fun _ h₀ s₂ h₂ => ?_
    refine (hattach h₀ s₂ h₂).bind fun _ _ s₃ h₃ => ?_
    exact (maintains_tell h₃).bind fun _ _ s₄ h₄ => maintains_update h₄

/-- What does not depend on the program stays while a program is detached. -/
theorem maintains_ensureDetached (hs : I s) :
    Work.Maintains (InterfaceState.behaviour mayFail) (ensureDetached name) I h s := by
  refine (Work.maintains_get.mpr hs).bind fun _ h₀ s₁ h₁ => ?_
  split
  · exact Work.maintains_pure.mpr h₁
  refine Work.Maintains.bind ?_ fun answer h₀ s₂ h₂ => ?_
  · refine InterfaceState.maintains_call h₁ ?_
    rintro _ _ - ⟨-, rfl⟩
    exact h₁
  cases answer with
  | none => exact (Work.maintains_pure.mpr h₂).bind fun _ _ s₃ h₃ => maintains_update h₃
  | some p =>
    dsimp only
    split
    · refine (Work.maintains_modify.mpr h₂).bind fun _ h₀ s₃ h₃ => ?_
      refine (maintains_detach hI h₃).bind fun _ _ s₄ h₄ => ?_
      refine (maintains_tell h₄).bind fun _ _ s₅ h₅ => ?_
      exact (Work.maintains_pure.mpr h₅).bind fun _ _ s₆ h₆ => maintains_update h₆
    · refine (maintains_tell h₂).bind fun _ _ s₃ h₃ => ?_
      exact (Work.maintains_pure.mpr h₃).bind fun _ _ s₄ h₄ => maintains_update h₄

end Programs

/-- Where our program is attached, making sure of it changes nothing. -/
theorem maintains_ensureAttached (hs : I s)
    (hI : s.carriesOurs = false → ∀ s o, I s → I (s.withProgram o)) :
    Work.Maintains (InterfaceState.behaviour mayFail) (ensureAttached name) I h s := by
  refine Work.maintains_bind.mpr ⟨maintains_ensureSupported hs,
    ensures_ensureSupported.mono ?_ fun _ _ _ _ => trivial⟩
  rintro _ h₁ s ⟨rfl, -⟩
  refine Work.maintains_bind.mpr ⟨?_, InterfaceState.ensures_query.mpr ⟨?_, fun _ _ => trivial⟩⟩
  · refine InterfaceState.maintains_call hs ?_
    rintro _ _ - ⟨-, rfl⟩
    exact hs
  cases hp : s.program with
  | none =>
    have hforeign : s.carriesOurs = false := by rw [InterfaceState.carriesOurs, hp]; rfl
    exact maintains_attach (hI hforeign) hs
  | some p =>
    dsimp only
    split
    case isTrue => exact maintains_adopt hs
    case isFalse hours =>
      have hforeign : s.carriesOurs = false := by
        rw [InterfaceState.carriesOurs, hp]
        exact Bool.eq_false_iff.mpr hours
      refine (maintains_tell hs).bind fun _ h₀ s₂ h₂ => ?_
      refine (maintains_detach (hI hforeign) h₂).bind fun _ _ s₃ h₃ => ?_
      exact maintains_attach (hI hforeign) h₃

end Hook

namespace Context

variable {mayFail : Prop} {name : String} {wanted : DenyList} {mode : SyncMode} {c : Context}
  {s : InterfaceState}

open BlockTables (Between)

theorem maintains_tearDown (filed : wanted.WellFiled) (hb : mode.baseline.Filed c.tables)
    (hempty : wanted.isEmpty = true) (hsupported : c.hook.isUnsupported = false) :
    Work.Maintains (InterfaceState.behaviour mayFail) (tearDown name wanted mode)
      (Between (mode.baseline.Sound wanted c.tables s) wanted s) c s := by
  have hnone : ∀ {P : Prop}, wanted.isEmpty = false → P := by
    intro P hne
    rw [hempty] at hne
    cases hne
  refine Work.maintains_bind.mpr ⟨Work.maintains_focus.mpr ?_, Work.ensures_focus.mpr ?_⟩
  · refine Hook.maintains_ensureDetached (fun s₁ o h₁ => ?_) (.start s)
    exact h₁.congr id rfl rfl hnone
  · refine (Hook.ensures_ensureDetached hsupported).mono ?_ fun _ _ _ _ => trivial
    rintro _ h₁ s₁ ⟨-, htables⟩
    have hrun : Work.Maintains (InterfaceState.behaviour mayFail)
        (BlockTables.apply name wanted mode.baseline)
        (Between (mode.baseline.Sound wanted c.tables s) wanted s) c.tables s₁ := by
      refine (BlockTables.maintains_apply filed hb).mono fun s₂ h₂ => ?_
      exact h₂.congr (fun hsound => hsound.congr htables) htables.symm rfl hnone
    exact Work.Maintains.bind (Work.maintains_focus.mpr hrun) fun _ _ _ h₃ =>
      Work.maintains_pure.mpr h₃

theorem maintains_setUp (filed : wanted.WellFiled) (hb : mode.baseline.Filed c.tables)
    (hne : wanted.isEmpty = false) :
    Work.Maintains (InterfaceState.behaviour mayFail) (setUp name wanted mode)
      (Between (mode.baseline.Sound wanted c.tables s) wanted s) c s := by
  refine Work.maintains_bind.mpr ⟨Work.maintains_focus.mpr ?_, Work.ensures_focus.mpr ?_⟩
  · exact Hook.maintains_ensureSupported (.start s)
  refine Hook.ensures_ensureSupported.mono ?_ fun _ _ _ _ => trivial
  rintro _ h₁ s ⟨rfl, -⟩
  refine Work.Maintains.bind (Work.maintains_focus.mpr (BlockTables.maintains_apply filed hb))
    fun _ c₂ s₂ h₂ => ?_
  refine Work.Maintains.bind (Work.maintains_focus.mpr ?_) fun _ _ s₃ h₃ =>
    Work.maintains_pure.mpr h₃
  refine Hook.maintains_ensureAttached h₂ fun hforeign s₃ o h₃ => ?_
  refine h₃.congr id rfl rfl fun _ hours => ?_
  -- Our program would still be attached.
  rw [InterfaceState.carriesOurs, h₂.program hne hours] at hforeign
  exact absurd hours (Bool.eq_false_iff.mp hforeign)

/-- A cycle passes through the states that its work passes through. -/
theorem maintains_cycle_of_work {κ : Type} {B : Kernel.Behaviour κ} {I : κ → Prop} {k : κ}
    {now : Timestamp}
    (hwork : Work.Maintains B (applyAndBind name wanted (c.effectiveMode mode)) I
      (c.beginAttempt now) k) : (c.cycle name wanted mode now).Maintains B I k := by
  refine Kernel.Procedure.maintains_bind.mpr ⟨hwork, ?_⟩
  refine (Kernel.Procedure.Maintains.ensures hwork).mono ?_
  rintro ⟨(e | ⟨report, events⟩), c'⟩ s' h'
  · exact Kernel.Procedure.maintains_done.mpr h'
  · exact Kernel.Procedure.maintains_note.mpr (Kernel.Procedure.maintains_done.mpr h')

/-- A cycle passes through states between the one that it starts from and its deny list. -/
theorem maintains_cycle (filed : wanted.WellFiled)
    (hb : (c.effectiveMode mode).baseline.Filed c.tables) (now : Timestamp) :
    (c.cycle name wanted mode now).Maintains (InterfaceState.behaviour mayFail)
      (Between ((c.effectiveMode mode).baseline.Sound wanted c.tables s) wanted s) s := by
  refine maintains_cycle_of_work (Work.maintains_bind.mpr
    ⟨Work.maintains_focus.mpr ?_, Work.ensures_focus.mpr ?_⟩)
  · exact Hook.maintains_requireSupport (.start s)
  refine Hook.ensures_requireSupport.mono ?_ fun _ _ _ _ => trivial
  rintro _ _ _ ⟨rfl, rfl, hsupported⟩
  split
  case isTrue hempty => exact maintains_tearDown filed hb hempty hsupported
  case isFalse hne => exact maintains_setUp filed hb (Bool.eq_false_iff.mpr hne)

/-! ## On the kernel -/

/-- While a cycle runs that reads the kernel, or for which the tables are as applied last, every
state that the kernel passes through blocks what was blocked and is to be blocked, and blocks
nothing that neither was blocked nor is to be blocked.  A packet that was dropped and whose source
is to be blocked is dropped throughout.  All this holds wherever calls fail. -/
theorem cycle_passes {m m' : Model} {now : Timestamp} (filed : wanted.WellFiled)
    (hbaseline : c.effectiveMode mode = .resync ∨
      ∀ f, (m.table name f).getD ∅ = c.tables.lastApplied.get f)
    (hpass : (c.cycle name wanted mode now).Passes (Model.failing name) m m') :
    (∀ a, ((m.interface name).lookup a).isSome = true → (wanted.get a.family).covers a = true →
        ((m'.interface name).lookup a).isSome = true) ∧
    (∀ a, ((m'.interface name).lookup a).isSome = true →
        ((m.interface name).lookup a).isSome = true ∨ (wanted.get a.family).covers a = true) ∧
    ∀ p, m.evaluate name p = .drop → (wanted.get p.source.family).covers p.source = true →
      m'.evaluate name p = .drop := by
  obtain ⟨hfailsafe, hpass⟩ := Kernel.Procedure.Passes.simulate
    (R := fun k : Model => k.failsafe = m.failsafe)
    (fun _ _ _ _ h step => ⟨(Model.failsafe_of_failing step).trans h,
      Model.behaves_of_failing step⟩) rfl hpass
  have hb : (c.effectiveMode mode).baseline.Filed c.tables := by
    rcases hbaseline with hmode | htables
    · exact .inl (congrArg SyncMode.baseline hmode)
    · exact Baseline.filed_of_eq_lastApplied htables
  have hsound : (c.effectiveMode mode).baseline.Sound wanted c.tables (m.interface name) := by
    rcases hbaseline with hmode | htables
    · rw [hmode]
      exact Baseline.sound_kernel
    · exact Baseline.sound_of_eq_lastApplied htables
  obtain ⟨-, hcovered, hwithin, hprogram⟩ := maintains_cycle filed hb now _ hpass
  have hkept : ∀ a, ((m.interface name).lookup a).isSome = true →
      (wanted.get a.family).covers a = true → ((m'.interface name).lookup a).isSome = true := by
    intro a hbefore hwanted
    obtain ⟨p, hp, hfamily, hcontains⟩ := InterfaceState.isSome_lookup_iff_holds.mp hbefore
    obtain ⟨q, hq, hqcontains⟩ := PrefixSet.covers_iff.mp hwanted
    have hqfamily := filed a.family q hq
    rcases hcovered hsound with hold | hnew
    · exact InterfaceState.isSome_lookup_iff_holds.mpr ⟨p, hold p hp, hfamily, hcontains⟩
    · exact InterfaceState.isSome_lookup_iff_holds.mpr
        ⟨q, hnew q (hqfamily ▸ hq), hqfamily, hqcontains⟩
  refine ⟨hkept, fun a hafter => ?_, fun p hdrop hwanted => ?_⟩
  · obtain ⟨p, hp, hfamily, hcontains⟩ := InterfaceState.isSome_lookup_iff_holds.mp hafter
    rcases hwithin p hp with hold | hnew
    · exact .inl (InterfaceState.isSome_lookup_iff_holds.mpr ⟨p, hold, hfamily, hcontains⟩)
    · exact .inr (PrefixSet.covers_iff.mpr ⟨p, hfamily ▸ hnew, hcontains⟩)
  · obtain ⟨hours, hpermits, hblocked⟩ := Model.evaluate_eq_drop_iff.mp hdrop
    have hafter := hkept p.source (InterfaceState.isSome_lookup.mpr hblocked) hwanted
    have hsome : wanted.isEmpty = false := by
      obtain ⟨q, hq, -⟩ := PrefixSet.covers_iff.mp hwanted
      refine Bool.eq_false_iff.mpr fun hempty => ?_
      exact PrefixSet.isEmpty_iff.mp (DenyList.isEmpty_iff.mp hempty _) q hq
    refine Model.evaluate_eq_drop_iff.mpr ⟨?_, ?_, InterfaceState.isSome_lookup.mp hafter⟩
    · rwa [InterfaceState.carriesOurs, hprogram hsome hours]
    · rwa [hfailsafe]

/-- A network. -/
def wide : DenyList := .ofList [.around (.ofNat .ipv4 0x0A000000) 8 (by decide)]

/-- The same addresses, as two networks. -/
def halves : DenyList :=
  .ofList [.around (.ofNat .ipv4 0x0A000000) 9 (by decide),
    .around (.ofNat .ipv4 0x0A800000) 9 (by decide)]

/-- A first cycle blocks the network. -/
def wideCycle : (Except CycleError SyncReport × Context) × Model × Log.Entries :=
  (fresh.cycle "eth0" wide .resync ⟨0, 0⟩).eval (Model.answer "eth0") (Model.fresh ∅ none)

/-- A second cycle replaces the network by its halves, and drops packets from it after each of
its four calls. -/
theorem cycle_passes_halves :
    let second := wideCycle.1.2.cycle "eth0" halves .event ⟨1, 0⟩
    let packet : Packet := ⟨.ofNat .ipv4 0x0A800001, .ofNat .ipv4 1, .icmp⟩
    halves.WellFiled ∧
      (∀ f, (wideCycle.2.1.table "eth0" f).getD ∅ = wideCycle.1.2.tables.lastApplied.get f) ∧
      (second.trace (Model.answer "eth0") wideCycle.2.1).length = 4 ∧
      ∀ m' ∈ second.trace (Model.answer "eth0") wideCycle.2.1,
        m'.evaluate "eth0" packet = .drop := by
  intro second packet
  have filed : halves.WellFiled := DenyList.wellFiled_ofList _
  have htables : ∀ f, (wideCycle.2.1.table "eth0" f).getD ∅ =
      wideCycle.1.2.tables.lastApplied.get f := by
    rintro (_ | _) <;> decide +kernel
  have hdrop : wideCycle.2.1.evaluate "eth0" packet = .drop := by decide +kernel
  have hwanted : (halves.get packet.source.family).covers packet.source = true := by decide +kernel
  refine ⟨filed, htables, by decide +kernel, fun m' hm' => ?_⟩
  have hpass : second.Passes (Model.failing "eth0") wideCycle.2.1 m' :=
    (Kernel.Procedure.passes_of_mem_trace hm').mono fun c k b k' hstep => ⟨k.faults, hstep⟩
  exact (cycle_passes filed (.inr htables) hpass).2.2 packet hdrop hwanted

end Context

end IngressGuard
