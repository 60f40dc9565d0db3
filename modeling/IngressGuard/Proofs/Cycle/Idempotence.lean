import IngressGuard.Proofs.Cycle.Bookkeeping
import IngressGuard.Proofs.Cycle.Healing
import IngressGuard.Proofs.Kernel.Looks

/-!
# Cycles are idempotent

A resync that succeeds settles an interface (`Context.Settled`): the tables enforce the deny list,
and both tables and program are remembered as they are.  Where an interface is settled, a cycle to
the same deny list in either mode only looks: every plan comes out empty, and the hook finds its
program where it left it.  So a second cycle does nothing but count itself
(`Context.cycle_idempotent`).
-/

namespace IngressGuard

open Kernel (Behaviour Model InterfaceState Work Procedure)

variable {name : String} {wanted : DenyList} {s : InterfaceState}

namespace BlockTables

open Kernel.Work

theorem planOf_same (f : Family) (p : PrefixSet) : planOf f p p (!p.isEmpty) = [] := by
  have hdiff : p \ p = ∅ := Std.ExtTreeSet.ext_mem (by simp)
  have hempty : (TableDiff.between p p).isEmpty = true := by
    simp [TableDiff.between, TableDiff.isEmpty, hdiff]
  simp [planOf, hempty]

/-- Where the table of a family is as wanted, and remembered so, there is nothing to write. -/
theorem looks_planFamily (htables : ∀ f, s.tables.get f = wanted.table f) (b : Baseline)
    (f : Family) : Looks s (planFamily name wanted b f) ⟨wanted, true⟩ ([], []) ⟨wanted, true⟩ := by
  refine looks_get.bind ?_
  cases b with
  | lastApplied =>
    dsimp only
    rw [planOf_same]
    exact looks_pure _
  | kernel =>
    have hsome : (wanted.table f).isSome = !(wanted.get f).isEmpty := by
      rw [Bool.eq_iff_iff, DenyList.isSome_table, Bool.not_eq_true']
    refine (looks_read f _).bind ?_
    dsimp only
    rw [htables, DenyList.getD_table, hsome, planOf_same, if_pos rfl, drift_table]
    exact looks_pure _

theorem looks_apply (htables : ∀ f, s.tables.get f = wanted.table f) (b : Baseline) :
    Looks s (apply name wanted b) ⟨wanted, true⟩ ⟨0, 0, [], []⟩ ⟨wanted, true⟩ := by
  refine (looks_planFamily htables b .ipv4).bind ?_
  refine (looks_planFamily htables b .ipv6).bind ?_
  have hwrite : Looks s (writePlans name ([] ++ [])) (⟨wanted, true⟩ : BlockTables) ()
      ⟨wanted, true⟩ :=
    (looks_pure ()).bind ((looks_pure ()).bind (looks_pure ()))
  exact hwrite.bind ((looks_modify _).bind ((looks_pure _).bind (looks_pure _)))

end BlockTables

namespace Hook

open Kernel.Work

variable {κ : Type} {B : Behaviour κ} {k : κ} {h : Hook} {p : Program}

/-! ## Where a hook comes to rest -/

theorem ensures_state_attach (hprobed : h.probed = true) (foreign : Option Program) :
    Work.Ensures B (attach name foreign) (fun _ h' _ => h'.probed = true ∧ h'.state = .attached)
      (fun _ _ _ => True) h k := by
  simp only [attach, tell, ensures_bind, ensures_get]
  split <;>
    simp only [ensures_bind, ensures_note, ensures_modify] <;>
    refine ensures_bind.mpr (ensures_call.mpr fun answer k' _ => ?_)
  all_goals
    cases answer with
    | error e => trivial
    | ok current =>
      simp only [ensures_bind, ensures_note, ensures_modify, ensures_pure]
      exact ⟨hprobed, trivial⟩

theorem ensures_state_adopt (hprobed : h.probed = true) (p : Program) :
    Work.Ensures B (adopt name p) (fun _ h' _ => h'.probed = true ∧ h'.state = .attached)
      (fun _ _ _ => True) h k := by
  simp only [adopt, tell, ensures_bind, ensures_get]
  cases h.program with
  | none =>
    simp only [ensures_bind, ensures_note, ensures_modify, ensures_pure]
    exact ⟨hprobed, trivial⟩
  | some known =>
    dsimp only
    split <;>
      simp only [ensures_bind, ensures_note, ensures_modify, ensures_pure] <;>
      exact ⟨hprobed, trivial⟩

theorem ensures_state_ensureAttached :
    Work.Ensures B (ensureAttached name)
      (fun _ h' _ => h'.probed = true ∧ h'.state = .attached) (fun _ _ _ => True) h k := by
  refine ensures_bind.mpr (ensures_able_ensureSupported.mono ?_ fun _ _ _ _ => trivial)
  intro _ h' k' hable
  refine ensures_bind.mpr (ensures_call.mpr fun answer k'' _ => ?_)
  cases answer with
  | error e => trivial
  | ok found =>
    cases found with
    | none => exact ensures_state_attach hable.1 none
    | some p =>
      dsimp only
      by_cases hours : p.isOurs = true
      · rw [if_pos hours]
        exact ensures_state_adopt hable.1 p
      · rw [if_neg hours]
        refine ensures_bind.mpr (ensures_note.mpr (ensures_bind.mpr (ensures_call.mpr ?_)))
        intro answer k'' _
        cases answer with
        | error e => trivial
        | ok _ => exact ensures_state_attach hable.1 (some p)

theorem ensures_state_ensureDetached (hsupported : h.isUnsupported = false) :
    Work.Ensures B (ensureDetached name) (fun _ h' _ => h'.state = .noProgram)
      (fun _ _ _ => True) h k := by
  refine ensures_bind.mpr (ensures_get.mpr ?_)
  rw [if_neg (by simp [hsupported])]
  refine ensures_bind.mpr (ensures_call.mpr fun answer k' _ => ?_)
  cases answer with
  | error e => trivial
  | ok found =>
    cases found with
    | none => simp only [ensures_bind, ensures_modify, ensures_pure]
    | some p =>
      dsimp only
      by_cases hours : p.isOurs = true
      · rw [if_pos hours]
        refine ensures_bind.mpr (ensures_modify.mpr (ensures_bind.mpr (ensures_call.mpr ?_)))
        intro answer k'' _
        cases answer with
        | error e => trivial
        | ok _ =>
          simp only [tell, ensures_bind, ensures_note, ensures_modify, ensures_pure]
      · rw [if_neg hours]
        simp only [tell, ensures_bind, ensures_note, ensures_modify, ensures_pure]

/-! ## At rest -/

theorem looks_requireSupport (hsupported : h.isUnsupported = false) :
    Looks s (requireSupport name) h () h := by
  refine looks_get.bind ?_
  rw [if_neg (by simp [hsupported])]
  exact looks_pure ()

theorem looks_ensureSupported (hable : h.Able) : Looks s (ensureSupported name) h () h := by
  unfold Work.Looks
  rw [ensureSupported_of_able hable]
  exact .done _

/-- A program that is where it was left stays, and nothing is told of it. -/
theorem looks_ensureAttached (hable : h.Able) (hstate : h.state = .attached)
    (hremembered : h.program = some p) (hprogram : s.program = some p) (hours : p.isOurs = true) :
    Looks s (ensureAttached name) h [] h := by
  have hsame : { h with program := some p, state := .attached } = h := by
    rw [← hremembered, ← hstate]
  refine (looks_ensureSupported hable).bind ((looks_query _).bind ?_)
  rw [hprogram]
  dsimp only
  rw [if_pos hours]
  refine looks_get.bind ?_
  rw [hremembered]
  have hmodify : Looks s (Work.modify fun h => { h with program := some p, state := .attached } :
      HookWork Unit) h () h := by
    have hlooks := looks_modify (s := s) (t := h) (ε := CycleError)
      fun h => { h with program := some p, state := .attached }
    rwa [hsame] at hlooks
  simp only [ne_eq, not_true_eq_false, if_false]
  exact (looks_pure _).bind (hmodify.bind (looks_pure _))

/-- Where no program of ours is attached or remembered, none is detached. -/
theorem looks_ensureDetached (hsupported : h.isUnsupported = false) (hstate : h.state = .noProgram)
    (hremembered : h.program = none) (hnone : s.carriesOurs = false) :
    Looks s (ensureDetached name) h [] h := by
  have hmodify : Looks s (Work.modify fun h => { h with program := none, state := .noProgram } :
      HookWork Unit) h () h := by
    have hsame : { h with program := none, state := .noProgram } = h := by
      rw [← hremembered, ← hstate]
    have hlooks := looks_modify (s := s) (t := h) (ε := CycleError)
      fun h => { h with program := none, state := .noProgram }
    rwa [hsame] at hlooks
  refine looks_get.bind ?_
  rw [if_neg (by simp [hsupported])]
  refine (looks_query _).bind ?_
  cases hprogram : s.program with
  | none => exact (looks_pure _).bind (hmodify.bind (looks_pure _))
  | some p =>
    have hforeign : p.isOurs = false := by simpa [InterfaceState.carriesOurs, hprogram] using hnone
    dsimp only
    rw [if_neg (by simp [hforeign])]
    exact (looks_note _).bind ((looks_pure _).bind (hmodify.bind (looks_pure _)))

end Hook

namespace Context

open Kernel.Work

variable {mode : SyncMode} {c c' : Context} {m m' : Model}

/-! ## Settled interfaces -/

/-- The hook has nothing left to do for a deny list: with something to block it is attached to an
interface that was found able, and otherwise it holds no program. -/
def AtRest (wanted : DenyList) (h : Hook) : Prop :=
  if wanted.isEmpty then h.state = .noProgram else h.probed = true ∧ h.state = .attached

/-- An interface is as a deny list asks for, and is remembered so. -/
structure Settled (wanted : DenyList) (c : Context) (s : InterfaceState) : Prop where
  reconciled : c.reconciled = true
  remembered : c.tables = ⟨wanted, true⟩
  tables : ∀ f, s.tables.get f = wanted.table f
  bound : BoundTo wanted c.hook s
  atRest : AtRest wanted c.hook

theorem ensures_atRest_applyAndBind {κ : Type} {B : Behaviour κ} {k : κ} :
    Work.Ensures B (applyAndBind name wanted mode) (fun _ c' _ => AtRest wanted c'.hook)
      (fun _ _ _ => True) c k := by
  refine ensures_bind.mpr (ensures_focus.mpr
    (Hook.ensures_able_requireSupport.mono ?_ fun _ _ _ _ => trivial))
  rintro _ _ k₁ ⟨rfl, hsupported⟩
  unfold AtRest
  by_cases hempty : wanted.isEmpty = true
  · simp only [hempty, if_true]
    refine ensures_bind.mpr (ensures_focus.mpr
      ((Hook.ensures_state_ensureDetached hsupported).mono ?_ fun _ _ _ _ => trivial))
    intro events h₁ k₂ hstate
    refine ensures_bind.mpr (ensures_focus.mpr
      ((BlockTables.ensures_apply_remembered _).mono ?_ fun _ _ _ _ => trivial))
    exact fun _ _ _ _ => ensures_pure.mpr hstate
  · simp only [hempty]
    refine ensures_bind.mpr (ensures_focus.mpr
      (Hook.ensures_able_ensureSupported.mono ?_ fun _ _ _ _ => trivial))
    intro _ h₁ k₂ _
    refine ensures_bind.mpr (ensures_focus.mpr
      ((BlockTables.ensures_apply_remembered _).mono ?_ fun _ _ _ _ => trivial))
    intro report t₁ k₃ _
    refine ensures_bind.mpr (ensures_focus.mpr
      (Hook.ensures_state_ensureAttached.mono ?_ fun _ _ _ _ => trivial))
    exact fun _ _ _ hrest => ensures_pure.mpr hrest

/-- On an interface that does not exist no cycle succeeds. -/
theorem exists_of_ok {now : Timestamp} {finished : ApplyReport × List HookEvent}
    (h : ((applyAndBind name wanted mode (c.beginAttempt now)).eval (Model.answer name) m).1.1 =
      .ok finished) : m.exists? name = true := by
  cases hpresent : m.exists? name with
  | true => rfl
  | false =>
    have hrefused : Work.Ensures Model.refusing (applyAndBind name wanted mode)
        (fun _ _ _ => False) _ (c.beginAttempt now) m.clearLog := ensures_refused_applyAndBind
    have hend := (Model.ensures_missing hpresent hrefused).eval.2
    generalize (applyAndBind name wanted mode (c.beginAttempt now)).eval (Model.answer name) m =
      ended at h hend
    obtain ⟨⟨e | a, c₁⟩, m₁, log⟩ := ended
    · cases h
    · exact hend.elim

/-- A resync that succeeds settles its interface, which exists. -/
theorem settled_of_ok (filed : wanted.WellFiled) {now : Timestamp} {report : SyncReport}
    {log : Log.Entries}
    (first : (c.cycle name wanted .resync now).eval (Model.answer name) m =
      ((.ok report, c'), m', log)) :
    m'.exists? name = true ∧ Settled wanted c' (m'.interface name) := by
  have hends : Work.Ensures (InterfaceState.behaviour True) (applyAndBind name wanted .resync) _ _
      (c.beginAttempt now) (m.interface name) :=
    (ensures_applyAndBind filed).and ensures_atRest_applyAndBind
  have hsteps := (Model.ensures_answer (.inl trivial) hends).eval
  have hpresent : ∀ finished, ((applyAndBind name wanted .resync (c.beginAttempt now)).eval
      (Model.answer name) m).1.1 = .ok finished → m.exists? name = true := fun _ => exists_of_ok
  rw [cycle_eq_conclude, effectiveMode_resync, Procedure.eval_bind] at first
  generalize (applyAndBind name wanted .resync (c.beginAttempt now)).eval (Model.answer name) m =
    ended at hsteps hpresent first
  obtain ⟨⟨e | ⟨applied, events⟩, c₁⟩, m₁, log₁⟩ := ended
  · cases first
  · simp only [conclude, Procedure.eval, Prod.mk.injEq] at first
    obtain ⟨⟨-, rfl⟩, rfl, -⟩ := first
    obtain ⟨hagrees, ⟨-, happlied, hbound⟩, hrest⟩ := hsteps
    refine ⟨?_, rfl, happlied.remembered, happlied.tables_eq, hbound, hrest⟩
    rw [Model.exists?, hagrees.known]
    exact hpresent _ rfl

/-! ## Cycles on settled interfaces -/

theorem looks_onHook {α : Type} {w : Hook.HookWork α} {a : α} (h : Looks s w c.hook a c.hook) :
    Looks s (onHook w) c a c := h.focus

theorem looks_onTables {α : Type} {w : BlockTables.TableWork α} {a : α}
    (h : Looks s w c.tables a c.tables) : Looks s (onTables w) c a c := h.focus

/-- On a settled interface, no step of a cycle finds anything to do. -/
theorem Settled.looks (h : Settled wanted c s) (mode : SyncMode) :
    Looks s (applyAndBind name wanted mode) c (⟨0, 0, [], []⟩, []) c := by
  have hsupported := h.bound.isUnsupported_eq
  have hbound := h.bound
  have hrest := h.atRest
  unfold BoundTo at hbound
  unfold AtRest at hrest
  have happly : Looks s (onTables (BlockTables.apply name wanted mode.baseline)) c
      ⟨0, 0, [], []⟩ c := by
    refine looks_onTables ?_
    rw [h.remembered]
    exact BlockTables.looks_apply h.tables mode.baseline
  refine (looks_onHook (Hook.looks_requireSupport hsupported)).bind ?_
  by_cases hempty : wanted.isEmpty = true
  · rw [if_pos hempty] at hbound hrest ⊢
    obtain ⟨hprogram, hours, -⟩ := hbound
    have hdetach : Looks s (Hook.ensureDetached name) c.hook [] c.hook :=
      Hook.looks_ensureDetached hsupported hrest hprogram hours
    exact (looks_onHook hdetach).bind (happly.bind (looks_pure _))
  · rw [if_neg hempty] at hbound hrest ⊢
    obtain ⟨p, hours, hprogram, hknown, -⟩ := hbound
    have hable : c.hook.Able := ⟨hrest.1, hsupported⟩
    have hattach : Looks s (Hook.ensureAttached name) c.hook [] c.hook :=
      Hook.looks_ensureAttached hable hrest.2 hknown hprogram hours
    refine (looks_onHook (Hook.looks_ensureSupported hable)).bind (happly.bind ?_)
    exact (looks_onHook hattach).bind (looks_pure _)

theorem Settled.beginAttempt (h : Settled wanted c s) (now : Timestamp) :
    Settled wanted (c.beginAttempt now) s :=
  ⟨h.reconciled, h.remembered, h.tables, h.bound, h.atRest⟩

/-- On a settled interface, a cycle in either mode only looks, and counts itself. -/
theorem Settled.looks_cycle (h : Settled wanted c s) (mode : SyncMode) (now : Timestamp) :
    (c.cycle name wanted mode now).Looks s
      (.ok
        { interface := name
          mode
          generation := c.attempts.generation + 1
          apply := ⟨0, 0, [], []⟩
          hookEvents := []
          desiredEntries := wanted.size },
        { c with attempts := ⟨c.attempts.generation + 1, some now, some now, none⟩ }) := by
  have hmode : c.effectiveMode mode = mode := by rw [effectiveMode, if_pos h.reconciled]
  have hcounted : (c.beginAttempt now).succeed =
      { c with attempts := ⟨c.attempts.generation + 1, some now, some now, none⟩ } := by
    simp [succeed, Context.beginAttempt, h.reconciled]
  rw [cycle_eq_conclude, hmode, ← hcounted]
  exact Procedure.Looks.bind ((h.beginAttempt now).looks mode) (.note (.done _))

/-- After a resync that has succeeded, from any state of what is remembered and of the kernel,
another cycle to the same deny list succeeds in either mode, unless a failure is due.  It reports
no write, no drift and no event, makes no calls but queries and reads, and leaves behind nothing
but entries in the kernel's log and the times and the count of its success. -/
theorem cycle_idempotent (filed : wanted.WellFiled) {now : Timestamp} {report : SyncReport}
    {log : Log.Entries}
    (first : (c.cycle name wanted .resync now).eval (Model.answer name) m =
      ((.ok report, c'), m', log)) (mode : SyncMode) (later : Timestamp) :
    let second := c'.cycle name wanted mode later
    let again := second.eval (Model.answer name) m'.clearFaults
    again.1.1 = .ok
      { interface := name
        mode
        generation := c'.attempts.generation + 1
        apply := ⟨0, 0, [], []⟩
        hookEvents := []
        desiredEntries := wanted.size } ∧
    again.1.2 =
      { c' with attempts := ⟨c'.attempts.generation + 1, some later, some later, none⟩ } ∧
    m'.clearFaults.Alike again.2.1 ∧
    ∀ step ∈ second.steps (Model.answer name) m'.clearFaults, step.call.looks = true := by
  obtain ⟨hpresent, hsettled⟩ := settled_of_ok filed first
  have hstart : Settled wanted c' (m'.clearFaults.interface name) := hsettled
  have hread : m'.clearFaults.Readable name := ⟨hpresent, rfl⟩
  obtain ⟨hresult, hkernel, hsteps⟩ := (hstart.looks_cycle mode later).eval hread
  exact ⟨congrArg Prod.fst hresult, congrArg Prod.snd hresult, hkernel, hsteps⟩

/-- A resync on an interface that carries a program of others and a leftover table. -/
def takeover : (Except CycleError SyncReport × Context) × Model × Log.Entries :=
  let left := (Model.fresh ∅ none).tamperInsert "eth0" (.host (.ofNat .ipv4 7))
  (fresh.cycle "eth0" (hosts [9]) .resync ⟨0, 0⟩).eval (Model.answer "eth0")
    (left.tamperAttach "eth0" "other").2

/-- It is repeated as a cycle in event mode. -/
theorem cycle_idempotent_takeover :
    ∃ report, takeover.1.1 = .ok report ∧ report.apply.isNoop = false ∧
      let again := (takeover.1.2.cycle "eth0" (hosts [9]) .event ⟨1, 0⟩).eval
        (Model.answer "eth0") takeover.2.1.clearFaults
      again.1.1 = .ok
        { interface := "eth0"
          mode := .event
          generation := takeover.1.2.attempts.generation + 1
          apply := ⟨0, 0, [], []⟩
          hookEvents := []
          desiredEntries := (hosts [9]).size } := by
  have filed : (hosts [9]).WellFiled := DenyList.wellFiled_ofList _
  have hok : takeover.1.1.isOk = true := by decide +kernel
  have hwrites : takeover.1.1.toOption.any (!·.apply.isNoop) = true := by decide +kernel
  obtain ⟨report, hreport⟩ : ∃ report, takeover.1.1 = .ok report := by
    cases hresult : takeover.1.1 with
    | ok report => exact ⟨report, rfl⟩
    | error e => simp [hresult, Except.isOk, Except.toBool] at hok
  have hfirst : takeover = ((.ok report, takeover.1.2), takeover.2.1, takeover.2.2) := by
    rw [← hreport]
  refine ⟨report, hreport, ?_, (cycle_idempotent filed hfirst .event ⟨1, 0⟩).1⟩
  simpa [hreport, Except.toOption] using hwrites

end Context

end IngressGuard
