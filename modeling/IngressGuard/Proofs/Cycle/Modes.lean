import IngressGuard.Proofs.Cycle.Exactness
import IngressGuard.Proofs.Kernel.Alike

/-!
# Event cycles and resyncs

A cycle in event mode takes what was applied last for what the kernel holds.  That is right as
long as context and kernel are in step (`BlockTables.InStep`), and they stay so: a cycle whose
tables get finished ends in step, even if the program then cannot be attached
(`Context.inStep_of_tables_finished`).  In step, a resync reads the very sets that an event cycle
starts from.  So both write the same, and they end alike in everything but the mode that is
reported and the reads in the kernel's log (`Context.EndsAlike`).

An interface that does not exist is the exception, since there a resync fails where it reads, and
an event cycle may get as far as its program.  But neither changes anything.
-/

namespace IngressGuard

open Kernel (Model InterfaceState Work Procedure)

namespace BlockTables

variable {name : String} {wanted : DenyList} {t : BlockTables} {s : InterfaceState} {m : Model}

/-! ## In step -/

/-- The table of each family is as it was applied last, and there is none if nothing was. -/
def InStep (t : BlockTables) (s : InterfaceState) : Prop :=
  ∀ f, s.tables.get f = t.lastApplied.table f

instance : Decidable (t.InStep s) :=
  decidable_of_iff (∀ f ∈ Family.all, s.tables.get f = t.lastApplied.table f)
    ⟨fun h f => h f (Family.mem_all f), fun h f _ => h f⟩

theorem InStep.filed (h : t.InStep s) : t.lastApplied.WellFiled := by
  intro f p hp
  have hne := PrefixSet.isEmpty_eq_false_of_mem hp
  have htable : s.tables.get f = some (t.lastApplied.get f) := by
    rw [h f, DenyList.table, if_neg (by simp [hne])]
  exact s.filed f _ p htable hp

theorem InStep.congr {t' : BlockTables} {s' : InterfaceState} (h : t.InStep s)
    (ht : t'.lastApplied = t.lastApplied) (hs : s'.tables = s.tables) : t'.InStep s' := by
  intro f
  rw [ht, hs]
  exact h f

/-- What is in step with a kernel is determined by it. -/
theorem InStep.lastApplied_eq {t' : BlockTables} (h : t.InStep s) (h' : t'.InStep s) :
    t'.lastApplied = t.lastApplied := by
  refine PerFamily.ext fun f => ?_
  rw [← DenyList.getD_table, ← DenyList.getD_table, ← h f, ← h' f]

/-! ## Planning -/

theorem drift_table (f : Family) (d : DenyList) : drift f (d.get f) (d.table f) = [] := by
  unfold DenyList.table
  by_cases hempty : (d.get f).isEmpty = true
  · rw [if_pos hempty, drift, if_pos hempty]
  · have hdiff : d.get f \ d.get f = ∅ := Std.ExtTreeSet.ext_mem (by simp)
    rw [if_neg hempty, drift, hdiff]
    rfl

/-- In step, reading the table of a family gives the plan that can be had without. -/
theorem eval_planFamily_kernel (hstep : t.InStep (m.interface name)) (hread : m.Readable name)
    (f : Family) :
    (planFamily name wanted .kernel f t).eval (Model.answer name) m =
      ((.ok (planOf f (t.lastApplied.get f) (wanted.get f) (!(t.lastApplied.get f).isEmpty), []),
        t), m.record (.read name f), []) := by
  have htable : m.table name f = t.lastApplied.table f := hstep f
  have hanswer : m.answer name (.read f) =
      (.ok (t.lastApplied.table f), m.record (.read name f)) := by
    rw [← htable]
    exact hread.read f
  have hsome : (t.lastApplied.table f).isSome = !(t.lastApplied.get f).isEmpty := by
    rw [Bool.eq_iff_iff, DenyList.isSome_table, Bool.not_eq_true']
  simp only [planFamily, bind, Work.bind, Work.get, Work.call, Procedure.bind, Procedure.eval,
    hanswer, pure, Work.pure, DenyList.getD_table, drift_table, hsome, ite_self]

/-- In step, a run over the tables does the same whether it reads the kernel or not. -/
theorem agree_apply (hstep : t.InStep (m.interface name)) (hread : m.Readable name) :
    Work.Agree name (apply name wanted .lastApplied) (apply name wanted .kernel) t m m := by
  have hstep' : t.InStep ((m.record (.read name .ipv4)).interface name) := hstep
  have hread' : (m.record (.read name .ipv4)).Readable name := ⟨hread.present, hread.reads⟩
  refine Work.agree_bind_of_eval (eval_planFamily_kernel hstep hread .ipv4) ?_
  refine Work.agree_bind_of_eval (eval_planFamily_kernel hstep' hread' .ipv6) ?_
  -- What is left is to write the same plans.
  exact Procedure.agree_same ((Model.alike_record m _).trans (Model.alike_record _ _)) _

theorem ensures_apply_noDrift {mayFail : Prop} :
    Work.Ensures (InterfaceState.behaviour mayFail) (apply name wanted .lastApplied)
      (fun r _ _ => r.drift = []) (fun _ _ _ => True) t s := by
  refine Work.ensures_bind.mpr (Work.ensures_bind.mpr (Work.ensures_get.mpr ?_))
  refine Work.ensures_pure.mpr (Work.ensures_bind.mpr (Work.ensures_bind.mpr ?_))
  refine Work.ensures_get.mpr (Work.ensures_pure.mpr (Work.ensures_bind.mpr ?_))
  refine (ensures_writePlans _).mono (fun _ _ _ _ => ?_) fun _ _ _ _ => trivial
  refine Work.ensures_bind.mpr (Work.ensures_modify.mpr ?_)
  dsimp only
  split
  · exact Work.ensures_bind.mpr (Work.ensures_note.mpr (Work.ensures_pure.mpr rfl))
  · exact Work.ensures_bind.mpr (Work.ensures_pure.mpr (Work.ensures_pure.mpr rfl))

/-- After reading the kernel, or in step, a run over the tables that succeeds ends in step. -/
theorem ensures_apply_inStep {mayFail : Prop} {b : Baseline} (filed : wanted.WellFiled)
    (h : b = .kernel ∨ t.InStep s) :
    Work.Ensures (InterfaceState.behaviour mayFail) (apply name wanted b)
      (fun _ t' s' => t'.InStep s') (fun _ _ _ => True) t s := by
  refine (ensures_apply filed).mono ?_ fun _ _ _ _ => trivial
  rintro _ _ s' ⟨rfl, -, hexact⟩
  refine (hexact (h.imp_right InStep.filed)).mpr (h.imp_right fun hstep => ?_)
  exact trustworthy_of_tables_eq hstep.filed hstep

end BlockTables

namespace Hook

variable {name : String} {h : Hook} {m : Model}

/-! ## Refused calls -/

theorem ensures_refused_probe :
    Work.Ensures Model.refusing (probe name) (fun _ h' _ => h' = h) (fun _ h' _ => h' = h) h m := by
  refine Work.ensures_bind.mpr (Work.ensures_get.mpr ?_)
  split
  · exact Work.ensures_pure.mpr rfl
  · exact Work.ensures_bind.mpr (Work.ensures_call_refused fun _ => rfl)

theorem ensures_refused_requireSupport :
    Work.Ensures Model.refusing (requireSupport name)
      (fun _ h' _ => h' = h ∧ h.isUnsupported = false) (fun _ h' _ => h' = h) h m := by
  refine Work.ensures_bind.mpr (Work.ensures_get.mpr ?_)
  split
  case isTrue => exact Work.ensures_fail.mpr rfl
  case isFalse hsupported =>
    exact Work.ensures_pure.mpr ⟨rfl, Bool.eq_false_iff.mpr hsupported⟩

theorem ensures_refused_ensureSupported :
    Work.Ensures Model.refusing (ensureSupported name) (fun _ h' _ => h' = h)
      (fun _ h' _ => h' = h) h m := by
  refine Work.ensures_bind.mpr (ensures_refused_probe.mono ?_ fun _ _ _ h => h)
  rintro _ _ _ rfl
  exact ensures_refused_requireSupport.mono (fun _ _ _ h => h.1) fun _ _ _ h => h

theorem ensures_refused_ensureAttached :
    Work.Ensures Model.refusing (ensureAttached name) (fun _ _ _ => False) (fun _ h' _ => h' = h)
      h m := by
  refine Work.ensures_bind.mpr (ensures_refused_ensureSupported.mono ?_ fun _ _ _ h => h)
  rintro _ _ _ rfl
  exact Work.ensures_bind.mpr (Work.ensures_call_refused fun _ => rfl)

theorem ensures_refused_ensureDetached (hsupported : h.isUnsupported = false) :
    Work.Ensures Model.refusing (ensureDetached name) (fun _ _ _ => False) (fun _ h' _ => h' = h)
      h m := by
  refine Work.ensures_bind.mpr (Work.ensures_get.mpr ?_)
  rw [if_neg (by simp [hsupported])]
  exact Work.ensures_bind.mpr (Work.ensures_call_refused fun _ => rfl)

end Hook

namespace Context

variable {name : String} {wanted : DenyList} {mode : SyncMode} {c c' : Context}
  {s : InterfaceState} {m m' : Model}

/-! ## Phases -/

/-- The steps of a cycle up to the end of its run over the tables. -/
def tablePhase (interface : String) (wanted : DenyList) (mode : SyncMode) :
    CycleWork (ApplyReport × List HookEvent) := do
  onHook (Hook.requireSupport interface)
  if wanted.isEmpty then tearDown interface wanted mode
  else
    onHook (Hook.ensureSupported interface)
    let report ← onTables (BlockTables.apply interface wanted mode.baseline)
    return (report, [])

/-- The steps after the tables are finished: with something to block, our program gets
attached. -/
def bindPhase (interface : String) (wanted : DenyList) (finished : ApplyReport × List HookEvent) :
    CycleWork (ApplyReport × List HookEvent) :=
  if wanted.isEmpty then return finished
  else do
    let events ← onHook (Hook.ensureAttached interface)
    return (finished.1, events)

/-- What a cycle makes of the end of its steps. -/
def conclude (interface : String) (wanted : DenyList) (mode : SyncMode) :
    Except CycleError (ApplyReport × List HookEvent) × Context →
      Procedure Context (Except CycleError SyncReport × Context)
  | (.ok (report, events), c) =>
    let c := c.succeed
    .note (completeNote c.attempts.generation wanted.size) <|
      .done
        (.ok
          { interface
            mode
            generation := c.attempts.generation
            apply := report
            hookEvents := events
            desiredEntries := wanted.size }, c)
  | (.error e, c) => .done (.error e, c.failAttempt e.message)

/-- What a cycle still does once its tables are finished. -/
def afterTables (interface : String) (wanted : DenyList) (mode : SyncMode)
    (finished : ApplyReport × List HookEvent) (c : Context) :
    Procedure Context (Except CycleError SyncReport × Context) :=
  (bindPhase interface wanted finished c).bind (conclude interface wanted mode)

theorem applyAndBind_eq_phases :
    applyAndBind name wanted mode = tablePhase name wanted mode >>= bindPhase name wanted := by
  unfold applyAndBind tablePhase bindPhase
  by_cases hempty : wanted.isEmpty = true
  · simp only [hempty, if_true, bind_pure]
  · rw [Bool.not_eq_true] at hempty
    simp only [hempty, Bool.false_eq_true, if_false, setUp, bind_assoc, pure_bind]

theorem cycle_eq_conclude (now : Timestamp) :
    c.cycle name wanted mode now =
      (applyAndBind name wanted (c.effectiveMode mode) (c.beginAttempt now)).bind
        (conclude name wanted (c.effectiveMode mode)) := by
  refine congrArg (Procedure.bind _) ?_
  funext ⟨r, c'⟩
  cases r <;> rfl

/-- A cycle finishes its tables and then goes on, or it fails before. -/
def inPhases (interface : String) (wanted : DenyList) (mode : SyncMode) (c : Context) :
    Procedure Context (Except CycleError SyncReport × Context) :=
  (tablePhase interface wanted mode c).bind fun
    | (.ok finished, c') => afterTables interface wanted mode finished c'
    | (.error e, c') => .done (.error e, c'.failAttempt e.message)

theorem cycle_eq_inPhases (mode : SyncMode) (now : Timestamp) :
    c.cycle name wanted mode now =
      inPhases name wanted (c.effectiveMode mode) (c.beginAttempt now) := by
  rw [cycle_eq_conclude, applyAndBind_eq_phases]
  refine (Procedure.bind_assoc _ _ _).trans (congrArg (Procedure.bind _) ?_)
  funext ⟨r, c'⟩
  cases r <;> rfl

/-- What every run over the tables ensures holds at the end of the table phase. -/
theorem ensures_tablePhase {mayFail : Prop} {Q : ApplyReport → BlockTables → InterfaceState → Prop}
    (happly : ∀ s', s'.tables = s.tables →
      Work.Ensures (InterfaceState.behaviour mayFail)
        (BlockTables.apply name wanted mode.baseline) Q (fun _ _ _ => True) c.tables s') :
    Work.Ensures (InterfaceState.behaviour mayFail) (tablePhase name wanted mode)
      (fun finished c' s' => Q finished.1 c'.tables s') (fun _ _ _ => True) c s := by
  refine Work.ensures_bind.mpr (Work.ensures_focus.mpr
    (Hook.ensures_requireSupport.mono ?_ fun _ _ _ _ => trivial))
  rintro _ _ _ ⟨rfl, rfl, hsupported⟩
  split
  case isTrue =>
    refine Work.ensures_bind.mpr (Work.ensures_focus.mpr
      ((Hook.ensures_ensureDetached hsupported).mono ?_ fun _ _ _ _ => trivial))
    rintro _ _ s₁ ⟨-, hs⟩
    refine Work.ensures_bind.mpr (Work.ensures_focus.mpr ((happly s₁ hs).mono ?_ fun _ _ _ h => h))
    exact fun _ _ _ hQ => Work.ensures_pure.mpr hQ
  case isFalse =>
    refine Work.ensures_bind.mpr (Work.ensures_focus.mpr
      (Hook.ensures_ensureSupported.mono ?_ fun _ _ _ _ => trivial))
    rintro _ _ s₁ ⟨rfl, -⟩
    refine Work.ensures_bind.mpr (Work.ensures_focus.mpr ((happly s₁ rfl).mono ?_ fun _ _ _ h => h))
    exact fun _ _ _ hQ => Work.ensures_pure.mpr hQ

theorem ensures_tablePhase_inStep {mayFail : Prop} (filed : wanted.WellFiled)
    (h : mode = .resync ∨ c.tables.InStep s) :
    Work.Ensures (InterfaceState.behaviour mayFail) (tablePhase name wanted mode)
      (fun _ c' s' => c'.tables.InStep s') (fun _ _ _ => True) c s := by
  refine ensures_tablePhase (Q := fun _ t' s' => t'.InStep s') fun s' hs => ?_
  refine BlockTables.ensures_apply_inStep filed (h.imp ?_ fun hstep => hstep.congr rfl hs)
  rintro rfl
  rfl

/-- Once the tables are finished, they and what is remembered of them stay as they are. -/
theorem ensures_bindPhase {mayFail : Prop} (finished : ApplyReport × List HookEvent) :
    Work.Ensures (InterfaceState.behaviour mayFail) (bindPhase name wanted finished)
      (fun r c' s' => r.1 = finished.1 ∧ c'.tables = c.tables ∧ s'.tables = s.tables)
      (fun _ c' s' => c'.tables = c.tables ∧ s'.tables = s.tables) c s := by
  unfold bindPhase
  split
  · exact Work.ensures_pure.mpr ⟨rfl, rfl, rfl⟩
  · refine Work.ensures_bind.mpr (Work.ensures_focus.mpr (Hook.ensures_ensureAttached.mono ?_ ?_))
    · exact fun _ _ _ h => Work.ensures_pure.mpr ⟨rfl, rfl, h.2⟩
    · exact fun _ _ _ hfailed => ⟨rfl, hfailed.tables⟩

theorem ensures_afterTables {mayFail : Prop} (finished : ApplyReport × List HookEvent) :
    (afterTables name wanted mode finished c).Ensures (InterfaceState.behaviour mayFail)
      (fun r s' => r.2.tables = c.tables ∧ s'.tables = s.tables) s := by
  refine Procedure.ensures_bind.mpr (Procedure.Ensures.mono (ensures_bindPhase finished) ?_)
  rintro ⟨(e | ⟨report, events⟩), c'⟩ s' h
  · exact Procedure.ensures_done.mpr h
  · exact Procedure.ensures_note.mpr (Procedure.ensures_done.mpr h.2)

/-! ## Agreement -/

/-- After a step of the hook, two works agree if they agree in step. -/
theorem agree_onHook {α β : Type} {w : Hook.HookWork α} {next next' : α → CycleWork β}
    {P : Hook → Prop} {E : CycleError → Hook → InterfaceState → Prop}
    (hw : Work.Ensures (InterfaceState.behaviour True) w
      (fun _ h' s' => P h' ∧ s'.tables = (m.interface name).tables) E c.hook (m.interface name))
    (hstep : c.tables.InStep (m.interface name)) (hread : m.Readable name)
    (hnext : ∀ a c' m', P c'.hook → c'.tables.InStep (m'.interface name) → m'.Readable name →
      Work.Agree name (next a) (next' a) c' m' m') :
    Work.Agree name (onHook w >>= next) (onHook w >>= next') c m m := by
  refine Work.agree_bind_left (Work.ensures_focus.mpr ?_)
  refine (hread.ensures hw).mono ?_
  rintro ⟨e | a, h'⟩ m' ⟨hread', h⟩
  · trivial
  · exact hnext a _ m' h.1 (hstep.congr rfl h.2) hread'

theorem agree_onTables (hstep : c.tables.InStep (m.interface name)) (hread : m.Readable name) :
    Work.Agree name (onTables (BlockTables.apply name wanted .lastApplied))
      (onTables (BlockTables.apply name wanted .kernel)) c m m :=
  (BlockTables.agree_apply hstep hread).focus

/-- In step, the steps of an event cycle and of a resync end alike. -/
theorem agree_applyAndBind (hstep : c.tables.InStep (m.interface name))
    (hread : m.Readable name) :
    Work.Agree name (applyAndBind name wanted .event) (applyAndBind name wanted .resync) c m m := by
  have hrequire : Work.Ensures (InterfaceState.behaviour True) (Hook.requireSupport name)
      (fun _ h' s' => h'.isUnsupported = false ∧ s'.tables = (m.interface name).tables)
      (fun _ _ _ => True) c.hook (m.interface name) := by
    refine Hook.ensures_requireSupport.mono ?_ fun _ _ _ _ => trivial
    rintro _ _ _ ⟨rfl, rfl, hsupported⟩
    exact ⟨hsupported, rfl⟩
  refine agree_onHook hrequire hstep hread fun _ c₁ m₁ hsupported hstep₁ hread₁ => ?_
  by_cases hempty : wanted.isEmpty = true
  · rw [if_pos hempty, if_pos hempty]
    have hdetach : Work.Ensures (InterfaceState.behaviour True) (Hook.ensureDetached name)
        (fun _ _ s' => True ∧ s'.tables = (m₁.interface name).tables) (fun _ _ _ => True) c₁.hook
        (m₁.interface name) := by
      refine (Hook.ensures_ensureDetached hsupported).mono ?_ fun _ _ _ _ => trivial
      exact fun _ _ _ h => ⟨trivial, h.2⟩
    refine agree_onHook (P := fun _ => True) hdetach hstep₁ hread₁ ?_
    exact fun _ c₂ m₂ _ hstep₂ hread₂ => (agree_onTables hstep₂ hread₂).bind_right _
  · rw [if_neg hempty, if_neg hempty]
    have hsupport : Work.Ensures (InterfaceState.behaviour True) (Hook.ensureSupported name)
        (fun _ _ s' => True ∧ s'.tables = (m₁.interface name).tables) (fun _ _ _ => True) c₁.hook
        (m₁.interface name) := by
      refine Hook.ensures_ensureSupported.mono ?_ fun _ _ _ _ => trivial
      rintro _ _ _ ⟨rfl, -⟩
      exact ⟨trivial, rfl⟩
    refine agree_onHook (P := fun _ => True) hsupport hstep₁ hread₁ ?_
    exact fun _ c₂ m₂ _ hstep₂ hread₂ => (agree_onTables hstep₂ hread₂).bind_right _

theorem ensures_applyAndBind_noDrift {mayFail : Prop} :
    Work.Ensures (InterfaceState.behaviour mayFail) (applyAndBind name wanted .event)
      (fun r _ _ => r.1.drift = []) (fun _ _ _ => True) c s := by
  have htables : Work.Ensures (InterfaceState.behaviour mayFail) (tablePhase name wanted .event)
      (fun finished _ _ => finished.1.drift = []) (fun _ _ _ => True) c s :=
    ensures_tablePhase (Q := fun report _ _ => report.drift = []) fun _ _ =>
      BlockTables.ensures_apply_noDrift
  rw [applyAndBind_eq_phases]
  refine Work.ensures_bind.mpr (htables.mono (fun finished c₁ s₁ hdrift => ?_) fun _ _ _ h => h)
  refine (ensures_bindPhase finished).mono ?_ fun _ _ _ _ => trivial
  rintro r _ _ ⟨hr, -⟩
  rw [hr]
  exact hdrift

/-! ## Missing interfaces -/

/-- Where every call is refused, no cycle succeeds, and the hook is as it was. -/
theorem ensures_refused_applyAndBind :
    Work.Ensures Model.refusing (applyAndBind name wanted mode) (fun _ _ _ => False)
      (fun _ c' _ => c'.hook = c.hook ∧ c'.attempts = c.attempts) c m := by
  refine Work.ensures_bind.mpr (Work.ensures_focus.mpr
    (Hook.ensures_refused_requireSupport.mono ?_ ?_))
  · rintro _ _ m₁ ⟨rfl, hsupported⟩
    split
    case isTrue =>
      refine Work.ensures_bind.mpr (Work.ensures_focus.mpr
        ((Hook.ensures_refused_ensureDetached hsupported).mono ?_ ?_))
      · exact fun _ _ _ h => h.elim
      · rintro e _ _ rfl
        exact ⟨rfl, rfl⟩
    case isFalse =>
      refine Work.ensures_bind.mpr (Work.ensures_focus.mpr
        (Hook.ensures_refused_ensureSupported.mono ?_ ?_))
      · rintro _ _ m₂ rfl
        have hrun : Work.Ensures Model.refusing (BlockTables.apply name wanted mode.baseline)
            (fun _ _ _ => True) (fun _ _ _ => True) c.tables m₂ := by
          rintro ⟨e | a, t'⟩ m' - <;> trivial
        refine Work.ensures_bind.mpr (Work.ensures_focus.mpr (hrun.mono ?_ ?_))
        · intro report t₃ m₃ _
          refine Work.ensures_bind.mpr (Work.ensures_focus.mpr
            (Hook.ensures_refused_ensureAttached.mono (fun _ _ _ h => h.elim) ?_))
          rintro e _ _ rfl
          exact ⟨rfl, rfl⟩
        · exact fun _ _ _ _ => ⟨rfl, rfl⟩
      · rintro e _ _ rfl
        exact ⟨rfl, rfl⟩
  · rintro e _ _ rfl
    exact ⟨rfl, rfl⟩

/-- Where the steps of a cycle fail that has started in step, what is remembered of the tables is
as it was, or in step. -/
theorem ensures_applyAndBind_error {mayFail : Prop} (filed : wanted.WellFiled)
    (hstep : c.tables.InStep s) :
    Work.Ensures (InterfaceState.behaviour mayFail) (applyAndBind name wanted mode)
      (fun _ _ _ => True) (fun _ c' s' => c'.tables = c.tables ∨ c'.tables.InStep s') c s := by
  refine (ensures_applyAndBind filed).mono (fun _ _ _ _ => trivial) ?_
  rintro e c' s' ⟨-, -, hstuck⟩
  generalize htables : c'.tables = t' at hstuck
  cases hstuck with
  | early => exact .inl rfl
  | torn => exact .inl rfl
  | late _ happlied =>
    right
    rw [happlied.remembered]
    refine (happlied.tables_iff (.inr hstep.filed)).mpr (.inr ?_)
    exact BlockTables.trustworthy_of_tables_eq hstep.filed hstep

/-- On an interface that does not exist, a cycle that starts in step fails and changes nothing
but what is remembered of the attempt. -/
theorem eval_cycle_missing (filed : wanted.WellFiled) (hmissing : m.exists? name = false)
    (hstep : c.tables.InStep (m.interface name)) (mode : SyncMode) (now : Timestamp) :
    ∃ e c' m' log,
      (c.cycle name wanted mode now).eval (Model.answer name) m = ((.error e, c'), m', log) ∧
        c'.hook = c.hook ∧ c'.tables.lastApplied = c.tables.lastApplied ∧
        c'.attempts.generation = c.attempts.generation ∧ m.Alike m' := by
  have hstart : (c.beginAttempt now).tables.InStep (m.interface name) := hstep
  have hrefused : Work.Ensures Model.refusing
      (applyAndBind name wanted (c.effectiveMode mode)) (fun _ _ _ => False)
      (fun _ c' _ => c'.hook = c.hook ∧ c'.attempts = (c.beginAttempt now).attempts)
      (c.beginAttempt now) m.clearLog := ensures_refused_applyAndBind
  have hremembered : Work.Ensures (InterfaceState.behaviour True)
      (applyAndBind name wanted (c.effectiveMode mode)) (fun _ _ _ => True)
      (fun _ c' s' => c'.tables = c.tables ∨ c'.tables.InStep s') (c.beginAttempt now)
      (m.interface name) := ensures_applyAndBind_error filed hstart
  obtain ⟨halike, hend⟩ := (Model.ensures_missing hmissing hrefused).eval
  have htables := (Model.ensures_answer (.inl trivial) hremembered).eval.2
  rw [cycle_eq_conclude]
  simp only [Procedure.eval_bind]
  generalize (applyAndBind name wanted (c.effectiveMode mode) (c.beginAttempt now)).eval
    (Model.answer name) m = ended at halike hend htables ⊢
  obtain ⟨⟨e | finished, c'⟩, m', log⟩ := ended
  case ok => exact hend.elim
  obtain ⟨hhook, hattempts⟩ := hend
  refine ⟨e, c'.failAttempt e.message, m', _, rfl, hhook, ?_, ?_, halike⟩
  · rcases htables with hkept | hstep'
    · exact congrArg BlockTables.lastApplied hkept
    · rw [← halike.interface_eq name] at hstep'
      exact hstep.lastApplied_eq hstep'
  · have hgeneration : c'.attempts.generation = c.attempts.generation := by rw [hattempts]; rfl
    exact hgeneration

/-! ## Faithfulness -/

/-- The results of an event cycle and of a resync: the same report but for the mode, without any
drift of tables, or two failures, which are the same if the interface exists. -/
inductive SameResult (present : Prop) :
    Except CycleError SyncReport → Except CycleError SyncReport → Prop
  | ok (report : SyncReport) (mode : report.mode = .event) (noDrift : report.apply.drift = []) :
      SameResult present (.ok report) (.ok { report with mode := .resync })
  | error (e e' : CycleError) (same : present → e = e') : SameResult present (.error e) (.error e')

/-- An event cycle and a resync end alike: with the same result, the same hook, deny list and
generation remembered, and the same kernel but for its log. -/
structure EndsAlike (present : Prop)
    (event resync : (Except CycleError SyncReport × Context) × Model × Log.Entries) : Prop where
  result : SameResult present event.1.1 resync.1.1
  hook : event.1.2.hook = resync.1.2.hook
  lastApplied : event.1.2.tables.lastApplied = resync.1.2.tables.lastApplied
  generation : event.1.2.attempts.generation = resync.1.2.attempts.generation
  kernel : event.2.1.Alike resync.2.1

theorem endsAlike_cycle (filed : wanted.WellFiled) (hreconciled : c.reconciled = true)
    (hstep : c.tables.InStep (m.interface name)) (hreads : m.faults.reads = 0) (now : Timestamp) :
    EndsAlike (m.exists? name = true)
      ((c.cycle name wanted .event now).eval (Model.answer name) m)
      ((c.cycle name wanted .resync now).eval (Model.answer name) m) := by
  cases hpresent : m.exists? name with
  | false =>
    obtain ⟨e, c₁, m₁, log₁, hevent, hhook₁, hlast₁, hgen₁, hkernel₁⟩ :=
      eval_cycle_missing filed hpresent hstep .event now
    obtain ⟨e', c₂, m₂, log₂, hresync, hhook₂, hlast₂, hgen₂, hkernel₂⟩ :=
      eval_cycle_missing filed hpresent hstep .resync now
    rw [hevent, hresync]
    exact ⟨.error e e' nofun, hhook₁.trans hhook₂.symm, hlast₁.trans hlast₂.symm,
      hgen₁.trans hgen₂.symm, hkernel₁.symm.trans hkernel₂⟩
  | true =>
    have hmode : c.effectiveMode .event = .event := by rw [effectiveMode, if_pos hreconciled]
    have hstart : (c.beginAttempt now).tables.InStep (m.interface name) := hstep
    obtain ⟨hresult, hkernel⟩ : Work.Agree name (applyAndBind name wanted .event)
        (applyAndBind name wanted .resync) (c.beginAttempt now) m m :=
      agree_applyAndBind hstart ⟨hpresent, hreads⟩
    have hnoDrift : Work.Ensures (InterfaceState.behaviour True) (applyAndBind name wanted .event)
        (fun r _ _ => r.1.drift = []) (fun _ _ _ => True) (c.beginAttempt now)
        (m.interface name) := ensures_applyAndBind_noDrift
    have hdrift := (Model.ensures_answer (.inl trivial) hnoDrift).eval
    rw [cycle_eq_conclude, cycle_eq_conclude, hmode, effectiveMode_resync]
    simp only [Procedure.eval_bind, ← hresult]
    generalize (applyAndBind name wanted .event (c.beginAttempt now)).eval (Model.answer name) m =
      ended at *
    obtain ⟨⟨e | ⟨report, events⟩, c'⟩, m₁, log⟩ := ended
    · exact ⟨.error e e fun _ => rfl, rfl, rfl, rfl, hkernel⟩
    · exact ⟨.ok _ rfl hdrift.2, rfl, rfl, rfl, hkernel⟩

/-- A cycle finishes its tables and then goes on with its program.  If it reads the kernel, or
starts in step, it ends in step once its tables are finished, wherever calls fail before and after
that.  And in step, unless reads fail, a cycle in event mode ends as a resync would. -/
theorem event_mode_faithful (filed : wanted.WellFiled) (now : Timestamp) :
    (∀ mode, c.cycle name wanted mode now =
      inPhases name wanted (c.effectiveMode mode) (c.beginAttempt now)) ∧
    (∀ mode m m₁ m' finished c₁ ended,
      c.effectiveMode mode = .resync ∨ c.tables.InStep (m.interface name) →
      (tablePhase name wanted (c.effectiveMode mode) (c.beginAttempt now)).Yields
        (Model.failing name) m (.ok finished, c₁) m₁ →
      (afterTables name wanted (c.effectiveMode mode) finished c₁).Yields
        (Model.failing name) m₁ ended m' →
      ended.2.tables.InStep (m'.interface name)) ∧
    ∀ m, c.reconciled = true → c.tables.InStep (m.interface name) → m.faults.reads = 0 →
      EndsAlike (m.exists? name = true)
        ((c.cycle name wanted .event now).eval (Model.answer name) m)
        ((c.cycle name wanted .resync now).eval (Model.answer name) m) := by
  refine ⟨fun mode => cycle_eq_inPhases mode now, ?_, fun m hreconciled hstep hreads =>
    endsAlike_cycle filed hreconciled hstep hreads now⟩
  intro mode m m₁ m' finished c₁ ended hstart htables hafter
  have hphase : Work.Ensures (InterfaceState.behaviour True)
      (tablePhase name wanted (c.effectiveMode mode)) (fun _ c' s' => c'.tables.InStep s')
      (fun _ _ _ => True) (c.beginAttempt now) (m.interface name) :=
    ensures_tablePhase_inStep filed hstart
  have hstep : c₁.tables.InStep (m₁.interface name) := Model.ensures_failing hphase _ _ htables
  obtain ⟨hkept, hsame⟩ := Model.ensures_failing (ensures_afterTables finished) _ _ hafter
  exact hstep.congr (congrArg BlockTables.lastApplied hkept) hsame

/-- The kernel after a first cycle, with the program taken away and an attach due to fail. -/
def bereft : Model := (firstCycle.2.1.tamperDetach "eth0").2.failAttaches 1

/-- A cycle that cannot attach its program ends in step, and as a resync would. -/
theorem event_mode_faithful_bereft :
    let c := firstCycle.1.2
    let tables := (tablePhase "eth0" (hosts [1, 4]) .event (c.beginAttempt ⟨1, 0⟩)).eval
      (Model.answer "eth0") bereft
    let event := (c.cycle "eth0" (hosts [1, 4]) .event ⟨1, 0⟩).eval (Model.answer "eth0") bereft
    let resync := (c.cycle "eth0" (hosts [1, 4]) .resync ⟨1, 0⟩).eval (Model.answer "eth0") bereft
    (∃ finished, tables.1.1 = .ok finished ∧
      let after := (afterTables "eth0" (hosts [1, 4]) .event finished tables.1.2).eval
        (Model.answer "eth0") tables.2.1
      after.1.2.tables.InStep (after.2.1.interface "eth0")) ∧
    event.1.1.isOk = false ∧ EndsAlike (bereft.exists? "eth0" = true) event resync := by
  intro c tables event resync
  have filed : (hosts [1, 4]).WellFiled := DenyList.wellFiled_ofList _
  have hreconciled : c.reconciled = true := by decide +kernel
  have hstep : c.tables.InStep (bereft.interface "eth0") := by decide +kernel
  have hmode : c.effectiveMode .event = .event := by rw [effectiveMode, if_pos hreconciled]
  have hok : tables.1.1.isOk = true := by decide +kernel
  obtain ⟨-, hphases, hmodes⟩ := @event_mode_faithful "eth0" (hosts [1, 4]) c filed ⟨1, 0⟩
  refine ⟨?_, by decide +kernel, hmodes bereft hreconciled hstep (by decide +kernel)⟩
  have htables : (tablePhase "eth0" (hosts [1, 4]) (c.effectiveMode .event)
      (c.beginAttempt ⟨1, 0⟩)).Yields (Model.failing "eth0") bereft tables.1 tables.2.1 := by
    rw [hmode]
    exact Model.yields_failing ..
  obtain ⟨⟨e | finished, c₁⟩, m₁, log⟩ := tables
  case error => cases hok
  refine ⟨finished, rfl, ?_⟩
  refine hphases .event bereft m₁ _ finished c₁ _ (.inr hstep) htables ?_
  rw [hmode]
  exact Model.yields_failing ..

end Context

end IngressGuard
