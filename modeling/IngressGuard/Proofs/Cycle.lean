import IngressGuard.Cycle
import IngressGuard.Proofs.BlockTable
import IngressGuard.Proofs.Hook

/-!
# What a cycle ensures

A cycle is put together from a run over the tables and from steps of the hook, so what it ensures
is put together from what these ensure (`Context.ensures_cycle`).  A cycle that fails tells by its
error where it got stuck: only a failure of the run over the tables leaves tables that nothing
that is remembered accounts for.
-/

namespace IngressGuard

open Kernel (Work InterfaceState)

namespace Context

variable {mayFail : Prop} {name : String} {wanted : DenyList} {mode : SyncMode} {c c' : Context}
  {s s' : InterfaceState}

@[simp] theorem effectiveMode_resync (c : Context) : c.effectiveMode .resync = .resync := by
  unfold effectiveMode
  split <;> rfl

/-- A run over the tables has succeeded. -/
structure Applied (wanted : DenyList) (b : Baseline) (t : BlockTables) (s : InterfaceState)
    (t' : BlockTables) (s' : InterfaceState) : Prop where
  remembered : t' = ⟨wanted, true⟩
  tables_iff : b.Filed t → ((∀ f, s'.tables.get f = wanted.table f) ↔
    b = .kernel ∨ ∀ f, BlockTables.Trustworthy t.lastApplied wanted s f)

/-- The program of an interface is as a deny list asks for: with something to block, ours is
attached and remembered; otherwise none of ours is attached and none is remembered. -/
def BoundTo (wanted : DenyList) (h : Hook) (s : InterfaceState) : Prop :=
  if wanted.isEmpty then h.Frees s else h.Binds s

/-- Where a cycle that failed got stuck, and what it left behind. -/
inductive Stuck (wanted : DenyList) (b : Baseline) (t : BlockTables) (s : InterfaceState) :
    CycleError → BlockTables → InterfaceState → Prop
  /-- A step of the hook failed before anything was written. -/
  | early {e s'} (error : ∀ i f stage k, e ≠ .applyFailed i f stage k)
      (tables : s'.tables = s.tables) : Stuck wanted b t s e t s'
  /-- A write failed, or a read. -/
  | torn {i f stage k s'} : Stuck wanted b t s (.applyFailed i f stage k) t s'
  /-- A step of the hook failed after everything was written. -/
  | late {e t' s'} (error : ∀ i f stage k, e ≠ .applyFailed i f stage k)
      (applied : Applied wanted b t s t' s') : Stuck wanted b t s e t' s'

theorem Applied.congr {b : Baseline} {t t' : BlockTables} {s₁ s₂ s₁' s₂' : InterfaceState}
    (h : Applied wanted b t s₁ t' s₁') (hs : s₂.tables = s₁.tables)
    (hs' : s₂'.tables = s₁'.tables) : Applied wanted b t s₂ t' s₂' := by
  refine ⟨h.remembered, fun hb => ?_⟩
  have hexact := h.tables_iff hb
  simp only [BlockTables.Trustworthy, InterfaceState.Holds, InterfaceState.HasTable, hs, hs'] at *
  exact hexact

/-- Where the kernel was read, the tables are those that enforce the deny list. -/
theorem Applied.tables_eq {t t' : BlockTables} (h : Applied wanted .kernel t s t' s') (f : Family) :
    s'.tables.get f = wanted.table f :=
  (h.tables_iff (.inl rfl)).mpr (.inl rfl) f

theorem ensures_tearDown (filed : wanted.WellFiled) (hempty : wanted.isEmpty = true)
    (hsupported : c.hook.isUnsupported = false) :
    Work.Ensures (InterfaceState.behaviour mayFail) (tearDown name wanted mode)
      (fun _ c' s' => c'.reconciled = c.reconciled ∧
        Applied wanted mode.baseline c.tables s c'.tables s' ∧ BoundTo wanted c'.hook s')
      (fun e c' s' => c'.reconciled = c.reconciled ∧ mayFail ∧
        Stuck wanted mode.baseline c.tables s e c'.tables s') c s := by
  refine Work.ensures_bind.mpr (Work.ensures_focus.mpr
    ((Hook.ensures_ensureDetached hsupported).mono ?_ ?_))
  · rintro _ h₁ s₁ ⟨⟨hprogram, hours, hable⟩, htables⟩
    refine Work.ensures_bind.mpr (Work.ensures_focus.mpr
      ((BlockTables.ensures_apply filed).mono ?_ ?_))
    · rintro _ t₂ s₂ ⟨rfl, hkept, hexact⟩
      refine Work.ensures_pure.mpr ⟨rfl, ?_, ?_⟩
      · exact Applied.congr ⟨rfl, hexact⟩ htables.symm rfl
      · rw [BoundTo, if_pos hempty]
        exact ⟨hprogram, by rwa [InterfaceState.carriesOurs, hkept], hable⟩
    · rintro _ t₂ s₂ ⟨hf, ⟨i, f, stage, k, rfl⟩, rfl, -⟩
      exact ⟨rfl, hf, .torn⟩
  · rintro e h₁ s₁ hfailed
    exact ⟨rfl, hfailed.cause, .early hfailed.error hfailed.tables⟩

theorem ensures_setUp (filed : wanted.WellFiled) (hempty : wanted.isEmpty = false) :
    Work.Ensures (InterfaceState.behaviour mayFail) (setUp name wanted mode)
      (fun _ c' s' => c'.reconciled = c.reconciled ∧
        Applied wanted mode.baseline c.tables s c'.tables s' ∧ BoundTo wanted c'.hook s')
      (fun e c' s' => c'.reconciled = c.reconciled ∧ (mayFail ∨ c.hook.isUnsupported = true) ∧
        Stuck wanted mode.baseline c.tables s e c'.tables s') c s := by
  refine Work.ensures_bind.mpr (Work.ensures_focus.mpr
    (Hook.ensures_ensureSupported.mono ?_ ?_))
  · rintro _ h₁ s₁ ⟨rfl, hsupported⟩
    refine Work.ensures_bind.mpr (Work.ensures_focus.mpr
      ((BlockTables.ensures_apply filed).mono ?_ ?_))
    · rintro _ t₂ s₂ ⟨rfl, -, hexact⟩
      refine Work.ensures_bind.mpr (Work.ensures_focus.mpr
        (Hook.ensures_ensureAttached.mono ?_ ?_))
      · rintro _ h₃ s₃ ⟨hbinds, htables⟩
        refine Work.ensures_pure.mpr ⟨rfl, ?_, ?_⟩
        · exact Applied.congr ⟨rfl, hexact⟩ rfl htables
        · rwa [BoundTo, if_neg (by simp [hempty])]
      · rintro e h₃ s₃ hfailed
        refine ⟨rfl, ?_, .late hfailed.error ?_⟩
        · exact hfailed.cause.imp_right fun h => absurd h (by simp [hsupported])
        · exact Applied.congr ⟨rfl, hexact⟩ rfl hfailed.tables
    · rintro _ t₂ s₂ ⟨hf, ⟨i, f, stage, k, rfl⟩, rfl, -⟩
      exact ⟨rfl, .inl hf, .torn⟩
  · rintro e h₁ s₁ hfailed
    exact ⟨rfl, hfailed.cause, .early hfailed.error hfailed.tables⟩

theorem ensures_applyAndBind (filed : wanted.WellFiled) :
    Work.Ensures (InterfaceState.behaviour mayFail) (applyAndBind name wanted mode)
      (fun _ c' s' => c'.reconciled = c.reconciled ∧
        Applied wanted mode.baseline c.tables s c'.tables s' ∧ BoundTo wanted c'.hook s')
      (fun e c' s' => c'.reconciled = c.reconciled ∧ (mayFail ∨ c.hook.isUnsupported = true) ∧
        Stuck wanted mode.baseline c.tables s e c'.tables s') c s := by
  refine Work.ensures_bind.mpr (Work.ensures_focus.mpr (Hook.ensures_requireSupport.mono ?_ ?_))
  · rintro _ h₁ s₁ ⟨rfl, rfl, hsupported⟩
    split
    case isTrue hempty =>
      refine (ensures_tearDown filed hempty hsupported).mono (fun _ _ _ h => h) ?_
      rintro e c' s' ⟨hkept, hf, hstuck⟩
      exact ⟨hkept, .inl hf, hstuck⟩
    case isFalse hne => exact ensures_setUp filed (Bool.eq_false_iff.mpr hne)
  · rintro e h₁ s₁ ⟨rfl, hfailed⟩
    exact ⟨rfl, .inr hfailed.cause, .early hfailed.error hfailed.tables⟩

/-- A cycle either succeeds, having brought tables and program to the deny list, or it fails for a
cause and tells where it got stuck. -/
theorem ensures_cycle (filed : wanted.WellFiled) (now : Timestamp) :
    (c.cycle name wanted mode now).Ensures (InterfaceState.behaviour mayFail)
      (fun r s' =>
        match r with
        | (.ok _, c') => c'.reconciled = true ∧
          Applied wanted (c.effectiveMode mode).baseline c.tables s c'.tables s' ∧
          BoundTo wanted c'.hook s'
        | (.error e, c') => c'.reconciled = c.reconciled ∧
          (mayFail ∨ c.hook.isUnsupported = true) ∧
          Stuck wanted (c.effectiveMode mode).baseline c.tables s e c'.tables s') s := by
  refine Kernel.Procedure.ensures_bind.mpr
    (Kernel.Procedure.Ensures.mono (ensures_applyAndBind (c := c.beginAttempt now) filed) ?_)
  rintro ⟨(e | ⟨report, events⟩), c'⟩ s' h
  · exact Kernel.Procedure.ensures_done.mpr h
  · refine Kernel.Procedure.ensures_note.mpr (Kernel.Procedure.ensures_done.mpr ?_)
    exact ⟨rfl, h.2⟩

end Context

end IngressGuard
