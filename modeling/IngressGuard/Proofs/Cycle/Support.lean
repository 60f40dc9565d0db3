import IngressGuard.Proofs.Hook.Lifecycle
import IngressGuard.Proofs.Kernel.Record

/-!
# Cycles and support

What a cycle finds out about support is final.  Whatever the kernel answers, a cycle that starts
where the interface may still carry programs keeps what is remembered about its hook sound at every
call, and it fails for lack of support exactly if it remembers a reason in the end
(`Context.guards_cycle`).  Where there is a reason already, a cycle asks the kernel nothing
(`Context.cycle_of_isUnsupported`).
-/

namespace IngressGuard

open Kernel (Work Exchange Call)

/-! ## Tables -/

namespace BlockTables

variable {name : String} {wanted : DenyList} {b : Baseline} {I : List Exchange → Prop}

/-- A run over the tables of an interface fails only with errors about them. -/
def IsFailure (name : String) (e : CycleError) : Prop :=
  ∃ f stage cause, e = .applyFailed name f stage cause

/-- Whatever table calls keep is kept by a run over the tables. -/
theorem keeps_apply
    (hI : ∀ (c : Call) past answer, c.isTableCall = true → I past → I (past ++ [⟨c, answer⟩])) :
    Work.Keeps Log.Entry.IsRoutine I (IsFailure name) (apply name wanted b) := by
  have hcall : ∀ (c : Call) f stage, c.isTableCall = true →
      Work.Keeps Log.Entry.IsRoutine I (IsFailure name)
        (Work.call c (.applyFailed name f stage) : TableWork c.Value) := fun c f stage hc =>
    Work.keeps_call (fun past answer => hI c past answer hc) fun cause => ⟨f, stage, cause, rfl⟩
  have hplan : ∀ f, Work.Keeps Log.Entry.IsRoutine I (IsFailure name)
      (planFamily name wanted b f) := by
    intro f
    refine Work.keeps_get.bind fun t => ?_
    cases b with
    | lastApplied => exact Work.keeps_pure
    | kernel => exact (hcall _ _ _ rfl).bind fun _ => Work.keeps_pure
  have hinsert : ∀ f p, Work.Keeps Log.Entry.IsRoutine I (IsFailure name)
      (insertEntry name f p) := fun f p =>
    (Work.keeps_note (show "insert" ≠ "Enforcement event" by decide)).bind fun _ =>
      hcall _ _ _ rfl
  have hremove : ∀ f p, Work.Keeps Log.Entry.IsRoutine I (IsFailure name)
      (removeEntry name f p) := fun f p =>
    (Work.keeps_note (show "remove" ≠ "Enforcement event" by decide)).bind fun _ =>
      hcall _ _ _ rfl
  have hdestroy : ∀ plan, Work.Keeps Log.Entry.IsRoutine I (IsFailure name)
      (destroyTable name plan) := by
    intro plan
    by_cases hdestroys : plan.destroys = true
    · simp only [destroyTable, hdestroys]
      exact hcall _ _ _ rfl
    · simp only [destroyTable, hdestroys]
      exact Work.keeps_pure
  refine (hplan .ipv4).bind fun r4 => (hplan .ipv6).bind fun r6 => ?_
  refine Work.Keeps.bind ?_ fun _ => Work.keeps_modify.bind fun _ => ?_
  · refine (Work.Keeps.each fun plan => Work.Keeps.each (hinsert _)).bind fun _ => ?_
    refine (Work.Keeps.each fun plan => Work.Keeps.each (hremove _)).bind fun _ => ?_
    exact Work.Keeps.each hdestroy
  · dsimp only
    split
    · have hnote : Log.Entry.IsRoutine (updateNote name (reportOf (r4.1 ++ r6.1) (r4.2 ++ r6.2))) :=
        show "Block table updated" ≠ "Enforcement event" by decide
      exact (Work.keeps_note hnote).bind fun _ => Work.keeps_pure
    · exact Work.keeps_pure.bind fun _ => Work.keeps_pure

end BlockTables

/-! ## Cycles -/

namespace Context

variable {name : String} {wanted : DenyList} {mode : SyncMode} {c : Context}
  {past : List Exchange} {now : Timestamp}

/-- A run over the tables does not touch the hook. -/
theorem guards_tables (hs : c.hook.Sound past) (hable : c.hook.isUnsupported = false)
    {b : Baseline} :
    Work.Guards Log.Entry.IsRoutine
      (fun c' past' => c'.hook.Sound past' ∧ c'.hook.isUnsupported = false)
      (onTables (BlockTables.apply name wanted b))
      (fun _ c' past' => c'.hook = c.hook ∧ c'.hook.Sound past')
      (fun e c' past' => c'.hook.Sound past' ∧ Hook.Accounts name c'.hook e) c past := by
  have htable : ∀ (c' : Call) past answer, c'.isTableCall = true → c.hook.Sound past →
      c.hook.Sound (past ++ [⟨c', answer⟩]) := by
    intro c' past answer hc hs
    refine hs.snoc ?_ ?_
    · cases c' <;> first | rfl | cases hc
    · rintro (rfl : c' = .probe)
      cases hc
  refine Work.guards_focus.mpr ((BlockTables.keeps_apply htable _ _ hs).mono ?_ ?_ ?_)
  · exact fun _ _ hs' => ⟨hs', hable⟩
  · exact fun _ _ _ hs' => ⟨rfl, hs'⟩
  · rintro _ _ _ ⟨hs', f, stage, cause, rfl⟩
    exact ⟨hs', (Hook.Leaves.refl hs' hable).accounts nofun⟩

/-- A step of the hook between others. -/
theorem guards_hook {α : Type} {w : Hook.HookWork α} {Q : α → Hook → List Exchange → Prop}
    (hw : Work.Guards Log.Entry.IsRoutine c.hook.Leaves w Q
      (fun e h' past' => h'.Sound past' ∧ Hook.Accounts name h' e ∧ c.hook.Moves h') c.hook past) :
    Work.Guards Log.Entry.IsRoutine
      (fun c' past' => c'.hook.Sound past' ∧ c'.hook.isUnsupported = false) (onHook w)
      (fun a c' past' => Q a c'.hook past')
      (fun e c' past' => c'.hook.Sound past' ∧ Hook.Accounts name c'.hook e) c past := by
  refine Work.guards_focus.mpr (hw.mono ?_ (fun _ _ _ h => h) ?_)
  · exact fun _ _ hl => ⟨hl.sound, hl.able⟩
  · exact fun _ _ _ hl => ⟨hl.1, hl.2.1⟩

theorem guards_tearDown (hs : c.hook.Sound past) (hable : c.hook.isUnsupported = false) :
    Work.Guards Log.Entry.IsRoutine
      (fun c' past' => c'.hook.Sound past' ∧ c'.hook.isUnsupported = false)
      (tearDown name wanted mode)
      (fun _ c' past' => c'.hook.Sound past' ∧ c'.hook.isUnsupported = false)
      (fun e c' past' => c'.hook.Sound past' ∧ Hook.Accounts name c'.hook e) c past := by
  refine Work.guards_bind.mpr ((guards_hook (Hook.guards_ensureDetached hs hable)).mono
    (fun _ _ h => h) ?_ fun _ _ _ h => h)
  rintro events c₁ past₁ ⟨hs₁, hstate⟩
  have hable₁ : c₁.hook.isUnsupported = false := by rw [Hook.isUnsupported, hstate]; rfl
  refine Work.guards_bind.mpr ((guards_tables hs₁ hable₁).mono (fun _ _ h => h) ?_
    fun _ _ _ h => h)
  rintro report c₂ past₂ ⟨hhook, hs₂⟩
  exact ⟨hs₂, by rw [hhook, hable₁]⟩

theorem guards_setUp (hs : c.hook.Sound past) (hable : c.hook.isUnsupported = false) :
    Work.Guards Log.Entry.IsRoutine
      (fun c' past' => c'.hook.Sound past' ∧ c'.hook.isUnsupported = false)
      (setUp name wanted mode)
      (fun _ c' past' => c'.hook.Sound past' ∧ c'.hook.isUnsupported = false)
      (fun e c' past' => c'.hook.Sound past' ∧ Hook.Accounts name c'.hook e) c past := by
  have hsupport : Work.Guards Log.Entry.IsRoutine c.hook.Leaves (Hook.ensureSupported name)
      (fun _ h' past' => h' = { c.hook with probed := true } ∧ h'.Sound past')
      (fun e h' past' => h'.Sound past' ∧ Hook.Accounts name h' e ∧ c.hook.Moves h')
      c.hook past := by
    refine (Hook.guards_ensureSupported hs hable).mono ?_ (fun _ _ _ h => h) fun _ _ _ h => h
    rintro _ past' ⟨rfl, hs'⟩
    exact .refl hs' hable
  refine Work.guards_bind.mpr ((guards_hook hsupport).mono (fun _ _ h => h) ?_ fun _ _ _ h => h)
  rintro _ c₁ past₁ ⟨hhook₁, hs₁⟩
  have hable₁ : c₁.hook.isUnsupported = false := by rw [hhook₁]; exact hable
  refine Work.guards_bind.mpr ((guards_tables hs₁ hable₁).mono (fun _ _ h => h) ?_
    fun _ _ _ h => h)
  rintro report c₂ past₂ ⟨hhook₂, hs₂⟩
  have hable₂ : c₂.hook.isUnsupported = false := by rw [hhook₂, hable₁]
  refine Work.guards_bind.mpr ((guards_hook (Hook.guards_ensureAttached hs₂ hable₂)).mono
    (fun _ _ h => h) ?_ fun _ _ _ h => h)
  rintro events c₃ past₃ ⟨hs₃, hstate⟩
  exact ⟨hs₃, by rw [Hook.isUnsupported, hstate]; rfl⟩

/-- Where an interface may carry programs, a cycle goes on to what its deny list asks for. -/
theorem applyAndBind_of_able (hable : c.hook.isUnsupported = false) :
    applyAndBind name wanted mode c =
      (if wanted.isEmpty then tearDown name wanted mode else setUp name wanted mode) c := by
  simp [applyAndBind, onHook, Hook.requireSupport, hable, Work.focus, bind, Work.bind, Work.get,
    pure, Work.pure, Kernel.Procedure.bind, Kernel.Procedure.mapState]

/-- Where it cannot, that is all there is to say. -/
theorem applyAndBind_of_isUnsupported (hunsupported : c.hook.isUnsupported = true) :
    applyAndBind name wanted mode c = .done (.error (Hook.unsupportedError name c.hook), c) := by
  simp [applyAndBind, onHook, Hook.requireSupport, hunsupported, Work.focus, bind, Work.bind,
    Work.get, Work.fail, Kernel.Procedure.bind, Kernel.Procedure.mapState]

theorem cycle_of_isUnsupported (hunsupported : c.hook.isUnsupported = true) :
    c.cycle name wanted mode now =
      .done (.error (Hook.unsupportedError name c.hook),
        (c.beginAttempt now).failAttempt (Hook.unsupportedError name c.hook).message) := by
  have hbegun : (c.beginAttempt now).hook.isUnsupported = true := hunsupported
  unfold cycle
  dsimp only
  rw [applyAndBind_of_isUnsupported hbegun]
  rfl

/-- Whatever the kernel answers, a cycle that starts where the interface may still carry programs
fails for lack of support exactly if it remembers a reason in the end, and it never stops short of
that. -/
theorem guards_cycle (hs : c.hook.Sound past) (hable : c.hook.isUnsupported = false) :
    (c.cycle name wanted mode now).Guards Log.Entry.IsRoutine
      (fun c' past' => c'.hook.Sound past' ∧ c'.hook.isUnsupported = false)
      (fun r past' => r.2.hook.Sound past' ∧
        match r.1 with
        | .ok report => r.2.hook.isUnsupported = false ∧ report.interface = name
        | .error e => Hook.Accounts name r.2.hook e) past := by
  have hwork : Work.Guards Log.Entry.IsRoutine
      (fun c' past' => c'.hook.Sound past' ∧ c'.hook.isUnsupported = false)
      (applyAndBind name wanted (c.effectiveMode mode))
      (fun _ c' past' => c'.hook.Sound past' ∧ c'.hook.isUnsupported = false)
      (fun e c' past' => c'.hook.Sound past' ∧ Hook.Accounts name c'.hook e)
      (c.beginAttempt now) past := by
    have hable' : (c.beginAttempt now).hook.isUnsupported = false := hable
    unfold Work.Guards
    rw [applyAndBind_of_able hable']
    split
    · exact guards_tearDown hs hable
    · exact guards_setUp hs hable
  refine Kernel.Procedure.guards_bind.mpr
    (Kernel.Procedure.Guards.mono hwork (fun _ _ h => h) ?_)
  rintro ⟨(e | ⟨report, events⟩), c'⟩ past' hend
  · exact hend
  · exact ⟨show "Cycle complete" ≠ "Enforcement event" by decide, hend.1, hend.2, rfl⟩

end Context

end IngressGuard
