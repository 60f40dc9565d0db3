import IngressGuard.Hook
import IngressGuard.Proofs.Kernel.Interface

/-!
# What the steps of a hook ensure

A step that succeeds ends in the program that it is about being there or not, and remembers it as
it is.  No step touches a table, and one fails only if calls may fail or if the interface was
found unable to carry programs.
-/

namespace IngressGuard

open Kernel (Work InterfaceState)

namespace Hook

variable {mayFail : Prop} {name : String} {h : Hook} {s : InterfaceState}

/-- A step that failed: it had a cause, the failure is not about tables, and the tables are as
they were. -/
structure Failed (cause : Prop) (s : InterfaceState) (e : CycleError) (s' : InterfaceState) :
    Prop where
  cause : cause
  error : ∀ i f stage k, e ≠ .applyFailed i f stage k
  tables : s'.tables = s.tables

theorem Failed.imp {cause cause' : Prop} {e : CycleError} {s' : InterfaceState}
    (hcause : cause → cause') (h : Failed cause s e s') : Failed cause' s e s' :=
  ⟨hcause h.cause, h.error, h.tables⟩

/-- Our program is attached, and remembered as it is. -/
def Binds (h : Hook) (s : InterfaceState) : Prop :=
  ∃ p, p.isOurs = true ∧ s.program = some p ∧ h.program = some p ∧ h.isUnsupported = false

/-- None of our programs is attached, and none is remembered. -/
def Frees (h : Hook) (s : InterfaceState) : Prop :=
  h.program = none ∧ s.carriesOurs = false ∧ h.isUnsupported = false

/-! ## Support -/

theorem ensures_probe :
    Work.Ensures (InterfaceState.behaviour mayFail) (probe name)
      (fun _ h' s' => s' = s ∧ (h'.isUnsupported = true → mayFail ∨ h.isUnsupported = true))
      (fun e _ s' => Failed mayFail s e s') h s := by
  refine Work.ensures_bind.mpr (Work.ensures_get.mpr ?_)
  split
  · exact Work.ensures_pure.mpr ⟨rfl, .inr⟩
  · refine Work.ensures_bind.mpr (InterfaceState.ensures_probe.mpr ⟨?_, fun hf => ⟨?_, ?_⟩⟩)
    · -- The interface can carry programs.
      refine Work.ensures_bind.mpr (Work.ensures_modify.mpr (Work.ensures_pure.mpr ?_))
      exact ⟨rfl, .inr⟩
    · intro reason
      refine Work.ensures_bind.mpr (Work.ensures_note.mpr ?_)
      refine Work.ensures_bind.mpr (Work.ensures_modify.mpr (Work.ensures_pure.mpr ?_))
      exact ⟨rfl, fun _ => .inl hf⟩
    · exact fun e => ⟨hf, nofun, rfl⟩

theorem ensures_requireSupport :
    Work.Ensures (InterfaceState.behaviour mayFail) (requireSupport name)
      (fun _ h' s' => h' = h ∧ s' = s ∧ h.isUnsupported = false)
      (fun e h' s' => h' = h ∧ Failed (h.isUnsupported = true) s e s') h s := by
  refine Work.ensures_bind.mpr (Work.ensures_get.mpr ?_)
  split
  case isTrue hunsupported =>
    exact Work.ensures_fail.mpr ⟨rfl, hunsupported, nofun, rfl⟩
  case isFalse hsupported =>
    exact Work.ensures_pure.mpr ⟨rfl, rfl, Bool.eq_false_iff.mpr hsupported⟩

theorem ensures_ensureSupported :
    Work.Ensures (InterfaceState.behaviour mayFail) (ensureSupported name)
      (fun _ h' s' => s' = s ∧ h'.isUnsupported = false)
      (fun e _ s' => Failed (mayFail ∨ h.isUnsupported = true) s e s') h s := by
  refine Work.ensures_bind.mpr (ensures_probe.mono ?_ fun _ _ _ hfailed => hfailed.imp .inl)
  rintro _ h' _ ⟨rfl, hcause⟩
  refine ensures_requireSupport.mono ?_ ?_
  · rintro _ _ _ ⟨rfl, rfl, hsupported⟩
    exact ⟨rfl, hsupported⟩
  · rintro e _ s' ⟨rfl, hfailed⟩
    exact hfailed.imp hcause

/-! ## Attaching -/

theorem ensures_adopt {p : Program} (hours : p.isOurs = true) (hp : s.program = some p) :
    Work.Ensures (InterfaceState.behaviour mayFail) (adopt name p)
      (fun _ h' s' => h'.Binds s' ∧ s'.tables = s.tables)
      (fun e _ s' => Failed mayFail s e s') h s := by
  -- The cases differ in what is logged.
  simp only [adopt, tell, Work.ensures_bind, Work.ensures_get]
  cases h.program with
  | none =>
    simp only [Work.ensures_bind, Work.ensures_note, Work.ensures_modify, Work.ensures_pure]
    exact ⟨⟨p, hours, hp, rfl, rfl⟩, trivial⟩
  | some known =>
    dsimp only
    split <;>
      simp only [Work.ensures_bind, Work.ensures_note, Work.ensures_modify, Work.ensures_pure] <;>
      exact ⟨⟨p, hours, hp, rfl, rfl⟩, trivial⟩

theorem ensures_attach {foreign : Option Program} (hnone : s.program = none) :
    Work.Ensures (InterfaceState.behaviour mayFail) (attach name foreign)
      (fun _ h' s' => h'.Binds s' ∧ s'.tables = s.tables)
      (fun e _ s' => Failed mayFail s e s') h s := by
  simp only [attach, tell, Work.ensures_bind, Work.ensures_get]
  split <;>
    simp only [Work.ensures_bind, Work.ensures_note, Work.ensures_modify] <;>
    refine Work.ensures_bind.mpr
      (InterfaceState.ensures_attach.mpr ⟨fun _ p hp => ?_, fun hf e => ?_⟩)
  case isTrue.refine_1 | isFalse.refine_1 =>
    simp only [Work.ensures_bind, Work.ensures_note, Work.ensures_modify, Work.ensures_pure]
    exact ⟨⟨p, hp, rfl, rfl, rfl⟩, rfl⟩
  all_goals exact ⟨hf.resolve_right fun h => h hnone, nofun, rfl⟩

/-- Our program gets attached: one of ours that is there already is kept, and one of others makes
room. -/
theorem ensures_ensureAttached :
    Work.Ensures (InterfaceState.behaviour mayFail) (ensureAttached name)
      (fun _ h' s' => h'.Binds s' ∧ s'.tables = s.tables)
      (fun e _ s' => Failed (mayFail ∨ h.isUnsupported = true) s e s') h s := by
  refine Work.ensures_bind.mpr (ensures_ensureSupported.mono ?_ fun _ _ _ h => h)
  rintro _ h' s' ⟨rfl, -⟩
  have hfailed : ∀ e : KernelError,
      mayFail → Failed (mayFail ∨ h.isUnsupported = true) s' (.attachFailed name e) s' :=
    fun e hf => ⟨.inl hf, nofun, rfl⟩
  refine Work.ensures_bind.mpr (InterfaceState.ensures_query.mpr ⟨?_, fun hf e => hfailed e hf⟩)
  cases hp : s'.program with
  | none => exact (ensures_attach hp).mono (fun _ _ _ h => h) fun _ _ _ h => h.imp .inl
  | some p =>
    dsimp only
    split
    case isTrue hours =>
      exact (ensures_adopt hours hp).mono (fun _ _ _ h => h) fun _ _ _ h => h.imp .inl
    case isFalse =>
      simp only [tell, Work.ensures_bind, Work.ensures_note]
      have haccepts := InterfaceState.accepts_detach hp
      refine Work.ensures_bind.mpr (InterfaceState.ensures_detach.mpr ⟨fun _ => ?_, fun hf e => ?_⟩)
      · exact (ensures_attach rfl).mono (fun _ _ _ h => h) fun _ _ _ h =>
          ⟨.inl h.cause, h.error, h.tables⟩
      · exact hfailed e (hf.resolve_right fun h => h haccepts)

/-! ## Detaching -/

/-- Our program gets detached, and none is remembered; one of others stays. -/
theorem ensures_ensureDetached (hsupported : h.isUnsupported = false) :
    Work.Ensures (InterfaceState.behaviour mayFail) (ensureDetached name)
      (fun _ h' s' => h'.Frees s' ∧ s'.tables = s.tables)
      (fun e _ s' => Failed mayFail s e s') h s := by
  simp only [ensureDetached, Work.ensures_bind, Work.ensures_get]
  rw [if_neg (by simp [hsupported])]
  refine Work.ensures_bind.mpr (InterfaceState.ensures_query.mpr ⟨?_, fun hf e => ?_⟩)
  · cases hp : s.program with
    | none =>
      simp only [Work.ensures_bind, Work.ensures_modify, Work.ensures_pure]
      exact ⟨⟨rfl, by rw [InterfaceState.carriesOurs, hp]; rfl, rfl⟩, trivial⟩
    | some p =>
      dsimp only
      split
      case isTrue hours =>
        simp only [Work.ensures_bind, Work.ensures_modify]
        have haccepts := InterfaceState.accepts_detach hp
        refine Work.ensures_bind.mpr
          (InterfaceState.ensures_detach.mpr ⟨fun _ => ?_, fun hf e => ?_⟩)
        · simp only [tell, Work.ensures_bind, Work.ensures_note, Work.ensures_modify,
            Work.ensures_pure]
          exact ⟨⟨rfl, rfl, rfl⟩, rfl⟩
        · exact ⟨hf.resolve_right fun h => h haccepts, nofun, rfl⟩
      case isFalse hforeign =>
        simp only [tell, Work.ensures_bind, Work.ensures_note, Work.ensures_modify,
          Work.ensures_pure]
        refine ⟨⟨rfl, ?_, rfl⟩, trivial⟩
        rw [InterfaceState.carriesOurs, hp]
        exact Bool.eq_false_iff.mpr hforeign
  · exact ⟨hf, nofun, rfl⟩

end Hook

end IngressGuard
