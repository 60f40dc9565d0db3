import IngressGuard.Proofs.Cycle.Support
import IngressGuard.Proofs.Kernel.Passing

/-!
# Programs of others in a cycle

Where there is nothing to block, a cycle asks the kernel to detach a program only if it is one of
ours and the kernel has just shown it (`Context.guards_spares`).  So a program of others that is
attached stays attached while such a cycle runs, unless it carries the id of a program of ours that
the cycle was shown before (`Procedure.exists_shown_of_lost`).
-/

namespace IngressGuard

open Kernel (Work Exchange Call InterfaceState Model Procedure)

namespace Kernel

/-- The kernel has shown a program that is attached. -/
def Exchange.shown (p : Program) : Exchange := ⟨.query, some (.ok (some p))⟩

/-- No program was asked to be detached but programs of ours that were shown. -/
def Spares (past : List Exchange) : Prop :=
  ∀ x ∈ past, ∀ p, x.call = .detach p → p.isOurs = true ∧ Exchange.shown p ∈ past

variable {past : List Exchange}

theorem spares_nil : Spares [] := nofun

theorem Spares.snoc {x : Exchange} (h : Spares past)
    (hx : ∀ p, x.call = .detach p → p.isOurs = true ∧ Exchange.shown p ∈ past) :
    Spares (past ++ [x]) := by
  intro y hy p hcall
  have hmem : p.isOurs = true ∧ Exchange.shown p ∈ past := by
    rcases List.mem_append.mp hy with hy | hy
    · exact h y hy p hcall
    · exact hx p (List.mem_singleton.mp hy ▸ hcall)
  exact ⟨hmem.1, List.mem_append_left _ hmem.2⟩

/-- What was asked to be detached last was shown before. -/
theorem Spares.last {p : Program} (h : Spares (past ++ [⟨.detach p, none⟩])) :
    p.isOurs = true ∧ Exchange.shown p ∈ past := by
  obtain ⟨hours, hmem⟩ := h _ (List.mem_append_right _ List.mem_cons_self) p rfl
  refine ⟨hours, (List.mem_append.mp hmem).resolve_right fun hlast => ?_⟩
  have hcall : Call.query = .detach p :=
    congrArg Exchange.call (List.mem_singleton.mp hlast)
  cases hcall

end Kernel

open Kernel (Spares spares_nil)

/-! ## With nothing to block -/

variable {name : String} {wanted : DenyList} {F : CycleError → Prop}

theorem Hook.keeps_requireSupport (hF : ∀ h : Hook, F (unsupportedError name h)) :
    Work.Keeps Log.Entry.IsRoutine Spares F (requireSupport name) := by
  refine Work.keeps_get.bind fun h => ?_
  split
  · exact fun _ _ hpast => ⟨hpast, hF h⟩
  · exact Work.keeps_pure

theorem Hook.keeps_ensureDetached (hF : ∀ cause, F (.detachFailed name cause)) :
    Work.Keeps Log.Entry.IsRoutine Spares F (ensureDetached name) := by
  have hupdate : ∀ events : List HookEvent, Work.Keeps Log.Entry.IsRoutine Spares F
      (do Work.modify fun h => { h with program := none, state := .noProgram }; return events :
        HookWork (List HookEvent)) :=
    fun events => Work.keeps_modify.bind fun _ => Work.keeps_pure
  have htell : ∀ (level : Log.Level) message more, message ≠ "Enforcement event" →
      Work.Keeps Log.Entry.IsRoutine Spares F (tell level message name more) :=
    fun level message more hmessage => Work.keeps_note hmessage
  refine Work.keeps_get.bind fun h => ?_
  split
  · exact Work.keeps_pure
  intro h past hpast
  have hqueried : ∀ answer, Spares (past ++ [⟨.query, answer⟩]) := fun answer => hpast.snoc nofun
  refine Work.guards_bind.mpr (Work.guards_call.mpr ⟨hqueried none, fun answer => ?_,
    fun cause => ⟨hqueried _, hF cause⟩⟩)
  cases answer with
  | none => exact Work.keeps_pure.bind hupdate h _ (hqueried _)
  | some p =>
    dsimp only
    split
    case isTrue hours =>
      -- The program was shown by the call before.
      have hdetached : ∀ answer,
          Spares ((past ++ [Exchange.shown p]) ++ [⟨.detach p, answer⟩]) := by
        intro answer
        refine (hqueried (some (.ok (some p)))).snoc ?_
        rintro _ ⟨⟩
        exact ⟨hours, List.mem_append_right _ List.mem_cons_self⟩
      refine Work.guards_bind.mpr (Work.guards_modify.mpr ?_)
      refine Work.guards_bind.mpr (Work.guards_call.mpr ⟨hdetached _, fun _ => ?_,
        fun cause => ⟨hdetached _, hF cause⟩⟩)
      exact ((htell _ _ _ (by decide)).bind fun _ => Work.keeps_pure.bind hupdate) _ _
        (hdetached _)
    case isFalse =>
      exact ((htell _ _ _ (by decide)).bind fun _ => Work.keeps_pure.bind hupdate) _ _
        (hqueried _)

/-- With nothing to block, whatever the kernel answers, a cycle spares the programs of others. -/
theorem Context.guards_spares (hempty : wanted.isEmpty = true) (c : Context) (mode : SyncMode)
    (now : Timestamp) :
    (c.cycle name wanted mode now).Guards Log.Entry.IsRoutine (fun _ => Spares)
      (fun _ => Spares) [] := by
  have htables : ∀ b, Work.Keeps Log.Entry.IsRoutine Spares (fun _ => True)
      (BlockTables.apply name wanted b) := by
    intro b t past hpast
    refine (BlockTables.keeps_apply (fun call past answer hcall hpast => ?_) t past hpast).mono
      (fun _ _ h => h) (fun _ _ _ h => h) fun _ _ _ h => ⟨h.1, trivial⟩
    refine hpast.snoc ?_
    rintro p (rfl : call = .detach p)
    cases hcall
  have hwork : Work.Keeps Log.Entry.IsRoutine Spares (fun _ => True)
      (applyAndBind name wanted (c.effectiveMode mode)) := by
    refine (Hook.keeps_requireSupport fun _ => trivial).focus.bind fun _ => ?_
    rw [if_pos hempty]
    refine (Hook.keeps_ensureDetached fun _ => trivial).focus.bind fun events => ?_
    exact (htables _).focus.bind fun report => Work.keeps_pure
  refine Procedure.guards_bind.mpr (Procedure.Guards.mono
    (hwork (c.beginAttempt now) [] spares_nil) (fun _ _ h => h) ?_)
  rintro ⟨e | report, c'⟩ past hpast
  · exact hpast.1
  · exact ⟨show "Cycle complete" ≠ "Enforcement event" by decide, hpast⟩

/-! ## On the kernel -/

namespace Kernel

variable {m m' : Model} {q : Program}

/-- A call leaves a program of others attached unless it asks to detach a program of that id. -/
theorem Model.eq_detach_of_lost {c : Call} (hq : m.program name = some q)
    (hlost : (m.answer name c).2.program name ≠ some q) : ∃ p, c = .detach p ∧ q.id = p.id := by
  have hstep : InterfaceState.behaviour True c (m.interface name) (m.answer name c).1
      ((m.answer name c).2.interface name) := Model.answer_behaves (.inl trivial) c
  unfold Model.program at hq hlost
  generalize (m.answer name c).2.interface name = s' at hstep hlost
  generalize (m.answer name c).1 = b at hstep
  by_cases hprogram : c.changesProgram = false
  · rw [InterfaceState.program_of_behaviour hstep hprogram] at hlost
    exact (hlost hq).elim
  cases b with
  | error e =>
    rw [hstep.2] at hlost
    exact (hlost hq).elim
  | ok a =>
    cases c with
    | attach =>
      have hnone : (m.interface name).program = none := hstep.1
      rw [hq] at hnone
      cases hnone
    | detach p => exact ⟨p, rfl, hstep.1 q hq⟩
    | _ => exact (hprogram rfl).elim

/-- Programs of others do not appear by calls. -/
theorem Model.program_of_answer (c : Call)
    (hq : (m.answer name c).2.program name = some q) (hforeign : q.isOurs = false) :
    m.program name = some q := by
  have hstep : InterfaceState.behaviour True c (m.interface name) (m.answer name c).1
      ((m.answer name c).2.interface name) := Model.answer_behaves (.inl trivial) c
  unfold Model.program at hq ⊢
  generalize (m.answer name c).2.interface name = s' at hstep hq
  generalize (m.answer name c).1 = b at hstep
  by_cases hprogram : c.changesProgram = false
  · rwa [InterfaceState.program_of_behaviour hstep hprogram] at hq
  cases b with
  | error e => rwa [hstep.2] at hq
  | ok a =>
    have heffect := hstep.2
    cases c with
    | attach =>
      rw [heffect.2, InterfaceState.program_withProgram] at hq
      cases hq
      rw [heffect.1] at hforeign
      cases hforeign
    | detach p =>
      rw [show s' = _ from heffect, InterfaceState.program_withProgram] at hq
      cases hq
    | _ => exact (hprogram rfl).elim

/-- What the modelled kernel shows is there. -/
theorem Model.program_of_shown {c : Call} {b : c.Answer} {p : Program}
    (hanswer : m.answer name c = (b, m')) (hshown : (⟨c, some b⟩ : Exchange) = Exchange.shown p) :
    m.program name = some p := by
  have heq : (⟨c, some b⟩ : Exchange) = ⟨.query, some (.ok (some p))⟩ := hshown
  cases heq
  have hquery : (m.query name).1 = .ok (some p) := congrArg Prod.fst hanswer
  unfold Model.query at hquery
  split at hquery
  · cases hquery
  · exact Except.ok.inj hquery

namespace Procedure

variable {σ α : Type} {p : Procedure σ α}

theorem program_of_passes (hpass : p.Passes (.ofAnswer (Model.answer name)) m m')
    (hq : m'.program name = some q) (hforeign : q.isOurs = false) : m.program name = some q := by
  induction hpass with
  | here p k => exact hq
  | note rest ih => exact ih hq
  | @call c s resume k k' k'' b step rest ih =>
    have hanswer : k.answer name c = (b, k') := step
    refine Model.program_of_answer c ?_ hforeign
    rw [hanswer]
    exact ih hq

/-- A procedure that spares programs of others takes one away only if it carries the id of a
program of ours that was shown before the procedure started. -/
theorem exists_shown_of_lost {N : Log.Entry → Prop} {Q : α → List Exchange → Prop}
    {past : List Exchange} (hguards : p.Guards N (fun _ => Spares) Q past)
    (hpass : p.Passes (.ofAnswer (Model.answer name)) m m') (hq : m.program name = some q)
    (hforeign : q.isOurs = false) (hlost : m'.program name ≠ some q) :
    ∃ p, p.isOurs = true ∧ q.id = p.id ∧ Exchange.shown p ∈ past := by
  induction hpass generalizing past with
  | here p k => exact (hlost hq).elim
  | note rest ih => exact ih hguards.2 hq hlost
  | @call c s resume k k' k'' b step rest ih =>
    have hanswer : k.answer name c = (b, k') := step
    by_cases hkept : k'.program name = some q
    · obtain ⟨p, hours, hid, hshown⟩ := ih (hguards.2 b) hkept hlost
      refine ⟨p, hours, hid, (List.mem_append.mp hshown).resolve_right fun hlast => ?_⟩
      -- This call can have shown only the program of others.
      have hp := Model.program_of_shown hanswer (List.mem_singleton.mp hlast).symm
      rw [hq] at hp
      cases hp
      rw [hforeign] at hours
      cases hours
    · have hlost' : (k.answer name c).2.program name ≠ some q := by rwa [hanswer]
      obtain ⟨p, rfl, hid⟩ := Model.eq_detach_of_lost hq hlost'
      obtain ⟨hours, hshown⟩ := hguards.1.last
      exact ⟨p, hours, hid, hshown⟩

end Procedure

end Kernel

end IngressGuard
