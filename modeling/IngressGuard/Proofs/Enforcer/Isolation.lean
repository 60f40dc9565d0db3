import Mathlib.Data.List.Forall2
import IngressGuard.Proofs.Cycle.Twin
import IngressGuard.Proofs.Enforcer.Restraint

/-!
# Interfaces are isolated

What a tick does on an interface depends on nothing but the address sets, the rules that name the
interface, what is held for it, and what the kernel holds for it.  Two enforcers on two hosts that
agree in these, whatever they hold and block elsewhere, go on to agree tick by tick, along any
schedules, and the outcomes of the interface differ in ids of programs only (`Tick.isolates`).

A tick is first taken by itself: where no failure is armed, its task ends in one of the ways in
which the cycle of that moment ends on its interface alone (`Tick.Leads`), whatever the other
interfaces do in between.  Two such cycles on two hosts are twins.
-/

namespace IngressGuard

open Kernel (Model Procedure InterfaceState Circumstances)
open Kernel.InterfaceState (calm)

/-! ## Outcomes and hosts -/

/-- Two outcomes differ in ids of programs only. -/
structure SyncOutcome.Alike (o o' : SyncOutcome) : Prop where
  interface : o.interface = o'.interface
  mode : o.mode = o'.mode
  wanted : o.wanted = o'.wanted
  result : SyncReport.ResultsAlike o.result o'.result
  becameUnsupported : o.becameUnsupported = o'.becameUnsupported

theorem SyncReport.ResultsAlike.mapError {ε ε' : Type} {r r' : Except ε SyncReport}
    (h : ResultsAlike r r') (f : ε → ε') : ResultsAlike (r.mapError f) (r'.mapError f) := by
  cases h with
  | ok h => exact .ok h
  | error e => exact .error (f e)

namespace Host

/-- No failure is armed that an interface could meet. -/
structure Calm (name : String) (h : Host) : Prop where
  faults : h.kernel.faults = Kernel.Faults.none
  crashing : name ∉ h.crashing
  listing : h.listingFault = none
  fallback : h.fallbackCrashes = false

variable {name other : String} {h : Host}

theorem Calm.managed (hc : Calm name h) : Calm name h.managed.2 := by
  have hmanaged : h.managed.2 = h := by
    unfold Host.managed
    rw [hc.listing]
    cases h
    cases hc.listing
    rfl
  rwa [hmanaged]

theorem Calm.answer (hc : Calm name h) (c : Kernel.Call) : Calm name (h.answer other c).2 := by
  unfold Host.answer
  split
  · refine ⟨hc.faults, fun hmem => hc.crashing ?_, hc.listing, hc.fallback⟩
    exact Std.ExtTreeSet.mem_of_mem_erase hmem
  · have hfaults := (Model.agreesBesides_answer other h.kernel c).noFaults hc.faults
    exact ⟨hfaults, hc.crashing, hc.listing, hc.fallback⟩

/-- A handoff to a handler that does not bring down its task leaves a log. -/
theorem Calm.handOff (hc : Calm name h) (handoff : Handoff) :
    Calm name (h.handOff handoff).2 ∧ ∃ log, (h.handOff handoff).1 = some log := by
  unfold Host.handOff
  rw [if_neg (Bool.eq_false_iff.mp hc.fallback)]
  split
  · exact ⟨⟨hc.faults, hc.crashing, hc.listing, hc.fallback⟩, [], rfl⟩
  · exact ⟨hc, _, rfl⟩

/-- The kernel answers the calls of a cycle that nothing brings down. -/
theorem Calm.answer_eq (hc : Calm name h) (c : Kernel.Call) :
    h.answer name c =
      (some (h.kernel.answer name c).1, { h with kernel := (h.kernel.answer name c).2 }) := by
  unfold Host.answer
  have hcontains : h.crashing.contains name = false :=
    Bool.eq_false_iff.mpr fun hmem => hc.crashing (Std.ExtTreeSet.contains_iff_mem.mp hmem)
  rw [hcontains]
  rfl

end Host

namespace Tick

variable {t : Tick} {name : String}

/-- What calls and handoffs keep of a host, every move keeps. -/
theorem host_step_induction {I : Host → Prop}
    (hanswer : ∀ other c h, I h → I (h.answer other c).2)
    (hhandOff : ∀ handoff h, I h → I (h.handOff handoff).2) (hI : I t.host) (move : Move) :
    I (t.step move).host := by
  have hends : ∀ {name host}, t.host.Ends name host → I host := by
    rintro name host (rfl | ⟨c, heq⟩)
    · exact hI
    · have hafter := hanswer name c t.host hI
      rwa [heq] at hafter
  have hbecomes := step_becomes t move
  generalize move.interface = name, t.step move = t' at hbecomes ⊢
  cases hbecomes with
  | stays => exact hI
  | begins => exact hI
  | @calls _ c _ _ _ _ _ _ heq =>
    have hafter := hanswer name c t.host hI
    rwa [heq] at hafter
  | frees hhost => exact hends hhost
  | concludes hhost =>
    unfold conclude
    split
    · exact hends hhost
    · exact hhandOff _ _ (hends hhost)

theorem calm_run (hc : t.host.Calm name) (schedule : List Move) :
    (t.run schedule).host.Calm name :=
  run_induction schedule (I := fun t => t.host.Calm name)
    (fun _ move _ hc => host_step_induction (fun _ c _ h => h.answer c)
      (fun handoff _ h => (h.handOff handoff).1) hc move) hc

theorem circumstances_run (schedule : List Move) :
    (t.run schedule).host.kernel.circumstances name = t.host.kernel.circumstances name := by
  refine run_induction schedule (I := fun t' =>
    t'.host.kernel.circumstances name = t.host.kernel.circumstances name) ?_ rfl
  intro t' move _ hz
  have hkernel := (agreesBesides_step t' move).kernel
  refine Eq.trans ?_ hz
  unfold Model.circumstances Model.exists?
  rw [hkernel.known, hkernel.unsupported]

theorem policy_run (schedule : List Move) :
    (t.run schedule).enforcer.policy = t.enforcer.policy :=
  run_induction schedule (I := fun t' => t'.enforcer.policy = t.enforcer.policy)
    (fun t' move _ hpolicy => (agreesBesides_step t' move).enforcer.policy.trans hpolicy) rfl

theorem tasks_conclude (hc : t.host.Calm name) (o : SyncOutcome) (e : Enforcer) :
    (t.conclude name o e).tasks = t.tasks.insert name (.over (some o)) := by
  unfold conclude
  split
  case h_1 => rfl
  case h_2 handoff _ =>
    obtain ⟨-, log, hlog⟩ := hc.handOff handoff
    dsimp only
    rw [hlog]
    rfl

end Tick

/-! ## Policies that do not translate -/

/-- What is remembered after a cycle was refused: when that was, and why. -/
def Context.refused (now : Timestamp) (cause : TranslateError) (c : Context) : Context :=
  { c with
    attempts :=
      { c.attempts with
        lastAttempt := some now
        lastError := some (SyncError.translate cause).message } }

/-- What is held after a cycle was refused; one that is running goes on. -/
def Slot.refused (now : Timestamp) (cause : TranslateError) : Slot → Slot
  | idle c => idle (c.refused now cause)
  | running rest => running rest

/-- The outcome of a cycle that was refused. -/
def SyncOutcome.refusal (interface : String) (mode : SyncMode) (cause : TranslateError) :
    SyncOutcome :=
  ⟨interface, mode, none, .error (.translate cause), false⟩

theorem Context.Alike.refused {c c' : Context} (hc : c.Alike c') (now : Timestamp)
    (cause : TranslateError) : (c.refused now cause).Alike (c'.refused now cause) :=
  (hc.beginAttempt now).failAttempt _

namespace Enforcer

variable {e : Enforcer} {name : String}

theorem refuse_eq (e : Enforcer) (name : String) (mode : SyncMode) (cause : TranslateError)
    (now : Timestamp) :
    (e.refuse name mode cause now).1 = .refusal name mode cause ∧
      (e.refuse name mode cause now).2.slot name = (e.slot name).refused now cause := by
  unfold refuse
  cases hslot : e.slot name with
  | idle c => exact ⟨rfl, slot_putSlot_same⟩
  | running rest => exact ⟨rfl, hslot⟩

/-- A sync of which the policy does not translate makes no call, whatever is armed on the host, and
changes nothing but when the interface was attempted last and why that failed. -/
theorem syncInterface_refused {cause : TranslateError}
    (hcause : e.policy.denyList name = .error cause) (mode : SyncMode) (now : Timestamp)
    (stalls : Bool) (h : Host) :
    ∃ e', e.syncInterface name mode now stalls h = (.refusal name mode cause, e', h, []) ∧
      AgreesBesides name e e' ∧ e'.slot name = (e.slot name).refused now cause := by
  obtain ⟨houtcome, hslot⟩ := refuse_eq e name mode cause now
  refine ⟨(e.refuse name mode cause now).2, ?_, agreesBesides_refuse mode cause now, hslot⟩
  unfold syncInterface
  rw [hcause]
  dsimp only
  rw [houtcome]

end Enforcer

namespace Tick

variable {e : Enforcer} {h : Host} {t : Tick} {m : Model} {name : String}
  {cause : TranslateError} {c : Context}

/-- What a tick does on an interface of which the policy does not translate: its task waits, or it
has ended with the error at one of some times, and no call about it was made. -/
structure Refuses (m : Model) (name : String) (cause : TranslateError) (c : Context)
    (times : Timestamp → Prop) (t : Tick) : Prop where
  task : (t.tasks[name]? = some .waiting ∧ t.enforcer.slot name = .idle c) ∨
    ∃ now, times now ∧ t.tasks[name]? = some (.over (some (.refusal name .resync cause))) ∧
      t.enforcer.slot name = .idle (c.refused now cause)
  interface : t.host.kernel.interface name = m.interface name
  operations : t.host.kernel.operations name = m.operations name

variable {times : Timestamp → Prop}

theorem Refuses.idle (hr : Refuses m name cause c times t) :
    ∃ c, t.enforcer.slot name = .idle c := by
  rcases hr.task with ⟨-, hslot⟩ | ⟨now, -, -, hslot⟩
  · exact ⟨c, hslot⟩
  · exact ⟨_, hslot⟩

theorem Refuses.begin (hr : Refuses m name cause c times t)
    (hcause : t.enforcer.policy.denyList name = .error cause) {now : Timestamp} (hnow : times now) :
    Refuses m name cause c times (t.begin name now) := by
  unfold Tick.begin
  split
  case h_2 => exact hr
  case h_1 hwaiting =>
    rcases hr.task with ⟨-, hslot⟩ | ⟨_, -, htask, -⟩
    · obtain ⟨houtcome, hrefused⟩ := Enforcer.refuse_eq t.enforcer name .resync cause now
      rw [hcause]
      dsimp only
      rw [houtcome]
      -- The error asks for no handoff, so nothing can bring down the task.
      refine ⟨.inr ⟨now, hnow, NameMap.getElem?_insert_same, ?_⟩, hr.interface, hr.operations⟩
      rw [hslot] at hrefused
      exact hrefused
    · rw [hwaiting] at htask
      cases htask

theorem Refuses.step (hr : Refuses m name cause c times t)
    (hcause : t.enforcer.policy.denyList name = .error cause) {move : Move}
    (htimes : ∀ now, move = .begin name now → times now) :
    Refuses m name cause c times (t.step move) := by
  by_cases hname : move.interface = name
  · by_cases hbegin : ∃ now, move = .begin name now
    · obtain ⟨now, rfl⟩ := hbegin
      exact hr.begin hcause (htimes now rfl)
    · rwa [step_of_idle hname hr.idle fun _ now hmove => hbegin ⟨now, hmove⟩]
  · have hne : name ≠ move.interface := Ne.symm hname
    have hagrees := agreesBesides_step t move
    refine ⟨?_, (hagrees.kernel.others name hne).trans hr.interface,
      (operations_step hne).trans hr.operations⟩
    rw [hagrees.tasks name hne, hagrees.enforcer.slots name hne]
    exact hr.task

theorem Refuses.run (hr : Refuses m name cause c times t)
    (hcause : t.enforcer.policy.denyList name = .error cause) {schedule : List Move}
    (htimes : ∀ now, .begin name now ∈ schedule → times now) :
    Refuses m name cause c times (t.run schedule) := by
  have hrun := run_induction schedule
    (I := fun t => Refuses m name cause c times t ∧
      t.enforcer.policy.denyList name = .error cause) ?_ ⟨hr, hcause⟩
  · exact hrun.1
  rintro t move hmove ⟨hr, hcause⟩
  refine ⟨hr.step hcause fun now hbegin => htimes now (hbegin ▸ hmove), ?_⟩
  rwa [(agreesBesides_step t move).enforcer.policy]

theorem Refuses.of_ends {now : Timestamp} (hr : Refuses m name cause c (· = now) t)
    (hends : ∀ stage, t.tasks[name]? = some stage → ∃ outcome, stage = .over outcome) :
    t.tasks[name]? = some (.over (some (.refusal name .resync cause))) ∧
      t.enforcer.slot name = .idle (c.refused now cause) := by
  rcases hr.task with ⟨hwaiting, -⟩ | ⟨_, rfl, htask, hslot⟩
  · obtain ⟨outcome, hover⟩ := hends _ hwaiting
    cases hover
  · exact ⟨htask, hslot⟩

/-- A policy that does not translate has a rule about the interface, so a tick has a task for it. -/
theorem refuses_run (hcause : e.policy.denyList name = .error cause) (hslot : e.slot name = .idle c)
    {schedule : List Move} (htimes : ∀ now, .begin name now ∈ schedule → times now) :
    Refuses h.kernel name cause c times ((start e h).run schedule) := by
  have hmem : name ∈ targets e h := by
    refine mem_targets.mpr (.inl ?_)
    by_contra hno
    have hempty :=
      PolicySnapshot.denyList_of_no_rule fun rule hrule hname => hno ⟨rule, hrule, hname⟩
    rw [hcause] at hempty
    cases hempty
  refine Refuses.run ⟨.inl ⟨tasks_start_of_mem hmem, hslot⟩, ?_, ?_⟩ hcause htimes
  · exact congrArg (·.interface name) Host.kernel_managed
  · exact congrArg (·.operations name) Host.kernel_managed

/-! ## Policies that translate -/

/-- The outcome of a cycle that has come to its end. -/
def ended (name : String) (wanted : DenyList) (before : Context)
    (r : Except CycleError SyncReport × Context) : SyncOutcome :=
  ⟨name, .resync, some wanted, r.1.mapError .cycle,
    !before.hook.isUnsupported && r.2.hook.isUnsupported⟩

/-- What a tick does on an interface where no failure is armed, by how far its task has come: the
rest of its cycle leads where the whole cycle leads on this interface alone. -/
inductive Leads (name : String) (z : Circumstances) (c : Context) (wanted : DenyList)
    (now : Timestamp) (s₀ : InterfaceState) : Option Stage → Slot → InterfaceState → Prop
  | waiting : Leads name z c wanted now s₀ (some .waiting) (.idle c) s₀
  | cycling {rest : RunningCycle} {s : InterfaceState}
      (h : rest.Ensures (calm name z)
        (fun r s' => (c.cycle name wanted .resync now).Yields (calm name z) s₀ r s') s) :
      Leads name z c wanted now s₀ (some (.cycling c wanted)) (.running rest) s
  | finished {r : Except CycleError SyncReport × Context} {s : InterfaceState}
      (h : (c.cycle name wanted .resync now).Yields (calm name z) s₀ r s) :
      Leads name z c wanted now s₀ (some (.over (some (ended name wanted c r)))) (.idle r.2) s

/-- What a tick has come to on an interface where no failure is armed. -/
def Leads.At (name : String) (z : Circumstances) (c : Context) (wanted : DenyList)
    (now : Timestamp) (s₀ : InterfaceState) (t : Tick) : Prop :=
  Leads name z c wanted now s₀ t.tasks[name]? (t.enforcer.slot name)
    (t.host.kernel.interface name)

variable {z : Circumstances} {wanted : DenyList} {now : Timestamp} {s₀ : InterfaceState}

theorem Leads.At.begin (hl : Leads.At name z c wanted now s₀ t)
    (hwanted : t.enforcer.policy.denyList name = .ok wanted) :
    Leads.At name z c wanted now s₀ (t.begin name now) := by
  unfold Tick.begin
  split
  case h_2 => exact hl
  case h_1 hwaiting =>
    unfold Leads.At at hl
    rw [hwaiting] at hl
    generalize hslot : t.enforcer.slot name = slot at hl
    generalize hs : t.host.kernel.interface name = s at hl
    cases hl with
    | waiting =>
      rw [hwanted]
      unfold Leads.At
      dsimp only
      rw [NameMap.getElem?_insert_same, Enforcer.slot_putSlot_same, hs]
      exact .cycling fun _ _ hrun => hrun

theorem Leads.At.call (hl : Leads.At name z c wanted now s₀ t) (hcalm : t.host.Calm name)
    (hz : t.host.kernel.circumstances name = z) :
    Leads.At name z c wanted now s₀ (t.call name) := by
  unfold Tick.call
  split
  case h_2 => exact hl
  case h_1 rest hslot =>
    split
    case h_2 => exact hl
    case h_1 call state resume hrest =>
      rw [hcalm.answer_eq call]
      unfold Leads.At at hl ⊢
      dsimp only
      rw [Enforcer.slot_putSlot_same]
      rw [hslot] at hl
      generalize t.tasks[name]? = task at hl ⊢
      cases hl with
      | cycling hleads =>
        have hstep : calm name (t.host.kernel.circumstances name) call
            (t.host.kernel.interface name) (t.host.kernel.answer name call).1
            ((t.host.kernel.answer name call).2.interface name) :=
          Model.answer_calm hcalm.faults call
        rw [hz] at hstep
        have hcall := Procedure.ensures_afterOpening.mpr hleads
        rw [hrest] at hcall
        exact .cycling (Procedure.ensures_call.mp hcall _ _ hstep)

theorem Leads.At.finish (hl : Leads.At name z c wanted now s₀ t) (hcalm : t.host.Calm name) :
    Leads.At name z c wanted now s₀ (t.finish name) := by
  unfold Tick.finish
  split
  case h_2 => exact hl
  case h_1 rest hslot =>
    split
    case h_2 => exact hl
    case h_1 result hrest =>
      unfold Leads.At at hl
      rw [hslot] at hl
      generalize htask : t.tasks[name]? = task at hl
      cases hl with
      | cycling hleads =>
        have hdone := Procedure.ensures_afterOpening.mpr hleads
        rw [hrest] at hdone
        unfold Tick.settle
        rw [htask]
        dsimp only
        obtain ⟨henforcer, hkernel, -⟩ := conclude_spec t name
          (t.enforcer.settle name .resync wanted c (.completed result)).1
          (t.enforcer.settle name .resync wanted c (.completed result)).2
        unfold Leads.At
        rw [henforcer, hkernel, tasks_conclude hcalm, NameMap.getElem?_insert_same]
        have hafter : (t.enforcer.settle name .resync wanted c (.completed result)).2.slot name =
            .idle result.2 := Enforcer.slot_putSlot_same
        rw [hafter]
        exact .finished (Procedure.ensures_done.mp hdone)

theorem Leads.At.step (hl : Leads.At name z c wanted now s₀ t)
    (hwanted : t.enforcer.policy.denyList name = .ok wanted) (hcalm : t.host.Calm name)
    (hz : t.host.kernel.circumstances name = z) {move : Move}
    (hbegin : ∀ time, move = .begin name time → time = now) (hpatient : move ≠ .giveUp name) :
    Leads.At name z c wanted now s₀ (t.step move) := by
  by_cases hname : move.interface = name
  · cases move with
    | begin other time =>
      obtain rfl : other = name := hname
      obtain rfl : time = now := hbegin time rfl
      exact hl.begin hwanted
    | call other =>
      obtain rfl : other = name := hname
      exact hl.call hcalm hz
    | finish other =>
      obtain rfl : other = name := hname
      exact hl.finish hcalm
    | giveUp other =>
      obtain rfl : other = name := hname
      exact (hpatient rfl).elim
  · have hne : name ≠ move.interface := Ne.symm hname
    have hagrees := agreesBesides_step t move
    unfold Leads.At at hl ⊢
    rwa [hagrees.tasks name hne, hagrees.enforcer.slots name hne, hagrees.kernel.others name hne]

/-- A tick goes along a schedule on which the task of an interface begins at a given time, nobody
loses patience with its cycle, and the task, if there is one, comes to its end. -/
structure Completes (name : String) (now : Timestamp) (t : Tick) (schedule : List Move) : Prop where
  begins : ∀ time, .begin name time ∈ schedule → time = now
  patient : .giveUp name ∉ schedule
  ends : ∀ stage, (t.run schedule).tasks[name]? = some stage → ∃ outcome, stage = .over outcome

theorem completes_of_outcome {schedule : List Move}
    (hbegins : ∀ time, .begin name time ∈ schedule → time = now)
    (hpatient : .giveUp name ∉ schedule)
    (houtcome : ((t.run schedule).outcome? name).isSome = true) :
    Completes name now t schedule := by
  refine ⟨hbegins, hpatient, fun stage htask => ?_⟩
  unfold outcome? at houtcome
  rw [htask] at houtcome
  rcases stage with _ | ⟨before, wanted⟩ | outcome
  · cases houtcome
  · cases houtcome
  · exact ⟨outcome, rfl⟩

theorem Leads.At.run (hl : Leads.At name z c wanted now s₀ t)
    (hwanted : t.enforcer.policy.denyList name = .ok wanted) (hcalm : t.host.Calm name)
    (hz : t.host.kernel.circumstances name = z) {schedule : List Move}
    (hbegins : ∀ time, .begin name time ∈ schedule → time = now)
    (hpatient : .giveUp name ∉ schedule) :
    Leads.At name z c wanted now s₀ (t.run schedule) := by
  have hrun := run_induction schedule
    (I := fun t => Leads.At name z c wanted now s₀ t ∧
      t.enforcer.policy.denyList name = .ok wanted ∧ t.host.Calm name ∧
      t.host.kernel.circumstances name = z) ?_ ⟨hl, hwanted, hcalm, hz⟩
  · exact hrun.1
  rintro t move hmove ⟨hl, hwanted, hcalm, hz⟩
  have hstep : Leads.At name z c wanted now s₀ (t.step move) :=
    hl.step hwanted hcalm hz (fun time hbegin => hbegins time (hbegin ▸ hmove))
      (fun hgiveUp => hpatient (hgiveUp ▸ hmove))
  refine ⟨hstep, ?_, calm_run hcalm [move], (circumstances_run [move]).trans hz⟩
  rwa [(agreesBesides_step t move).enforcer.policy]

/-- Where the task of an interface ends and no failure is armed, it ends as the cycle of that
moment does on this interface alone. -/
theorem Completes.leads {schedule : List Move}
    (hcompletes : Completes name now (start e h) schedule) (hmem : name ∈ targets e h)
    (hslot : e.slot name = .idle c)
    (hwanted : e.policy.denyList name = .ok wanted) (hcalm : h.Calm name) :
    let t := (start e h).run schedule
    ∃ r, (c.cycle name wanted .resync now).Yields (calm name (h.kernel.circumstances name))
        (h.kernel.interface name) r (t.host.kernel.interface name) ∧
      t.outcome? name = some (ended name wanted c r) ∧ t.enforcer.slot name = .idle r.2 := by
  intro t
  have hkernel : (start e h).host.kernel = h.kernel := Host.kernel_managed
  have hstart : Leads.At name (h.kernel.circumstances name) c wanted now
      (h.kernel.interface name) (start e h) := by
    unfold Leads.At
    rw [tasks_start_of_mem hmem, hkernel]
    show Leads _ _ _ _ _ _ _ (e.slot name) _
    rw [hslot]
    exact .waiting
  have hl : Leads.At name (h.kernel.circumstances name) c wanted now (h.kernel.interface name) t :=
    hstart.run hwanted hcalm.managed (congrArg (·.circumstances name) hkernel) hcompletes.begins
      hcompletes.patient
  have hends := hcompletes.ends
  unfold Leads.At at hl
  unfold outcome?
  generalize t.enforcer.slot name = slot, t.host.kernel.interface name = s at hl ⊢
  generalize htask : t.tasks[name]? = task at hl ⊢
  cases hl with
  | waiting =>
    obtain ⟨outcome, hover⟩ := hends _ htask
    cases hover
  | cycling =>
    obtain ⟨outcome, hover⟩ := hends _ htask
    cases hover
  | finished hyields => exact ⟨_, hyields, rfl, rfl⟩

/-! ## Two ticks -/

/-- Two enforcers on two hosts agree on an interface: they have the same address sets and the same
rules that name it, no cycle is running on it and the same is remembered up to ids of programs, and
the kernels hold the same tables for it and programs of the same name, and have the same to say of
whether it exists and can carry programs. -/
structure AgreeOn (name : String) (e : Enforcer) (h : Host) (e' : Enforcer) (h' : Host) : Prop where
  sets : e.policy.sets = e'.policy.sets
  rules : e.policy.rulesFor name = e'.policy.rulesFor name
  contexts : ∃ c c', e.slot name = .idle c ∧ e'.slot name = .idle c' ∧ c.Alike c'
  interface : (h.kernel.interface name).Alike (h'.kernel.interface name)
  circumstances : h.kernel.circumstances name = h'.kernel.circumstances name

variable {e' : Enforcer} {h' : Host}

theorem AgreeOn.denyList_eq (ha : AgreeOn name e h e' h') :
    e.policy.denyList name = e'.policy.denyList name := by
  unfold PolicySnapshot.denyList PolicySnapshot.translations PolicySnapshot.setList
  rw [ha.sets, ha.rules]

theorem AgreeOn.mem_targets_iff (ha : AgreeOn name e h e' h') (hcalm : h.Calm name)
    (hcalm' : h'.Calm name) : name ∈ targets e h ↔ name ∈ targets e' h' := by
  obtain ⟨c, c', hslot, hslot', hc⟩ := ha.contexts
  have hrules : (∃ rule ∈ e.policy.ruleList, rule.interface = name) ↔
      ∃ rule ∈ e'.policy.ruleList, rule.interface = name := by
    simp only [← PolicySnapshot.mem_rulesFor]
    rw [ha.rules]
  have hinterest : Enforcer.Slot.hasInterest (.idle c) = Enforcer.Slot.hasInterest (.idle c') :=
    hc.hasInterest_eq
  rw [mem_targets, mem_targets, hrules, hslot, hslot', hinterest, hcalm.listing, hcalm'.listing,
    ha.interface.carriesOurs_eq, Kernel.InterfaceState.hasTable, Kernel.InterfaceState.hasTable,
    ha.interface.tables]

theorem ended_alike {c c' : Context} {r r' : Except CycleError SyncReport × Context}
    (hc : c.Alike c') (hresult : SyncReport.ResultsAlike r.1 r'.1) (hafter : r.2.Alike r'.2) :
    (ended name wanted c r).Alike (ended name wanted c' r') := by
  refine ⟨rfl, rfl, rfl, hresult.mapError SyncError.cycle, ?_⟩
  unfold ended
  dsimp only
  rw [hc.hook.isUnsupported_eq, hafter.hook.isUnsupported_eq]

/-- After a tick on either side, two enforcers agree on an interface, and so do its outcomes. -/
theorem AgreeOn.tick (ha : AgreeOn name e h e' h') (hcalm : h.Calm name) (hcalm' : h'.Calm name)
    {schedule schedule' : List Move} (hcompletes : Completes name now (start e h) schedule)
    (hcompletes' : Completes name now (start e' h') schedule') :
    let t := (start e h).run schedule
    let t' := (start e' h').run schedule'
    Option.Rel SyncOutcome.Alike (t.outcome? name) (t'.outcome? name) ∧
      AgreeOn name t.enforcer t.host t'.enforcer t'.host := by
  intro t t'
  have hafter : ∀ d d' : Context, t.enforcer.slot name = .idle d →
      t'.enforcer.slot name = .idle d' → d.Alike d' →
      (t.host.kernel.interface name).Alike (t'.host.kernel.interface name) →
      AgreeOn name t.enforcer t.host t'.enforcer t'.host := by
    intro d d' hd hd' hdd' hinterface
    have hpolicy : t.enforcer.policy = e.policy := policy_run schedule
    have hpolicy' : t'.enforcer.policy = e'.policy := policy_run schedule'
    have hz : t.host.kernel.circumstances name = h.kernel.circumstances name :=
      (circumstances_run schedule).trans (congrArg (·.circumstances name) Host.kernel_managed)
    have hz' : t'.host.kernel.circumstances name = h'.kernel.circumstances name :=
      (circumstances_run schedule').trans (congrArg (·.circumstances name) Host.kernel_managed)
    refine ⟨?_, ?_, ⟨d, d', hd, hd', hdd'⟩, hinterface, hz.trans (ha.circumstances.trans hz'.symm)⟩
    · rw [hpolicy, hpolicy', ha.sets]
    · rw [hpolicy, hpolicy', ha.rules]
  obtain ⟨c, c', hslot, hslot', hc⟩ := ha.contexts
  cases hdeny : e.policy.denyList name with
  | error cause =>
    have hdeny' := ha.denyList_eq.symm.trans hdeny
    have hr : Refuses h.kernel name cause c (· = now) t :=
      refuses_run hdeny hslot hcompletes.begins
    have hr' : Refuses h'.kernel name cause c' (· = now) t' :=
      refuses_run hdeny' hslot' hcompletes'.begins
    obtain ⟨htask, hd⟩ := hr.of_ends hcompletes.ends
    obtain ⟨htask', hd'⟩ := hr'.of_ends hcompletes'.ends
    rw [outcome?_eq_some.mpr htask, outcome?_eq_some.mpr htask']
    refine ⟨.some ⟨rfl, rfl, rfl, .error _, rfl⟩, hafter _ _ hd hd' (hc.refused now cause) ?_⟩
    rw [hr.interface, hr'.interface]
    exact ha.interface
  | ok wanted =>
    have hdeny' := ha.denyList_eq.symm.trans hdeny
    by_cases hmem : name ∈ targets e h
    · have hmem' := (ha.mem_targets_iff hcalm hcalm').mp hmem
      obtain ⟨r, hrun, houtcome, hd⟩ := hcompletes.leads hmem hslot hdeny hcalm
      obtain ⟨r', hrun', houtcome', hd'⟩ := hcompletes'.leads hmem' hslot' hdeny' hcalm'
      rw [← ha.circumstances] at hrun'
      obtain ⟨hresult, hdd', hinterface⟩ :=
        Context.twin_cycle hc ha.interface .resync now _ _ hrun _ _ hrun'
      rw [houtcome, houtcome']
      exact ⟨.some (ended_alike hc hresult hdd'), hafter _ _ hd hd' hdd' hinterface⟩
    · have hmem' := mt (ha.mem_targets_iff hcalm hcalm').mpr hmem
      have ho : Overlooks e h.kernel name t := overlooks_of_not_mem hmem ⟨c, hslot⟩ schedule
      have ho' : Overlooks e' h'.kernel name t' := overlooks_of_not_mem hmem' ⟨c', hslot'⟩ schedule'
      unfold outcome?
      rw [ho.task, ho'.task]
      refine ⟨.none, hafter c c' (ho.slot.trans hslot) (ho'.slot.trans hslot') hc ?_⟩
      rw [ho.interface, ho'.interface]
      exact ha.interface

/-- Ticks one after another, each with the time of the task of an interface and its outcome. -/
inductive Ticks (name : String) : List Timestamp → List (Option SyncOutcome) →
    Enforcer → Host → Enforcer → Host → Prop
  | none (e : Enforcer) (h : Host) : Ticks name [] [] e h e h
  | tick {now : Timestamp} {times : List Timestamp} {outcomes : List (Option SyncOutcome)}
      {e e' : Enforcer} {h h' : Host} {schedule : List Move}
      (completes : Completes name now (start e h) schedule)
      (rest : Ticks name times outcomes ((start e h).run schedule).enforcer
        ((start e h).run schedule).host e' h') :
      Ticks name (now :: times) (((start e h).run schedule).outcome? name :: outcomes) e h e' h'

/-- Tick by tick, two enforcers that agree on an interface go on to agree on it. -/
theorem AgreeOn.ticks {times : List Timestamp} {outcomes outcomes' : List (Option SyncOutcome)}
    {e₁ e₁' : Enforcer} {h₁ h₁' : Host} (ha : AgreeOn name e h e' h') (hcalm : h.Calm name)
    (hcalm' : h'.Calm name) (ticks : Ticks name times outcomes e h e₁ h₁)
    (ticks' : Ticks name times outcomes' e' h' e₁' h₁') :
    List.Forall₂ (Option.Rel SyncOutcome.Alike) outcomes outcomes' ∧
      AgreeOn name e₁ h₁ e₁' h₁' := by
  induction ticks generalizing e' h' outcomes' with
  | none e h =>
    cases ticks'
    exact ⟨.nil, ha⟩
  | tick completes rest ih =>
    cases ticks' with
    | tick completes' rest' =>
      obtain ⟨houtcome, hafter⟩ := ha.tick hcalm hcalm' completes completes'
      obtain ⟨houtcomes, hend⟩ :=
        ih hafter (calm_run hcalm.managed _) (calm_run hcalm'.managed _) rest'
      exact ⟨.cons houtcome houtcomes, hend⟩

/-! ## Whose outcomes -/

/-- Only interfaces of a tick have tasks, and every outcome is about the interface of its task. -/
structure Owned (names : TextSet) (tasks : NameMap Stage) : Prop where
  names : ∀ (name : String) (stage : Stage), tasks[name]? = some stage → name ∈ names
  outcomes : ∀ (name : String) (o : SyncOutcome),
    tasks[name]? = some (.over (some o)) → o.interface = name

variable {names : TextSet}

theorem Owned.insert {tasks : NameMap Stage} (ho : Owned names tasks) (hmem : name ∈ names)
    {stage : Stage} (hstage : ∀ o, stage = .over (some o) → o.interface = name) :
    Owned names (Std.ExtTreeMap.insert tasks name stage) := by
  refine ⟨fun other stage' htask => ?_, fun other o htask => ?_⟩ <;> by_cases hother : other = name
  · rwa [hother]
  · rw [NameMap.getElem?_insert_other hother] at htask
    exact ho.names other stage' htask
  · subst hother
    rw [NameMap.getElem?_insert_same] at htask
    exact hstage o (Option.some.inj htask)
  · rw [NameMap.getElem?_insert_other hother] at htask
    exact ho.outcomes other o htask

theorem Owned.conclude (ho : Owned names t.tasks) (hmem : name ∈ names) {o : SyncOutcome}
    (hname : o.interface = name) (e : Enforcer) : Owned names (t.conclude name o e).tasks := by
  obtain ⟨-, -, kept, hkept, htasks⟩ := conclude_spec t name o e
  rw [htasks]
  refine ho.insert hmem fun o' ho' => ?_
  rcases hkept with rfl | rfl
  · cases ho'
  · cases ho'
    exact hname

theorem Owned.step (ho : Owned names t.tasks) (move : Move) : Owned names (t.step move).tasks := by
  have hbecomes := step_becomes t move
  generalize move.interface = name, t.step move = t' at hbecomes ⊢
  cases hbecomes with
  | stays => exact ho
  | begins now hwaiting =>
    exact ho.insert (ho.names name _ hwaiting) fun o hover => by cases hover
  | calls => exact ho
  | frees => exact ho
  | @concludes host o e _ htask hname =>
    obtain ⟨stage, hstage⟩ := Option.isSome_iff_exists.mp htask
    exact Owned.conclude (t := { t with host }) ho (ho.names name stage hstage) hname e

theorem owned_run (e : Enforcer) (h : Host) (schedule : List Move) :
    Owned (targets e h) ((start e h).run schedule).tasks := by
  refine run_induction schedule (I := fun t => Owned (targets e h) t.tasks)
    (fun _ move _ ho => ho.step move) ⟨fun name stage htask => ?_, fun name o htask => ?_⟩ <;>
    by_cases hmem : name ∈ targets e h
  · exact hmem
  · rw [tasks_start_of_not_mem hmem] at htask
    cases htask
  · rw [tasks_start_of_mem hmem] at htask
    cases htask
  · rw [tasks_start_of_not_mem hmem] at htask
    cases htask

/-- The outcome of the task of an interface is the one, of all outcomes of a tick, that is about
it. -/
theorem outcome?_eq_some_iff_mem (schedule : List Move) {o : SyncOutcome} :
    let t := (start e h).run schedule
    t.outcome? name = some o ↔
      o ∈ (targets e h).toList.filterMap t.outcome? ∧ o.interface = name := by
  intro t
  have howned : Owned (targets e h) t.tasks := owned_run e h schedule
  rw [List.mem_filterMap]
  constructor
  · intro houtcome
    have htask := outcome?_eq_some.mp houtcome
    have hmem := Std.ExtTreeSet.mem_toList.mpr (howned.names name _ htask)
    exact ⟨⟨name, hmem, houtcome⟩, howned.outcomes name o htask⟩
  · rintro ⟨⟨other, -, houtcome⟩, hname⟩
    have hother := howned.outcomes other o (outcome?_eq_some.mp houtcome)
    rwa [← hname, hother]

end Tick

/-! ## Isolation -/

namespace Session

/-- Resyncs at given times, one after another, each with its outcomes. -/
def resyncs : List Timestamp → Act (List (List SyncOutcome))
  | [] => return []
  | now :: times => do
    modify fun s => { s with now }
    let outcomes ← resyncAll
    return outcomes :: (← resyncs times)

/-- A resync of a session is a tick in which the task of every interface comes to its end, and what
it returns are the outcomes of these tasks. -/
theorem ticks_resyncs (s : Session) (name : String) (times : List Timestamp) :
    ∃ outcomes, Tick.Ticks name times outcomes s.enforcer s.host (resyncs times s).2.enforcer
        (resyncs times s).2.host ∧
      List.Forall₂ (fun outcome all => ∀ o, outcome = some o ↔ o ∈ all ∧ o.interface = name)
        outcomes (resyncs times s).1 := by
  induction times generalizing s with
  | nil => exact ⟨[], .none _ _, .nil⟩
  | cons now times ih =>
    obtain ⟨schedule, hmeets, houtcomes, horderly, hover⟩ := resyncAll_follows { s with now }
    have hcompletes : Tick.Completes name now (Tick.start s.enforcer s.host) schedule :=
      ⟨fun time hbegin => horderly _ hbegin, fun hgiveUp => horderly _ hgiveUp,
        fun stage htask => hover name stage htask⟩
    obtain ⟨outcomes, hticks, hall⟩ := ih (resyncAll { s with now }).2
    rw [hmeets.enforcer, hmeets.host] at hticks
    have houtcome : ∀ o, ((Tick.start s.enforcer s.host).run schedule).outcome? name = some o ↔
        o ∈ (resyncAll { s with now }).1 ∧ o.interface = name := by
      intro o
      rw [houtcomes]
      exact Tick.outcome?_eq_some_iff_mem schedule
    exact ⟨_, .tick hcompletes hticks, .cons houtcome hall⟩

end Session

namespace Tick

/-- Two enforcers on two hosts agree on an interface, whatever they hold and block elsewhere, and no
failure is armed that the interface could meet.  After any number of ticks along any schedules they
agree on it still, and its outcomes have differed in ids of programs only; resyncs of sessions are
such ticks.  One translator may serve all interfaces: what it remembers of the rules of others never
shows in a deny list.  An interface of which the policy does not translate sees no call, whatever is
armed, and nothing changes of what is held for it but when it was attempted last and why that
failed. -/
theorem isolates (name : String) :
    (∀ (e e' e₁ e₁' : Enforcer) (h h' h₁ h₁' : Host) (times : List Timestamp)
      (outcomes outcomes' : List (Option SyncOutcome)),
      AgreeOn name e h e' h' → h.Calm name → h'.Calm name →
      Ticks name times outcomes e h e₁ h₁ → Ticks name times outcomes' e' h' e₁' h₁' →
      List.Forall₂ (Option.Rel SyncOutcome.Alike) outcomes outcomes' ∧
        AgreeOn name e₁ h₁ e₁' h₁') ∧
    (∀ (s : Session) (times : List Timestamp),
      ∃ outcomes, Ticks name times outcomes s.enforcer s.host (s.resyncs times).2.enforcer
          (s.resyncs times).2.host ∧
        List.Forall₂ (fun outcome all => ∀ o, outcome = some o ↔ o ∈ all ∧ o.interface = name)
          outcomes (s.resyncs times).1) ∧
    (∀ (translator : Translator) (e : Enforcer),
      (translator.desiredState e.policy name).1 = e.policy.denyList name) ∧
    ∀ (e : Enforcer) (h : Host) (cause : TranslateError),
      e.policy.denyList name = .error cause →
      (∀ mode now stalls, ∃ e',
        e.syncInterface name mode now stalls h = (.refusal name mode cause, e', h, []) ∧
          Enforcer.AgreesBesides name e e' ∧ e'.slot name = (e.slot name).refused now cause) ∧
      ∀ c, e.slot name = .idle c → ∀ schedule,
        Refuses h.kernel name cause c (fun now => .begin name now ∈ schedule)
          ((start e h).run schedule) := by
  refine ⟨?_, fun s times => s.ticks_resyncs name times,
    fun translator e => translator.desiredState_eq e.policy name,
    fun e h cause hcause => ⟨?_, ?_⟩⟩
  · intro e e' e₁ e₁' h h' h₁ h₁' times outcomes outcomes' ha hcalm hcalm' ticks ticks'
    exact ha.ticks hcalm hcalm' ticks ticks'
  · exact fun mode now stalls => Enforcer.syncInterface_refused hcause mode now stalls h
  · exact fun c hslot schedule => refuses_run hcause hslot fun _ hmem => hmem

/-- Two rules about two interfaces, of which one does not parse. -/
def mistyped : Enforcer :=
  .fresh (.ofDocument
    { addressSets := [⟨"bots", .ofList [("list", "bots")], ["10.0.0.0/8"]⟩]
      rules := [⟨"bots", "eth0", .ipv4, "list == 'bots'"⟩, ⟨"typo", "eth1", .ipv4, "list =="⟩] }) 0

/-- A program of others on one interface. -/
def lone : Host := .ofKernel ((Model.fresh ∅ none).tamperAttach "eth0" "other").2 .logging

/-- Programs of others on two interfaces, attached the other way round. -/
def shared : Host :=
  .ofKernel (((Model.fresh ∅ none).tamperAttach "eth1" "other").2.tamperAttach "eth0" "other").2
    .logging

/-- The moves of one interface from the start of its task to the end. -/
def straight : List Move :=
  .begin "eth0" ⟨0, 0⟩ :: List.replicate 7 (.call "eth0") ++ [.finish "eth0"]

/-- A mistyped rule about another interface makes no difference, whatever ids programs have; on its
own interface nothing happens. -/
theorem isolates_from_mistyped :
    let t := (start oneRule lone).run straight
    let schedule := .begin "eth1" ⟨0, 0⟩ :: straight
    let t' := (start mistyped shared).run schedule
    (Option.Rel SyncOutcome.Alike (t.outcome? "eth0") (t'.outcome? "eth0") ∧
      AgreeOn "eth0" t.enforcer t.host t'.enforcer t'.host) ∧
    t.host.kernel.program "eth0" = some ⟨101, Program.ownName⟩ ∧
    t'.host.kernel.program "eth0" = some ⟨102, Program.ownName⟩ ∧
    ∃ cause, Refuses shared.kernel "eth1" cause .fresh
      (fun now => .begin "eth1" now ∈ schedule) t' := by
  intro t schedule t'
  have hsets : oneRule.policy.sets = mistyped.policy.sets := by decide +kernel
  have hrules : oneRule.policy.rulesFor "eth0" = mistyped.policy.rulesFor "eth0" := by
    decide +kernel
  have hprogram : lone.kernel.program "eth0" = some ⟨100, "other"⟩ := by decide +kernel
  have hprogram' : shared.kernel.program "eth0" = some ⟨101, "other"⟩ := by decide +kernel
  have htables :
      (lone.kernel.interface "eth0").tables = (shared.kernel.interface "eth0").tables := by
    decide +kernel
  have halike : (lone.kernel.interface "eth0").Alike (shared.kernel.interface "eth0") := by
    refine ⟨htables, ?_⟩
    unfold Model.program at hprogram hprogram'
    rw [hprogram, hprogram']
    exact .some rfl
  have hfresh : Context.fresh.Alike Context.fresh := ⟨rfl, ⟨rfl, .none, rfl, rfl⟩, rfl, rfl⟩
  have hagree : AgreeOn "eth0" oneRule lone mistyped shared :=
    ⟨hsets, hrules, ⟨.fresh, .fresh, rfl, rfl, hfresh⟩, halike, rfl⟩
  have hcompletes : Completes "eth0" ⟨0, 0⟩ (start oneRule lone) straight :=
    completes_of_outcome (by simp [straight]) (by decide) (by decide +kernel)
  have hcompletes' : Completes "eth0" ⟨0, 0⟩ (start mistyped shared) schedule :=
    completes_of_outcome (by simp [schedule, straight]) (by decide) (by decide +kernel)
  have hcalm : lone.Calm "eth0" := ⟨rfl, Std.ExtTreeSet.not_mem_empty, rfl, rfl⟩
  have hcalm' : shared.Calm "eth0" := ⟨rfl, Std.ExtTreeSet.not_mem_empty, rfl, rfl⟩
  obtain ⟨houtcomes, hafter⟩ := (isolates "eth0").1 _ _ _ _ _ _ _ _ _ _ _ hagree hcalm hcalm'
    (.tick hcompletes (.none _ _)) (.tick hcompletes' (.none _ _))
  refine ⟨⟨(List.forall₂_cons.mp houtcomes).1, hafter⟩, by decide +kernel, by decide +kernel, ?_⟩
  have hbroken : (mistyped.policy.denyList "eth1").isOk = false := by decide +kernel
  cases hcause : mistyped.policy.denyList "eth1" with
  | error cause =>
    have hrefuses := ((isolates "eth1").2.2.2 mistyped shared cause hcause).2 .fresh rfl schedule
    exact ⟨cause, hrefuses⟩
  | ok wanted =>
    rw [hcause] at hbroken
    cases hbroken

end Tick

end IngressGuard
