import IngressGuard.Enforcer.Session
import IngressGuard.Proofs.Cycle.Support
import IngressGuard.Proofs.Enforcer.Tick

/-!
# An interface that cannot carry programs

That an interface cannot carry programs is found out once and stays so.  From then on every sync
whose policy translates says it again for the same reason, makes no kernel call, and hands the
deny list of its own to the fallback handler; the enforcement event stands only in the log of the
sync that has found it out.  An interface that was found able to carry programs is not probed again
(`Session.unsupported_latches`).

The kernel may answer anything in a sync, so here a sync is told by its transcript
(`Enforcer.Syncs`, `Session.Syncs`); the syncs of a session are such syncs
(`Session.syncs_sync`).
-/

namespace IngressGuard

open Kernel (Exchange Ending Model)

/-! ## Enforcement events -/

/-- The enforcement event that an interface cannot carry programs. -/
def Log.Entry.Reports (name : String) (entry : Log.Entry) : Prop :=
  ∃ reason, entry = SyncOutcome.unsupportedEvent name reason

theorem Log.Entry.IsRoutine.not_reports {name : String} {entry : Log.Entry}
    (h : entry.IsRoutine) : ¬entry.Reports name := by
  rintro ⟨reason, rfl⟩
  exact h rfl

theorem unsupportedEvent_ne_repairEvent (name reason kind detail : String) :
    SyncOutcome.unsupportedEvent name reason ≠ repairEvent name kind detail := by
  intro h
  let item (key : String) (value : EventValue) : String :=
    "KeyValue \x7b key: " ++ (EventValue.fixed key).record ++ ", value: String(" ++
      value.record ++ ") \x7d"
  have hmetadata :
      "[" ++ (item "interface" (.free name) ++ ", " ++ item "reason" (.free reason)) ++ "]" =
        "[" ++ (item "interface" (.free name) ++ ", " ++ item "kind" (.fixed kind) ++ ", " ++
          item "detail" (.free detail)) ++ "]" :=
    congrArg (fun entry : Log.Entry => (entry.fields.headD ("", "")).2) h
  -- Both texts begin with the name; what comes next is called otherwise.
  have hkeys : (EventValue.fixed "reason").record = "Static(\"reason\")" ∧
      (EventValue.fixed "kind").record = "Static(\"kind\")" := ⟨by decide, by decide⟩
  have hchars := congrArg String.toList hmetadata
  simp only [item, hkeys, String.toList_append, List.append_assoc,
    List.append_cancel_left_eq] at hchars
  simp at hchars

theorem PolicySnapshot.isRoutine_denyListLog {s : PolicySnapshot} {name : String} :
    ∀ entry ∈ s.denyListLog name, entry.IsRoutine := by
  have hall : ∀ translations : List RuleTranslation,
      ∀ entry ∈ translationLog name translations, entry.IsRoutine := by
    intro translations
    induction translations with
    | nil => nofun
    | cons first rest ih =>
      obtain ⟨rule, cause | t⟩ := first
      · nofun
      · intro entry hentry
        simp only [translationLog, ruleLog, List.mem_append, List.mem_map,
          List.mem_singleton] at hentry
        rcases hentry with (⟨skipped, -, rfl⟩ | rfl) | hentry
        · exact (by decide : "Skipping unparseable prefix" ≠ "Enforcement event")
        · exact (by decide : "Rule translated" ≠ "Enforcement event")
        · exact ih entry hentry
  exact hall _

namespace SyncOutcome

variable {o : SyncOutcome} {name : String}

/-- A sync has failed because the interface cannot carry programs. -/
def SaysUnsupported (o : SyncOutcome) (name reason : String) : Prop :=
  o.result = .error (.cycle (.featureUnsupported name reason))

instance (o : SyncOutcome) (name reason : String) : Decidable (o.SaysUnsupported name reason) :=
  match h : o.result with
  | .ok r => isFalse (by rw [SaysUnsupported, h]; exact nofun)
  | .error e => decidable_of_iff (e = .cycle (.featureUnsupported name reason))
      (by rw [SaysUnsupported, h, Except.error.injEq])

theorem not_reports_repairEvent {kind detail : String} :
    ¬(repairEvent name kind detail).Reports name := by
  rintro ⟨reason, h⟩
  exact unsupportedEvent_ne_repairEvent name reason kind detail h.symm

theorem not_reports_repairLog {r : SyncReport} (hname : r.interface = name) :
    ∀ entry ∈ repairLog r, ¬entry.Reports name := by
  intro entry hentry
  rw [repairLog, hname, List.mem_append, List.mem_flatMap, List.mem_flatMap] at hentry
  rcases hentry with ⟨d, -, hentry⟩ | ⟨e, -, hentry⟩
  · rw [TableDrift.log, List.mem_cons, List.mem_singleton] at hentry
    rcases hentry with rfl | rfl
    · have hroutine : "Table drift repaired" ≠ "Enforcement event" := by decide
      exact Log.Entry.IsRoutine.not_reports hroutine
    · exact not_reports_repairEvent
  · unfold HookEvent.log at hentry
    split at hentry
    · obtain rfl := List.mem_singleton.mp hentry
      exact not_reports_repairEvent
    · cases hentry

/-- Unless a sync says that an interface cannot carry programs, its log does not report it. -/
theorem not_reports_log (hok : ∀ r, o.result = .ok r → r.interface = name)
    (hsupported : ∀ i reason, ¬o.SaysUnsupported i reason) :
    ∀ entry ∈ o.log, ¬entry.Reports name := by
  unfold log
  cases hresult : o.result with
  | ok r => exact not_reports_repairLog (hok r hresult)
  | error e =>
    intro entry hentry
    refine Log.Entry.IsRoutine.not_reports ?_
    rcases e with _ | e | _ | _ | _
    case cycle =>
      cases e with
      | featureUnsupported i reason => exact (hsupported i reason hresult).elim
      | _ =>
        obtain rfl := List.mem_singleton.mp hentry
        exact (by decide : "Sync cycle failed" ≠ "Enforcement event")
    case translate =>
      obtain rfl := List.mem_singleton.mp hentry
      exact (by decide : "Translation failed, skipping cycle" ≠ "Enforcement event")
    case busy =>
      obtain rfl := List.mem_singleton.mp hentry
      exact (by decide : "Cycle skipped, previous still running" ≠ "Enforcement event")
    all_goals
      obtain rfl := List.mem_singleton.mp hentry
      exact (by decide : "Sync cycle failed" ≠ "Enforcement event")

theorem log_of_saysUnsupported {reason : String} (h : o.SaysUnsupported name reason)
    (hname : o.interface = name) :
    o.log = if o.becameUnsupported then [unsupportedEvent name reason] else [] := by
  unfold SaysUnsupported at h
  simp only [log, h, failureLog, hname]

theorem handoff?_of_saysUnsupported {reason : String} {wanted : DenyList}
    (h : o.SaysUnsupported name reason) (hname : o.interface = name)
    (hwanted : o.wanted = some wanted) : o.handoff? = some ⟨name, wanted, reason⟩ := by
  unfold SaysUnsupported at h
  simp only [handoff?, h, hwanted, hname]

theorem handoff?_eq_none (h : ∀ i reason, ¬o.SaysUnsupported i reason) : o.handoff? = none := by
  unfold handoff?
  split
  case h_1 i reason wanted hresult _ => exact (h i reason hresult).elim
  case h_2 => rfl

end SyncOutcome

/-! ## Syncs against any kernel -/

namespace Enforcer

variable {e e' : Enforcer} {name : String} {mode : SyncMode} {now : Timestamp} {o : SyncOutcome}
  {said past : List Exchange} {log : Log.Entries} {c : Context}

/-- What a sync of an interface comes to, what it says to the kernel and is answered, and what it
logs, if it is waited for. -/
inductive Syncs (name : String) (mode : SyncMode) (now : Timestamp) (e : Enforcer) :
    SyncOutcome → Enforcer → List Exchange → Log.Entries → Prop
  | refused {cause : TranslateError} (hcause : e.policy.denyList name = .error cause) :
      Syncs name mode now e (e.refuse name mode cause now).1 (e.refuse name mode cause now).2 [] []
  | busy {wanted : DenyList} {rest : RunningCycle} (hwanted : e.policy.denyList name = .ok wanted)
      (hslot : e.slot name = .running rest) :
      Syncs name mode now e ⟨name, mode, some wanted, .error (.busy name), false⟩ e [] []
  | ended {wanted : DenyList} {before : Context}
      {ending : Ending Context (Except CycleError SyncReport × Context)} {said : List Exchange}
      {log : Log.Entries} (hwanted : e.policy.denyList name = .ok wanted)
      (hslot : e.slot name = .idle before)
      (run : (before.cycle name wanted mode now).Runs ending said log) :
      Syncs name mode now e (e.settle name mode wanted before ending).1
        (e.settle name mode wanted before ending).2 said log

theorem syncs_syncInterface (e : Enforcer) (h : Host) :
    ∃ said, Syncs name mode now e (e.syncInterface name mode now false h).1
      (e.syncInterface name mode now false h).2.1 said
      (e.syncInterface name mode now false h).2.2.2 := by
  unfold syncInterface
  split
  case h_1 cause hcause => exact ⟨[], .refused hcause⟩
  case h_2 wanted hwanted =>
    split
    case h_1 rest hslot => exact ⟨[], .busy hwanted hslot⟩
    case h_2 before hslot =>
      exact ⟨_, .ended hwanted hslot
        (Kernel.Procedure.runs_run (Host.answer name) (before.cycle name wanted mode now) h)⟩

/-- What a sync that started from what is remembered about an interface has made of it. -/
structure Syncs.Spec (name : String) (e : Enforcer) (past : List Exchange) (c : Context)
    (o : SyncOutcome) (c' : Context) (said : List Exchange) (log : Log.Entries) : Prop where
  sound : c'.hook.Sound (past ++ said)
  interface : o.interface = name
  wanted : o.wanted = (e.policy.denyList name).toOption
  report : ∀ r, o.result = .ok r → r.interface = name
  routine : ∀ entry ∈ log, entry.IsRoutine
  /-- Lack of support is said for the reason that is remembered. -/
  reason : ∀ i reason, o.SaysUnsupported i reason →
    i = name ∧ c'.hook.unsupportedReason = some reason ∧
      o.becameUnsupported = !c.hook.isUnsupported ∧ ∃ wanted, e.policy.denyList name = .ok wanted
  /-- It is said when it is found out. -/
  found : c.hook.isUnsupported = false → ∀ reason, c'.hook.unsupportedReason = some reason →
    o.SaysUnsupported name reason
  /-- It is said again without another look. -/
  latched : c.hook.isUnsupported = true →
    said = [] ∧ log = [] ∧ c'.tables = c.tables ∧ c'.hook = c.hook ∧
      c'.attempts.generation = c.attempts.generation ∧
      ∀ wanted reason, e.policy.denyList name = .ok wanted →
        c.hook.unsupportedReason = some reason → o.SaysUnsupported name reason

/-- What a cycle leaves behind that could not find the interface unable to carry programs. -/
theorem Syncs.spec_of_able {wanted : DenyList}
    {ending : Ending Context (Except CycleError SyncReport × Context)}
    (hwanted : e.policy.denyList name = .ok wanted) (hs : c.hook.Sound past)
    (hable : c.hook.isUnsupported = false)
    (run : (c.cycle name wanted mode now).Runs ending said log) :
    ∃ c', (e.settle name mode wanted c ending).2.slot name = .idle c' ∧
      Syncs.Spec name e past c (e.settle name mode wanted c ending).1 c' said log := by
  obtain ⟨hend, hlog⟩ := (Context.guards_cycle hs hable).runs run
  have hspec : ∀ (c' : Context) (result : Except SyncError SyncReport),
      c'.hook.Sound (past ++ said) → (∀ r, result = .ok r → r.interface = name) →
      (∀ i reason, result = .error (.cycle (.featureUnsupported i reason)) →
        i = name ∧ c'.hook.unsupportedReason = some reason) →
      (∀ reason, c'.hook.unsupportedReason = some reason →
        result = .error (.cycle (.featureUnsupported name reason))) →
      Syncs.Spec name e past c
        ⟨name, mode, some wanted, result, !c.hook.isUnsupported && c'.hook.isUnsupported⟩ c' said
        log := by
    intro c' result hs' hreport hreason hfound
    refine ⟨hs', rfl, by rw [hwanted]; rfl, hreport, hlog, ?_, fun _ => hfound, ?_⟩
    · intro i reason htold
      obtain ⟨hname, hremembered⟩ := hreason i reason htold
      refine ⟨hname, hremembered, ?_, wanted, hwanted⟩
      simp [hs'.reason, hremembered]
    · intro hunsupported
      rw [hable] at hunsupported
      cases hunsupported
  rcases ending with ⟨err | report, c'⟩ | c'
  · refine ⟨c', Enforcer.slot_putSlot_same, hspec c' _ hend.1 nofun ?_ ?_⟩
    · rintro i reason ⟨⟩
      exact hend.2.reason_of_eq
    · intro reason hreason
      rw [hend.2.eq_of_reason hreason]
      rfl
  · have hnone := hend.1.unsupportedReason_eq_none hend.2.1
    refine ⟨c', Enforcer.slot_putSlot_same, hspec c' _ hend.1 ?_ nofun ?_⟩
    · rintro _ ⟨⟩
      exact hend.2.2
    · rw [hnone]
      exact nofun
  · have hnone := hend.1.unsupportedReason_eq_none hend.2
    have hspec' := hspec c' (.error (.task crashText)) hend.1 nofun nofun
      (by rw [hnone]; exact nofun)
    rw [hend.2, Bool.and_false] at hspec'
    exact ⟨c', slot_noteFailure.trans slot_putSlot_same, hspec'⟩

/-- What a cycle leaves behind that started where the interface was known to be unable to carry
programs. -/
theorem Syncs.spec_of_isUnsupported {wanted : DenyList}
    {ending : Ending Context (Except CycleError SyncReport × Context)}
    (hwanted : e.policy.denyList name = .ok wanted) (hs : c.hook.Sound past)
    (hunsupported : c.hook.isUnsupported = true)
    (run : (c.cycle name wanted mode now).Runs ending said log) :
    ∃ c', (e.settle name mode wanted c ending).2.slot name = .idle c' ∧
      Syncs.Spec name e past c (e.settle name mode wanted c ending).1 c' said log := by
  rw [Context.cycle_of_isUnsupported hunsupported] at run
  cases run
  obtain ⟨reason, hreason⟩ : ∃ reason, c.hook.unsupportedReason = some reason := by
    rw [← Option.isSome_iff_exists, ← hs.reason, hunsupported]
  have herror : Hook.unsupportedError name c.hook = .featureUnsupported name reason := by
    rw [Hook.unsupportedError, hreason, Option.getD_some]
  refine ⟨_, Enforcer.slot_putSlot_same, ?_⟩
  have htold : ∀ i reason', SyncOutcome.SaysUnsupported
      (e.settle name mode wanted c (.completed (.error (Hook.unsupportedError name c.hook),
        (c.beginAttempt now).failAttempt (Hook.unsupportedError name c.hook).message))).1
        i reason' ↔
      i = name ∧ reason' = reason := by
    intro i reason'
    rw [herror]
    constructor
    · rintro ⟨⟩
      exact ⟨rfl, rfl⟩
    · rintro ⟨rfl, rfl⟩
      rfl
  refine ⟨by rwa [List.append_nil], rfl, by rw [hwanted]; rfl, nofun, nofun, ?_, ?_, fun _ => ?_⟩
  · intro i reason' h
    obtain ⟨rfl, rfl⟩ := (htold i reason').mp h
    refine ⟨rfl, hreason, ?_, wanted, hwanted⟩
    show (!c.hook.isUnsupported && c.hook.isUnsupported) = !c.hook.isUnsupported
    rw [hunsupported]
    rfl
  · intro hable
    rw [hunsupported] at hable
    cases hable
  · refine ⟨rfl, rfl, rfl, rfl, rfl, fun wanted' reason' _ hreason' => ?_⟩
    rw [hreason] at hreason'
    exact (htold _ _).mpr ⟨rfl, (Option.some.inj hreason').symm⟩

/-- What a sync leaves behind that was refused before its cycle. -/
theorem Syncs.spec_of_refused {cause : TranslateError}
    (hcause : e.policy.denyList name = .error cause) (hslot : e.slot name = .idle c)
    (hs : c.hook.Sound past) :
    ∃ c', (e.refuse name mode cause now).2.slot name = .idle c' ∧
      Syncs.Spec name e past c (e.refuse name mode cause now).1 c' [] [] := by
  have hrefused : e.refuse name mode cause now =
      (⟨name, mode, none, .error (.translate cause), false⟩, e.putSlot name
        (.idle ((c.beginAttempt now).failAttempt (SyncError.translate cause).message))) := by
    unfold refuse
    rw [hslot]
  rw [hrefused]
  refine ⟨_, Enforcer.slot_putSlot_same, ?_⟩
  refine ⟨by rwa [List.append_nil], rfl, by rw [hcause]; rfl, nofun, nofun, nofun, ?_, ?_⟩
  · intro hable reason hreason
    cases (hs.unsupportedReason_eq_none hable).symm.trans hreason
  · refine fun _ => ⟨rfl, rfl, rfl, rfl, rfl, fun wanted reason hwanted => ?_⟩
    rw [hcause] at hwanted
    cases hwanted

theorem Syncs.spec (step : Syncs name mode now e o e' said log) (hslot : e.slot name = .idle c)
    (hs : c.hook.Sound past) :
    ∃ c', e'.slot name = .idle c' ∧ Syncs.Spec name e past c o c' said log := by
  cases step with
  | refused hcause => exact Syncs.spec_of_refused hcause hslot hs
  | busy hwanted hrunning =>
    rw [hslot] at hrunning
    cases hrunning
  | ended hwanted hbefore run =>
    rw [hslot] at hbefore
    cases hbefore
    cases hable : c.hook.isUnsupported with
    | true => exact Syncs.spec_of_isUnsupported hwanted hs hable run
    | false => exact Syncs.spec_of_able hwanted hs hable run

end Enforcer

namespace Session

variable {s s' : Session} {name : String} {mode : SyncMode} {o : SyncOutcome}
  {outcomes : List SyncOutcome} {said past : List Exchange}

/-- The rest of a sync after its cycle: what has come of it is taken over, recorded and told. -/
def takeOver (o : SyncOutcome) (enforcer : Enforcer) (host : Host) (log : Log.Entries) :
    Act (Option SyncOutcome) := do
  modify fun s =>
    { s with
      enforcer
      host
      metrics := if s.measures then o.record elapsed s.metrics else s.metrics }
  tell log
  if ← handOff o then
    tell o.log
    return some o
  else return none

/-- A sync of an interface that has come to an outcome.  The kernel may do anything meanwhile. -/
def Syncs (name : String) (mode : SyncMode) (s : Session) (said : List Exchange) (o : SyncOutcome)
    (s' : Session) : Prop :=
  ∃ enforcer kernel crashing log,
    Enforcer.Syncs name mode s.now s.enforcer o enforcer said log ∧
      takeOver o enforcer { s.host with kernel, crashing } log
        (tell (s.enforcer.policy.denyListLog name) s).2 = (some o, s')

theorem sync_eq_takeOver (s : Session) (name : String) (mode : SyncMode) (stalls : Bool) :
    sync name mode stalls s =
      let (o, enforcer, host, log) := s.enforcer.syncInterface name mode s.now stalls s.host
      takeOver o enforcer host log (tell (s.enforcer.policy.denyListLog name) s).2 := rfl

/-- A handoff from which the handler has returned. -/
theorem handOff_eq (h : handOff o s = (true, s')) :
    s'.enforcer = s.enforcer ∧ ∃ more, s'.journal = more.reverse ++ s.journal ∧
      match o.handoff? with
      | none => more = [] ∧ s'.host = s.host
      | some handoff => s.host.handOff handoff = (some more, s'.host) := by
  unfold handOff at h
  revert h
  cases o.handoff? with
  | none =>
    rintro ⟨⟩
    exact ⟨rfl, [], rfl, rfl, rfl⟩
  | some handoff =>
    dsimp only [bind, StateT.bind, get, getThe, MonadStateOf.get, StateT.get, pure]
    cases s.host.handOff handoff with
    | mk kept host =>
      cases kept with
      | none => exact fun h => by cases congrArg Prod.fst h
      | some more =>
        rintro ⟨⟩
        exact ⟨rfl, more, rfl, rfl⟩

/-- What is taken over of a sync that has come to an outcome. -/
theorem takeOver_eq {enforcer : Enforcer} {host : Host} {log : Log.Entries} {o' : SyncOutcome}
    (h : takeOver o enforcer host log s = (some o', s')) :
    o' = o ∧ s'.enforcer = enforcer ∧
      ∃ more, s'.journal = (log ++ more ++ o.log).reverse ++ s.journal ∧
      match o.handoff? with
      | none => more = [] ∧ s'.host = host
      | some handoff => host.handOff handoff = (some more, s'.host) := by
  unfold takeOver at h
  dsimp only [bind, StateT.bind, modify, modifyGet, MonadStateOf.modifyGet, StateT.modifyGet, tell,
    pure] at h
  generalize hhand : handOff o _ = r at h
  obtain ⟨lives, s₁⟩ := r
  cases lives with
  | false => cases congrArg Prod.fst h
  | true =>
    obtain ⟨henforcer, more, hjournal, hhost⟩ := handOff_eq hhand
    obtain rfl : _ = s' := congrArg Prod.snd h
    refine ⟨(Option.some.inj (congrArg Prod.fst h)).symm, henforcer, more, ?_, hhost⟩
    show o.log.reverse ++ s₁.journal = _
    rw [hjournal]
    simp

/-- A run on a host changes the kernel and what brings down cycles, and nothing else. -/
theorem exists_run_eq {σ α : Type} (p : Kernel.Procedure σ α) (h : Host) :
    ∃ kernel crashing, (p.run (Host.answer name) h).2.1 = { h with kernel, crashing } := by
  induction p generalizing h with
  | done a => exact ⟨h.kernel, h.crashing, rfl⟩
  | note entry next ih => exact ih h
  | call c s resume ih =>
    simp only [Kernel.Procedure.run, Host.answer]
    by_cases hcrashing : h.crashing.contains name = true
    · simp only [hcrashing, if_true]
      exact ⟨_, _, rfl⟩
    · simp only [hcrashing]
      obtain ⟨kernel, crashing, hrun⟩ := ih (h.kernel.answer name c).1
        { h with kernel := (h.kernel.answer name c).2 }
      exact ⟨kernel, crashing, hrun⟩

theorem exists_syncInterface_eq (e : Enforcer) (now : Timestamp) (h : Host) :
    ∃ kernel crashing,
      (e.syncInterface name mode now false h).2.2.1 = { h with kernel, crashing } := by
  unfold Enforcer.syncInterface
  split
  case h_1 => exact ⟨h.kernel, h.crashing, rfl⟩
  case h_2 =>
    split
    case h_1 => exact ⟨h.kernel, h.crashing, rfl⟩
    case h_2 => exact exists_run_eq _ h

/-- The syncs of a session that are waited for and come to an outcome. -/
theorem syncs_sync (h : sync name mode false s = (some o, s')) :
    ∃ said, Syncs name mode s said o s' := by
  rw [sync_eq_takeOver] at h
  obtain ⟨⟨o', e', host, log⟩, heq⟩ :
      ∃ r, s.enforcer.syncInterface name mode s.now false s.host = r := ⟨_, rfl⟩
  obtain ⟨said, hsync⟩ := Enforcer.syncs_syncInterface s.enforcer s.host
  obtain ⟨kernel, crashing, hhost⟩ := exists_syncInterface_eq s.enforcer s.now s.host
  rw [heq] at h hsync hhost
  dsimp only at h hsync hhost
  subst hhost
  obtain ⟨rfl, -⟩ := takeOver_eq h
  exact ⟨said, e', kernel, crashing, log, hsync, h⟩

/-- Syncs of an interface one after another, from the start at which nothing is remembered about
it, with what was said to the kernel and answered in them.  Between two syncs anything may happen
that leaves alone what is remembered about the interface. -/
inductive Serves (name : String) : List SyncOutcome → List Exchange → Session → Prop
  | start {s : Session} (hslot : s.enforcer.slot name = .idle .fresh) : Serves name [] [] s
  | meanwhile {outcomes : List SyncOutcome} {past : List Exchange} {s s' : Session}
      (serves : Serves name outcomes past s)
      (hslot : s'.enforcer.slot name = s.enforcer.slot name) : Serves name outcomes past s'
  | sync {outcomes : List SyncOutcome} {past said : List Exchange} {s s' : Session}
      {mode : SyncMode} {o : SyncOutcome} (serves : Serves name outcomes past s)
      (step : Syncs name mode s said o s') : Serves name (outcomes ++ [o]) (past ++ said) s'

/-- What is remembered about an interface fits what the kernel has said, and what the syncs have
said about its support. -/
structure Knows (name : String) (outcomes : List SyncOutcome) (past : List Exchange) (s : Session)
    (c : Context) : Prop where
  slot : s.enforcer.slot name = .idle c
  sound : c.hook.Sound past
  told : ∀ reason, (∃ o ∈ outcomes, o.SaysUnsupported name reason) ↔
    c.hook.unsupportedReason = some reason

theorem isRoutine_handOff {h h' : Host} {handoff : Handoff} {log : Log.Entries}
    (heq : h.handOff handoff = (some log, h')) : ∀ entry ∈ log, entry.IsRoutine := by
  unfold Host.handOff at heq
  split at heq
  · cases congrArg Prod.fst heq
  · split at heq
    · cases heq
      exact nofun
    · cases heq
      intro entry hentry
      obtain rfl := List.mem_singleton.mp hentry
      exact (by decide : "Desired state handed to fallback" ≠ "Enforcement event")

/-- What a handler does that returns does not depend on the kernel. -/
theorem handOff_with {h h' : Host} {kernel : Model} {crashing : TextSet} {handoff : Handoff}
    {log : Log.Entries} (heq : { h with kernel, crashing }.handOff handoff = (some log, h')) :
    h.handOff handoff = (some log, { h with fallback := h'.fallback }) := by
  obtain ⟨k, names, listing, fallback, crashes⟩ := h
  cases crashes with
  | true => cases congrArg Prod.fst heq
  | false => cases fallback <;> cases heq <;> rfl

/-- What one more sync comes to: what is remembered, what is logged, and what the handler does. -/
structure Continues (name : String) (past : List Exchange) (s : Session) (c : Context)
    (said : List Exchange) (o : SyncOutcome) (log more : Log.Entries) (s' : Session)
    (c' : Context) : Prop where
  slot : s'.enforcer.slot name = .idle c'
  spec : Enforcer.Syncs.Spec name s.enforcer past c o c' said log
  journal : s'.journal =
    (s.enforcer.policy.denyListLog name ++ log ++ more ++ o.log).reverse ++ s.journal
  handler :
    match o.handoff? with
    | none => more = [] ∧ s'.host.fallback = s.host.fallback
    | some handoff =>
      s.host.handOff handoff = (some more, { s.host with fallback := s'.host.fallback })

variable {c c' : Context} {log more : Log.Entries}

theorem Knows.continues (h : s.Knows name outcomes past c) (step : Syncs name mode s said o s') :
    ∃ c' log more, Continues name past s c said o log more s' c' := by
  obtain ⟨e', kernel, crashing, log, hsync, htake⟩ := step
  obtain ⟨c', hslot', hspec⟩ := hsync.spec h.slot h.sound
  obtain ⟨-, henforcer, more, hjournal, hhost⟩ := takeOver_eq htake
  refine ⟨c', log, more, by rw [henforcer, hslot'], hspec, ?_, ?_⟩
  · rw [hjournal]
    show _ ++ ((s.enforcer.policy.denyListLog name).reverse ++ s.journal) = _
    simp
  · revert hhost
    cases o.handoff? with
    | none => exact fun hhost => ⟨hhost.1, by rw [hhost.2]⟩
    | some handoff => exact fun hhost => handOff_with hhost

/-- A reason that was told is remembered, and so the interface is known to be unable to carry
programs. -/
theorem Knows.latched (h : s.Knows name outcomes past c) {o₀ : SyncOutcome} (ho₀ : o₀ ∈ outcomes)
    {reason : String} (htold : o₀.SaysUnsupported name reason) :
    c.hook.unsupportedReason = some reason ∧ c.hook.isUnsupported = true := by
  have hreason := (h.told reason).mp ⟨o₀, ho₀, htold⟩
  exact ⟨hreason, by rw [h.sound.reason, hreason]; rfl⟩

/-- What is known stays right: a reason once told is told again, and one that is found is told. -/
theorem Knows.sync (h : s.Knows name outcomes past c)
    (hstep : Continues name past s c said o log more s' c') :
    s'.Knows name (outcomes ++ [o]) (past ++ said) c' := by
  refine ⟨hstep.slot, hstep.spec.sound, fun reason => ⟨?_, fun hreason => ?_⟩⟩
  · rintro ⟨o', ho', htold⟩
    rcases List.mem_append.mp ho' with ho' | ho'
    · obtain ⟨hreason, hunsupported⟩ := h.latched ho' htold
      rw [(hstep.spec.latched hunsupported).2.2.2.1, hreason]
    · obtain rfl := List.mem_singleton.mp ho'
      exact (hstep.spec.reason name reason htold).2.1
  · cases hable : c.hook.isUnsupported with
    | true =>
      rw [(hstep.spec.latched hable).2.2.2.1] at hreason
      obtain ⟨o', ho', htold⟩ := (h.told reason).mpr hreason
      exact ⟨o', List.mem_append_left _ ho', htold⟩
    | false =>
      have htold := hstep.spec.found hable reason hreason
      exact ⟨o, List.mem_append_right _ List.mem_cons_self, htold⟩

theorem Serves.knows (serves : Serves name outcomes past s) :
    ∃ c, s.Knows name outcomes past c := by
  induction serves with
  | start hslot => exact ⟨_, hslot, Hook.sound_fresh, by simp [Context.fresh, Hook.fresh]⟩
  | meanwhile _ hslot ih =>
    obtain ⟨c, h⟩ := ih
    exact ⟨c, hslot.trans h.slot, h.sound, h.told⟩
  | sync _ step ih =>
    obtain ⟨c, h⟩ := ih
    obtain ⟨c', log, more, hstep⟩ := h.continues step
    exact ⟨c', h.sync hstep⟩

/-! ## What a sync says -/

theorem Continues.handsOver (h : Continues name past s c said o log more s' c')
    {wanted : DenyList} {reason : String} (htold : o.SaysUnsupported name reason)
    (hwanted : s.enforcer.policy.denyList name = .ok wanted) :
    s.host.handOff ⟨name, wanted, reason⟩ =
      (some more, { s.host with fallback := s'.host.fallback }) := by
  have howanted : o.wanted = some wanted := by rw [h.spec.wanted, hwanted]; rfl
  have hhandler := h.handler
  rwa [o.handoff?_of_saysUnsupported htold h.spec.interface howanted] at hhandler

theorem Continues.not_saysUnsupported (h : Continues name past s c said o log more s' c')
    (htold : ∀ reason, ¬o.SaysUnsupported name reason) (i reason : String) :
    ¬o.SaysUnsupported i reason := by
  intro hany
  obtain rfl := (h.spec.reason i reason hany).1
  exact htold reason hany

/-- Only the end of the log may report that the interface cannot carry programs. -/
theorem Continues.not_reports (h : Continues name past s c said o log more s' c') :
    ∀ entry ∈ s.enforcer.policy.denyListLog name ++ log ++ more, ¬entry.Reports name := by
  have hmore : ∀ entry ∈ more, entry.IsRoutine := by
    have hhandler := h.handler
    cases hhandoff : o.handoff? with
    | none =>
      rw [hhandoff] at hhandler
      rw [hhandler.1]
      exact nofun
    | some handoff =>
      rw [hhandoff] at hhandler
      exact isRoutine_handOff hhandler
  intro entry hentry
  refine Log.Entry.IsRoutine.not_reports ?_
  simp only [List.mem_append] at hentry
  rcases hentry with (hentry | hentry) | hentry
  · exact PolicySnapshot.isRoutine_denyListLog entry hentry
  · exact h.spec.routine entry hentry
  · exact hmore entry hentry

/-- A sync that says so where it was known logs no event, and otherwise just one, at its end. -/
theorem Continues.log_eq (h : Continues name past s c said o log more s' c') {reason : String}
    (htold : o.SaysUnsupported name reason) :
    o.log = if c.hook.isUnsupported then [] else [SyncOutcome.unsupportedEvent name reason] := by
  rw [o.log_of_saysUnsupported htold h.spec.interface, (h.spec.reason name reason htold).2.2.1]
  cases c.hook.isUnsupported <;> rfl

/-- Whatever happens in the syncs of an interface one after another: once one of them has said that
the interface cannot carry programs, every later one whose policy translates says so for the same
reason, makes no kernel call, changes nothing that is remembered but the attempt, and hands its
own deny list to the handler, once.  The handler is used for nothing else; the enforcement event
is in the log of the first sync that says so, once, and in no other log; and after a probe has
found support, there is no probe any more and no sync says so. -/
theorem unsupported_latches (serves : Serves name outcomes past s)
    (step : Syncs name mode s said o s') :
    (∀ reason wanted, (∃ o₀ ∈ outcomes, o₀.SaysUnsupported name reason) →
      s.enforcer.policy.denyList name = .ok wanted →
        o.SaysUnsupported name reason ∧ said = [] ∧
        (∃ c c', s.enforcer.slot name = .idle c ∧ s'.enforcer.slot name = .idle c' ∧
          c'.tables = c.tables ∧ c'.hook = c.hook ∧
          c'.attempts.generation = c.attempts.generation) ∧
        ∃ log,
          s.host.handOff ⟨name, wanted, reason⟩ =
            (some log, { s.host with fallback := s'.host.fallback }) ∧
          s'.journal = (s.enforcer.policy.denyListLog name ++ log).reverse ++ s.journal) ∧
    (∀ reason, o.SaysUnsupported name reason → ∃ wanted log,
      s.enforcer.policy.denyList name = .ok wanted ∧
        s.host.handOff ⟨name, wanted, reason⟩ =
          (some log, { s.host with fallback := s'.host.fallback })) ∧
    ((∀ reason, ¬o.SaysUnsupported name reason) → s'.host.fallback = s.host.fallback) ∧
    (∃ added, s'.journal = added.reverse ++ s.journal ∧
      ((∃ reason, o.SaysUnsupported name reason ∧
          (∀ o₀ ∈ outcomes, ∀ reason₀, ¬o₀.SaysUnsupported name reason₀) ∧
          ∃ before, added = before ++ [SyncOutcome.unsupportedEvent name reason] ∧
            ∀ entry ∈ before, ¬entry.Reports name) ∨
        ((∃ o₀ ∈ outcomes, ∃ reason₀, o₀.SaysUnsupported name reason₀) ∨
          ∀ reason, ¬o.SaysUnsupported name reason) ∧
          ∀ entry ∈ added, ¬entry.Reports name)) ∧
    ((past ++ said).Pairwise fun x y => x.findsSupport = true → y.call ≠ .probe) ∧
    ((∃ x ∈ past ++ said, x.findsSupport = true) →
      (∀ reason, ¬o.SaysUnsupported name reason) ∧
        ∀ c', s'.enforcer.slot name = .idle c' → c'.hook.state ≠ .unsupported) := by
  obtain ⟨c, hknows⟩ := serves.knows
  obtain ⟨c', log, more, hstep⟩ := hknows.continues step
  refine ⟨?_, ?_, ?_, ⟨_, hstep.journal, ?_⟩, hstep.spec.sound.once, ?_⟩
  · rintro reason wanted ⟨o₀, ho₀, htold₀⟩ hwanted
    obtain ⟨hreason, hunsupported⟩ := hknows.latched ho₀ htold₀
    obtain ⟨hsaid, hlog, htables, hhook, hgeneration, htold⟩ := hstep.spec.latched hunsupported
    have htold := htold wanted reason hwanted hreason
    have holog : o.log = [] := by rw [hstep.log_eq htold, hunsupported]; rfl
    refine ⟨htold, hsaid, ⟨c, c', hknows.slot, hstep.slot, htables, hhook, hgeneration⟩, more,
      hstep.handsOver htold hwanted, ?_⟩
    rw [hstep.journal, hlog, holog]
    simp
  · intro reason htold
    obtain ⟨-, -, -, wanted, hwanted⟩ := hstep.spec.reason name reason htold
    exact ⟨wanted, more, hwanted, hstep.handsOver htold hwanted⟩
  · intro htold
    have hhandler := hstep.handler
    rw [o.handoff?_eq_none (hstep.not_saysUnsupported htold)] at hhandler
    exact hhandler.2
  · by_cases htold : ∃ reason, o.SaysUnsupported name reason
    · obtain ⟨reason, htold⟩ := htold
      have holog := hstep.log_eq htold
      cases hable : c.hook.isUnsupported with
      | true =>
        rw [hable] at holog
        have hreason := (hstep.spec.reason name reason htold).2.1
        rw [(hstep.spec.latched hable).2.2.2.1] at hreason
        obtain ⟨o₀, ho₀, htold₀⟩ := (hknows.told reason).mpr hreason
        refine .inr ⟨.inl ⟨o₀, ho₀, reason, htold₀⟩, ?_⟩
        rw [holog, if_pos rfl, List.append_nil]
        exact hstep.not_reports
      | false =>
        rw [hable] at holog
        refine .inl ⟨reason, htold, fun o₀ ho₀ reason₀ htold₀ => ?_, _, by rw [holog]; rfl,
          hstep.not_reports⟩
        rw [(hknows.latched ho₀ htold₀).2] at hable
        cases hable
    · have hnone : ∀ reason, ¬o.SaysUnsupported name reason := fun reason h => htold ⟨reason, h⟩
      refine .inr ⟨.inr hnone, fun entry hentry => ?_⟩
      rcases List.mem_append.mp hentry with hentry | hentry
      · exact hstep.not_reports entry hentry
      · exact o.not_reports_log hstep.spec.report (hstep.not_saysUnsupported hnone) entry hentry
  · intro hfound
    have hprobed := hstep.spec.sound.probed.mpr hfound
    have hable := hstep.spec.sound.isUnsupported_of_probed hprobed
    refine ⟨fun reason htold => ?_, fun c'' hslot'' hstate => ?_⟩
    · rw [hstep.spec.sound.reason, (hstep.spec.reason name reason htold).2.1] at hable
      cases hable
    · rw [hstep.slot] at hslot''
      cases hslot''
      rw [Hook.isUnsupported_iff.mpr hstate] at hable
      cases hable

/-- A session on an interface that cannot carry programs, with one rule about it. -/
def disabled : Session where
  enforcer := .fresh (.ofDocument
    { addressSets := [⟨"bots", .ofList [("list", "bots")], ["10.0.0.0/8"]⟩]
      rules := [⟨"bots", "eth0", .ipv4, "list == 'bots'"⟩] }) 0
  host := .ofKernel ((Model.fresh ∅ none).markUnsupported "eth0" "no driver") (.recording [])
  metrics := Metrics.fresh
  measures := false
  now := ⟨0, 0⟩
  journal := []

/-- The second sync comes after the rule was taken away. -/
theorem unsupported_latches_emptied :
    let first := sync "eth0" .resync false disabled
    let emptied := (replacePolicy PolicySnapshot.empty first.2).2
    let second := sync "eth0" .event false emptied
    ∃ o₁ o₂ past said, first.1 = some o₁ ∧ second.1 = some o₂ ∧
      Serves "eth0" [o₁] past emptied ∧ Syncs "eth0" .event emptied said o₂ second.2 ∧
      o₁.SaysUnsupported "eth0" "no driver" ∧ o₂.SaysUnsupported "eth0" "no driver" ∧
      said = [] := by
  intro first emptied second
  have houtcomes : first.1.any (·.SaysUnsupported "eth0" "no driver") = true ∧
      second.1.isSome = true := by
    decide +kernel
  obtain ⟨o₁, ho₁, htold₁⟩ := (Option.any_eq_true ..).mp houtcomes.1
  obtain ⟨o₂, ho₂⟩ := Option.isSome_iff_exists.mp houtcomes.2
  obtain ⟨past, hfirst⟩ : ∃ past, Syncs "eth0" .resync disabled past o₁ first.2 :=
    syncs_sync (Prod.ext ho₁ rfl)
  obtain ⟨said, hsecond⟩ : ∃ said, Syncs "eth0" .event emptied said o₂ second.2 :=
    syncs_sync (Prod.ext ho₂ rfl)
  have hserves : Serves "eth0" [o₁] past emptied := by
    have hstart : disabled.enforcer.slot "eth0" = .idle .fresh := rfl
    exact .meanwhile (.sync (.start hstart) hfirst) rfl
  have hwanted : emptied.enforcer.policy.denyList "eth0" = .ok .empty := rfl
  obtain ⟨htold, hsaid, -⟩ := (unsupported_latches hserves hsecond).1 "no driver" .empty
    ⟨o₁, List.mem_cons_self, of_decide_eq_true htold₁⟩ hwanted
  exact ⟨o₁, o₂, past, said, ho₁, ho₂, hserves, hsecond, of_decide_eq_true htold₁, htold, hsaid⟩

end Session

end IngressGuard
