import IngressGuard.Enforcer.Session
import IngressGuard.Proofs.Enforcer.Tick

/-!
# Sessions follow schedules

A resync of a session is a tick along one schedule: the tasks of the interfaces take place one
after another, in the order of the names.  So what holds along every schedule of a tick holds of a
resync (`Session.resyncAll_follows`).
-/

namespace IngressGuard

open Kernel (Procedure)

namespace Enforcer

variable {e : Enforcer} {name : String}

theorem putSlot_putSlot (s s' : Slot) : (e.putSlot name s).putSlot name s' = e.putSlot name s' := by
  unfold putSlot
  rw [NameMap.insert_insert]

/-- What is held for an interface while its cycle runs is forgotten at the end of the cycle. -/
theorem settle_putSlot (s : Slot) (mode : SyncMode) (wanted : DenyList) (before : Context)
    (ending : Kernel.Ending Context (Except CycleError SyncReport × Context)) :
    (e.putSlot name s).settle name mode wanted before ending =
      e.settle name mode wanted before ending := by
  cases ending <;> simp only [settle, putSlot_putSlot]

end Enforcer

/-- A move that a session makes at a time: a task begins then, and nobody loses patience with a
cycle. -/
def Move.Orderly (now : Timestamp) : Move → Prop
  | begin _ time => time = now
  | giveUp _ => False
  | call _ | finish _ => True

namespace Tick

variable {t : Tick} {name : String}

/-- All tasks have ended. -/
def IsOver (t : Tick) : Prop :=
  ∀ (name : String) (stage : Stage), t.tasks[name]? = some stage → ∃ outcome, stage = .over outcome

theorem run_append (t : Tick) (first second : List Move) :
    t.run (first ++ second) = (t.run first).run second :=
  List.foldl_append

theorem tasks_run {schedule : List Move} (h : ∀ move ∈ schedule, move.interface ≠ name) :
    (t.run schedule).tasks[name]? = t.tasks[name]? :=
  run_induction schedule (I := fun t' => t'.tasks[name]? = t.tasks[name]?)
    (fun t' move hmove htask =>
      ((agreesBesides_step t' move).tasks name (h move hmove).symm).trans htask) rfl

theorem settle_putSlot (e : Enforcer) (h : Host) (tasks : NameMap Stage) (s : Slot)
    (ending : Kernel.Ending Context (Except CycleError SyncReport × Context)) :
    (Tick.mk (e.putSlot name s) h tasks).settle name ending =
      (Tick.mk e h tasks).settle name ending := by
  unfold settle
  dsimp only
  split
  case h_1 =>
    rw [Enforcer.settle_putSlot]
    unfold conclude
    split <;> rfl
  case h_2 => cases ending <;> simp only [Enforcer.putSlot_putSlot]

/-- The end of a task replaces its stage. -/
theorem conclude_insert (e e' : Enforcer) (h : Host) (tasks : NameMap Stage) (stage : Stage)
    (o : SyncOutcome) :
    (Tick.mk e h (tasks.insert name stage)).conclude name o e' =
      (Tick.mk e h tasks).conclude name o e' := by
  unfold conclude
  split <;> simp only [NameMap.insert_insert]

/-- The moves of one interface can take its cycle to its end without any other move in between. -/
theorem exists_run_eq_settle (now : Timestamp) (p : RunningCycle) {rest : RunningCycle}
    (hslot : t.enforcer.slot name = .running rest) (hrest : rest.afterOpening = p.afterOpening) :
    ∃ schedule, (∀ move ∈ schedule, move.interface = name ∧ move.Orderly now) ∧
      t.run schedule = { t with host := (p.run (Host.answer name) t.host).2.1 }.settle name
        (p.run (Host.answer name) t.host).1 := by
  -- What is in the slot changes with every call, so it is only known up to its first notes.
  induction p generalizing t rest with
  | done result =>
    refine ⟨[.finish name], by simp [Move.interface, Move.Orderly], ?_⟩
    show t.finish name = _
    unfold finish
    rw [hslot]
    dsimp only
    rw [hrest]
    rfl
  | note entry p ih => exact ih hslot hrest
  | call c state resume ih =>
    have hafter : Procedure.afterOpening rest = .call c state resume := hrest
    cases hanswer : t.host.answer name c with
    | mk answer host =>
      cases answer with
      | none =>
        refine ⟨[.call name], by simp [Move.interface, Move.Orderly], ?_⟩
        show t.call name = _
        simp only [call, hslot, hafter, hanswer, Procedure.run]
      | some a =>
        have hcall : t.call name =
            { t with enforcer := t.enforcer.putSlot name (.running (resume a)), host } := by
          simp only [call, hslot, hafter, hanswer]
        obtain ⟨schedule, hmoves, hrun⟩ := ih a
          (t := { t with enforcer := t.enforcer.putSlot name (.running (resume a)), host })
          Enforcer.slot_putSlot_same rfl
        refine ⟨.call name :: schedule, ?_, ?_⟩
        · rintro move (_ | ⟨_, hmove⟩)
          · exact ⟨rfl, trivial⟩
          · exact hmoves move hmove
        · show (t.call name).run schedule = _
          rw [hcall, hrun]
          simp only [Procedure.run, hanswer]
          exact settle_putSlot t.enforcer _ t.tasks _ _

/-- The moves of one interface can sync it as a whole. -/
theorem exists_run_eq_conclude (now : Timestamp) (hwaiting : t.tasks[name]? = some .waiting) :
    ∃ schedule, (∀ move ∈ schedule, move.interface = name ∧ move.Orderly now) ∧
      let (o, e, host, _) := t.enforcer.syncInterface name .resync now false t.host
      t.run schedule = { t with host }.conclude name o e := by
  cases hwanted : t.enforcer.policy.denyList name with
  | error cause =>
    refine ⟨[.begin name now], by simp [Move.interface, Move.Orderly], ?_⟩
    simp only [Enforcer.syncInterface, hwanted]
    show t.begin name now = _
    simp only [begin, hwaiting, hwanted]
  | ok wanted =>
    cases hslot : t.enforcer.slot name with
    | running rest =>
      refine ⟨[.begin name now], by simp [Move.interface, Move.Orderly], ?_⟩
      simp only [Enforcer.syncInterface, hwanted, hslot]
      show t.begin name now = _
      simp only [begin, hwaiting, hwanted, hslot]
    | idle before =>
      have hbegin : t.begin name now =
          ⟨t.enforcer.putSlot name (.running (before.cycle name wanted .resync now)), t.host,
            t.tasks.insert name (.cycling before wanted)⟩ := by
        simp only [begin, hwaiting, hwanted, hslot]
      obtain ⟨schedule, hmoves, hrun⟩ := exists_run_eq_settle (t := t.begin name now) now
        (before.cycle name wanted .resync now)
        (by rw [hbegin]; exact Enforcer.slot_putSlot_same) rfl
      refine ⟨.begin name now :: schedule, ?_, ?_⟩
      · rintro move (_ | ⟨_, hmove⟩)
        · exact ⟨rfl, rfl⟩
        · exact hmoves move hmove
      · simp only [Enforcer.syncInterface, hwanted, hslot, Bool.false_and, Bool.false_eq_true,
          if_false]
        show (t.begin name now).run schedule = _
        rw [hrun, hbegin]
        dsimp only
        rw [settle_putSlot]
        unfold settle
        dsimp only
        rw [NameMap.getElem?_insert_same]
        exact conclude_insert ..

end Tick

namespace Session

/-- A session and a tick have come to the same enforcer and host. -/
structure Meets (s : Session) (t : Tick) : Prop where
  enforcer : s.enforcer = t.enforcer
  host : s.host = t.host

/-- A handoff ends a task as it does in a tick. -/
theorem meets_handOff (s : Session) (name : String) (o : SyncOutcome) (e : Enforcer)
    (tasks : NameMap Stage) :
    let t := (Tick.mk e s.host tasks).conclude name o s.enforcer
    let (lives, s') := handOff o s
    s'.Meets t ∧ s'.now = s.now ∧
      t.tasks = tasks.insert name (.over (if lives then some o else none)) := by
  unfold handOff Tick.conclude
  cases o.handoff? with
  | none => exact ⟨⟨rfl, rfl⟩, rfl, rfl⟩
  | some handoff =>
    simp only [bind, StateT.bind, get, getThe, MonadStateOf.get, StateT.get, pure]
    cases s.host.handOff handoff with
    | mk kept host => cases kept <;> exact ⟨⟨rfl, rfl⟩, rfl, rfl⟩

/-- A sync ends the task of its interface as a tick does. -/
theorem meets_sync (s : Session) (name : String) (tasks : NameMap Stage) :
    let (o, e, host, _) := s.enforcer.syncInterface name .resync s.now false s.host
    let t := (Tick.mk s.enforcer host tasks).conclude name o e
    let (outcome, s') := sync name .resync false s
    s'.Meets t ∧ s'.now = s.now ∧ t.tasks = tasks.insert name (.over outcome) := by
  unfold sync
  dsimp only [bind, StateT.bind, get, getThe, MonadStateOf.get, StateT.get, modify, modifyGet,
    MonadStateOf.modifyGet, StateT.modifyGet, tell, pure, StateT.pure]
  cases s.enforcer.syncInterface name .resync s.now false s.host with
  | mk o rest =>
    obtain ⟨e, host, log⟩ := rest
    have hhand := meets_handOff
      { s with
        enforcer := e
        host
        metrics := if s.measures then o.record elapsed s.metrics else s.metrics
        journal := log.reverse ++ ((s.enforcer.policy.denyListLog name).reverse ++ s.journal) }
      name o s.enforcer tasks
    dsimp only
    generalize handOff o _ = r at hhand ⊢
    obtain ⟨lives, s'⟩ := r
    cases lives with
    | false => exact hhand
    | true => exact ⟨⟨hhand.1.enforcer, hhand.1.host⟩, hhand.2⟩

/-- The moves of an interface carry out its sync. -/
theorem exists_run_meets_sync {s : Session} {t : Tick} (hmeets : s.Meets t) {name : String}
    (hwaiting : t.tasks[name]? = some .waiting) :
    ∃ schedule, (∀ move ∈ schedule, move.interface = name ∧ move.Orderly s.now) ∧
      let (outcome, s') := sync name .resync false s
      s'.Meets (t.run schedule) ∧ s'.now = s.now ∧
        (t.run schedule).tasks = t.tasks.insert name (.over outcome) := by
  obtain ⟨schedule, hmoves, hrun⟩ := Tick.exists_run_eq_conclude s.now hwaiting
  refine ⟨schedule, hmoves, ?_⟩
  have hsync := meets_sync s name t.tasks
  rw [hmeets.enforcer, hmeets.host] at hsync
  generalize t.enforcer.syncInterface name .resync s.now false t.host = r at hrun hsync
  obtain ⟨o, e, host, log⟩ := r
  dsimp only at hrun
  rw [hrun]
  exact hsync

/-- Syncs of several interfaces are carried out by the moves of these interfaces, and end their
tasks. -/
theorem exists_run_meets_syncEach (names : List String) (hdistinct : names.Nodup) {s : Session}
    {t : Tick} (hmeets : s.Meets t) (hwaiting : ∀ name ∈ names, t.tasks[name]? = some .waiting) :
    ∃ schedule, (∀ move ∈ schedule, move.interface ∈ names ∧ move.Orderly s.now) ∧
      (let (outcomes, s') := syncEach .resync names s
      s'.Meets (t.run schedule) ∧ outcomes = names.filterMap (t.run schedule).outcome?) ∧
      ∀ name ∈ names, ∃ outcome, (t.run schedule).tasks[name]? = some (.over outcome) := by
  induction names generalizing s t with
  | nil => exact ⟨[], by simp, ⟨hmeets, rfl⟩, by simp⟩
  | cons name rest ih =>
    obtain ⟨hnot, hdistinct⟩ := List.nodup_cons.mp hdistinct
    obtain ⟨first, hfirst, hsync⟩ := exists_run_meets_sync hmeets (hwaiting name List.mem_cons_self)
    unfold syncEach
    dsimp only [bind, StateT.bind]
    generalize sync name .resync false s = r at hsync
    obtain ⟨outcome, s'⟩ := r
    obtain ⟨hmeets', hnow, htasks⟩ := hsync
    have hwaiting' : ∀ other ∈ rest, (t.run first).tasks[other]? = some .waiting := by
      intro other hother
      have hne : other ≠ name := fun h => hnot (h ▸ hother)
      rw [htasks, NameMap.getElem?_insert_other hne]
      exact hwaiting other (List.mem_cons_of_mem _ hother)
    have htask : ∀ second, (∀ move ∈ second, move.interface ∈ rest ∧ move.Orderly s'.now) →
        (t.run (first ++ second)).tasks[name]? = some (.over outcome) := by
      intro second hsecond
      have hother : ∀ move ∈ second, move.interface ≠ name :=
        fun move hmove h => hnot (h ▸ (hsecond move hmove).1)
      rw [Tick.run_append, Tick.tasks_run hother, htasks, NameMap.getElem?_insert_same]
    have hmoves : ∀ second, (∀ move ∈ second, move.interface ∈ rest ∧ move.Orderly s'.now) →
        ∀ move ∈ first ++ second, move.interface ∈ name :: rest ∧ move.Orderly s.now := by
      intro second hsecond move hmove
      rcases List.mem_append.mp hmove with hmove | hmove
      · obtain ⟨hname, horderly⟩ := hfirst move hmove
        exact ⟨hname ▸ List.mem_cons_self, horderly⟩
      · obtain ⟨hname, horderly⟩ := hsecond move hmove
        exact ⟨List.mem_cons_of_mem _ hname, hnow ▸ horderly⟩
    have hends : ∀ second, (∀ move ∈ second, move.interface ∈ rest ∧ move.Orderly s'.now) →
        (∀ other ∈ rest, ∃ outcome,
          ((t.run first).run second).tasks[other]? = some (.over outcome)) →
        ∀ other ∈ name :: rest, ∃ outcome,
          (t.run (first ++ second)).tasks[other]? = some (.over outcome) := by
      intro second hsecond hover other hother
      rcases List.mem_cons.mp hother with rfl | hother
      · exact ⟨outcome, htask second hsecond⟩
      · rw [Tick.run_append]
        exact hover other hother
    have houtcome : ∀ second, (∀ move ∈ second, move.interface ∈ rest ∧ move.Orderly s'.now) →
        (t.run (first ++ second)).outcome? name = outcome := by
      intro second hsecond
      unfold Tick.outcome?
      rw [htask second hsecond]
    cases outcome with
    | some o =>
      obtain ⟨second, hsecond, hrest, hover⟩ := ih hdistinct hmeets' hwaiting'
      refine ⟨first ++ second, hmoves second hsecond, ?_, hends second hsecond hover⟩
      rw [List.filterMap_cons, houtcome second hsecond, Tick.run_append]
      exact ⟨hrest.1, congrArg (o :: ·) hrest.2⟩
    | none =>
      obtain ⟨second, hsecond, hrest, hover⟩ := ih (s := ((note .error "Interface task failed"
        [("error", crashText)]) s').2) hdistinct ⟨hmeets'.enforcer, hmeets'.host⟩ hwaiting'
      refine ⟨first ++ second, hmoves second hsecond, ?_, hends second hsecond hover⟩
      rw [List.filterMap_cons, houtcome second hsecond, Tick.run_append]
      exact hrest

/-- Listing the managed interfaces brings a session to the start of a tick. -/
theorem meets_managed (s : Session) :
    let (names, s') := managed s
    s'.Meets (Tick.start s.enforcer s.host) ∧ s'.now = s.now ∧
      s.enforcer.policy.interfaces ∪ s.enforcer.interested ∪ names =
        Tick.targets s.enforcer s.host := by
  unfold managed Tick.start Tick.targets
  dsimp only [bind, StateT.bind, get, getThe, MonadStateOf.get, StateT.get, pure]
  cases s.host.managed with
  | mk listing host =>
    rcases listing with _ | _ | names <;> exact ⟨⟨rfl, rfl⟩, rfl, rfl⟩

/-- A resync of a session is a tick along some schedule, on which every task comes to its end. -/
theorem resyncAll_follows (s : Session) :
    ∃ schedule,
      let t := (Tick.start s.enforcer s.host).run schedule
      (resyncAll s).2.Meets t ∧
        (resyncAll s).1 = (Tick.targets s.enforcer s.host).toList.filterMap t.outcome? ∧
        (∀ move ∈ schedule, move.Orderly s.now) ∧ t.IsOver := by
  have hmanaged := meets_managed s
  unfold resyncAll
  dsimp only [bind, StateT.bind, get, getThe, MonadStateOf.get, StateT.get, pure]
  generalize managed s = r at hmanaged
  obtain ⟨names, s'⟩ := r
  obtain ⟨hmeets, hnow, htargets⟩ := hmanaged
  have hwaiting : ∀ name ∈ (Tick.targets s.enforcer s.host).toList,
      (Tick.start s.enforcer s.host).tasks[name]? = some .waiting :=
    fun name hname => Tick.tasks_start_of_mem (Std.ExtTreeSet.mem_toList.mp hname)
  have hdistinct : (Tick.targets s.enforcer s.host).toList.Nodup := by
    refine List.Pairwise.imp ?_ Std.ExtTreeSet.distinct_toList
    intro a b hne heq
    exact hne (heq ▸ Std.ReflCmp.compare_self)
  obtain ⟨schedule, hmoves, hfollows, hends⟩ :=
    exists_run_meets_syncEach _ hdistinct hmeets hwaiting
  dsimp only
  rw [htargets]
  refine ⟨schedule, hfollows.1, hfollows.2, fun move hmove => hnow ▸ (hmoves move hmove).2, ?_⟩
  intro name stage hstage
  by_cases hname : name ∈ Tick.targets s.enforcer s.host
  · obtain ⟨outcome, hover⟩ := hends name (Std.ExtTreeSet.mem_toList.mpr hname)
    exact ⟨outcome, Option.some.inj (hstage.symm.trans hover)⟩
  · have hother : ∀ move ∈ schedule, move.interface ≠ name :=
      fun move hmove h => hname (h ▸ Std.ExtTreeSet.mem_toList.mp (hmoves move hmove).1)
    rw [Tick.tasks_run hother, Tick.tasks_start_of_not_mem hname] at hstage
    cases hstage

end Session

end IngressGuard
