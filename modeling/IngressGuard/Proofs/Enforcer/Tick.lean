import IngressGuard.Enforcer.Tick
import IngressGuard.Proofs.Cycle.Healing

/-!
# What moves of a tick do

A move is about one interface.  It leaves alone what is held for other interfaces, their tasks,
and their tables and programs (`Tick.agreesBesides_step`), and no move changes the policy or the
failsafe rules.  So a property of one interface holds along every schedule once its own moves keep
it.
-/

namespace IngressGuard

open Kernel (Model Procedure InterfaceState)

namespace Enforcer

variable {e : Enforcer} {name other : String} {s : Slot}

@[simp] theorem slot_putSlot_same : (e.putSlot name s).slot name = s := by
  unfold putSlot slot
  rw [NameMap.getElem?_insert_same, Option.getD_some]

theorem slot_putSlot_other (h : other ≠ name) : (e.putSlot name s).slot other = e.slot other := by
  unfold putSlot slot
  rw [NameMap.getElem?_insert_other h]

@[simp] theorem slot_noteFailure {cause : SyncError} :
    (e.noteFailure name cause).slot other = e.slot other := by
  unfold noteFailure
  split <;> rfl

theorem mem_interested : name ∈ e.interested ↔ Slot.hasInterest (e.slot name) = true := by
  unfold interested slot
  rw [TextSet.mem_ofList, List.mem_map]
  constructor
  · rintro ⟨⟨_, s⟩, hs, rfl⟩
    obtain ⟨hget, hinterest⟩ := List.mem_filter.mp hs
    rw [Std.ExtTreeMap.mem_toList_iff_getElem?_eq_some.mp hget]
    exact hinterest
  · intro hinterest
    cases hget : e.slots[name]? with
    | none =>
      rw [hget] at hinterest
      cases hinterest
    | some s =>
      rw [hget] at hinterest
      have hpair := Std.ExtTreeMap.mem_toList_iff_getElem?_eq_some.mpr hget
      exact ⟨(name, s), List.mem_filter.mpr ⟨hpair, hinterest⟩, rfl⟩

/-- Two enforcers differ at most in what is held for one interface. -/
structure AgreesBesides (name : String) (e e' : Enforcer) : Prop where
  slots : ∀ other, other ≠ name → e'.slot other = e.slot other
  policy : e'.policy = e.policy

theorem AgreesBesides.refl (name : String) (e : Enforcer) : AgreesBesides name e e :=
  ⟨fun _ _ => rfl, rfl⟩

theorem agreesBesides_putSlot (e : Enforcer) (name : String) (s : Slot) :
    AgreesBesides name e (e.putSlot name s) :=
  ⟨fun _ h => slot_putSlot_other h, rfl⟩

theorem AgreesBesides.noteFailure {e' : Enforcer} (h : AgreesBesides name e e')
    (cause : SyncError) : AgreesBesides name e (e'.noteFailure name cause) := by
  refine ⟨fun other hne => by rw [slot_noteFailure, h.slots other hne], ?_⟩
  unfold Enforcer.noteFailure
  split <;> exact h.policy

theorem agreesBesides_refuse (mode : SyncMode) (cause : TranslateError) (now : Timestamp) :
    AgreesBesides name e (e.refuse name mode cause now).2 := by
  unfold refuse
  dsimp only
  split
  · exact agreesBesides_putSlot ..
  · exact .refl name e

theorem refuse_spec (e : Enforcer) (name : String) (mode : SyncMode) (cause : TranslateError)
    (now : Timestamp) :
    (e.refuse name mode cause now).1.interface = name ∧
      ((e.refuse name mode cause now).2.slot name = e.slot name ∨
        ∃ c, (e.refuse name mode cause now).2.slot name = .idle c) := by
  unfold refuse
  cases hslot : e.slot name with
  | idle c => exact ⟨rfl, .inr ⟨_, slot_putSlot_same⟩⟩
  | running rest => exact ⟨rfl, .inl hslot⟩

theorem agreesBesides_settle (mode : SyncMode) (wanted : DenyList) (before : Context)
    (ending : Kernel.Ending Context (Except CycleError SyncReport × Context)) :
    AgreesBesides name e (e.settle name mode wanted before ending).2 := by
  cases ending with
  | completed r => exact ⟨fun _ h => slot_putSlot_other h, rfl⟩
  | aborted after => exact (agreesBesides_putSlot e name (.idle after)).noteFailure _

theorem agreesBesides_abandon (mode : SyncMode) (wanted : DenyList) (rest : RunningCycle) :
    AgreesBesides name e (e.abandon name mode wanted rest).2 :=
  (agreesBesides_putSlot e name (.running rest)).noteFailure _

end Enforcer

namespace Host

variable {h : Host}

theorem kernel_handOff (handoff : Handoff) : (h.handOff handoff).2.kernel = h.kernel := by
  unfold handOff
  split
  · rfl
  · split <;> rfl

theorem kernel_managed : h.managed.2.kernel = h.kernel := by
  unfold managed
  dsimp only
  split <;> rfl

/-- A call that is answered is answered by the kernel. -/
theorem answer_eq_some {name : String} {c : Kernel.Call} {a : c.Answer} {h' : Host}
    (heq : h.answer name c = (some a, h')) : h.kernel.answer name c = (a, h'.kernel) := by
  unfold answer at heq
  split at heq
  · cases heq
  · cases heq
    rfl

/-- A call that brings down its cycle does not reach the kernel. -/
theorem answer_eq_none {name : String} {c : Kernel.Call} {h' : Host}
    (heq : h.answer name c = (none, h')) : h'.kernel = h.kernel := by
  unfold answer at heq
  split at heq
  · cases heq
    rfl
  · cases heq

/-- What becomes of a host when a cycle ends: nothing, or a call has brought the cycle down. -/
def Ends (name : String) (h h' : Host) : Prop :=
  h' = h ∨ ∃ c, h.answer name c = (none, h')

theorem Ends.kernel_eq {name : String} {h' : Host} (hends : Ends name h h') :
    h'.kernel = h.kernel := by
  rcases hends with rfl | ⟨c, hanswer⟩
  · rfl
  · exact answer_eq_none hanswer

end Host

namespace Tick

variable {t t' : Tick} {name other : String}

/-- Two moments of a tick differ at most in what is about one interface. -/
structure AgreesBesides (name : String) (t t' : Tick) : Prop where
  enforcer : Enforcer.AgreesBesides name t.enforcer t'.enforcer
  tasks : ∀ other, other ≠ name → t'.tasks[other]? = t.tasks[other]?
  kernel : Model.AgreesBesides name t.host.kernel t'.host.kernel

theorem AgreesBesides.refl (name : String) (t : Tick) : AgreesBesides name t t :=
  ⟨.refl name _, fun _ _ => rfl, .refl name _⟩

/-- The end of a task replaces the enforcer, leaves the kernel alone, and keeps the outcome unless
the task is brought down. -/
theorem conclude_spec (t : Tick) (name : String) (o : SyncOutcome) (e : Enforcer) :
    (t.conclude name o e).enforcer = e ∧ (t.conclude name o e).host.kernel = t.host.kernel ∧
      ∃ kept, (kept = none ∨ kept = some o) ∧
        (t.conclude name o e).tasks = t.tasks.insert name (.over kept) := by
  unfold conclude
  split
  case h_1 => exact ⟨rfl, rfl, some o, .inr rfl, rfl⟩
  case h_2 handoff _ =>
    refine ⟨rfl, Host.kernel_handOff handoff, _, ?_, rfl⟩
    cases (t.host.handOff handoff).1 with
    | none => exact .inl rfl
    | some log => exact .inr rfl

theorem agreesBesides_conclude {o : SyncOutcome} {e : Enforcer}
    (h : Enforcer.AgreesBesides name t.enforcer e) :
    AgreesBesides name t (t.conclude name o e) := by
  obtain ⟨henforcer, hkernel, kept, -, htasks⟩ := conclude_spec t name o e
  refine ⟨by rwa [henforcer], fun other hne => ?_, by rw [hkernel]; exact .refl name _⟩
  rw [htasks, NameMap.getElem?_insert_other hne]

theorem AgreesBesides.trans {t'' : Tick} (h : AgreesBesides name t t')
    (h' : AgreesBesides name t' t'') : AgreesBesides name t t'' where
  enforcer :=
    ⟨fun other hne => (h'.enforcer.slots other hne).trans (h.enforcer.slots other hne),
      h'.enforcer.policy.trans h.enforcer.policy⟩
  tasks other hne := (h'.tasks other hne).trans (h.tasks other hne)
  kernel := h.kernel.trans h'.kernel

/-! ## What moves can do -/

/-- What a tick becomes by a move about an interface. -/
inductive Becomes (name : String) (t : Tick) : Tick → Prop
  | stays : Becomes name t t
  | begins {before : Context} {wanted : DenyList} (now : Timestamp)
      (hwaiting : t.tasks[name]? = some .waiting)
      (hwanted : t.enforcer.policy.denyList name = .ok wanted)
      (hslot : t.enforcer.slot name = .idle before) :
      Becomes name t
        { t with
          enforcer := t.enforcer.putSlot name
            (.running (before.cycle name wanted .resync now))
          tasks := t.tasks.insert name (.cycling before wanted) }
  | calls {rest : RunningCycle} {c : Kernel.Call} {state : Context}
      {resume : c.Answer → RunningCycle} {a : c.Answer} {host : Host}
      (hslot : t.enforcer.slot name = .running rest)
      (hrest : rest.afterOpening = .call c state resume)
      (hanswer : t.host.answer name c = (some a, host)) :
      Becomes name t
        { t with enforcer := t.enforcer.putSlot name (.running (resume a)), host }
  /-- A cycle ends, perhaps brought down by a call, that no task waits for. -/
  | frees {host : Host} (hhost : t.host.Ends name host)
      (after : Context) :
      Becomes name t { t with enforcer := t.enforcer.putSlot name (.idle after), host }
  /-- The task of the interface ends, perhaps with its cycle. -/
  | concludes {host : Host} {o : SyncOutcome} {e : Enforcer}
      (hhost : t.host.Ends name host)
      (htask : t.tasks[name]?.isSome = true) (hname : o.interface = name)
      (he : Enforcer.AgreesBesides name t.enforcer e)
      (hslot : e.slot name = t.enforcer.slot name ∨ ∃ c, e.slot name = .idle c) :
      Becomes name t (({ t with host } : Tick).conclude name o e)

theorem settle_becomes {host : Host}
    (hhost : t.host.Ends name host)
    (ending : Kernel.Ending Context (Except CycleError SyncReport × Context)) :
    Becomes name t (({ t with host } : Tick).settle name ending) := by
  unfold settle
  split
  case h_1 before wanted htask =>
    refine .concludes hhost ?_ ?_ (Enforcer.agreesBesides_settle .resync wanted before ending)
      (.inr ?_)
    · rw [show t.tasks[name]? = _ from htask]
      rfl
    · cases ending <;> rfl
    · cases ending with
      | completed r => exact ⟨r.2, Enforcer.slot_putSlot_same⟩
      | aborted after => exact ⟨after, Enforcer.slot_noteFailure.trans Enforcer.slot_putSlot_same⟩
  case h_2 => split <;> exact .frees hhost _

theorem begin_becomes (now : Timestamp) : Becomes name t (t.begin name now) := by
  unfold begin
  split
  case h_2 => exact .stays
  case h_1 hwaiting =>
    have htask : t.tasks[name]?.isSome = true := by rw [hwaiting]; rfl
    split
    case h_1 cause _ =>
      obtain ⟨hname, hslot⟩ := Enforcer.refuse_spec t.enforcer name .resync cause now
      exact .concludes (.inl rfl) htask hname (Enforcer.agreesBesides_refuse .resync cause now) hslot
    case h_2 wanted hwanted =>
      split
      case h_1 => exact .concludes (.inl rfl) htask rfl (.refl name t.enforcer) (.inl rfl)
      case h_2 before hslot => exact .begins now hwaiting hwanted hslot

theorem call_becomes : Becomes name t (t.call name) := by
  unfold call
  split
  case h_2 => exact .stays
  case h_1 rest hslot =>
    split
    case h_2 => exact .stays
    case h_1 c state resume hrest =>
      split
      case h_1 a host hanswer => exact .calls hslot hrest hanswer
      case h_2 host hanswer => exact settle_becomes (.inr ⟨c, hanswer⟩) _

theorem finish_becomes : Becomes name t (t.finish name) := by
  unfold finish
  split
  case h_2 => exact .stays
  case h_1 =>
    split
    case h_1 => exact settle_becomes (.inl rfl) _
    case h_2 => exact .stays

theorem giveUp_becomes : Becomes name t (t.giveUp name) := by
  unfold giveUp
  split
  case h_2 => exact .stays
  case h_1 wanted rest htask hslot =>
    refine .concludes (.inl rfl) ?_ rfl (Enforcer.agreesBesides_abandon .resync wanted rest)
      (.inl ?_)
    · rw [htask]
      rfl
    · rw [hslot]
      exact Enforcer.slot_noteFailure.trans Enforcer.slot_putSlot_same

/-- All that a move can do. -/
theorem step_becomes (t : Tick) (move : Move) : Becomes move.interface t (t.step move) := by
  cases move with
  | begin name now => exact begin_becomes now
  | call name => exact call_becomes
  | finish name => exact finish_becomes
  | giveUp name => exact giveUp_becomes

/-- What every move of a schedule keeps holds at its end. -/
theorem run_induction {I : Tick → Prop} (schedule : List Move)
    (hstep : ∀ t, ∀ move ∈ schedule, I t → I (t.step move)) (h : I t) : I (t.run schedule) := by
  induction schedule generalizing t with
  | nil => exact h
  | cons move schedule ih =>
    exact ih (fun t move hmove => hstep t move (List.mem_cons_of_mem _ hmove))
      (hstep t move List.mem_cons_self h)

/-- A move leaves everything alone that is not about its interface. -/
theorem agreesBesides_step (t : Tick) (move : Move) :
    AgreesBesides move.interface t (t.step move) := by
  have hbecomes := step_becomes t move
  generalize move.interface = name, t.step move = t' at hbecomes
  cases hbecomes with
  | stays => exact .refl name t
  | begins =>
    exact ⟨Enforcer.agreesBesides_putSlot .., fun _ h => NameMap.getElem?_insert_other h,
      .refl name _⟩
  | @calls rest c state resume a host hslot hrest hanswer =>
    refine ⟨Enforcer.agreesBesides_putSlot .., fun _ _ => rfl, ?_⟩
    have hkernel := Model.agreesBesides_answer name t.host.kernel c
    rwa [Host.answer_eq_some hanswer] at hkernel
  | frees hhost after =>
    refine ⟨Enforcer.agreesBesides_putSlot .., fun _ _ => rfl, ?_⟩
    dsimp only
    rw [hhost.kernel_eq]
    exact .refl name _
  | @concludes host o e hhost _ _ he =>
    have hends : AgreesBesides name t { t with host } := by
      refine ⟨.refl name _, fun _ _ => rfl, ?_⟩
      dsimp only
      rw [hhost.kernel_eq]
      exact .refl name _
    exact hends.trans (agreesBesides_conclude he)

theorem outcome?_eq_some {o : SyncOutcome} :
    t.outcome? name = some o ↔ t.tasks[name]? = some (.over (some o)) := by
  unfold outcome?
  split
  case h_1 outcome htask => rw [htask, Option.some.injEq, Stage.over.injEq]
  case h_2 htask =>
    constructor
    · rintro ⟨⟩
    · exact fun h => (htask _ h).elim

/-- Where no cycle is running, moves change nothing unless they begin a task that waits for it. -/
theorem step_of_idle {move : Move} (hname : move.interface = name)
    (hidle : ∃ c, t.enforcer.slot name = .idle c)
    (hbegin : t.tasks[name]? = some .waiting → ∀ now, move ≠ .begin name now) :
    t.step move = t := by
  obtain ⟨c, hslot⟩ := hidle
  cases move with
  | begin other now =>
    obtain rfl : other = name := hname
    show t.begin other now = t
    unfold begin
    split
    case h_1 hwaiting => exact (hbegin hwaiting now rfl).elim
    case h_2 => rfl
  | call other =>
    obtain rfl : other = name := hname
    show t.call other = t
    unfold call
    rw [hslot]
  | finish other =>
    obtain rfl : other = name := hname
    show t.finish other = t
    unfold finish
    rw [hslot]
  | giveUp other =>
    obtain rfl : other = name := hname
    show t.giveUp other = t
    unfold giveUp
    rw [hslot]
    split
    case h_1 hrunning => cases hrunning
    case h_2 => rfl

/-- Moves on an interface that the tick is not about change nothing. -/
theorem step_of_none {move : Move} (hname : move.interface = name) (htask : t.tasks[name]? = none)
    (hidle : ∃ c, t.enforcer.slot name = .idle c) : t.step move = t := by
  refine step_of_idle hname hidle fun hwaiting => ?_
  rw [htask] at hwaiting
  cases hwaiting

theorem tasks_run_of_none (htask : t.tasks[name]? = none)
    (hidle : ∃ c, t.enforcer.slot name = .idle c) (schedule : List Move) :
    (t.run schedule).tasks[name]? = none := by
  have hrun := run_induction schedule
    (I := fun t => t.tasks[name]? = none ∧ ∃ c, t.enforcer.slot name = .idle c) ?_ ⟨htask, hidle⟩
  · exact hrun.1
  rintro t move - ⟨htask, hidle⟩
  by_cases hname : move.interface = name
  · rw [step_of_none hname htask hidle]
    exact ⟨htask, hidle⟩
  · have hagrees := agreesBesides_step t move
    rw [hagrees.tasks _ (Ne.symm hname), hagrees.enforcer.slots _ (Ne.symm hname)]
    exact ⟨htask, hidle⟩

/-! ## The start of a tick -/

variable {e : Enforcer} {h : Host}

/-- A tick is about the interfaces that a rule names, of which something needs a cycle, and, if they
can be listed, that carry a table or a program of ours. -/
theorem mem_targets :
    name ∈ targets e h ↔
      (∃ rule ∈ e.policy.ruleList, rule.interface = name) ∨
        Enforcer.Slot.hasInterest (e.slot name) = true ∨
        h.listingFault = none ∧ ((h.kernel.interface name).hasTable = true ∨
          (h.kernel.interface name).carriesOurs = true) := by
  unfold targets
  rw [Std.ExtTreeSet.mem_union_iff, Std.ExtTreeSet.mem_union_iff, PolicySnapshot.mem_interfaces,
    Enforcer.mem_interested, or_assoc]
  refine or_congr_right (or_congr_right ?_)
  unfold Host.managed
  dsimp only
  cases h.listingFault with
  | none => exact Model.mem_managed.trans (and_iff_right rfl).symm
  | some fault =>
    cases fault <;> exact iff_of_false Std.ExtTreeSet.not_mem_empty fun hnone => by cases hnone.1

theorem tasks_start_of_mem (hmem : name ∈ targets e h) :
    (start e h).tasks[name]? = some .waiting := by
  have hnames : (targets e h).toList.Pairwise fun a b => ¬compare a b = .eq :=
    Std.ExtTreeSet.distinct_toList
  have hdistinct : ((targets e h).toList.map fun name => (name, Stage.waiting)).Pairwise
      fun a b => ¬compare a.1 b.1 = .eq :=
    List.pairwise_map.mpr hnames
  have hpair := List.mem_map_of_mem (f := fun name => (name, Stage.waiting))
    (Std.ExtTreeSet.mem_toList.mpr hmem)
  exact Std.ExtTreeMap.getElem?_ofList_of_mem Std.ReflCmp.compare_self hdistinct hpair

theorem tasks_start_of_not_mem (hmem : name ∉ targets e h) : (start e h).tasks[name]? = none := by
  refine Std.ExtTreeMap.getElem?_ofList_of_contains_eq_false ?_
  rw [List.map_map]
  have hmap : (targets e h).toList.map (Prod.fst ∘ fun name => (name, Stage.waiting)) =
      (targets e h).toList := List.map_id _
  rw [hmap, Bool.eq_false_iff, ne_eq, List.contains_iff_mem, Std.ExtTreeSet.mem_toList]
  exact hmem

end Tick

end IngressGuard
