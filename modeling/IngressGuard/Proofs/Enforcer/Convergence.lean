import IngressGuard.Proofs.Enforcer.Tick

/-!
# Ticks converge

Along every schedule of a tick, and whatever calls fail, an interface whose task ends well carries
the tables and the program that its deny list asks for, and an interface that the tick is not about
stays as it was.  The invariant of an interface says this of the end of its task; while its cycle
is running it says what all ways to complete the cycle lead to, so that it survives the calls of
the others, and each of its own calls is one step along the way.

Read off as verdicts on packets, this is `Tick.converges`.
-/

namespace IngressGuard

open Kernel (Model Procedure InterfaceState)

/-- Tables and program are what a deny list asks for. -/
structure Kernel.InterfaceState.Enforces (s : InterfaceState) (wanted : DenyList) : Prop where
  tables : ∀ f, s.tables.get f = wanted.table f
  program : s.carriesOurs = true ↔ wanted.isEmpty = false

theorem Kernel.InterfaceState.enforces_empty_iff {s : InterfaceState} :
    s.Enforces .empty ↔ (∀ f, s.tables.get f = none) ∧ s.carriesOurs = false := by
  constructor
  · intro h
    refine ⟨fun f => (h.tables f).trans (DenyList.table_empty f), ?_⟩
    exact Bool.eq_false_iff.mpr fun hours => by cases h.program.mp hours
  · rintro ⟨htables, hours⟩
    refine ⟨fun f => (htables f).trans (DenyList.table_empty f).symm, ?_⟩
    rw [hours]
    exact ⟨fun h => (Bool.false_ne_true h).elim, fun h => by cases h⟩

namespace Tick

/-- A cycle that is running will, if it succeeds, bring its interface to a deny list. -/
def Heads (rest : RunningCycle) (wanted : DenyList) (s : InterfaceState) : Prop :=
  rest.Ensures (InterfaceState.behaviour True)
    (fun r s' => ∀ report, r.1 = .ok report → s'.Enforces wanted) s

/-- An interface carries what the policy asks for, and no cycle is about to change it. -/
def Settled (policy : PolicySnapshot) (name : String) (slot : Slot) (s : InterfaceState) : Prop :=
  (∃ c, slot = .idle c) ∧ ∃ wanted, policy.denyList name = .ok wanted ∧ s.Enforces wanted

/-- What holds of an interface in every moment of a tick, by how far its task has come. -/
def Invariant (policy : PolicySnapshot) (name : String) :
    Option Stage → Slot → InterfaceState → Prop
  | none, slot, s => Settled policy name slot s
  | some .waiting, slot, _ => ∃ c, slot = .idle c
  | some (.cycling _ wanted), slot, s =>
    policy.denyList name = .ok wanted ∧ ∃ rest, slot = .running rest ∧ Heads rest wanted s
  | some (.over outcome), slot, s =>
    ∀ o ∈ outcome, ∀ report, o.result = .ok report → Settled policy name slot s

/-- The invariant of an interface in a tick. -/
def Invariant.At (policy : PolicySnapshot) (name : String) (t : Tick) : Prop :=
  Invariant policy name t.tasks[name]? (t.enforcer.slot name) (t.host.kernel.interface name)

variable {policy : PolicySnapshot} {name : String} {t : Tick}

theorem heads_cycle {wanted : DenyList} (hwanted : policy.denyList name = .ok wanted) (c : Context)
    (now : Timestamp) (s : InterfaceState) : Heads (c.cycle name wanted .resync now) wanted s := by
  have filed := PolicySnapshot.wellFiled_denyList hwanted
  refine (Context.ensures_cycle filed now).mono ?_
  rintro ⟨result, c'⟩ s' h report rfl
  obtain ⟨-, happlied, hbound⟩ := h
  rw [Context.effectiveMode_resync] at happlied
  exact ⟨happlied.tables_eq, hbound.carriesOurs_iff⟩

/-- The end of a task keeps the invariant if its outcome lives up to it. -/
theorem Invariant.conclude {o : SyncOutcome} {e : Enforcer}
    (h : ∀ report, o.result = .ok report →
      Settled policy name (e.slot name) (t.host.kernel.interface name)) :
    Invariant.At policy name (t.conclude name o e) := by
  obtain ⟨henforcer, hkernel, kept, hkept, htasks⟩ := conclude_spec t name o e
  unfold Invariant.At
  rw [henforcer, hkernel, htasks, NameMap.getElem?_insert_same]
  rintro o' ho' report hreport
  rcases hkept with rfl | rfl
  · cases ho'
  · cases ho'
    exact h report hreport

theorem Invariant.conclude_error {o : SyncOutcome} {e : Enforcer} {cause : SyncError}
    (h : o.result = .error cause) : Invariant.At policy name (t.conclude name o e) := by
  refine Invariant.conclude fun report hreport => ?_
  rw [h] at hreport
  cases hreport

theorem Invariant.begin (h : Invariant.At policy name t) (hpolicy : t.enforcer.policy = policy)
    (now : Timestamp) : Invariant.At policy name (t.begin name now) := by
  unfold Tick.begin
  split
  case h_2 => exact h
  case h_1 htask =>
    unfold Invariant.At at h
    rw [htask] at h
    obtain ⟨c, hslot⟩ := h
    split
    case h_1 cause _ =>
      have hrefused : (t.enforcer.refuse name .resync cause now).1.result =
          .error (.translate cause) := by
        unfold Enforcer.refuse
        rw [hslot]
      exact Invariant.conclude_error hrefused
    case h_2 wanted hwanted =>
      rw [hpolicy] at hwanted
      rw [hslot]
      unfold Invariant.At
      rw [NameMap.getElem?_insert_same, Enforcer.slot_putSlot_same]
      exact ⟨hwanted, _, rfl, heads_cycle hwanted c now _⟩

/-- A running cycle either has a task that waits for it, or nothing depends on it any more. -/
theorem Invariant.of_running {task : Option Stage} {rest : RunningCycle} {s : InterfaceState}
    (h : Invariant policy name task (.running rest) s) :
    (∃ before wanted, task = some (.cycling before wanted) ∧
        policy.denyList name = .ok wanted ∧ Heads rest wanted s) ∨
      ∀ slot s', Invariant policy name task slot s' := by
  rcases task with _ | _ | ⟨before, wanted⟩ | outcome
  · obtain ⟨⟨c, hc⟩, -⟩ := h
    cases hc
  · obtain ⟨c, hc⟩ := h
    cases hc
  · obtain ⟨hwanted, rest', hrest, hheads⟩ := h
    cases hrest
    exact .inl ⟨before, wanted, rfl, hwanted, hheads⟩
  · refine .inr fun slot s' o ho report hreport => ?_
    obtain ⟨⟨c, hc⟩, -⟩ := h o ho report hreport
    cases hc

theorem Invariant.settle {ending : Kernel.Ending Context (Except CycleError SyncReport × Context)}
    (h : (∃ before wanted, t.tasks[name]? = some (.cycling before wanted) ∧
        policy.denyList name = .ok wanted ∧ ∀ r report, ending = .completed r → r.1 = .ok report →
          (t.host.kernel.interface name).Enforces wanted) ∨
      ∀ slot s, Invariant policy name t.tasks[name]? slot s) :
    Invariant.At policy name (t.settle name ending) := by
  unfold Tick.settle
  rcases h with ⟨before, wanted, htask, hwanted, hends⟩ | hfree
  · rw [htask]
    cases ending with
    | aborted after => exact Invariant.conclude_error rfl
    | completed r =>
      refine Invariant.conclude fun report hreport => ⟨⟨r.2, ?_⟩, wanted, hwanted, ?_⟩
      · exact Enforcer.slot_putSlot_same
      · obtain ⟨result, after⟩ := r
        cases result with
        | error e => cases hreport
        | ok report' => exact hends _ report' rfl rfl
  · split
    case h_1 before wanted htask =>
      rw [htask] at hfree
      obtain ⟨-, rest, hrest, -⟩ := hfree (.idle before) InterfaceState.blank
      cases hrest
    case h_2 => split <;> exact hfree _ _

theorem Invariant.call (h : Invariant.At policy name t) :
    Invariant.At policy name (t.call name) := by
  unfold Tick.call
  split
  case h_2 => exact h
  case h_1 rest hslot =>
    unfold Invariant.At at h
    rw [hslot] at h
    split
    case h_2 => rwa [← hslot] at h
    case h_1 c state resume hrest =>
      split
      case h_1 a host hanswer =>
        unfold Invariant.At
        rw [Enforcer.slot_putSlot_same]
        rcases h.of_running with ⟨before, wanted, htask, hwanted, hheads⟩ | hfree
        · rw [htask]
          refine ⟨hwanted, _, rfl, ?_⟩
          have hbehaves : InterfaceState.behaviour True c (t.host.kernel.interface name)
              (t.host.kernel.answer name c).1 ((t.host.kernel.answer name c).2.interface name) :=
            Model.answer_behaves (.inl trivial) c
          rw [Host.answer_eq_some hanswer] at hbehaves
          -- The cycle keeps its promise for every answer, so for the one of this kernel.
          have hcall := Procedure.ensures_afterOpening.mpr hheads
          rw [hrest] at hcall
          exact Procedure.ensures_call.mp hcall a _ hbehaves
        · exact hfree _ _
      -- The call brings the cycle down, which is no success.
      case h_2 host hanswer =>
        refine Invariant.settle ?_
        rcases h.of_running with ⟨before, wanted, htask, hwanted, -⟩ | hfree
        · exact .inl ⟨before, wanted, htask, hwanted, fun _ _ haborted => by cases haborted⟩
        · exact .inr hfree

theorem Invariant.finish (h : Invariant.At policy name t) :
    Invariant.At policy name (t.finish name) := by
  unfold Tick.finish
  split
  case h_2 => exact h
  case h_1 rest hslot =>
    unfold Invariant.At at h
    rw [hslot] at h
    split
    case h_2 => rwa [← hslot] at h
    case h_1 result hrest =>
      refine Invariant.settle ?_
      rcases h.of_running with ⟨before, wanted, htask, hwanted, hheads⟩ | hfree
      · have hdone := Procedure.ensures_afterOpening.mpr hheads
        rw [hrest] at hdone
        refine .inl ⟨before, wanted, htask, hwanted, ?_⟩
        rintro _ report ⟨⟩ hreport
        exact Procedure.ensures_done.mp hdone report hreport
      · exact .inr hfree

theorem Invariant.giveUp (h : Invariant.At policy name t) :
    Invariant.At policy name (t.giveUp name) := by
  unfold Tick.giveUp
  split
  case h_1 => exact Invariant.conclude_error rfl
  case h_2 => exact h

/-- Every move keeps the invariant of every interface. -/
theorem Invariant.step (h : Invariant.At policy name t) (hpolicy : t.enforcer.policy = policy)
    (move : Move) : Invariant.At policy name (t.step move) := by
  by_cases hname : move.interface = name
  · cases move with
    | begin other now =>
      cases hname
      exact Invariant.begin h hpolicy now
    | call other =>
      cases hname
      exact Invariant.call h
    | finish other =>
      cases hname
      exact Invariant.finish h
    | giveUp other =>
      cases hname
      exact Invariant.giveUp h
  · have hagrees := agreesBesides_step t move
    unfold Invariant.At at h ⊢
    rwa [hagrees.tasks _ (Ne.symm hname), hagrees.enforcer.slots _ (Ne.symm hname),
      hagrees.kernel.others _ (Ne.symm hname)]

theorem failsafe_run (t : Tick) (schedule : List Move) :
    (t.run schedule).host.kernel.failsafe = t.host.kernel.failsafe := by
  induction schedule generalizing t with
  | nil => rfl
  | cons move schedule ih => exact (ih _).trans (agreesBesides_step t move).kernel.failsafe

/-- Along every schedule the invariant of every interface holds. -/
theorem Invariant.run (h : Invariant.At policy name t) (hpolicy : t.enforcer.policy = policy)
    (schedule : List Move) : Invariant.At policy name (t.run schedule) := by
  induction schedule generalizing t with
  | nil => exact h
  | cons move schedule ih =>
    have hstep := (agreesBesides_step t move).enforcer.policy
    exact ih (Invariant.step h hpolicy move) (hstep.trans hpolicy)

/-! ## The start of a tick -/

variable {e : Enforcer} {h : Host}

/-- An interface that a tick is not about has no rule, no table and no program of ours. -/
theorem untouched_of_not_mem (hlisting : h.listingFault = none) (hmem : name ∉ targets e h) :
    (∀ rule ∈ e.policy.ruleList, rule.interface ≠ name) ∧
      (h.kernel.interface name).hasTable = false ∧
      (h.kernel.interface name).carriesOurs = false := by
  rw [mem_targets, not_or, not_or] at hmem
  obtain ⟨hno, -, hshown⟩ := hmem
  refine ⟨fun rule hrule hname => hno ⟨rule, hrule, hname⟩, ?_⟩
  exact ⟨Bool.eq_false_iff.mpr fun ht => hshown ⟨hlisting, .inl ht⟩,
    Bool.eq_false_iff.mpr fun ho => hshown ⟨hlisting, .inr ho⟩⟩

theorem Invariant.start (hlisting : h.listingFault = none) (hidle : ∃ c, e.slot name = .idle c) :
    Invariant.At e.policy name (start e h) := by
  unfold Invariant.At
  by_cases hmem : name ∈ targets e h
  · rw [tasks_start_of_mem hmem]
    exact hidle
  · rw [tasks_start_of_not_mem hmem]
    obtain ⟨hno, htable, hours⟩ := untouched_of_not_mem hlisting hmem
    refine ⟨hidle, .empty, PolicySnapshot.denyList_of_no_rule hno, ?_⟩
    have hkernel : (Tick.start e h).host.kernel.interface name = h.kernel.interface name :=
      congrArg (·.interface name) Host.kernel_managed
    rw [hkernel]
    have htables := InterfaceState.hasTable_eq_false_iff.mp htable
    exact InterfaceState.enforces_empty_iff.mpr ⟨htables, hours⟩

end Tick

/-! ## Verdicts -/

namespace Kernel.InterfaceState.Enforces

variable {policy : PolicySnapshot} {name : String} {m : Model} {wanted : DenyList}

theorem evaluate_iff (h : (m.interface name).Enforces wanted)
    (hwanted : policy.denyList name = .ok wanted) (p : Packet) :
    m.evaluate name p = .drop ↔
      m.failsafe.permits p = false ∧ policy.Blocks name p.source := by
  rw [Model.evaluate_eq_drop_iff, Model.table, h.tables, DenyList.getD_table,
    PolicySnapshot.covers_denyList hwanted]
  refine and_iff_right_of_imp fun hblocks => h.program.mpr ?_
  obtain ⟨q, hq, -⟩ := (PolicySnapshot.covers_denyList hwanted p.source).mpr hblocks.2
  refine Bool.eq_false_iff.mpr fun hempty => ?_
  exact PrefixSet.isEmpty_iff.mp (DenyList.isEmpty_iff.mp hempty _) q hq

end Kernel.InterfaceState.Enforces

namespace Tick

/-- A tick from any state of the enforcer and of the kernel, along any schedule: an interface on
which no cycle of an earlier tick is running, and whose task ends well or that the tick is not
about, drops exactly the packets that no failsafe rule permits and whose source the policy blocks
there; and if no rule is about it, it carries no table and no program of ours. -/
theorem converges (e : Enforcer) (h : Host) (hlisting : h.listingFault = none)
    (schedule : List Move) (name : String) (hidle : ∃ c, e.slot name = .idle c)
    (hend : name ∉ targets e h ∨
      ∃ o report, ((start e h).run schedule).outcome? name = some o ∧ o.result = .ok report) :
    let m := ((start e h).run schedule).host.kernel
    (∀ p : Packet, m.evaluate name p = .drop ↔
      h.kernel.failsafe.permits p = false ∧ e.policy.Blocks name p.source) ∧
    ((∀ rule ∈ e.policy.ruleList, rule.interface ≠ name) →
      (∀ f, m.table name f = none) ∧ (m.interface name).carriesOurs = false) := by
  intro m
  have hinvariant : Invariant.At e.policy name ((start e h).run schedule) :=
    Invariant.run (Invariant.start hlisting hidle) rfl schedule
  have hfailsafe : m.failsafe = h.kernel.failsafe :=
    (failsafe_run ..).trans (congrArg (·.failsafe) Host.kernel_managed)
  unfold Invariant.At at hinvariant
  have hsettled : Settled e.policy name (((start e h).run schedule).enforcer.slot name)
      (m.interface name) := by
    rcases hend with hmem | ⟨o, report, hover, hok⟩
    · rwa [tasks_run_of_none (tasks_start_of_not_mem hmem) hidle] at hinvariant
    · rw [outcome?_eq_some.mp hover] at hinvariant
      exact hinvariant o rfl report hok
  obtain ⟨-, wanted, hwanted, henforces⟩ := hsettled
  rw [← hfailsafe]
  refine ⟨henforces.evaluate_iff hwanted, fun hno => ?_⟩
  rw [PolicySnapshot.denyList_of_no_rule hno] at hwanted
  cases hwanted
  exact InterfaceState.enforces_empty_iff.mp henforces

/-- One rule, about one interface. -/
def oneRule : Enforcer :=
  .fresh (.ofDocument
    { addressSets := [⟨"bots", .ofList [("list", "bots")], ["10.0.0.0/8"]⟩]
      rules := [⟨"bots", "eth0", .ipv4, "list == 'bots'"⟩] }) 0

/-- A table left behind on another interface. -/
def leftTable : Host :=
  .ofKernel ((Model.fresh ∅ none).tamperInsert "eth1" (.host (.ofNat .ipv4 1))) .logging

/-- The moves of both interfaces, by turns. -/
def turns : List Move :=
  [.begin "eth0" ⟨0, 0⟩, .begin "eth1" ⟨0, 0⟩] ++
    (List.replicate 20 [Move.call "eth0", .call "eth1"]).flatten ++
    [.finish "eth0", .finish "eth1"]

/-- Both interfaces converge when their cycles run by turns. -/
theorem converges_turns :
    let m := ((start oneRule leftTable).run turns).host.kernel
    (∀ p : Packet, m.evaluate "eth0" p = .drop ↔
      leftTable.kernel.failsafe.permits p = false ∧ oneRule.policy.Blocks "eth0" p.source) ∧
    (∀ f, m.table "eth1" f = none) ∧ (m.interface "eth1").carriesOurs = false := by
  have hends : ∀ name ∈ ["eth0", "eth1"], ∃ o report,
      ((start oneRule leftTable).run turns).outcome? name = some o ∧ o.result = .ok report := by
    have hchecks : ∀ name ∈ ["eth0", "eth1"],
        (((start oneRule leftTable).run turns).outcome? name).any
          (fun o => o.result.isOk) = true := by
      decide +kernel
    intro name hname
    obtain ⟨o, ho, hok⟩ := (Option.any_eq_true ..).mp (hchecks name hname)
    cases hresult : o.result with
    | ok report => exact ⟨o, report, ho, hresult⟩
    | error cause =>
      rw [hresult] at hok
      cases hok
  have hno : ∀ rule ∈ oneRule.policy.ruleList, rule.interface ≠ "eth1" := by decide +kernel
  exact ⟨(converges oneRule leftTable rfl turns "eth0" ⟨_, rfl⟩ (.inr (hends _ (by simp)))).1,
    (converges oneRule leftTable rfl turns "eth1" ⟨_, rfl⟩ (.inr (hends _ (by simp)))).2 hno⟩

end Tick

end IngressGuard
