import IngressGuard.Enforcer.Outcome
import IngressGuard.Proofs.Cycle.Modes
import IngressGuard.Proofs.Kernel.Record

/-!
# False alarms

Drift is meant to tell of what others have done to an interface.  Here nobody but the cycles of
one context touches it (`Context.Alone`), starting from an interface that holds nothing, and calls
may fail anywhere.

The hook raises no alarm then.  A program that vanishes is reported if the hook remembers one as
attached, and with nobody to take it away it is there (`Hook.Unmeddled`), although an attach or a
detach that fails leaves other states behind.

The tables do.  What is read is compared with what was applied last, and a cycle that is torn
leaves it behind the kernel; the next resync reports the writes of that cycle as drift
(`Context.false_alarm`).  Unless a cycle was torn since tables were last read back and finished,
there is none, and the exact condition is that a resync finds every table as it was applied last
(`Context.Alone.alarm_iff`).
-/

namespace IngressGuard

open Kernel (Model InterfaceState Work Procedure)

variable {mayFail : Prop} {name : String} {wanted : DenyList} {s s' : InterfaceState}

/-! ## Tables -/

namespace BlockTables

variable {t : BlockTables} {b : Baseline}

theorem drift_eq_nil_iff {f : Family} {applied : PrefixSet} {actual : Option PrefixSet} :
    drift f applied actual = [] ↔ actual.getD ∅ = applied := by
  cases actual with
  | none =>
    have hempty : applied.isEmpty = true ↔ ∅ = applied := by
      rw [PrefixSet.isEmpty_iff]
      constructor
      · intro h
        exact Std.ExtTreeSet.ext_mem fun p => by simp [h p]
      · rintro rfl p
        simp
    rw [Option.getD_none, ← hempty, drift]
    split <;> simp_all
  | some actual =>
    simp only [drift, List.append_eq_nil_iff, List.map_eq_nil_iff, Option.getD_some]
    constructor
    · rintro ⟨hmissing, hunexpected⟩
      refine Std.ExtTreeSet.ext_mem fun p => ⟨fun hp => ?_, fun hp => ?_⟩
      · refine Classical.byContradiction fun hnot => ?_
        have hmem : p ∈ (actual \ applied).toList :=
          Std.ExtTreeSet.mem_toList.mpr (Std.ExtTreeSet.mem_diff_iff.mpr ⟨hp, hnot⟩)
        rw [hunexpected] at hmem
        cases hmem
      · refine Classical.byContradiction fun hnot => ?_
        have hmem : p ∈ (applied \ actual).toList :=
          Std.ExtTreeSet.mem_toList.mpr (Std.ExtTreeSet.mem_diff_iff.mpr ⟨hp, hnot⟩)
        rw [hmissing] at hmem
        cases hmem
    · rintro rfl
      have hself : actual \ actual = ∅ := Std.ExtTreeSet.ext_mem (by simp)
      rw [hself]
      exact ⟨rfl, rfl⟩

/-- The drift that planning finds for one family. -/
def found (b : Baseline) (t : BlockTables) (s : InterfaceState) (f : Family) : List TableDrift :=
  match b with
  | .lastApplied => []
  | .kernel => if t.primed then drift f (t.lastApplied.get f) (s.tables.get f) else []

theorem found_eq_nil_iff {f : Family} :
    found b t s f = [] ↔
      b = .lastApplied ∨ t.primed = false ∨ (s.tables.get f).getD ∅ = t.lastApplied.get f := by
  cases b with
  | lastApplied => simp [found]
  | kernel =>
    rw [found]
    split <;> simp_all [drift_eq_nil_iff]

theorem ensures_planFamily_found (f : Family) :
    Work.Ensures (InterfaceState.behaviour mayFail) (planFamily name wanted b f)
      (fun r t' s' => t' = t ∧ s' = s ∧ r.2 = found b t s f) (fun _ _ _ => True) t s := by
  refine Work.ensures_bind.mpr (Work.ensures_get.mpr ?_)
  cases b with
  | lastApplied => exact Work.ensures_pure.mpr ⟨rfl, rfl, rfl⟩
  | kernel =>
    refine Work.ensures_bind.mpr (InterfaceState.ensures_read.mpr ⟨?_, fun _ _ => trivial⟩)
    exact Work.ensures_pure.mpr ⟨rfl, rfl, rfl⟩

/-- A run over the tables reports what planning finds. -/
theorem ensures_apply_found :
    Work.Ensures (InterfaceState.behaviour mayFail) (apply name wanted b)
      (fun r _ _ => r.drift = found b t s .ipv4 ++ found b t s .ipv6) (fun _ _ _ => True) t s := by
  refine Work.ensures_bind.mpr ((ensures_planFamily_found .ipv4).mono ?_ fun _ _ _ h => h)
  rintro ⟨plans4, drift4⟩ _ _ ⟨rfl, rfl, rfl⟩
  refine Work.ensures_bind.mpr ((ensures_planFamily_found .ipv6).mono ?_ fun _ _ _ h => h)
  rintro ⟨plans6, drift6⟩ _ _ ⟨rfl, rfl, rfl⟩
  refine Work.ensures_bind.mpr ((ensures_writePlans _).mono (fun _ _ _ _ => ?_)
    fun _ _ _ _ => trivial)
  refine Work.ensures_bind.mpr (Work.ensures_modify.mpr ?_)
  dsimp only
  split
  · exact Work.ensures_bind.mpr (Work.ensures_note.mpr (Work.ensures_pure.mpr rfl))
  · exact Work.ensures_bind.mpr (Work.ensures_pure.mpr (Work.ensures_pure.mpr rfl))

end BlockTables

/-! ## The hook -/

namespace Hook

variable {h : Hook}

/-- Nobody has meddled with the program of an interface: none of others is attached, and the one
remembered as attached is there.  A program is never remembered as being attached anew. -/
structure Unmeddled (h : Hook) (s : InterfaceState) : Prop where
  ours : ∀ p, s.program = some p → p.isOurs = true
  present : h.state = .attached → s.program ≠ none
  settled : h.state ≠ .reattaching

/-- No event tells of others. -/
def Quiet (events : List HookEvent) : Prop := ∀ e ∈ events, e.isDrift = false

theorem Unmeddled.congr (hu : h.Unmeddled s) (hs : s'.program = s.program) : h.Unmeddled s' := by
  refine ⟨?_, ?_, hu.settled⟩ <;> rw [hs]
  · exact hu.ours
  · exact hu.present

theorem Unmeddled.ensures_probe (hu : h.Unmeddled s) :
    Work.Ensures (InterfaceState.behaviour mayFail) (probe name)
      (fun _ h' s' => h'.Unmeddled s') (fun _ h' s' => h'.Unmeddled s') h s := by
  refine Work.ensures_bind.mpr (Work.ensures_get.mpr ?_)
  split
  · exact Work.ensures_pure.mpr hu
  · refine Work.ensures_bind.mpr (InterfaceState.ensures_probe.mpr ⟨?_, fun _ => ⟨?_, ?_⟩⟩)
    · refine Work.ensures_bind.mpr (Work.ensures_modify.mpr (Work.ensures_pure.mpr ?_))
      exact ⟨hu.ours, hu.present, hu.settled⟩
    · intro reason
      refine Work.ensures_bind.mpr (Work.ensures_note.mpr ?_)
      refine Work.ensures_bind.mpr (Work.ensures_modify.mpr (Work.ensures_pure.mpr ?_))
      exact ⟨hu.ours, nofun, nofun⟩
    · exact fun _ => hu

theorem Unmeddled.ensures_requireSupport (hu : h.Unmeddled s) :
    Work.Ensures (InterfaceState.behaviour mayFail) (requireSupport name)
      (fun _ h' s' => h'.Unmeddled s') (fun _ h' s' => h'.Unmeddled s') h s := by
  refine Work.ensures_bind.mpr (Work.ensures_get.mpr ?_)
  split
  · exact Work.ensures_fail.mpr hu
  · exact Work.ensures_pure.mpr hu

theorem Unmeddled.ensures_ensureSupported (hu : h.Unmeddled s) :
    Work.Ensures (InterfaceState.behaviour mayFail) (ensureSupported name)
      (fun _ h' s' => h'.Unmeddled s') (fun _ h' s' => h'.Unmeddled s') h s :=
  Work.ensures_bind.mpr (hu.ensures_probe.mono (fun _ _ _ hu' => hu'.ensures_requireSupport)
    fun _ _ _ hu' => hu')

theorem unmeddled_of_ours {p : Program} (hp : s.program = some p) (hours : p.isOurs = true) :
    Unmeddled { h with program := some p, state := .attached } s where
  ours := by
    intro p' hp'
    rw [hp] at hp'
    cases hp'
    exact hours
  present := by rw [hp]; exact fun _ => nofun
  settled := nofun

theorem ensures_adopt_quiet {p : Program} (hp : s.program = some p) (hours : p.isOurs = true) :
    Work.Ensures (InterfaceState.behaviour mayFail) (adopt name p)
      (fun events h' s' => Quiet events ∧ h'.Unmeddled s') (fun _ _ _ => False) h s := by
  have hend : ∀ events, Quiet events →
      Work.Ensures (InterfaceState.behaviour mayFail) (do
          Work.modify fun h => { h with program := some p, state := .attached }
          return events : HookWork (List HookEvent))
        (fun events h' s' => Quiet events ∧ h'.Unmeddled s') (fun _ _ _ => False) h s := by
    intro events hquiet
    refine Work.ensures_bind.mpr (Work.ensures_modify.mpr (Work.ensures_pure.mpr ⟨hquiet, ?_⟩))
    exact unmeddled_of_ours hp hours
  refine Work.ensures_bind.mpr (Work.ensures_get.mpr ?_)
  dsimp only
  split
  · refine Work.ensures_bind.mpr (Work.ensures_note.mpr (Work.ensures_bind.mpr
      (Work.ensures_pure.mpr (hend _ ?_))))
    simp [Quiet, HookEvent.isDrift]
  · split
    · refine Work.ensures_bind.mpr (Work.ensures_note.mpr (Work.ensures_bind.mpr
        (Work.ensures_pure.mpr (hend _ nofun))))
    · exact Work.ensures_bind.mpr (Work.ensures_pure.mpr (hend _ nofun))

/-- With no program there, none is missed. -/
theorem Unmeddled.ensures_attach (hu : h.Unmeddled s) (hnone : s.program = none) :
    Work.Ensures (InterfaceState.behaviour mayFail) (attach name none)
      (fun events h' s' => Quiet events ∧ h'.Unmeddled s') (fun _ h' s' => h'.Unmeddled s')
      h s := by
  have hattached : (h.state == .attached) = false :=
    beq_eq_false_iff_ne.mpr fun hstate => hu.present hstate hnone
  have hsettled : (h.state == .reattaching) = false := beq_eq_false_iff_ne.mpr hu.settled
  refine Work.ensures_bind.mpr (Work.ensures_get.mpr ?_)
  simp only [hattached, hsettled, Option.isNone_none, Bool.or_false, Bool.and_false,
    Bool.false_eq_true, if_false, Option.isSome_none]
  refine Work.ensures_bind.mpr (Work.ensures_modify.mpr (Work.ensures_bind.mpr
    (InterfaceState.ensures_attach.mpr ⟨fun _ p hours => ?_, fun _ _ => ?_⟩)))
  · refine Work.ensures_bind.mpr (Work.ensures_note.mpr (Work.ensures_bind.mpr
      (Work.ensures_modify.mpr (Work.ensures_pure.mpr ⟨?_, unmeddled_of_ours rfl hours⟩))))
    simp [Quiet, HookEvent.isDrift]
  · exact ⟨hu.ours, nofun, nofun⟩

theorem Unmeddled.ensures_ensureAttached (hu : h.Unmeddled s) :
    Work.Ensures (InterfaceState.behaviour mayFail) (ensureAttached name)
      (fun events h' s' => Quiet events ∧ h'.Unmeddled s') (fun _ h' s' => h'.Unmeddled s')
      h s := by
  refine Work.ensures_bind.mpr (hu.ensures_ensureSupported.mono ?_ fun _ _ _ h => h)
  intro _ h₁ s₁ hu₁
  refine Work.ensures_bind.mpr (InterfaceState.ensures_query.mpr ⟨?_, fun _ _ => hu₁⟩)
  cases hp : s₁.program with
  | none => exact hu₁.ensures_attach hp
  | some p =>
    dsimp only
    rw [if_pos (hu₁.ours p hp)]
    exact (ensures_adopt_quiet hp (hu₁.ours p hp)).mono (fun _ _ _ h => h) fun _ _ _ h => h.elim

theorem Unmeddled.ensures_ensureDetached (hu : h.Unmeddled s) :
    Work.Ensures (InterfaceState.behaviour mayFail) (ensureDetached name)
      (fun events h' s' => Quiet events ∧ h'.Unmeddled s') (fun _ h' s' => h'.Unmeddled s')
      h s := by
  refine Work.ensures_bind.mpr (Work.ensures_get.mpr ?_)
  split
  · exact Work.ensures_pure.mpr ⟨nofun, hu⟩
  refine Work.ensures_bind.mpr (InterfaceState.ensures_query.mpr ⟨?_, fun _ _ => hu⟩)
  cases hp : s.program with
  | none =>
    refine Work.ensures_bind.mpr (Work.ensures_pure.mpr (Work.ensures_bind.mpr
      (Work.ensures_modify.mpr (Work.ensures_pure.mpr ⟨nofun, ?_⟩))))
    exact ⟨hu.ours, nofun, nofun⟩
  | some p =>
    dsimp only
    rw [if_pos (hu.ours p hp)]
    refine Work.ensures_bind.mpr (Work.ensures_modify.mpr (Work.ensures_bind.mpr
      (InterfaceState.ensures_detach.mpr ⟨fun _ => ?_, fun _ _ => ?_⟩)))
    · refine Work.ensures_bind.mpr (Work.ensures_note.mpr (Work.ensures_bind.mpr
        (Work.ensures_pure.mpr (Work.ensures_bind.mpr
          (Work.ensures_modify.mpr (Work.ensures_pure.mpr ⟨?_, nofun, nofun, nofun⟩))))))
      simp [Quiet, HookEvent.isDrift]
    · exact ⟨hu.ours, nofun, nofun⟩

end Hook

/-! ## Cycles -/

namespace Context

variable {c c' : Context} {mode : SyncMode} {torn : Bool}

/-- A run over the tables leaves the program alone. -/
theorem ensures_onTables_unmeddled (hu : c.hook.Unmeddled s) {b : Baseline} :
    Work.Ensures (InterfaceState.behaviour mayFail) (onTables (BlockTables.apply name wanted b))
      (fun _ c' s' => c'.hook.Unmeddled s') (fun _ c' s' => c'.hook.Unmeddled s') c s := by
  refine Work.ensures_focus.mpr (BlockTables.ensures_apply_written.mono ?_ ?_)
  · rintro report t' _ ⟨-, rfl⟩
    exact hu.congr (BlockTables.program_written _)
  · exact fun e t' s' hfailed => hu.congr hfailed.program

/-- With nobody else around, a cycle raises no alarm about the program. -/
theorem ensures_applyAndBind_quiet (hu : c.hook.Unmeddled s) :
    Work.Ensures (InterfaceState.behaviour mayFail) (applyAndBind name wanted mode)
      (fun r c' s' => Hook.Quiet r.2 ∧ c'.hook.Unmeddled s') (fun _ c' s' => c'.hook.Unmeddled s')
      c s := by
  refine Work.ensures_bind.mpr (Work.ensures_focus.mpr
    (hu.ensures_requireSupport.mono ?_ fun _ _ _ h => h))
  intro _ h₁ s₁ hu₁
  split
  · refine Work.ensures_bind.mpr (Work.ensures_focus.mpr
      (hu₁.ensures_ensureDetached.mono ?_ fun _ _ _ h => h))
    rintro events h₂ s₂ ⟨hquiet, hu₂⟩
    refine Work.ensures_bind.mpr ((ensures_onTables_unmeddled hu₂).mono ?_ fun _ _ _ h => h)
    exact fun report c₃ s₃ hu₃ => Work.ensures_pure.mpr ⟨hquiet, hu₃⟩
  · refine Work.ensures_bind.mpr (Work.ensures_focus.mpr
      (hu₁.ensures_ensureSupported.mono ?_ fun _ _ _ h => h))
    intro _ h₂ s₂ hu₂
    refine Work.ensures_bind.mpr ((ensures_onTables_unmeddled hu₂).mono ?_ fun _ _ _ h => h)
    intro report c₃ s₃ hu₃
    refine Work.ensures_bind.mpr (Work.ensures_focus.mpr
      (hu₃.ensures_ensureAttached.mono ?_ fun _ _ _ h => h))
    exact fun events h₄ s₄ h => Work.ensures_pure.mpr h

/-- What a cycle reports as drift of tables is what its planning found. -/
theorem ensures_applyAndBind_found :
    Work.Ensures (InterfaceState.behaviour mayFail) (applyAndBind name wanted mode)
      (fun r _ _ => r.1.drift = BlockTables.found mode.baseline c.tables s .ipv4 ++
        BlockTables.found mode.baseline c.tables s .ipv6) (fun _ _ _ => True) c s := by
  have htables : Work.Ensures (InterfaceState.behaviour mayFail) (tablePhase name wanted mode)
      (fun finished _ _ => finished.1.drift = BlockTables.found mode.baseline c.tables s .ipv4 ++
        BlockTables.found mode.baseline c.tables s .ipv6) (fun _ _ _ => True) c s := by
    refine ensures_tablePhase (Q := fun report _ _ => report.drift =
      BlockTables.found mode.baseline c.tables s .ipv4 ++
        BlockTables.found mode.baseline c.tables s .ipv6) fun s' hs => ?_
    have hfound : ∀ f, BlockTables.found mode.baseline c.tables s' f =
        BlockTables.found mode.baseline c.tables s f := by
      intro f
      simp only [BlockTables.found, hs]
    rw [← hfound, ← hfound]
    exact BlockTables.ensures_apply_found
  rw [applyAndBind_eq_phases]
  refine Work.ensures_bind.mpr (htables.mono (fun finished c₁ s₁ hdrift => ?_) fun _ _ _ h => h)
  refine (ensures_bindPhase finished).mono ?_ fun _ _ _ _ => trivial
  rintro r _ _ ⟨hr, -⟩
  rw [hr]
  exact hdrift

/-- What a context knows of an interface that nobody else touches: once tables were finished, they
are as remembered unless a cycle was torn, and the program is accounted for. -/
structure Undisturbed (c : Context) (s : InterfaceState) (torn : Bool) : Prop where
  filed : c.tables.lastApplied.WellFiled
  tables : c.tables.primed = true → torn = false → c.tables.InStep s
  primed : c.reconciled = true → c.tables.primed = true
  hook : c.hook.Unmeddled s

theorem Undisturbed.consistent (h : Undisturbed c s torn) : Consistent c s torn :=
  ⟨h.filed, fun hreconciled => h.tables (h.primed hreconciled)⟩

theorem undisturbed_fresh (hblank : s = InterfaceState.blank) : Undisturbed fresh s false := by
  subst hblank
  exact ⟨DenyList.wellFiled_empty, nofun, nofun, nofun, nofun, nofun⟩

theorem tornAfter_error {e : CycleError} (herror : ∀ i f stage k, e ≠ .applyFailed i f stage k) :
    tornAfter torn mode (.error e) = torn := by
  cases e with
  | applyFailed i f stage k => exact absurd rfl (herror i f stage k)
  | _ => rfl

/-- A report as nobody else's doing would have it, but for what a resync finds in the tables. -/
structure Candid (c : Context) (mode : SyncMode) (s : InterfaceState) (report : SyncReport) :
    Prop where
  hook : Hook.Quiet report.hookEvents
  tables : report.apply.drift =
    BlockTables.found (c.effectiveMode mode).baseline c.tables s .ipv4 ++
      BlockTables.found (c.effectiveMode mode).baseline c.tables s .ipv6

theorem Candid.drift_ne_nil_iff {report : SyncReport} (h : Candid c mode s report) :
    report.apply.drift ≠ [] ↔
      c.effectiveMode mode = .resync ∧ c.tables.primed = true ∧
        ∃ f, (s.tables.get f).getD ∅ ≠ c.tables.lastApplied.get f := by
  have hmode : (c.effectiveMode mode).baseline = .lastApplied ↔
      c.effectiveMode mode ≠ .resync := by
    cases c.effectiveMode mode <;> decide
  have hfamilies : report.apply.drift = [] ↔
      ∀ f, BlockTables.found (c.effectiveMode mode).baseline c.tables s f = [] := by
    rw [h.tables, List.append_eq_nil_iff]
    constructor
    · rintro ⟨h4, h6⟩ (_ | _)
      · exact h4
      · exact h6
    · exact fun hall => ⟨hall .ipv4, hall .ipv6⟩
  rw [Ne, hfamilies, Classical.not_forall]
  simp only [BlockTables.found_eq_nil_iff, hmode, not_or, Classical.not_not, Bool.not_eq_false,
    exists_and_left]

/-- Where the tables are as remembered, there is no drift to report. -/
theorem Candid.drift_eq_nil {report : SyncReport} (h : Candid c mode s report)
    (hu : Undisturbed c s false) : report.apply.drift = [] := by
  refine Classical.byContradiction fun hdrift => ?_
  obtain ⟨-, hprimed, f, hne⟩ := h.drift_ne_nil_iff.mp hdrift
  refine hne ?_
  rw [hu.tables hprimed rfl f, DenyList.getD_table]

/-- A cycle leaves the interface undisturbed, and reports what it has found. -/
theorem Undisturbed.ensures_cycle (h : Undisturbed c s torn) (filed : wanted.WellFiled)
    (now : Timestamp) :
    (c.cycle name wanted mode now).Ensures (InterfaceState.behaviour mayFail)
      (fun r s' => Undisturbed r.2 s' (tornAfter torn (c.effectiveMode mode) r.1) ∧
        ∀ report, r.1 = .ok report → Candid c mode s report) s := by
  have hhook : (c.cycle name wanted mode now).Ensures (InterfaceState.behaviour mayFail)
      (fun r s' => r.2.hook.Unmeddled s' ∧ ∀ report, r.1 = .ok report → Candid c mode s report)
      s := by
    rw [cycle_eq_conclude]
    have hstart : (c.beginAttempt now).hook.Unmeddled s := h.hook
    refine Procedure.ensures_bind.mpr (Procedure.Ensures.mono
      ((ensures_applyAndBind_quiet hstart).and ensures_applyAndBind_found) ?_)
    rintro ⟨e | ⟨report, events⟩, c'⟩ s' hend
    · exact Procedure.ensures_done.mpr ⟨hend.1, nofun⟩
    · obtain ⟨⟨hquiet, hu⟩, hfound⟩ := hend
      refine Procedure.ensures_note.mpr (Procedure.ensures_done.mpr ⟨hu, ?_⟩)
      rintro _ ⟨⟩
      exact ⟨hquiet, hfound⟩
  intro r s' hrun
  obtain ⟨hu, hcandid⟩ := hhook r s' hrun
  refine ⟨?_, hcandid⟩
  have hend := Context.ensures_cycle filed now r s' hrun
  obtain ⟨result, c'⟩ := r
  cases result with
  | ok report =>
    obtain ⟨hreconciled, happlied, -⟩ := hend
    have hprimed : c'.tables.primed = true := by rw [happlied.remembered]
    have hconsistent := h.consistent.succeed filed report happlied
    exact ⟨hconsistent.filed, fun _ => hconsistent.tables hreconciled, fun _ => hprimed, hu⟩
  | error e =>
    obtain ⟨hreconciled, -, hstuck⟩ := hend
    have hkept : c'.reconciled = true → c.tables.primed = true := by
      rw [hreconciled]
      exact h.primed
    have hfiled := (h.consistent.fail filed hreconciled hstuck).filed
    suffices hend : (c'.tables.primed = true →
        tornAfter torn (c.effectiveMode mode) (.error e) = false → c'.tables.InStep s') ∧
        (c.tables.primed = true → c'.tables.primed = true) from
      ⟨hfiled, hend.1, fun hr => hend.2 (hkept hr), hu⟩
    generalize htables : c'.tables = t' at hstuck
    cases hstuck with
    | early herror hsame =>
      refine ⟨fun hprimed htorn => ?_, id⟩
      rw [tornAfter_error herror] at htorn
      exact (h.tables hprimed htorn).congr rfl hsame
    | torn => exact ⟨fun _ htorn => absurd htorn nofun, id⟩
    | late herror happlied =>
      rw [happlied.remembered]
      refine ⟨fun _ htorn f => ?_, fun _ => rfl⟩
      rw [tornAfter_error herror] at htorn
      subst htorn
      exact h.consistent.exact happlied f

/-- The runs of cycles on an interface that nobody else touches, from one that holds nothing on:
what is remembered and the kernel after the latest cycle, and whether tables may be other than
remembered. -/
inductive Alone (name : String) : Context → Model → Bool → Prop
  | start (m : Model) (hblank : m.interface name = InterfaceState.blank) : Alone name fresh m false
  /-- Failures are armed or disarmed, and other interfaces change. -/
  | meanwhile {c m torn} (before : Alone name c m torn) (m' : Model)
      (hsame : m'.interface name = m.interface name) : Alone name c m' torn
  | cycle {c m torn} (before : Alone name c m torn) {wanted : DenyList} (filed : wanted.WellFiled)
      {mode : SyncMode} {now : Timestamp} {result c' m'}
      (run : (c.cycle name wanted mode now).Yields (Model.failing name) m (result, c') m') :
      Alone name c' m' (tornAfter torn (c.effectiveMode mode) result)

theorem Alone.undisturbed {m : Model} (h : Alone name c m torn) :
    Undisturbed c (m.interface name) torn := by
  induction h with
  | start m hblank => exact undisturbed_fresh hblank
  | meanwhile before m' hsame ih =>
    rw [hsame]
    exact ih
  | cycle before filed run ih =>
    exact (Model.ensures_failing (ih.ensures_cycle filed _) _ _ run).1

/-- Quiet events leave no trace of a repair in the log. -/
theorem flatMap_log_of_quiet {events : List HookEvent} (h : Hook.Quiet events) (name : String) :
    events.flatMap (·.log name) = [] := by
  rw [List.flatMap_eq_nil_iff]
  intro e he
  have hdrift := h e he
  cases e <;> first | rfl | cases hdrift

theorem repairLog_eq_nil_iff {report : SyncReport} (h : Hook.Quiet report.hookEvents) :
    SyncOutcome.repairLog report = [] ↔ report.apply.drift = [] := by
  rw [SyncOutcome.repairLog, flatMap_log_of_quiet h, List.append_nil, List.flatMap_eq_nil_iff]
  constructor
  · intro hlog
    cases hdrift : report.apply.drift with
    | nil => rfl
    | cons d rest =>
      have hd := hlog d (by rw [hdrift]; exact List.mem_cons_self)
      cases hd
  · rintro hdrift d hd
    rw [hdrift] at hd
    cases hd

/-- Without drift of tables, a report with quiet events leaves the counters of drift alone. -/
theorem drift_recordReport {report : SyncReport} (h : Hook.Quiet report.hookEvents)
    (hdrift : report.apply.drift = []) (metrics : Metrics) :
    (SyncOutcome.recordReport report metrics).drift = metrics.drift := by
  have hwrites : ∀ (m : Metrics) interface operation count,
      (m.recordWrites interface operation count).drift = m.drift := by
    intro m interface operation count
    unfold Metrics.recordWrites
    split <;> rfl
  have hevents : report.hookEvents.filter (·.isDrift) = [] :=
    List.filter_eq_nil_iff.mpr fun e he => by simp [h e he]
  simp only [SyncOutcome.recordReport, hdrift, hevents, List.foldl_nil, Metrics.setGeneration,
    hwrites]

/-- On an interface that nobody else touches, wherever calls fail, no cycle that succeeds reports a
program that others have taken away or put there.  It reports drift of tables exactly if it is a
resync after tables were finished once, and finds one other than it was applied last.  Unless a
cycle was torn since, it finds none.  Without drift of tables, nothing is logged or counted as
repaired. -/
theorem Alone.alarm_iff {m m' : Model} (h : Alone name c m torn) (filed : wanted.WellFiled)
    {now : Timestamp} {report : SyncReport}
    (run : (c.cycle name wanted mode now).Yields (Model.failing name) m (.ok report, c') m') :
    (∀ e ∈ report.hookEvents, e.isDrift = false) ∧
    (report.apply.drift ≠ [] ↔
      c.effectiveMode mode = .resync ∧ c.tables.primed = true ∧
        ∃ f, (m.table name f).getD ∅ ≠ c.tables.lastApplied.get f) ∧
    (torn = false → report.apply.drift = []) ∧
    (SyncOutcome.repairLog report = [] ↔ report.apply.drift = []) ∧
    (report.apply.drift = [] →
      ∀ metrics, (SyncOutcome.recordReport report metrics).drift = metrics.drift) := by
  have hcycle := Model.ensures_failing (h.undisturbed.ensures_cycle filed now) _ _ run
  have hcandid := hcycle.2 report rfl
  refine ⟨hcandid.hook, hcandid.drift_ne_nil_iff, ?_, repairLog_eq_nil_iff hcandid.hook,
    drift_recordReport hcandid.hook⟩
  rintro rfl
  exact hcandid.drift_eq_nil h.undisturbed

/-! ## A false alarm -/

/-- After a first cycle and one that is torn, the failure that tore it is gone, and nothing else
has happened. -/
theorem alone_tornCycle : ∃ torn, Alone "eth0" tornCycle.1.2 tornCycle.2.1 torn := by
  have hstart : Alone "eth0" fresh (Model.fresh ∅ none) false := .start _ rfl
  have hfirst : ∃ torn, Alone "eth0" firstCycle.1.2 firstCycle.2.1 torn :=
    ⟨_, hstart.cycle (DenyList.wellFiled_ofList _) (Model.yields_failing ..)⟩
  obtain ⟨torn, hfirst⟩ := hfirst
  have harmed : Alone "eth0" firstCycle.1.2 (firstCycle.2.1.failWriteAfter 1) torn :=
    hfirst.meanwhile _ rfl
  exact ⟨_, harmed.cycle (DenyList.wellFiled_ofList _) (Model.yields_failing ..)⟩

/-- A resync after the torn cycle, with the same deny list as that one. -/
def alarmedCycle : (Except CycleError SyncReport × Context) × Model × Log.Entries :=
  (tornCycle.1.2.cycle "eth0" (hosts [1]) .resync ⟨2, 0⟩).eval (Model.answer "eth0")
    tornCycle.2.1

/-- The resync finds that a prefix is missing, which the torn cycle has removed. -/
theorem result_alarmedCycle : ∃ report, alarmedCycle.1.1 = .ok report ∧
    report.apply.drift = [.entryMissing .ipv4 (.host (.ofNat .ipv4 2))] := by
  have hok : alarmedCycle.1.1.toOption.map (·.apply.drift) =
      some [.entryMissing .ipv4 (.host (.ofNat .ipv4 2))] := by decide +kernel
  cases hresult : alarmedCycle.1.1 with
  | error e =>
    rw [hresult] at hok
    cases hok
  | ok report =>
    rw [hresult] at hok
    exact ⟨report, rfl, Option.some.inj hok⟩

/-- The resync raises no alarm about the program, and one about a table that is not as it was
applied last. -/
theorem Alone.alarm_iff_tornCycle :
    (hosts [1]).WellFiled ∧ ∃ torn report, Alone "eth0" tornCycle.1.2 tornCycle.2.1 torn ∧
      (tornCycle.1.2.cycle "eth0" (hosts [1]) .resync ⟨2, 0⟩).Yields (Model.failing "eth0")
        tornCycle.2.1 (.ok report, alarmedCycle.1.2) alarmedCycle.2.1 ∧
      (∀ e ∈ report.hookEvents, e.isDrift = false) ∧
      ∃ f, (tornCycle.2.1.table "eth0" f).getD ∅ ≠ tornCycle.1.2.tables.lastApplied.get f := by
  have filed : (hosts [1]).WellFiled := DenyList.wellFiled_ofList _
  obtain ⟨torn, halone⟩ := alone_tornCycle
  obtain ⟨report, hok, hdrift⟩ := result_alarmedCycle
  have hcycle : (tornCycle.1.2.cycle "eth0" (hosts [1]) .resync ⟨2, 0⟩).Yields
      (Model.failing "eth0") tornCycle.2.1 (alarmedCycle.1.1, alarmedCycle.1.2)
      alarmedCycle.2.1 := Model.yields_failing ..
  rw [hok] at hcycle
  obtain ⟨hquiet, htables, -⟩ := Alone.alarm_iff halone filed hcycle
  have hfound := htables.mp (by rw [hdrift]; exact List.cons_ne_nil _ _)
  exact ⟨filed, torn, report, halone, hcycle, hquiet, hfound.2.2⟩

/-- A cycle may report as drift what only another cycle has done. -/
theorem false_alarm :
    ¬∀ (name : String) (c : Context) (m : Model) (torn : Bool), Alone name c m torn →
      ∀ wanted : DenyList, wanted.WellFiled → ∀ (mode : SyncMode) (now : Timestamp)
        (report : SyncReport) (c' : Context) (m' : Model),
        (c.cycle name wanted mode now).Yields (Model.failing name) m (.ok report, c') m' →
        report.apply.drift = [] ∧ ∀ e ∈ report.hookEvents, e.isDrift = false := by
  intro hsilent
  obtain ⟨torn, halone⟩ := alone_tornCycle
  obtain ⟨report, hok, hdrift⟩ := result_alarmedCycle
  have hcycle : (tornCycle.1.2.cycle "eth0" (hosts [1]) .resync ⟨2, 0⟩).Yields
      (Model.failing "eth0") tornCycle.2.1 (alarmedCycle.1.1, alarmedCycle.1.2)
      alarmedCycle.2.1 := Model.yields_failing ..
  rw [hok] at hcycle
  have hnone := (hsilent _ _ _ _ halone _ (DenyList.wellFiled_ofList _) _ _ _ _ _ hcycle).1
  rw [hdrift] at hnone
  cases hnone

end Context

end IngressGuard
