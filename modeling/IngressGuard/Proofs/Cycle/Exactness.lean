import IngressGuard.Proofs.Cycle
import IngressGuard.Proofs.Kernel.Model

/-!
# When a successful cycle is exact

A run is a sequence of cycles on one interface, from nothing being remembered on, against a kernel
that only these cycles change and that may fail any call.  A cycle that fails while it writes
tables is forgotten, although its first writes are in the kernel.  From then on what was applied
last may be wrong, until a cycle that reads the kernel succeeds.

`Run.exact_iff` says which successful cycles leave the tables that enforce their deny list: those
that read the kernel, and those for which what was applied last is right where it matters.  Unless
a cycle was torn, it is always right.  `not_every_success_blocks` shows a run with a gap.
-/

namespace IngressGuard

namespace Kernel

namespace Model

/-- The modelled kernel, where failures may be armed and disarmed before every call. -/
def failing (name : String) : Behaviour Model := fun c m a m' =>
  ∃ faults, ({ m with faults } : Model).answer name c = (a, m')

theorem behaves_of_failing {name : String} {c : Call} {m m' : Model} {a : c.Answer}
    (h : failing name c m a m') :
    InterfaceState.behaviour True c (m.interface name) a (m'.interface name) := by
  obtain ⟨faults, hstep⟩ := h
  have hany : True ∨ ({ m with faults } : Model).Healthy name := .inl trivial
  have hbehaves := answer_behaves hany c
  rwa [hstep] at hbehaves

theorem failsafe_of_failing {name : String} {c : Call} {m m' : Model} {a : c.Answer}
    (h : failing name c m a m') : m'.failsafe = m.failsafe := by
  obtain ⟨faults, hstep⟩ := h
  have hagrees := agreesBesides_answer name { m with faults } c
  rw [hstep] at hagrees
  exact hagrees.failsafe

/-- What holds of all runs of a procedure on one interface holds of its runs against a kernel that
may fail any call. -/
theorem ensures_failing {σ α : Type} {name : String} {p : Procedure σ α}
    {Q : α → InterfaceState → Prop} {m : Model}
    (hp : p.Ensures (InterfaceState.behaviour True) Q (m.interface name)) :
    p.Ensures (failing name) (fun a m' => Q a (m'.interface name)) m := by
  have hruns : p.Ensures (failing name) (fun a m' => True ∧ Q a (m'.interface name)) m :=
    Procedure.Ensures.simulate (fun _ _ _ _ _ step => ⟨trivial, behaves_of_failing step⟩) trivial hp
  exact hruns.mono fun _ _ h => h.2

theorem yields_failing {σ α : Type} (name : String) (p : Procedure σ α) (m : Model) :
    p.Yields (failing name) m (p.eval (Model.answer name) m).1
      (p.eval (Model.answer name) m).2.1 := by
  refine (Procedure.yields_eval (Model.answer name) p m).mono fun c k b k' hstep => ?_
  exact ⟨k.faults, hstep⟩

end Model

end Kernel

open Kernel (Model InterfaceState)

namespace BlockTables

/-- If the tables enforce what was applied last, it can be trusted for every new deny list. -/
theorem trustworthy_of_tables_eq {applied wanted : DenyList} {s : InterfaceState}
    (filed : applied.WellFiled) (h : ∀ f, s.tables.get f = applied.table f) (f : Family) :
    Trustworthy applied wanted s f := by
  obtain ⟨hholds, htable⟩ := (InterfaceState.tables_eq_table_iff filed).mp h
  unfold Trustworthy
  split
  case isTrue => exact (htable f).mp
  case isFalse =>
    rintro p rfl
    exact ⟨fun _ => (hholds p).mpr, fun hp _ => (hholds p).mp hp⟩

end BlockTables

namespace Context

/-- Whether tables may be other than remembered after a cycle: a failure while they are written
makes it so, and success after reading the kernel puts an end to it. -/
def tornAfter (torn : Bool) (mode : SyncMode) : Except CycleError SyncReport → Bool
  | .ok _ => torn && mode == .event
  | .error (.applyFailed ..) => true
  | .error _ => torn

/-- The runs of cycles on an interface: what is remembered and the kernel after the latest cycle,
and whether tables may be other than remembered. -/
inductive Run (name : String) : Context → Model → Bool → Prop
  | start (m : Model) : Run name fresh m false
  /-- Failures are armed or disarmed. -/
  | arm {c m torn} (before : Run name c m torn) (faults : Kernel.Faults) :
      Run name c { m with faults } torn
  | cycle {c m torn} (before : Run name c m torn) {wanted : DenyList} (filed : wanted.WellFiled)
      {mode : SyncMode} {now : Timestamp} {result c' m'}
      (run : (c.cycle name wanted mode now).Yields (Model.failing name) m (result, c') m') :
      Run name c' m' (tornAfter torn (c.effectiveMode mode) result)

/-- What runs keep: every remembered prefix is under its own family, and after the first success
the tables are as remembered unless a cycle was torn. -/
structure Consistent (c : Context) (s : InterfaceState) (torn : Bool) : Prop where
  filed : c.tables.lastApplied.WellFiled
  tables : c.reconciled = true → torn = false →
    ∀ f, s.tables.get f = c.tables.lastApplied.table f

variable {name : String} {wanted : DenyList} {mode : SyncMode} {c c' : Context}
  {s s' : InterfaceState} {torn : Bool}

theorem effectiveMode_eq_event (h : c.effectiveMode mode = .event) : c.reconciled = true := by
  unfold effectiveMode at h
  split at h
  case isTrue hreconciled => exact hreconciled
  case isFalse => cases h

theorem Applied.filed {b : Baseline} {t t' : BlockTables} (h : Applied wanted b t s t' s')
    (filed : wanted.WellFiled) : t'.lastApplied.WellFiled := by
  rw [h.remembered]
  exact filed

/-- Where tables are as remembered, writing them brings them to the deny list. -/
theorem Consistent.exact {t' : BlockTables} (h : Consistent c s false)
    (happlied : Applied wanted (c.effectiveMode mode).baseline c.tables s t' s') (f : Family) :
    s'.tables.get f = wanted.table f := by
  refine (happlied.tables_iff (.inr h.filed)).mpr ?_ f
  cases hmode : c.effectiveMode mode with
  | resync => exact .inl rfl
  | event =>
    have htables := h.tables (effectiveMode_eq_event hmode) rfl
    exact .inr (BlockTables.trustworthy_of_tables_eq h.filed htables)

/-- A cycle that succeeds keeps what is remembered consistent. -/
theorem Consistent.succeed (h : Consistent c s torn) (filed : wanted.WellFiled)
    (report : SyncReport)
    (happlied : Applied wanted (c.effectiveMode mode).baseline c.tables s c'.tables s') :
    Consistent c' s' (tornAfter torn (c.effectiveMode mode) (.ok report)) := by
  refine ⟨happlied.filed filed, fun _ htorn f => ?_⟩
  rw [happlied.remembered]
  cases torn with
  | false => exact h.exact happlied f
  | true =>
    have hmode : c.effectiveMode mode = .resync := by
      cases hmode : c.effectiveMode mode with
      | resync => rfl
      | event =>
        rw [hmode] at htorn
        cases htorn
    rw [hmode] at happlied
    exact happlied.tables_eq f

/-- A cycle that fails keeps what is remembered consistent. -/
theorem Consistent.fail (h : Consistent c s torn) (filed : wanted.WellFiled) {e : CycleError}
    (hreconciled : c'.reconciled = c.reconciled)
    (hstuck : Stuck wanted (c.effectiveMode mode).baseline c.tables s e c'.tables s') :
    Consistent c' s' (tornAfter torn (c.effectiveMode mode) (.error e)) := by
  have hquiet : (∀ i f stage k, e ≠ .applyFailed i f stage k) →
      tornAfter torn (c.effectiveMode mode) (.error e) = torn := by
    intro herror
    cases e with
    | applyFailed i f stage k => exact absurd rfl (herror i f stage k)
    | _ => rfl
  generalize htables : c'.tables = t' at hstuck
  cases hstuck with
  | early herror hkept =>
    refine ⟨by rw [htables]; exact h.filed, fun hr htorn => ?_⟩
    rw [hquiet herror] at htorn
    rw [htables, hkept]
    exact h.tables (hreconciled ▸ hr) htorn
  -- Nothing is claimed of the tables any more.
  | torn => exact ⟨by rw [htables]; exact h.filed, fun _ htorn => by cases htorn⟩
  | late herror happlied =>
    refine ⟨by rw [htables]; exact happlied.filed filed, fun _ htorn => ?_⟩
    rw [hquiet herror] at htorn
    subst htorn
    rw [htables, happlied.remembered]
    exact h.exact happlied

theorem Run.consistent {m : Model} (h : Run name c m torn) :
    Consistent c (m.interface name) torn := by
  induction h with
  | start m => exact ⟨DenyList.wellFiled_empty, nofun⟩
  | arm before faults ih => exact ih
  | @cycle c m torn before wanted filed mode now result c' m' run ih =>
    have hend := Model.ensures_failing (ensures_cycle filed now) _ _ run
    cases result with
    | ok report => exact ih.succeed filed report hend.2.1
    | error e => exact ih.fail filed hend.1 hend.2.2

/-- In every run, a cycle that succeeds leaves the tables that enforce its deny list exactly if it
has read the kernel or what was applied last is right where it matters.  Unless a cycle was torn
after the latest success that read the kernel, this is so. -/
theorem Run.exact_iff {m m' : Model} (hrun : Run name c m torn) (filed : wanted.WellFiled)
    {now : Timestamp} {report : SyncReport}
    (hcycle : (c.cycle name wanted mode now).Yields (Model.failing name) m (.ok report, c') m') :
    ((∀ f, m'.table name f = wanted.table f) ↔
      c.effectiveMode mode = .resync ∨
        ∀ f, BlockTables.Trustworthy c.tables.lastApplied wanted (m.interface name) f) ∧
    (torn = false → ∀ f, m'.table name f = wanted.table f) := by
  obtain ⟨-, happlied, -⟩ := Model.ensures_failing (ensures_cycle filed now) _ _ hcycle
  have hconsistent := hrun.consistent
  refine ⟨?_, ?_⟩
  · have hmode : (c.effectiveMode mode).baseline = .kernel ↔ c.effectiveMode mode = .resync := by
      cases c.effectiveMode mode <;> decide
    rw [← hmode]
    exact happlied.tables_iff (.inr hconsistent.filed)
  · rintro rfl
    exact hconsistent.exact happlied

/-! ## A gap -/

/-- A deny list of single addresses. -/
def hosts (addresses : List Nat) : DenyList :=
  .ofList (addresses.map fun n => .host (.ofNat .ipv4 n))

/-- A first cycle blocks three addresses. -/
def firstCycle : (Except CycleError SyncReport × Context) × Model × Log.Entries :=
  (fresh.cycle "eth0" (hosts [1, 2, 3]) .event ⟨0, 0⟩).eval (Model.answer "eth0")
    (Model.fresh ∅ none)

/-- A second one is to block only one of them, but the second of its two removals fails. -/
def tornCycle : (Except CycleError SyncReport × Context) × Model × Log.Entries :=
  (firstCycle.1.2.cycle "eth0" (hosts [1]) .event ⟨1, 0⟩).eval (Model.answer "eth0")
    (firstCycle.2.1.failWriteAfter 1)

/-- A third one is to block all three again, and finds nothing to do. -/
def lastCycle : (Except CycleError SyncReport × Context) × Model × Log.Entries :=
  (tornCycle.1.2.cycle "eth0" (hosts [1, 2, 3]) .event ⟨2, 0⟩).eval (Model.answer "eth0")
    tornCycle.2.1

theorem run_firstCycle : ∃ torn, Run "eth0" firstCycle.1.2 firstCycle.2.1 torn :=
  ⟨_, .cycle (.start _) (DenyList.wellFiled_ofList _) (Model.yields_failing ..)⟩

theorem run_tornCycle : ∃ torn, Run "eth0" tornCycle.1.2 tornCycle.2.1 torn := by
  obtain ⟨torn, hrun⟩ := run_firstCycle
  have harmed : Run "eth0" firstCycle.1.2 (firstCycle.2.1.failWriteAfter 1) torn := .arm hrun _
  exact ⟨_, .cycle harmed (DenyList.wellFiled_ofList _) (Model.yields_failing ..)⟩

/-- A cycle that succeeds against the modelled kernel is one of the runs. -/
theorem exists_yields_of_isOk {m : Model} {now : Timestamp}
    (hok : ((c.cycle name wanted mode now).eval (Model.answer name) m).1.1.isOk = true) :
    ∃ report, (c.cycle name wanted mode now).Yields (Model.failing name) m
      (.ok report, ((c.cycle name wanted mode now).eval (Model.answer name) m).1.2)
      ((c.cycle name wanted mode now).eval (Model.answer name) m).2.1 := by
  have hyields := Model.yields_failing name (c.cycle name wanted mode now) m
  generalize (c.cycle name wanted mode now).eval (Model.answer name) m = r at hok hyields ⊢
  obtain ⟨⟨result, c'⟩, m', log⟩ := r
  cases result with
  | error e => cases hok
  | ok report => exact ⟨report, hyields⟩

theorem exists_yields_lastCycle :
    ∃ report, (tornCycle.1.2.cycle "eth0" (hosts [1, 2, 3]) .event ⟨2, 0⟩).Yields
      (Model.failing "eth0") tornCycle.2.1 (.ok report, lastCycle.1.2) lastCycle.2.1 :=
  exists_yields_of_isOk (by decide +kernel)

theorem not_mem_table_lastCycle :
    Prefix.host (.ofNat .ipv4 2) ∉ (lastCycle.2.1.table "eth0" .ipv4).getD ∅ := by
  decide +kernel

/-- Of the three cycles, the first one leaves the tables as they should be.  The last one does not:
what it takes to be in the tables was applied before the second one was torn. -/
theorem Run.exact_iff_tornCycle :
    (Run "eth0" fresh (Model.fresh ∅ none) false ∧ (hosts [1, 2, 3]).WellFiled ∧
        ∀ f, firstCycle.2.1.table "eth0" f = (hosts [1, 2, 3]).table f) ∧
      (∃ torn, Run "eth0" tornCycle.1.2 tornCycle.2.1 torn) ∧ lastCycle.1.1.isOk = true ∧
      tornCycle.1.2.effectiveMode .event = .event ∧
      ¬∀ f, BlockTables.Trustworthy tornCycle.1.2.tables.lastApplied (hosts [1, 2, 3])
        (tornCycle.2.1.interface "eth0") f := by
  have filed : (hosts [1, 2, 3]).WellFiled := DenyList.wellFiled_ofList _
  refine ⟨⟨.start _, filed, ?_⟩, run_tornCycle, by decide +kernel, by decide +kernel, ?_⟩
  · obtain ⟨report, hcycle⟩ : ∃ report, (fresh.cycle "eth0" (hosts [1, 2, 3]) .event ⟨0, 0⟩).Yields
        (Model.failing "eth0") (Model.fresh ∅ none) (.ok report, firstCycle.1.2) firstCycle.2.1 :=
      exists_yields_of_isOk (by decide +kernel)
    exact (Run.exact_iff (.start _) filed hcycle).2 rfl
  · intro htrustworthy
    obtain ⟨torn, hrun⟩ := run_tornCycle
    obtain ⟨report, hcycle⟩ := exists_yields_lastCycle
    have hexact := (Run.exact_iff hrun filed hcycle).1.mpr (.inr htrustworthy)
    have hwanted : Prefix.host (.ofNat .ipv4 2) ∈ ((hosts [1, 2, 3]).table .ipv4).getD ∅ := by
      decide +kernel
    refine not_mem_table_lastCycle ?_
    rwa [hexact .ipv4]

/-- A cycle that succeeds may leave a prefix of its deny list unblocked. -/
theorem not_every_success_blocks :
    ¬∀ (name : String) (c : Context) (m : Model) (torn : Bool), Run name c m torn →
      ∀ wanted : DenyList, wanted.WellFiled → ∀ (mode : SyncMode) (now : Timestamp)
        (report : SyncReport) (c' : Context) (m' : Model),
        (c.cycle name wanted mode now).Yields (Model.failing name) m (.ok report, c') m' →
        ∀ f, ∀ p ∈ wanted.get f, p ∈ (m'.table name f).getD ∅ := by
  intro hblocks
  obtain ⟨torn, hrun⟩ := run_tornCycle
  obtain ⟨report, hcycle⟩ := exists_yields_lastCycle
  have filed : (hosts [1, 2, 3]).WellFiled := DenyList.wellFiled_ofList _
  have hwanted : Prefix.host (.ofNat .ipv4 2) ∈ (hosts [1, 2, 3]).get .ipv4 := by decide +kernel
  exact not_mem_table_lastCycle
    (hblocks _ _ _ _ hrun _ filed _ _ report _ _ hcycle .ipv4 _ hwanted)

end Context

end IngressGuard
