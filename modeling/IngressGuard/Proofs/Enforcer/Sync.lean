import IngressGuard.Proofs.Cycle.Passage
import IngressGuard.Proofs.Enforcer.Convergence
import IngressGuard.Proofs.Enforcer.Session

/-!
# One sync

What a sync does to a session, by what is held for its interface, and what it leaves alone.  A
cycle that is brought down half-way has still only passed through states that cycles pass through,
and one that nobody gives up on and nothing brings down is the run of its procedure against the
kernel (`Session.own_sync`).
-/

namespace IngressGuard

open Kernel (Model Procedure InterfaceState)

/-! ## What cycles remember -/

namespace Context

variable {name : String} {wanted : DenyList} {mode : SyncMode} {c : Context} {m : Model}
  {now : Timestamp}

theorem Stuck.filed {b : Baseline} {t t' : BlockTables} {s s' : InterfaceState} {e : CycleError}
    (h : Stuck wanted b t s e t' s') (filed : wanted.WellFiled) (ht : t.lastApplied.WellFiled) :
    t'.lastApplied.WellFiled := by
  cases h with
  | early => exact ht
  | torn => exact ht
  | late _ happlied => exact happlied.filed filed

/-- Whatever happens to a cycle, what it remembers as applied has every prefix under its own
family. -/
theorem filed_cycle (filed : wanted.WellFiled) (hc : c.tables.lastApplied.WellFiled) :
    ((c.cycle name wanted mode now).eval
      (Model.answer name) m).1.2.tables.lastApplied.WellFiled := by
  have hend := (ensures_cycle_answer c mode filed now (.inl trivial : True ∨ m.Healthy name)).eval
  generalize (c.cycle name wanted mode now).eval (Model.answer name) m = run at hend ⊢
  obtain ⟨⟨result, c'⟩, m', log⟩ := run
  cases result with
  | ok report => exact hend.2.2.1.filed filed
  | error e => exact hend.2.2.2.filed filed hc

/-- A cycle takes away nothing that its deny list asks for. -/
theorem holds_cycle (filed : wanted.WellFiled) (hc : c.tables.lastApplied.WellFiled) {p : Prefix}
    (hp : p ∈ wanted.get p.family) (hheld : (m.interface name).Holds p) :
    (((c.cycle name wanted mode now).eval (Model.answer name) m).2.1.interface name).Holds p := by
  have hany : True ∨ m.Healthy name := .inl trivial
  have hbetween : (c.cycle name wanted mode now).Maintains (InterfaceState.behaviour True)
      (BlockTables.Between ((c.effectiveMode mode).baseline.Sound wanted c.tables
        (m.interface name)) wanted (m.interface name)) (m.interface name) :=
    maintains_cycle filed (.inr hc) now
  have hend := (Model.ensures_answer hany hbetween.ensures).eval
  exact hend.2.spared p hp hheld

/-- On an interface where nothing stands in the way of a cycle, and of which the tables are as
remembered once a cycle has succeeded, every cycle succeeds, does what its deny list asks for, and
remembers the tables as they are. -/
theorem cycle_enforces (mode : SyncMode) (now : Timestamp) (filed : wanted.WellFiled)
    (hhealthy : m.Healthy name) (hable : c.hook.isUnsupported = false)
    (htables : c.reconciled = true → ∀ f, m.table name f = c.tables.lastApplied.table f) :
    let run := (c.cycle name wanted mode now).eval (Model.answer name) m
    let c' := run.1.2
    let m' := run.2.1
    c'.hook.isUnsupported = false ∧ (m'.interface name).Enforces wanted ∧
      ∀ f, m'.table name f = c'.tables.lastApplied.table f := by
  have hend := (ensures_cycle_answer c mode filed now (.inr hhealthy : False ∨ m.Healthy name)).eval
  generalize (c.cycle name wanted mode now).eval (Model.answer name) m = run at hend ⊢
  obtain ⟨⟨result, c'⟩, m', log⟩ := run
  dsimp only
  cases result with
  | error e =>
    rcases hend.2.2.1 with hf | hunsupported
    · exact hf.elim
    · rw [hable] at hunsupported
      cases hunsupported
  | ok report =>
    obtain ⟨-, -, happlied, hbound⟩ := hend
    have hexact : ∀ f, (m'.interface name).tables.get f = wanted.table f := by
      cases hmode : c.effectiveMode mode with
      | resync =>
        rw [hmode] at happlied
        exact happlied.tables_eq
      | event =>
        have hremembered := htables (effectiveMode_eq_event hmode)
        have hfiled : c.tables.lastApplied.WellFiled := by
          intro f p hp
          rw [← DenyList.getD_table, ← hremembered f] at hp
          exact (InterfaceState.mem_getD_iff.mp hp).1
        have hconsistent : Consistent c (m.interface name) false :=
          ⟨hfiled, fun _ _ => hremembered⟩
        exact hconsistent.exact happlied
    refine ⟨hbound.isUnsupported_eq, ⟨hexact, hbound.carriesOurs_iff⟩, fun f => ?_⟩
    rw [happlied.remembered]
    exact hexact f

end Context

/-! ## Runs on a host -/

namespace Kernel.Model

variable {σ α : Type} {name : String} {m m' : Model} {p : Procedure σ α}

theorem agreesBesides_of_passes (h : p.Passes (.ofAnswer (Model.answer name)) m m') :
    AgreesBesides name m m' := by
  induction h with
  | here p k => exact .refl name k
  | @call c s resume k k' k'' b step rest ih =>
    have hanswer := agreesBesides_answer name k c
    rw [show k.answer name c = (b, k') from step] at hanswer
    exact hanswer.trans ih
  | note rest ih => exact ih

end Kernel.Model

namespace Host

variable {σ α : Type}

theorem passes_run (name : String) (p : Procedure σ α) (h : Host) :
    p.Passes (.ofAnswer (Model.answer name)) h.kernel
      (p.run (Host.answer name) h).2.1.kernel := by
  induction p generalizing h with
  | done a => exact .here _ _
  | call c s resume ih =>
    simp only [Procedure.run]
    split
    case h_1 a h' hanswer => exact .call (answer_eq_some hanswer) (ih a h')
    case h_2 h' hanswer =>
      rw [answer_eq_none hanswer]
      exact .here _ _
  | note entry next ih => exact .note (ih h)

theorem crashing_run (name : String) (p : Procedure σ α) {h : Host} (hcrashing : h.crashing = ∅) :
    (p.run (Host.answer name) h).2.1.crashing = ∅ := by
  induction p generalizing h with
  | done a => exact hcrashing
  | call c s resume ih =>
    have hanswer : Host.answer name c h =
        (some (h.kernel.answer name c).1, { h with kernel := (h.kernel.answer name c).2 }) := by
      simp [Host.answer, hcrashing]
    simp only [Procedure.run, hanswer]
    exact ih _ hcrashing
  | note entry next ih => exact ih hcrashing

/-- A run that nothing brings down is the run against the kernel. -/
theorem run_eq_eval (name : String) (p : Procedure σ α) {h : Host} (hcrashing : h.crashing = ∅) :
    (p.run (Host.answer name) h).1 = .completed (p.eval (Model.answer name) h.kernel).1 ∧
      (p.run (Host.answer name) h).2.1.kernel = (p.eval (Model.answer name) h.kernel).2.1 := by
  induction p generalizing h with
  | done a => exact ⟨rfl, rfl⟩
  | call c s resume ih =>
    have hanswer : Host.answer name c h =
        (some (h.kernel.answer name c).1, { h with kernel := (h.kernel.answer name c).2 }) := by
      simp [Host.answer, hcrashing]
    simp only [Procedure.run, Procedure.eval, hanswer]
    exact ih (h.kernel.answer name c).1 (h := { h with kernel := (h.kernel.answer name c).2 })
      hcrashing
  | note entry next ih => exact ih hcrashing

theorem crashing_handOff (handoff : Handoff) (h : Host) :
    (h.handOff handoff).2.crashing = h.crashing := by
  unfold handOff
  split
  · rfl
  · split <;> rfl

theorem crashing_managed (h : Host) : h.managed.2.crashing = h.crashing := by
  unfold managed
  dsimp only
  split <;> rfl

end Host

/-! ## One sync -/

namespace Enforcer

variable {e : Enforcer} {h : Host} {name : String} {mode : SyncMode} {now : Timestamp}

theorem outcome_syncInterface (e : Enforcer) (h : Host) (name : String) (mode : SyncMode)
    (now : Timestamp) (stalls : Bool) :
    (e.syncInterface name mode now stalls h).1.interface = name ∧
      (e.syncInterface name mode now stalls h).1.wanted = (e.policy.denyList name).toOption := by
  unfold syncInterface
  split
  case h_1 cause hdeny =>
    rw [hdeny]
    unfold refuse
    dsimp only
    split <;> exact ⟨rfl, rfl⟩
  case h_2 wanted hdeny =>
    rw [hdeny]
    split
    case h_1 => exact ⟨rfl, rfl⟩
    case h_2 before _ =>
      dsimp only
      split
      · exact ⟨rfl, rfl⟩
      · generalize (before.cycle name wanted mode now).run (Host.answer name) h = r
        obtain ⟨ending, h', log⟩ := r
        cases ending with
        | completed r => exact ⟨rfl, rfl⟩
        | aborted after => exact ⟨rfl, rfl⟩

theorem agreesBesides_syncInterface (stalls : Bool) :
    AgreesBesides name e (e.syncInterface name mode now stalls h).2.1 ∧
      Model.AgreesBesides name h.kernel (e.syncInterface name mode now stalls h).2.2.1.kernel := by
  unfold syncInterface
  split
  case h_1 cause _ => exact ⟨agreesBesides_refuse mode cause now, .refl name _⟩
  case h_2 wanted _ =>
    split
    case h_1 => exact ⟨.refl name e, .refl name _⟩
    case h_2 before _ =>
      dsimp only
      split
      · exact ⟨agreesBesides_abandon mode wanted _, .refl name _⟩
      · exact ⟨agreesBesides_settle mode wanted before _,
          Model.agreesBesides_of_passes (Host.passes_run name _ h)⟩

theorem crashing_syncInterface (stalls : Bool) (hcrashing : h.crashing = ∅) :
    (e.syncInterface name mode now stalls h).2.2.1.crashing = ∅ := by
  unfold syncInterface
  split
  case h_1 => exact hcrashing
  case h_2 =>
    split
    case h_1 => exact hcrashing
    case h_2 =>
      dsimp only
      split
      · exact hcrashing
      · exact Host.crashing_run name _ hcrashing

/-- What a sync that nobody gives up on does to its own interface. -/
theorem syncInterface_spec (hcrashing : h.crashing = ∅) :
    let e' := (e.syncInterface name mode now false h).2.1
    let m' := (e.syncInterface name mode now false h).2.2.1.kernel
    match e.slot name with
    | .running rest => e'.slot name = .running rest ∧ m' = h.kernel
    | .idle c =>
      match e.policy.denyList name with
      | .error cause =>
        e'.slot name =
          .idle ((c.beginAttempt now).failAttempt (SyncError.translate cause).message) ∧
        m' = h.kernel
      | .ok wanted =>
        let run := (c.cycle name wanted mode now).eval (Model.answer name) h.kernel
        e'.slot name = .idle run.1.2 ∧ m' = run.2.1 := by
  dsimp only
  unfold syncInterface
  cases hslot : e.slot name with
  | running rest =>
    cases e.policy.denyList name with
    | error cause =>
      dsimp only
      unfold refuse
      rw [hslot]
      exact ⟨hslot, rfl⟩
    | ok wanted =>
      dsimp only
      exact ⟨hslot, rfl⟩
  | idle c =>
    cases e.policy.denyList name with
    | error cause =>
      dsimp only
      unfold refuse
      rw [hslot]
      exact ⟨slot_putSlot_same, rfl⟩
    | ok wanted =>
      simp only [Bool.false_and, Bool.false_eq_true, if_false]
      obtain ⟨hending, hkernel⟩ := Host.run_eq_eval name (c.cycle name wanted mode now) hcrashing
      rw [hending]
      exact ⟨slot_putSlot_same, hkernel⟩

end Enforcer

namespace Session

variable {s : Session} {name : String} {mode : SyncMode}

theorem handOff_spec (s : Session) (o : SyncOutcome) :
    (handOff o s).2.enforcer = s.enforcer ∧ (handOff o s).2.host.kernel = s.host.kernel ∧
      (handOff o s).2.host.crashing = s.host.crashing := by
  unfold handOff
  cases o.handoff? with
  | none => exact ⟨rfl, rfl, rfl⟩
  | some handoff =>
    have hkernel := Host.kernel_handOff handoff (h := s.host)
    have hcrashing := Host.crashing_handOff handoff s.host
    simp only [bind, StateT.bind, get, getThe, MonadStateOf.get, StateT.get, pure]
    generalize s.host.handOff handoff = r at hkernel hcrashing
    obtain ⟨kept, host⟩ := r
    cases kept <;> exact ⟨rfl, hkernel, hcrashing⟩

/-- Apart from logs and metrics, a sync is one of the enforcer. -/
theorem sync_spec (s : Session) (name : String) (mode : SyncMode) (stalls : Bool) :
    let r := s.enforcer.syncInterface name mode s.now stalls s.host
    let t := sync name mode stalls s
    (t.2.enforcer = r.2.1 ∧ t.2.host.kernel = r.2.2.1.kernel ∧
      t.2.host.crashing = r.2.2.1.crashing) ∧ ∀ o, t.1 = some o → o = r.1 := by
  unfold sync
  dsimp only [bind, StateT.bind, get, getThe, MonadStateOf.get, StateT.get, modify, modifyGet,
    MonadStateOf.modifyGet, StateT.modifyGet, tell, pure, StateT.pure]
  generalize s.enforcer.syncInterface name mode s.now stalls s.host = r
  obtain ⟨o, e, host, log⟩ := r
  dsimp only
  have hspec := handOff_spec
    { s with
      enforcer := e
      host
      metrics := if s.measures then o.record elapsed s.metrics else s.metrics
      journal := log.reverse ++ ((s.enforcer.policy.denyListLog name).reverse ++ s.journal) } o
  generalize handOff o _ = r at hspec ⊢
  obtain ⟨lives, s'⟩ := r
  cases lives with
  | false => exact ⟨hspec, fun o' ho => by cases ho⟩
  | true => exact ⟨hspec, fun o' ho => by cases ho; rfl⟩

theorem agreesBesides_sync (s : Session) (name : String) (mode : SyncMode) :
    Enforcer.AgreesBesides name s.enforcer (sync name mode false s).2.enforcer ∧
      Model.AgreesBesides name s.host.kernel (sync name mode false s).2.host.kernel := by
  obtain ⟨⟨henforcer, hkernel, -⟩, -⟩ := sync_spec s name mode false
  rw [henforcer, hkernel]
  exact Enforcer.agreesBesides_syncInterface false

theorem crashing_sync (hcrashing : s.host.crashing = ∅) :
    (sync name mode false s).2.host.crashing = ∅ := by
  obtain ⟨⟨-, -, hhost⟩, -⟩ := sync_spec s name mode false
  rw [hhost]
  exact Enforcer.crashing_syncInterface false hcrashing

/-- What a sync does to its own interface. -/
theorem own_sync (hcrashing : s.host.crashing = ∅) (name : String) (mode : SyncMode) :
    let s' := (sync name mode false s).2
    match s.enforcer.slot name with
    | .running rest => s'.enforcer.slot name = .running rest ∧ s'.host.kernel = s.host.kernel
    | .idle c =>
      match s.enforcer.policy.denyList name with
      | .error cause =>
        s'.enforcer.slot name =
          .idle ((c.beginAttempt s.now).failAttempt (SyncError.translate cause).message) ∧
        s'.host.kernel = s.host.kernel
      | .ok wanted =>
        let run := (c.cycle name wanted mode s.now).eval (Model.answer name) s.host.kernel
        s'.enforcer.slot name = .idle run.1.2 ∧ s'.host.kernel = run.2.1 := by
  obtain ⟨⟨henforcer, hkernel, -⟩, -⟩ := sync_spec s name mode false
  dsimp only
  rw [henforcer, hkernel]
  exact Enforcer.syncInterface_spec hcrashing

end Session

end IngressGuard
