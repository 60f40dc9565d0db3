import Mathlib.Data.List.Forall2
import IngressGuard.Proofs.Cycle.Order
import IngressGuard.Proofs.Kernel.Twin

/-!
# Twin cycles

Two cycles on alike interfaces with the same deny list, from what was remembered alike, end alike:
with the same error, or with reports that differ in ids of programs only; and they leave what is
remembered and the interfaces alike (`Context.twin_cycle`).

The two take the same branches, with one exception that shows in the log only: the program that one
of them adopts may be the one it remembers, where the other one finds a program of another id.
-/

namespace IngressGuard

open Kernel (Work Circumstances InterfaceState)
open Kernel.InterfaceState (calm)

/-! ## Hooks -/

/-- Two events differ in ids of programs only. -/
inductive HookEvent.Alike : HookEvent → HookEvent → Prop
  | attached {p q : Program} (h : p.Alike q) : Alike (.attached p) (.attached q)
  | adopted {p q : Program} (h : p.Alike q) : Alike (.adopted p) (.adopted q)
  | reattached {before before' : Option Program} {p q : Program}
      (hbefore : Option.Rel Program.Alike before before') (h : p.Alike q) :
      Alike (.reattached before p) (.reattached before' q)
  | foreignReplaced {foreign foreign' p q : Program} (hforeign : foreign.Alike foreign')
      (h : p.Alike q) : Alike (.foreignReplaced foreign p) (.foreignReplaced foreign' q)
  | detached {p q : Program} (h : p.Alike q) : Alike (.detached p) (.detached q)
  | unsupported (reason : String) : Alike (.unsupported reason) (.unsupported reason)

namespace Hook

/-- The same is remembered, up to ids of programs. -/
structure Alike (h h' : Hook) : Prop where
  state : h.state = h'.state
  program : Option.Rel Program.Alike h.program h'.program
  probed : h.probed = h'.probed
  reason : h.unsupportedReason = h'.unsupportedReason

variable {name : String} {z : Circumstances} {h h' : Hook} {s s' : InterfaceState}

theorem Alike.isUnsupported_eq (hh : h.Alike h') : h.isUnsupported = h'.isUnsupported := by
  unfold isUnsupported
  rw [hh.state]

/-- Two works on hooks end alike, the results being related as required. -/
def Twin {α : Type} (name : String) (z : Circumstances) (R : α → α → Prop) (w w' : HookWork α)
    (h : Hook) (s : InterfaceState) (h' : Hook) (s' : InterfaceState) : Prop :=
  Work.Twin (calm name z) w w' (fun a h s a' h' s' => R a a' ∧ h.Alike h' ∧ s.Alike s')
    (fun h s h' s' => h.Alike h' ∧ s.Alike s') h s h' s'

theorem twin_probe (hh : h.Alike h') (hs : s.Alike s') :
    Twin name z (fun _ _ => True) (probe name) (probe name) h s h' s' := by
  refine Work.twin_bind (Work.twin_get ?_)
  dsimp only
  rw [hh.isUnsupported_eq, hh.probed]
  split
  · exact Work.twin_pure ⟨trivial, hh, hs⟩
  · refine InterfaceState.twin_probe ⟨hh, hs⟩ ?_
    cases z.support with
    | supported =>
      refine Work.twin_bind (Work.twin_modify (Work.twin_pure ⟨trivial, ?_, hs⟩))
      exact ⟨hh.state, hh.program, rfl, hh.reason⟩
    | unsupported reason =>
      refine Work.twin_note_left (Work.twin_note_right ?_)
      refine Work.twin_bind (Work.twin_modify (Work.twin_pure ⟨trivial, ?_, hs⟩))
      exact ⟨rfl, .none, hh.probed, rfl⟩

theorem twin_requireSupport (hh : h.Alike h') (hs : s.Alike s') :
    Twin name z (fun _ _ => True) (requireSupport name) (requireSupport name) h s h' s' := by
  refine Work.twin_bind (Work.twin_get ?_)
  dsimp only
  rw [hh.isUnsupported_eq]
  split
  · refine Work.twin_fail ?_ ⟨hh, hs⟩
    unfold unsupportedError
    rw [hh.reason]
  · exact Work.twin_pure ⟨trivial, hh, hs⟩

theorem twin_ensureSupported (hh : h.Alike h') (hs : s.Alike s') :
    Twin name z (fun _ _ => True) (ensureSupported name) (ensureSupported name) h s h' s' := by
  refine Work.twin_bind ((twin_probe hh hs).mono ?_ fun _ _ _ _ h => h)
  rintro _ h₁ s₁ _ h₁' s₁' ⟨-, hh₁, hs₁⟩
  exact twin_requireSupport hh₁ hs₁

/-- At the end of a step the hooks are changed alike, and it is told what happened. -/
theorem twin_conclude {f f' : Hook → Hook} {events events' : List HookEvent}
    (hevents : List.Forall₂ HookEvent.Alike events events') (hf : (f h).Alike (f' h'))
    (hs : s.Alike s') :
    Twin name z (List.Forall₂ HookEvent.Alike)
      (do
        Work.modify f
        return events)
      (do
        Work.modify f'
        return events') h s h' s' :=
  Work.twin_bind (Work.twin_modify (Work.twin_pure ⟨hevents, hf, hs⟩))

/-! ## Attaching -/

/-- A program that is adopted may be the one that is known on one side, and have another id on the
other one. -/
theorem twin_adopt {p p' : Program} (hp : p.Alike p') (hh : h.Alike h') (hs : s.Alike s') :
    Twin name z (List.Forall₂ HookEvent.Alike) (adopt name p) (adopt name p') h s h' s' := by
  have hafter : ({ h with program := some p, state := .attached } : Hook).Alike
      { h' with program := some p', state := .attached } :=
    ⟨rfl, .some hp, hh.probed, hh.reason⟩
  refine Work.twin_bind (Work.twin_get ?_)
  have hprogram := hh.program
  generalize h.program = known, h'.program = known' at hprogram ⊢
  cases hprogram with
  | none =>
    refine Work.twin_note_left (Work.twin_note_right ?_)
    exact twin_conclude (.cons (.adopted hp) .nil) hafter hs
  | @some known known' hknown =>
    dsimp only
    have hrest : Twin name z (List.Forall₂ HookEvent.Alike)
        (do
          Work.modify fun h => { h with program := some p, state := .attached }
          return [])
        (do
          Work.modify fun h => { h with program := some p', state := .attached }
          return []) h s h' s' :=
      twin_conclude .nil hafter hs
    split <;> split
    case isTrue.isTrue => exact Work.twin_note_left (Work.twin_note_right hrest)
    case isTrue.isFalse => exact Work.twin_note_left hrest
    case isFalse.isTrue => exact Work.twin_note_right hrest
    case isFalse.isFalse => exact hrest

/-- Where no program is attached, ours gets attached, and it is told what that means. -/
theorem twin_attachCurrent {event event' : Program → HookEvent}
    (hevent : ∀ p p', p.Alike p' → (event p).Alike (event' p')) (hnone : s.program = none)
    (hnone' : s'.program = none) (hh : h.Alike h') (hs : s.Alike s') :
    Twin name z (List.Forall₂ HookEvent.Alike)
      (do
        let current : Program ← Work.call .attach (.attachFailed name)
        tell .info "Program attached" name [idField current]
        Work.modify fun h => { h with program := some current, state := .attached }
        return [event current])
      (do
        let current : Program ← Work.call .attach (.attachFailed name)
        tell .info "Program attached" name [idField current]
        Work.modify fun h => { h with program := some current, state := .attached }
        return [event' current]) h s h' s' := by
  refine InterfaceState.twin_attach hnone hnone' ⟨hh, hs⟩ fun p p' hp hp' => ?_
  have halike : p.Alike p' := Program.alike_of_isOurs hp hp'
  refine Work.twin_note_left (Work.twin_note_right ?_)
  exact twin_conclude (.cons (hevent p p' halike) .nil) ⟨rfl, .some halike, hh.probed, hh.reason⟩
    (hs.withProgram (.some halike))

theorem twin_attach {foreign foreign' : Option Program}
    (hforeign : Option.Rel Program.Alike foreign foreign') (hnone : s.program = none)
    (hnone' : s'.program = none) (hh : h.Alike h') (hs : s.Alike s') :
    Twin name z (List.Forall₂ HookEvent.Alike) (attach name foreign) (attach name foreign')
      h s h' s' := by
  have hforget : ∀ state,
      Alike { h with program := none, state } { h' with program := none, state } :=
    fun _ => ⟨rfl, .none, hh.probed, hh.reason⟩
  refine Work.twin_bind (Work.twin_get ?_)
  dsimp only
  rw [hh.state]
  cases hforeign with
  | some hforeign =>
    refine Work.twin_bind (Work.twin_modify ?_)
    exact twin_attachCurrent (fun _ _ => .foreignReplaced hforeign) hnone hnone' (hforget _) hs
  | none =>
    split
    · refine Work.twin_note_left (Work.twin_note_right (Work.twin_bind (Work.twin_modify ?_)))
      exact twin_attachCurrent (fun _ _ => .reattached hh.program) hnone hnone' (hforget _) hs
    · refine Work.twin_bind (Work.twin_modify ?_)
      exact twin_attachCurrent (fun _ _ => .attached) hnone hnone' (hforget _) hs

/-- Our program gets attached on both sides. -/
theorem twin_ensureAttached (hh : h.Alike h') (hs : s.Alike s') :
    Twin name z (List.Forall₂ HookEvent.Alike) (ensureAttached name) (ensureAttached name)
      h s h' s' := by
  refine Work.twin_bind ((twin_ensureSupported hh hs).mono ?_ fun _ _ _ _ h => h)
  rintro _ h₁ s₁ _ h₁' s₁' ⟨-, hh₁, hs₁⟩
  refine InterfaceState.twin_query ⟨hh₁, hs₁⟩ ?_
  have hprogram := hs₁.program
  generalize hp : s₁.program = p, hp' : s₁'.program = p' at hprogram ⊢
  cases hprogram with
  | none => exact twin_attach .none hp hp' hh₁ hs₁
  | @some p p' halike =>
    dsimp only
    rw [halike.isOurs_eq]
    split
    · exact twin_adopt halike hh₁ hs₁
    · refine Work.twin_note_left (Work.twin_note_right ?_)
      refine InterfaceState.twin_detach hp hp' ⟨hh₁, hs₁⟩ ?_
      exact twin_attach (.some halike) rfl rfl hh₁ (hs₁.withProgram .none)

/-! ## Detaching -/

theorem twin_ensureDetached (hh : h.Alike h') (hs : s.Alike s') :
    Twin name z (List.Forall₂ HookEvent.Alike) (ensureDetached name) (ensureDetached name)
      h s h' s' := by
  refine Work.twin_bind (Work.twin_get ?_)
  dsimp only
  rw [hh.isUnsupported_eq]
  split
  · exact Work.twin_pure ⟨.nil, hh, hs⟩
  refine InterfaceState.twin_query ⟨hh, hs⟩ ?_
  have hprogram := hs.program
  generalize hp : s.program = p, hp' : s'.program = p' at hprogram ⊢
  cases hprogram with
  | none => exact twin_conclude .nil ⟨rfl, .none, hh.probed, hh.reason⟩ hs
  | @some p p' halike =>
    dsimp only
    rw [halike.isOurs_eq]
    split
    · refine Work.twin_bind (Work.twin_modify ?_)
      refine InterfaceState.twin_detach hp hp'
        ⟨⟨rfl, hh.program, hh.probed, hh.reason⟩, hs⟩ ?_
      refine Work.twin_note_left (Work.twin_note_right ?_)
      exact twin_conclude (.cons (.detached halike) .nil) ⟨rfl, .none, hh.probed, hh.reason⟩
        (hs.withProgram .none)
    · refine Work.twin_note_left (Work.twin_note_right ?_)
      exact twin_conclude .nil ⟨rfl, .none, hh.probed, hh.reason⟩ hs

end Hook

/-! ## Cycles -/

/-- Two reports differ in ids of programs only. -/
structure SyncReport.Alike (r r' : SyncReport) : Prop where
  interface : r.interface = r'.interface
  mode : r.mode = r'.mode
  generation : r.generation = r'.generation
  apply : r.apply = r'.apply
  hookEvents : List.Forall₂ HookEvent.Alike r.hookEvents r'.hookEvents
  desiredEntries : r.desiredEntries = r'.desiredEntries

/-- Two results are reports that differ in ids of programs only, or the same error. -/
inductive SyncReport.ResultsAlike {ε : Type} :
    Except ε SyncReport → Except ε SyncReport → Prop
  | ok {r r' : SyncReport} (h : r.Alike r') : ResultsAlike (.ok r) (.ok r')
  | error (e : ε) : ResultsAlike (.error e) (.error e)

namespace Context

/-- The same is remembered, up to ids of programs. -/
structure Alike (c c' : Context) : Prop where
  tables : c.tables = c'.tables
  hook : c.hook.Alike c'.hook
  attempts : c.attempts = c'.attempts
  reconciled : c.reconciled = c'.reconciled

variable {name : String} {z : Circumstances} {wanted : DenyList} {mode : SyncMode}
  {c c' : Context} {s s' : InterfaceState}

theorem Alike.beginAttempt (hc : c.Alike c') (now : Timestamp) :
    (c.beginAttempt now).Alike (c'.beginAttempt now) := by
  refine ⟨hc.tables, hc.hook, ?_, hc.reconciled⟩
  unfold Context.beginAttempt
  rw [hc.attempts]

theorem Alike.failAttempt (hc : c.Alike c') (message : String) :
    (c.failAttempt message).Alike (c'.failAttempt message) := by
  refine ⟨hc.tables, hc.hook, ?_, hc.reconciled⟩
  unfold Context.failAttempt
  rw [hc.attempts]

theorem Alike.succeed (hc : c.Alike c') : c.succeed.Alike c'.succeed := by
  refine ⟨hc.tables, hc.hook, ?_, rfl⟩
  unfold Context.succeed
  rw [hc.attempts]

theorem Alike.hasInterest_eq (hc : c.Alike c') : c.hasInterest = c'.hasInterest := by
  have hprogram : c.hook.program.isSome = c'.hook.program.isSome := by
    have hrel := hc.hook.program
    generalize c.hook.program = p, c'.hook.program = p' at hrel ⊢
    cases hrel <;> rfl
  unfold hasInterest
  rw [hc.tables, hc.hook.state, hprogram]

/-- Two works on contexts end alike, the results being related as required. -/
def Twin {α : Type} (name : String) (z : Circumstances) (R : α → α → Prop) (w w' : CycleWork α)
    (c : Context) (s : InterfaceState) (c' : Context) (s' : InterfaceState) : Prop :=
  Work.Twin (calm name z) w w' (fun a c s a' c' s' => R a a' ∧ c.Alike c' ∧ s.Alike s')
    (fun c s c' s' => c.Alike c' ∧ s.Alike s') c s c' s'

theorem twin_onHook {α β : Type} {R : α → α → Prop} {T : β → β → Prop} {w : Hook.HookWork α}
    {next next' : α → CycleWork β} (hc : c.Alike c')
    (h : Hook.Twin name z R w w c.hook s c'.hook s')
    (hnext : ∀ a a' d d' u u', R a a' → d.Alike d' → u.Alike u' →
      Twin name z T (next a) (next' a') d u d' u') :
    Twin name z T (onHook w >>= next) (onHook w >>= next') c s c' s' := by
  have hput : ∀ {g g' : Hook}, g.Alike g' → Alike { c with hook := g } { c' with hook := g' } :=
    fun hg => ⟨hc.tables, hg, hc.attempts, hc.reconciled⟩
  refine Work.twin_bind (Work.twin_focus (h.mono ?_ ?_))
  · rintro a g u a' g' u' ⟨hR, hg, hu⟩
    exact hnext a a' _ _ u u' hR (hput hg) hu
  · rintro g u g' u' ⟨hg, hu⟩
    exact ⟨hput hg, hu⟩

theorem twin_onTables {β : Type} {T : β → β → Prop} {baseline : Baseline}
    {next next' : ApplyReport → CycleWork β} (hc : c.Alike c') (hs : s.Alike s')
    (hnext : ∀ report d d' u u', d.Alike d' → u.Alike u' →
      Twin name z T (next report) (next' report) d u d' u') :
    Twin name z T (onTables (BlockTables.apply name wanted baseline) >>= next)
      (onTables (BlockTables.apply name wanted baseline) >>= next') c s c' s' := by
  have hput : ∀ t, Alike { c with tables := t } { c' with tables := t } :=
    fun t => ⟨rfl, hc.hook, hc.attempts, hc.reconciled⟩
  refine Work.twin_bind (Work.twin_focus ?_)
  rw [hc.tables]
  refine InterfaceState.twin_of_tables (BlockTables.makes_apply fun _ => id) hs ?_ ?_
  · exact fun report t u u' hu => hnext report _ _ u u' (hput t) hu
  · exact fun t u u' hu => ⟨hput t, hu⟩

/-- The same was written, and events differ in ids of programs only. -/
def StepsAlike (r r' : ApplyReport × List HookEvent) : Prop :=
  r.1 = r'.1 ∧ List.Forall₂ HookEvent.Alike r.2 r'.2

theorem twin_tearDown (hc : c.Alike c') (hs : s.Alike s') :
    Twin name z StepsAlike (tearDown name wanted mode) (tearDown name wanted mode) c s c' s' := by
  refine twin_onHook hc (Hook.twin_ensureDetached hc.hook hs) ?_
  intro events events' c₁ c₁' s₁ s₁' hevents hc₁ hs₁
  refine twin_onTables hc₁ hs₁ fun report c₂ c₂' s₂ s₂' hc₂ hs₂ => ?_
  exact Work.twin_pure ⟨⟨rfl, hevents⟩, hc₂, hs₂⟩

theorem twin_setUp (hc : c.Alike c') (hs : s.Alike s') :
    Twin name z StepsAlike (setUp name wanted mode) (setUp name wanted mode) c s c' s' := by
  refine twin_onHook hc (Hook.twin_ensureSupported hc.hook hs) ?_
  intro _ _ c₁ c₁' s₁ s₁' _ hc₁ hs₁
  refine twin_onTables hc₁ hs₁ fun report c₂ c₂' s₂ s₂' hc₂ hs₂ => ?_
  refine twin_onHook hc₂ (Hook.twin_ensureAttached hc₂.hook hs₂) ?_
  intro events events' c₃ c₃' s₃ s₃' hevents hc₃ hs₃
  exact Work.twin_pure ⟨⟨rfl, hevents⟩, hc₃, hs₃⟩

theorem twin_applyAndBind (hc : c.Alike c') (hs : s.Alike s') :
    Twin name z StepsAlike (applyAndBind name wanted mode) (applyAndBind name wanted mode)
      c s c' s' := by
  refine twin_onHook hc (Hook.twin_requireSupport hc.hook hs) ?_
  intro _ _ c₁ c₁' s₁ s₁' _ hc₁ hs₁
  split
  · exact twin_tearDown hc₁ hs₁
  · exact twin_setUp hc₁ hs₁

/-- Cycles with the same deny list end alike from what was remembered alike, on alike interfaces. -/
theorem twin_cycle (hc : c.Alike c') (hs : s.Alike s') (mode : SyncMode) (now : Timestamp) :
    Kernel.Procedure.Twin (calm name z) (c.cycle name wanted mode now)
      (c'.cycle name wanted mode now)
      (fun r u r' u' => SyncReport.ResultsAlike r.1 r'.1 ∧ r.2.Alike r'.2 ∧ u.Alike u') s s' := by
  have hmode : c.effectiveMode mode = c'.effectiveMode mode := by
    unfold effectiveMode
    rw [hc.reconciled]
  unfold cycle
  rw [hmode]
  refine Kernel.Procedure.twin_bind
    (Kernel.Procedure.Twin.mono (twin_applyAndBind (hc.beginAttempt now) hs) ?_)
  rintro ⟨e | ⟨report, events⟩, d⟩ u ⟨e' | ⟨report', events'⟩, d'⟩ u' hends
  · obtain ⟨rfl, hd, hu⟩ := hends
    exact Kernel.Procedure.twin_done.mpr ⟨.error e, hd.failAttempt _, hu⟩
  · exact hends.elim
  · exact hends.elim
  · obtain ⟨⟨hreport, hevents⟩, hd, hu⟩ := hends
    refine Kernel.Procedure.twin_note_left.mpr (Kernel.Procedure.twin_note_right.mpr ?_)
    refine Kernel.Procedure.twin_done.mpr ⟨.ok ?_, hd.succeed, hu⟩
    exact ⟨rfl, rfl, congrArg (·.generation) hd.succeed.attempts, hreport, hevents, rfl⟩

end Context

end IngressGuard
