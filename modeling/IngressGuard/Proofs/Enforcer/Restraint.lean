import IngressGuard.Proofs.Cycle.Restraint
import IngressGuard.Proofs.Enforcer.Rounds
import IngressGuard.Proofs.Kernel.Contract

/-!
# What an enforcer leaves alone

An enforcer goes from tick to tick and from batch to batch of policy events, its cycles run side by
side, callers lose patience with them, calls fail and bring down cycles, and others change the host
at any moment (`Tick.Course`).  In all of that a program of others is detached only by a cycle that
has something to block on that very interface, and an interface that is none of the enforcer's
business sees no call during a tick (`Tick.leaves_alone`).

A cycle with nothing to block detaches only what the kernel has shown it as ours, so a course
remembers the kernels it went through: what was shown was there, and its id is no other program's.
Whatever the modelled kernel lets others do is of this kind until its ids wrap around
(`Tick.Chronicle.course`).
-/

namespace IngressGuard

open Kernel (Model Procedure Exchange InterfaceState)

/-! ## What happens to an interface -/

namespace Enforcer

/-- A cycle that is running on an interface, or one that the policy in force starts where none is
running. -/
def AtHand (e : Enforcer) (name : String) (rest : RunningCycle) : Prop :=
  e.slot name = .running rest ∨
    (∃ c, e.slot name = .idle c) ∧ ∃ wanted, e.policy.denyList name = .ok wanted ∧
      ∃ (c : Context) (mode : SyncMode) (now : Timestamp), rest = c.cycle name wanted mode now

/-- What becomes of what is held for an interface, and of the kernel, when something happens to that
interface. -/
inductive Acts (name : String) (e : Enforcer) (m : Model) : Slot → Model → Prop
  | rests : Acts name e m (e.slot name) m
  | ends (c : Context) : Acts name e m (.idle c) m
  | begins {rest : RunningCycle} (hand : e.AtHand name rest) : Acts name e m (.running rest) m
  /-- The caller of a cycle loses patience at its first call. -/
  | stalls {rest : RunningCycle} (hand : e.AtHand name rest) :
      Acts name e m (.running rest.afterOpening) m
  | calls {rest : RunningCycle} {c : Kernel.Call} {state : Context}
      {resume : c.Answer → RunningCycle} {b : c.Answer} {m' : Model}
      (hslot : e.slot name = .running rest) (hrest : rest.afterOpening = .call c state resume)
      (hanswer : m.answer name c = (b, m')) : Acts name e m (.running (resume b)) m'
  /-- A cycle runs to its end, or until a call brings it down. -/
  | runs {rest : RunningCycle} {m' : Model} (hand : e.AtHand name rest)
      (pass : rest.Passes (.ofAnswer (Model.answer name)) m m') (c : Context) :
      Acts name e m (.idle c) m'

variable {e : Enforcer} {h : Host} {m m' : Model} {name other : String} {s : Slot}

/-- When something happens to an interface, the kernel sees calls of the cycle at hand only. -/
theorem Acts.passes (acts : Acts name e m s m') :
    m' = m ∨ ∃ rest, e.AtHand name rest ∧ rest.Passes (.ofAnswer (Model.answer name)) m m' := by
  cases acts with
  | rests | ends | begins | stalls => exact .inl rfl
  | runs hand pass => exact .inr ⟨_, hand, pass⟩
  | calls hslot hrest hanswer =>
    refine .inr ⟨_, .inl hslot, Procedure.passes_of_afterOpening ?_⟩
    rw [hrest]
    exact .call hanswer (.here _ _)

theorem Acts.agreesBesides (acts : Acts name e m s m') : Model.AgreesBesides name m m' := by
  rcases acts.passes with rfl | ⟨rest, -, pass⟩
  · exact .refl name m'
  · exact Model.agreesBesides_of_passes pass

theorem acts_refuse (mode : SyncMode) (cause : TranslateError) (now : Timestamp) :
    Acts name e m ((e.refuse name mode cause now).2.slot name) m := by
  obtain ⟨-, hslot | ⟨c, hslot⟩⟩ := refuse_spec e name mode cause now
  · rw [hslot]
    exact .rests
  · rw [hslot]
    exact .ends c

theorem acts_syncInterface (mode : SyncMode) (now : Timestamp) (stalls : Bool) :
    Acts name e h.kernel ((e.syncInterface name mode now stalls h).2.1.slot name)
      (e.syncInterface name mode now stalls h).2.2.1.kernel := by
  unfold syncInterface
  split
  case h_1 cause _ => exact acts_refuse mode cause now
  case h_2 wanted hwanted =>
    split
    case h_1 => exact .rests
    case h_2 before hslot =>
      have hand : e.AtHand name (before.cycle name wanted mode now) :=
        .inr ⟨⟨before, hslot⟩, wanted, hwanted, before, mode, now, rfl⟩
      dsimp only
      split
      · have hstalls : (e.abandon name mode wanted
            (before.cycle name wanted mode now).afterOpening).2.slot name =
              .running (before.cycle name wanted mode now).afterOpening :=
          slot_noteFailure.trans slot_putSlot_same
        rw [hstalls]
        exact .stalls hand
      · have hpass := Host.passes_run name (before.cycle name wanted mode now) h
        generalize (before.cycle name wanted mode now).run (Host.answer name) h = r at hpass ⊢
        obtain ⟨ending, h', log⟩ := r
        cases ending with
        | completed r =>
          show Acts name e h.kernel ((e.putSlot name (.idle r.2)).slot name) h'.kernel
          rw [slot_putSlot_same]
          exact .runs hand hpass r.2
        | aborted after =>
          have hends : (e.settle name mode wanted before (.aborted after)).2.slot name =
              .idle after := slot_noteFailure.trans slot_putSlot_same
          rw [hends]
          exact .runs hand hpass after

theorem acts_finish :
    Acts name e h.kernel ((e.finish name h).1.slot name) (e.finish name h).2.1.kernel := by
  unfold finish
  split
  case h_1 => exact .rests
  case h_2 rest hslot =>
    have hpass := Host.passes_run name rest h
    generalize rest.run (Host.answer name) h = r at hpass ⊢
    obtain ⟨ending, h', log⟩ := r
    cases ending with
    | completed r =>
      dsimp only
      rw [slot_putSlot_same]
      exact .runs (.inl hslot) hpass _
    | aborted after =>
      dsimp only
      rw [slot_putSlot_same]
      exact .runs (.inl hslot) hpass _

theorem agreesBesides_finish : AgreesBesides name e (e.finish name h).1 := by
  unfold finish
  split
  case h_1 => exact .refl name e
  case h_2 rest _ =>
    generalize rest.run (Host.answer name) h = r
    obtain ⟨ending, h', log⟩ := r
    cases ending <;> exact agreesBesides_putSlot ..

end Enforcer

namespace Tick

open Enforcer (Acts)

variable {t : Tick} {name : String}

/-- A move is something that happens to its interface. -/
theorem acts_step (t : Tick) (move : Move) :
    Acts move.interface t.enforcer t.host.kernel ((t.step move).enforcer.slot move.interface)
      (t.step move).host.kernel := by
  have hbecomes := step_becomes t move
  generalize move.interface = name, t.step move = t' at hbecomes ⊢
  cases hbecomes with
  | stays => exact .rests
  | begins now _ hwanted hslot =>
    dsimp only
    rw [Enforcer.slot_putSlot_same]
    exact .begins (.inr ⟨⟨_, hslot⟩, _, hwanted, _, .resync, now, rfl⟩)
  | calls hslot hrest hanswer =>
    dsimp only
    rw [Enforcer.slot_putSlot_same]
    exact .calls hslot hrest (Host.answer_eq_some hanswer)
  | frees hhost after =>
    dsimp only
    rw [Enforcer.slot_putSlot_same, hhost.kernel_eq]
    exact .ends after
  | @concludes host o e hhost _ _ _ hslot =>
    obtain ⟨henforcer, hkernel, -⟩ := conclude_spec { t with host } name o e
    rw [henforcer, hkernel]
    dsimp only
    rw [hhost.kernel_eq]
    rcases hslot with hslot | ⟨c, hslot⟩
    · rw [hslot]
      exact .rests
    · rw [hslot]
      exact .ends c

/-! ## Courses -/

/-- What an enforcer does next: a tick starts or goes on by a move, the policy is replaced, an
interface is synced, or a cycle that its caller has given up on runs to its end.  The label names
the interface that it is about. -/
inductive Goes : Option String → Tick → Tick → Prop
  | tick (t : Tick) : Goes none t (start t.enforcer t.host)
  | move (t : Tick) (move : Move) : Goes (some move.interface) t (t.step move)
  | policy (t : Tick) (policy : PolicySnapshot) :
      Goes none t { t with enforcer := { t.enforcer with policy } }
  | sync {s : Session} {t : Tick} (meets : s.Meets t) (name : String) (mode : SyncMode)
      (stalls : Bool) :
      Goes (some name) t
        { t with
          enforcer := (s.sync name mode stalls).2.enforcer
          host := (s.sync name mode stalls).2.host }
  | finish (t : Tick) (name : String) :
      Goes (some name) t
        { t with
          enforcer := (t.enforcer.finish name t.host).1
          host := (t.enforcer.finish name t.host).2.1 }

/-- What an enforcer goes through, from a start at which no cycle is running, with the kernels on
the way, the latest one first.  Others may change the host in any way at any time; only the id of
a program that appears has not been the id of another one on the same interface. -/
inductive Course : List Model → Tick → Prop
  | start {e : Enforcer} (h : Host) (hidle : ∀ name, ∃ c, e.slot name = .idle c) :
      Course [h.kernel] ⟨e, h, ∅⟩
  | goes {seen : List Model} {t t' : Tick} {about : Option String} (course : Course seen t)
      (step : Goes about t t') : Course (t'.host.kernel :: seen) t'
  | edit {seen : List Model} {t : Tick} {h : Host} (course : Course seen t)
      (hids : ∀ name q, h.kernel.program name = some q → t.host.kernel.program name ≠ some q →
        ∀ m ∈ seen, ∀ p, m.program name = some p → p.id = q.id → p = q) :
      Course (h.kernel :: seen) { t with host := h }

variable {t' : Tick} {seen : List Model} {about : Option String}

/-- A step of a course happens to the interface that it is about, or it leaves the kernel and
all cycles alone. -/
theorem Goes.acts (step : Goes about t t') :
    (t'.host.kernel = t.host.kernel ∧
        ∀ other, t'.enforcer.slot other = t.enforcer.slot other) ∨
      ∃ name, about = some name ∧
        (∀ other, other ≠ name → t'.enforcer.slot other = t.enforcer.slot other) ∧
        Acts name t.enforcer t.host.kernel (t'.enforcer.slot name) t'.host.kernel := by
  cases step with
  | tick => exact .inl ⟨Host.kernel_managed, fun _ => rfl⟩
  | policy => exact .inl ⟨rfl, fun _ => rfl⟩
  | move _ move =>
    exact .inr ⟨_, rfl, (agreesBesides_step t move).enforcer.slots, acts_step t move⟩
  | finish _ name =>
    exact .inr ⟨name, rfl, Enforcer.agreesBesides_finish.slots, Enforcer.acts_finish⟩
  | sync meets name mode stalls =>
    refine .inr ⟨name, rfl, ?_⟩
    obtain ⟨⟨henforcer, hkernel, -⟩, -⟩ := Session.sync_spec _ name mode stalls
    dsimp only
    rw [henforcer, hkernel, ← meets.enforcer, ← meets.host]
    exact ⟨(Enforcer.agreesBesides_syncInterface stalls).1.slots,
      Enforcer.acts_syncInterface mode _ stalls⟩

theorem Course.run (course : Course seen t) (schedule : List Move) :
    ∃ seen', seen <:+ seen' ∧ Course seen' (t.run schedule) := by
  induction schedule generalizing t seen with
  | nil => exact ⟨seen, List.suffix_rfl, course⟩
  | cons move schedule ih =>
    obtain ⟨seen', hseen, course'⟩ := ih (course.goes (.move t move))
    exact ⟨seen', (List.suffix_cons _ _).trans hseen, course'⟩

/-! ## What the modelled kernel lets others do -/

/-- A kernel that a procedure has passed through has seen calls only. -/
theorem exists_acts_of_passes {σ α : Type} {p : Procedure σ α} {m m' : Model}
    (h : p.Passes (.ofAnswer (Model.answer name)) m m') : ∃ acts, m' = m.after acts := by
  induction h with
  | here p k => exact ⟨[], rfl⟩
  | @call c s resume k k' k'' b step rest ih =>
    obtain ⟨acts, hacts⟩ := ih
    have hcall : (Model.Act.call name c).run k = k' := congrArg Prod.snd step
    rw [← hcall] at hacts
    exact ⟨.call name c :: acts, hacts⟩
  | note rest ih => exact ih

theorem Goes.exists_acts (step : Goes about t t') :
    ∃ acts, t'.host.kernel = t.host.kernel.after acts := by
  rcases step.acts with ⟨hkernel, -⟩ | ⟨name, -, -, acts⟩
  · exact ⟨[], hkernel⟩
  · rcases acts.passes with hkernel | ⟨rest, -, pass⟩
    · exact ⟨[], hkernel⟩
    · exact exists_acts_of_passes pass

/-- What an enforcer goes through on a kernel that was new at the start, while others do to the
kernel what it lets them, with the programs that were attached so far. -/
inductive Chronicle : List (String × Program) → List Model → Tick → Prop
  | start {e : Enforcer} {h : Host} {failsafe : Failsafe} {known : Option TextSet}
      (hkernel : h.kernel = .fresh failsafe known) (hidle : ∀ name, ∃ c, e.slot name = .idle c) :
      Chronicle [] [h.kernel] ⟨e, h, ∅⟩
  /-- That a step amounts to some acts is no restriction: `Goes.exists_acts`. -/
  | goes {l : List (String × Program)} {seen : List Model} {t t' : Tick} {about : Option String}
      (before : Chronicle l seen t) (step : Goes about t t') {acts : List Model.Act}
      (hacts : t'.host.kernel = t.host.kernel.after acts) :
      Chronicle (l ++ t.host.kernel.attachedIn acts) (t'.host.kernel :: seen) t'
  | edit {l : List (String × Program)} {seen : List Model} {t : Tick} {h : Host}
      (before : Chronicle l seen t) (act : Model.Act) (hact : h.kernel = act.run t.host.kernel) :
      Chronicle (l ++ act.attached t.host.kernel) (h.kernel :: seen) { t with host := h }

variable {l l' : List (String × Program)}

/-- The programs of some kernels are among those that were attached so far. -/
def Listed (l : List (String × Program)) (seen : List Model) : Prop :=
  ∀ m ∈ seen, ∀ name p, m.program name = some p → (name, p) ∈ l

theorem Listed.cons {m : Model} (h : Listed l seen) (issued : Model.Issued (l ++ l') m) :
    Listed (l ++ l') (m :: seen) := by
  intro k hk name p hp
  rcases List.mem_cons.mp hk with rfl | hk
  · exact issued.held name p hp
  · exact List.mem_append_left l' (h k hk name p hp)

theorem Chronicle.issued (h : Chronicle l seen t) :
    Model.Issued l t.host.kernel ∧ Listed l seen := by
  induction h with
  | @start e h failsafe known hkernel hidle =>
    have hissued : Model.Issued [] h.kernel := hkernel ▸ Model.issued_fresh failsafe known
    refine ⟨hissued, fun m hm name p hp => ?_⟩
    obtain rfl := List.mem_singleton.mp hm
    exact hissued.held name p hp
  | @goes l seen t t' about before step acts hacts ih =>
    have hissued := ih.1.after acts
    rw [← hacts] at hissued
    exact ⟨hissued, ih.2.cons hissued⟩
  | edit before act hact ih =>
    have hissued := ih.1.step (Model.issues_run _ act)
    rw [← hact] at hissued
    exact ⟨hissued, ih.2.cons hissued⟩

/-- Until the ids wrap around, what an enforcer goes through on the modelled kernel is a course,
whatever others do to the kernel: no program gets the id of another one. -/
theorem Chronicle.course (h : Chronicle l seen t) (hcount : l.length ≤ Model.idCount) :
    Course seen t := by
  induction h with
  | start hkernel hidle => exact .start _ hidle
  | goes before step hacts ih =>
    rw [List.length_append] at hcount
    exact (ih (by omega)).goes step
  | @edit l seen t h before act hact ih =>
    have hbefore : l.length ≤ Model.idCount := by
      rw [List.length_append] at hcount
      omega
    refine (ih hbefore).edit fun name q hq _ m hm p hp hid => ?_
    have hissued := before.issued.1.step (Model.issues_run _ act)
    rw [← hact] at hissued
    have hmem : (name, p) ∈ l ++ act.attached t.host.kernel :=
      List.mem_append_left _ (before.issued.2 m hm name p hp)
    exact (Prod.mk.inj (hissued.eq_of_id hcount hmem (hissued.held name q hq) hid)).2

/-! ## Where cycles come from -/

/-- What is left of a cycle for a deny list that was shown only programs that were there. -/
def Originates (seen : List Model) (name : String) (wanted : DenyList) (rest : RunningCycle) :
    Prop :=
  ∃ (c : Context) (mode : SyncMode) (now : Timestamp) (said : List Exchange),
    (c.cycle name wanted mode now).ComesTo said rest ∧
      ∀ p, Exchange.shown p ∈ said → ∃ m ∈ seen, m.program name = some p

theorem Originates.mono {wanted : DenyList} {rest : RunningCycle} (m : Model)
    (h : Originates seen name wanted rest) : Originates (m :: seen) name wanted rest := by
  obtain ⟨c, mode, now, said, comes, hsaid⟩ := h
  refine ⟨c, mode, now, said, comes, fun p hp => ?_⟩
  obtain ⟨k, hk, hprogram⟩ := hsaid p hp
  exact ⟨k, List.mem_cons_of_mem m hk, hprogram⟩

/-- What a course keeps. -/
structure Course.Invariant (seen : List Model) (t : Tick) : Prop where
  current : t.host.kernel ∈ seen
  origins : ∀ name rest, t.enforcer.slot name = .running rest →
    ∃ wanted, Originates seen name wanted rest
  /-- The id of a program of others that is attached has not been the id of another program. -/
  ids : ∀ name q, t.host.kernel.program name = some q → q.isOurs = false →
    ∀ m ∈ seen, ∀ p, m.program name = some p → p.id = q.id → p = q

theorem Course.Invariant.atHand (h : Course.Invariant seen t) {rest : RunningCycle}
    (hand : t.enforcer.AtHand name rest) : ∃ wanted, Originates seen name wanted rest := by
  rcases hand with hslot | ⟨-, wanted, -, c, mode, now, rfl⟩
  · exact h.origins name rest hslot
  · exact ⟨wanted, c, mode, now, [], .start, nofun⟩

theorem Course.Invariant.acts (h : Course.Invariant seen t) {slot : Slot} {m' : Model}
    {rest : RunningCycle} (acts : Acts name t.enforcer t.host.kernel slot m')
    (hrunning : slot = .running rest) : ∃ wanted, Originates seen name wanted rest := by
  cases acts with
  | rests => exact h.origins name rest hrunning
  | ends | runs => cases hrunning
  | begins hand =>
    cases hrunning
    exact h.atHand hand
  | stalls hand =>
    cases hrunning
    obtain ⟨wanted, c, mode, now, said, comes, hsaid⟩ := h.atHand hand
    exact ⟨wanted, c, mode, now, said, .opened comes, hsaid⟩
  | calls hslot hrest hanswer =>
    cases hrunning
    obtain ⟨wanted, c, mode, now, said, comes, hsaid⟩ := h.origins name _ hslot
    refine ⟨wanted, c, mode, now, _, .answered comes hrest _, fun p hp => ?_⟩
    rcases List.mem_append.mp hp with hp | hp
    · exact hsaid p hp
    · have hshown := (List.mem_singleton.mp hp).symm
      exact ⟨t.host.kernel, h.current, Model.program_of_shown hanswer hshown⟩

theorem Course.Invariant.goes (h : Course.Invariant seen t) (step : Goes about t t') :
    Course.Invariant (t'.host.kernel :: seen) t' := by
  -- A program of others that is attached afterwards was there before.
  have hforeign : ∀ name q, t'.host.kernel.program name = some q → q.isOurs = false →
      t.host.kernel.program name = some q := by
    intro name q hq hours
    rcases step.acts with ⟨hkernel, -⟩ | ⟨about, -, -, acts⟩
    · rwa [hkernel] at hq
    · by_cases hname : name = about
      · subst hname
        rcases acts.passes with hkernel | ⟨rest, -, pass⟩
        · rwa [hkernel] at hq
        · exact Procedure.program_of_passes pass hq hours
      · unfold Model.program at hq ⊢
        rwa [acts.agreesBesides.others name hname] at hq
  refine ⟨List.mem_cons_self, fun name rest hslot => ?_, fun name q hq hours m hm p hp hid => ?_⟩
  · have horigin : ∃ wanted, Originates seen name wanted rest := by
      rcases step.acts with ⟨-, hslots⟩ | ⟨about, -, hslots, acts⟩
      · rw [hslots] at hslot
        exact h.origins name rest hslot
      · by_cases hname : name = about
        · subst hname
          exact h.acts acts hslot
        · rw [hslots name hname] at hslot
          exact h.origins name rest hslot
    obtain ⟨wanted, horiginates⟩ := horigin
    exact ⟨wanted, horiginates.mono _⟩
  · rcases List.mem_cons.mp hm with rfl | hm
    · rw [hq] at hp
      exact (Option.some.inj hp).symm
    · exact h.ids name q (hforeign name q hq hours) hours m hm p hp hid

theorem Course.invariant (course : Course seen t) : Course.Invariant seen t := by
  induction course with
  | start h hidle =>
    refine ⟨List.mem_cons_self, fun name rest hslot => ?_, fun name q hq _ m hm p hp _ => ?_⟩
    · obtain ⟨c, hc⟩ := hidle name
      rw [hc] at hslot
      cases hslot
    · obtain rfl := List.mem_singleton.mp hm
      rw [hq] at hp
      exact (Option.some.inj hp).symm
  | goes course step ih => exact ih.goes step
  | @edit seen t h course hids ih =>
    refine ⟨List.mem_cons_self, fun name rest hslot => ?_, fun name q hq hours m hm p hp hid => ?_⟩
    · obtain ⟨wanted, horiginates⟩ := ih.origins name rest hslot
      exact ⟨wanted, horiginates.mono _⟩
    · rcases List.mem_cons.mp hm with rfl | hm
      · rw [hq] at hp
        exact (Option.some.inj hp).symm
      · by_cases hkept : t.host.kernel.program name = some q
        · exact ih.ids name q hkept hours m hm p hp hid
        · exact hids name q hq hkept m hm p hp hid

/-- A cycle that has something to block is at hand on an interface: it is running, or the policy in
force asks for it. -/
def Engages (seen : List Model) (t : Tick) (name : String) : Prop :=
  (∃ rest, t.enforcer.slot name = .running rest ∧
      (∃ wanted, Originates seen name wanted rest) ∧
      ∀ wanted, Originates seen name wanted rest → wanted.isEmpty = false) ∨
    (∃ c, t.enforcer.slot name = .idle c) ∧
      ∃ wanted, t.enforcer.policy.denyList name = .ok wanted ∧ wanted.isEmpty = false

theorem Course.Invariant.engages (h : Course.Invariant seen t) {rest : RunningCycle} {m' : Model}
    {q : Program} (hand : t.enforcer.AtHand name rest)
    (pass : rest.Passes (.ofAnswer (Model.answer name)) t.host.kernel m')
    (hq : t.host.kernel.program name = some q) (hforeign : q.isOurs = false)
    (hlost : m'.program name ≠ some q) : Engages seen t name := by
  rcases hand with hslot | ⟨hidle, wanted, hwanted, c, mode, now, rfl⟩
  · refine .inl ⟨rest, hslot, h.origins name rest hslot, ?_⟩
    rintro wanted ⟨c, mode, now, said, comes, hsaid⟩
    refine Bool.eq_false_iff.mpr fun hempty => ?_
    have hguards := (Context.guards_spares hempty c mode now).comesTo comes
    obtain ⟨p, hours, hid, hshown⟩ :=
      Procedure.exists_shown_of_lost hguards pass hq hforeign hlost
    obtain ⟨m, hm, hp⟩ := hsaid p hshown
    rw [h.ids name q hq hforeign m hm p hp hid.symm, hforeign] at hours
    cases hours
  · refine .inr ⟨hidle, wanted, hwanted, Bool.eq_false_iff.mpr fun hempty => ?_⟩
    obtain ⟨p, -, -, hshown⟩ := Procedure.exists_shown_of_lost
      (Context.guards_spares hempty c mode now) pass hq hforeign hlost
    cases hshown

/-- A program of others is detached only in a step about its interface, by a cycle that has
something to block. -/
theorem Course.Invariant.spares (h : Course.Invariant seen t) (step : Goes about t t')
    {q : Program} (hq : t.host.kernel.program name = some q) (hforeign : q.isOurs = false)
    (hlost : t'.host.kernel.program name ≠ some q) :
    about = some name ∧ Engages seen t name := by
  rcases step.acts with ⟨hkernel, -⟩ | ⟨about, rfl, -, acts⟩
  · rw [hkernel] at hlost
    exact (hlost hq).elim
  · by_cases hname : name = about
    · subst hname
      rcases acts.passes with hkernel | ⟨rest, hand, pass⟩
      · rw [hkernel] at hlost
        exact (hlost hq).elim
      · exact ⟨rfl, h.engages hand pass hq hforeign hlost⟩
    · refine (hlost ?_).elim
      unfold Model.program at hq ⊢
      rwa [acts.agreesBesides.others name hname]

end Tick

/-! ## What sessions do -/

namespace Session

/-- A session ticks, carries out a batch of policy events, or lets the cycles that were given up on
run to their ends. -/
inductive Does (s : Session) : Session → Prop
  | tick : Does s (resyncAll s).2
  | batch (events : List PolicyEvent) : Does s (handleEvents events s).2
  | finish : Does s (finishAll s).2

theorem finishAll_induction {I : Session → Prop} (htell : ∀ s entries, I s → I (tell entries s).2)
    (hfinish : ∀ name s, I s →
      I { s with
        enforcer := (s.enforcer.finish name s.host).1
        host := (s.enforcer.finish name s.host).2.1 })
    {s : Session} (h : I s) : I (finishAll s).2 := by
  unfold finishAll
  dsimp only [bind, StateT.bind, get, getThe, MonadStateOf.get, StateT.get, pure, StateT.pure]
  generalize s.enforcer.slots.keys = names
  induction names generalizing s with
  | nil => exact h
  | cons name names ih =>
    rw [List.forIn_cons]
    dsimp only [bind, StateT.bind, get, getThe, MonadStateOf.get, StateT.get, pure, StateT.pure,
      set, StateT.set]
    have hnext := hfinish name s h
    generalize s.enforcer.finish name s.host = r at hnext
    obtain ⟨e, host, log⟩ := r
    exact ih (htell _ log hnext)

/-- A session has come to a moment of a course that goes on from a given one. -/
def Follows (seen : List Model) (s : Session) : Prop :=
  ∃ seen' t, seen <:+ seen' ∧ Tick.Course seen' t ∧ s.Meets t

variable {seen : List Model} {s s' : Session}

theorem Follows.tell (h : s.Follows seen) (entries : Log.Entries) :
    (tell entries s).2.Follows seen := by
  obtain ⟨seen', t, hseen, course, meets⟩ := h
  exact ⟨seen', t, hseen, course, meets.enforcer, meets.host⟩

theorem Follows.sync (h : s.Follows seen) (name : String) (mode : SyncMode) :
    (sync name mode false s).2.Follows seen := by
  obtain ⟨seen', t, hseen, course, meets⟩ := h
  exact ⟨_, _, hseen.trans (List.suffix_cons _ _), course.goes (.sync meets name mode false), rfl,
    rfl⟩

theorem Follows.resyncAll (h : s.Follows seen) : (resyncAll s).2.Follows seen := by
  obtain ⟨seen', t, hseen, course, meets⟩ := h
  obtain ⟨schedule, hmeets, -⟩ := resyncAll_follows s
  rw [meets.enforcer, meets.host] at hmeets
  obtain ⟨seen'', hseen', course'⟩ := (course.goes (.tick t)).run schedule
  exact ⟨seen'', _, (hseen.trans (List.suffix_cons _ _)).trans hseen', course', hmeets⟩

theorem Follows.handleEvents (h : s.Follows seen) (events : List PolicyEvent) :
    (handleEvents events s).2.Follows seen := by
  unfold Session.handleEvents
  dsimp only [bind, StateT.bind, get, getThe, MonadStateOf.get, StateT.get, replacePolicy, modify,
    modifyGet, MonadStateOf.modifyGet, StateT.modifyGet, pure, StateT.pure]
  generalize s.enforcer.policy.applyAll events = r
  obtain ⟨policy, affected⟩ := r
  have hpolicy : Follows seen { s with enforcer := { s.enforcer with policy } } := by
    obtain ⟨seen', t, hseen, course, meets⟩ := h
    refine ⟨_, _, hseen.trans (List.suffix_cons _ _), course.goes (.policy t policy), ?_,
      meets.host⟩
    rw [← meets.enforcer]
  dsimp only
  split
  · exact hpolicy
  · exact syncEach_induction (I := fun _ => Follows seen) (fun _ _ entries h => h.tell entries)
      (fun name _ _ h => h.sync name .event) _ (hpolicy.tell _)

theorem Follows.finishAll (h : s.Follows seen) : (finishAll s).2.Follows seen := by
  refine finishAll_induction (fun _ entries h => h.tell entries) (fun name s h => ?_) h
  obtain ⟨seen', t, hseen, course, meets⟩ := h
  refine ⟨_, _, hseen.trans (List.suffix_cons _ _), course.goes (.finish t name), ?_, ?_⟩ <;>
    rw [meets.enforcer, meets.host]

/-- Whatever a session does goes on with a course. -/
theorem Follows.does (h : s.Follows seen) (does : s.Does s') : s'.Follows seen := by
  cases does with
  | tick => exact h.resyncAll
  | batch events => exact h.handleEvents events
  | finish => exact h.finishAll

end Session

/-! ## Calls on record -/

namespace Kernel

/-- The interface that an operation is about. -/
def Operation.interface : Operation → String
  | probe i | query i => i
  | attach i _ | detach i _ => i
  | read i _ | insert i _ | remove i _ | destroy i _ => i

namespace Model

variable {m m' : Model} {name other : String}

/-- The operations on record that are about an interface. -/
def operations (m : Model) (name : String) : List Operation :=
  m.history.filter fun op => op.interface == name

theorem operations_record {op : Operation} (hop : op.interface = name) (hne : other ≠ name) :
    (m.record op).operations other = m.operations other := by
  have hother : (op.interface == other) = false := by
    rw [hop, beq_eq_false_iff_ne]
    exact hne.symm
  simp [operations, record, hother]

theorem operations_write (f : InterfaceState → InterfaceState) {op : Operation}
    (hop : op.interface = name) (hne : other ≠ name) :
    (m.write name f op).2.operations other = m.operations other := by
  refine write_induction (motive := fun _ m' => m'.operations other = m.operations other)
    (fun faults => ?_) fun e faults _ => rfl
  exact operations_record hop hne

/-- A call about an interface leaves no record of calls about other ones. -/
theorem operations_answer (c : Call) (hne : other ≠ name) :
    (m.answer name c).2.operations other = m.operations other := by
  cases c with
  | probe =>
    show (m.probe name).2.operations other = _
    unfold probe
    split
    · exact operations_record rfl hne
    · split <;> exact operations_record rfl hne
  | query =>
    show (m.query name).2.operations other = _
    unfold query
    split <;> exact operations_record rfl hne
  | attach =>
    show (m.attach name).2.operations other = _
    unfold attach
    split
    · rfl
    · split
      · rfl
      · split
        · rfl
        · exact operations_record rfl hne
  | detach p =>
    show (m.detach name p).2.operations other = _
    unfold detach
    split
    · rfl
    · split
      · rfl
      · split
        · split
          · exact operations_record rfl hne
          · rfl
        · exact operations_record rfl hne
  | read f =>
    show (m.read name f).2.operations other = _
    unfold read
    split
    · exact operations_record rfl hne
    · split <;> exact operations_record rfl hne
  | insert p => exact operations_write _ rfl hne
  | remove p => exact operations_write _ rfl hne
  | destroy f => exact operations_write _ rfl hne

theorem operations_of_passes {σ α : Type} {p : Procedure σ α}
    (h : p.Passes (.ofAnswer (Model.answer name)) m m') (hne : other ≠ name) :
    m'.operations other = m.operations other := by
  induction h with
  | here p k => rfl
  | @call c s resume k k' k'' b step rest ih =>
    have hanswer := operations_answer (m := k) c hne
    rw [show k.answer name c = (b, k') from step] at hanswer
    exact ih.trans hanswer
  | note rest ih => exact ih

end Model

end Kernel

/-! ## Interfaces that are nobody's business -/

namespace Tick

variable {e : Enforcer} {h : Host} {t : Tick} {name : String}

/-- An interface that no rule names, of which nothing needs a cycle, and that carries neither a
table nor a program of ours. -/
structure Unconcerned (e : Enforcer) (m : Model) (name : String) : Prop where
  rules : ∀ rule ∈ e.policy.ruleList, rule.interface ≠ name
  context : ∃ c, e.slot name = .idle c ∧ c.hasInterest = false
  table : (m.interface name).hasTable = false
  program : (m.interface name).carriesOurs = false

theorem Unconcerned.not_mem_targets (hu : Unconcerned e h.kernel name) : name ∉ targets e h := by
  intro hmem
  rcases mem_targets.mp hmem with ⟨rule, hrule, hname⟩ | hinterest | ⟨-, htable | hours⟩
  · exact hu.rules rule hrule hname
  · obtain ⟨c, hslot, hnone⟩ := hu.context
    rw [hslot] at hinterest
    exact Bool.false_ne_true (hnone.symm.trans hinterest)
  · exact Bool.false_ne_true (hu.table.symm.trans htable)
  · exact Bool.false_ne_true (hu.program.symm.trans hours)

/-- Moves make calls about their own interface only. -/
theorem operations_step {move : Move} (hne : name ≠ move.interface) :
    (t.step move).host.kernel.operations name = t.host.kernel.operations name := by
  rcases (acts_step t move).passes with hkernel | ⟨rest, -, pass⟩
  · rw [hkernel]
  · exact Model.operations_of_passes pass hne

/-- What a tick has left of an interface that it is not about: no task, what was held for it, and
what the kernel holds for it and has on record. -/
structure Overlooks (e : Enforcer) (m : Model) (name : String) (t : Tick) : Prop where
  task : t.tasks[name]? = none
  slot : t.enforcer.slot name = e.slot name
  interface : t.host.kernel.interface name = m.interface name
  operations : t.host.kernel.operations name = m.operations name

variable {m : Model}

theorem Overlooks.step_eq (ho : Overlooks e m name t) (hidle : ∃ c, e.slot name = .idle c)
    {move : Move} (hname : move.interface = name) : t.step move = t :=
  step_of_none hname ho.task (by rwa [ho.slot])

theorem Overlooks.step (ho : Overlooks e m name t) (hidle : ∃ c, e.slot name = .idle c)
    (move : Move) : Overlooks e m name (t.step move) := by
  by_cases hname : move.interface = name
  · rwa [ho.step_eq hidle hname]
  have hne : name ≠ move.interface := Ne.symm hname
  have hagrees := agreesBesides_step t move
  refine ⟨(hagrees.tasks name hne).trans ho.task,
    (hagrees.enforcer.slots name hne).trans ho.slot,
    (hagrees.kernel.others name hne).trans ho.interface,
    (operations_step hne).trans ho.operations⟩

theorem Overlooks.run (ho : Overlooks e m name t) (hidle : ∃ c, e.slot name = .idle c)
    (schedule : List Move) : Overlooks e m name (t.run schedule) :=
  run_induction schedule (fun _ move _ ho => ho.step hidle move) ho

/-- A tick overlooks the interfaces that it is not about. -/
theorem overlooks_of_not_mem (hmem : name ∉ targets e h) (hidle : ∃ c, e.slot name = .idle c)
    (schedule : List Move) : Overlooks e h.kernel name ((start e h).run schedule) := by
  refine Overlooks.run ⟨tasks_start_of_not_mem hmem, rfl, ?_, ?_⟩ hidle schedule
  · exact congrArg (·.interface name) Host.kernel_managed
  · exact congrArg (·.operations name) Host.kernel_managed

theorem Unconcerned.overlooks (hu : Unconcerned e h.kernel name) (schedule : List Move) :
    Overlooks e h.kernel name ((start e h).run schedule) := by
  obtain ⟨c, hslot, -⟩ := hu.context
  exact overlooks_of_not_mem hu.not_mem_targets ⟨c, hslot⟩ schedule

/-- Along every course, and whatever a session does next: a program of others is detached only in a
step that is about its interface, while a cycle that has something to block is at hand there; and
a tick, along any schedule, makes no call about an interface that no rule names, of which nothing
needs a cycle, and that carries neither a table nor a program of ours, and leaves it as it was. -/
theorem leaves_alone {seen : List Model} (course : Course seen t) (name : String) :
    (∀ s s' : Session, s.Meets t → s.Does s' → s'.Follows seen) ∧
    (∀ about t' q, Goes about t t' → t.host.kernel.program name = some q → q.isOurs = false →
      t'.host.kernel.program name ≠ some q → about = some name ∧ Engages seen t name) ∧
    (Unconcerned t.enforcer t.host.kernel name →
      (∀ schedule,
        let t' := (start t.enforcer t.host).run schedule
        Overlooks t.enforcer t.host.kernel name t' ∧
          ∀ move, move.interface = name → t'.step move = t') ∧
      ∀ s : Session, s.Meets t →
        let s' := (Session.resyncAll s).2
        s'.enforcer.slot name = t.enforcer.slot name ∧
          s'.host.kernel.interface name = t.host.kernel.interface name ∧
          s'.host.kernel.operations name = t.host.kernel.operations name) := by
  refine ⟨fun s s' meets does => ?_, fun about t' q step hq hforeign hlost => ?_, fun hu => ?_⟩
  · exact Session.Follows.does ⟨seen, t, List.suffix_rfl, course, meets⟩ does
  · exact course.invariant.spares step hq hforeign hlost
  obtain ⟨c, hslot, -⟩ := hu.context
  refine ⟨fun schedule => ⟨hu.overlooks schedule, fun move hname => ?_⟩, fun s meets => ?_⟩
  · exact (hu.overlooks schedule).step_eq ⟨c, hslot⟩ hname
  · obtain ⟨schedule, hmeets, -⟩ := Session.resyncAll_follows s
    rw [meets.enforcer, meets.host] at hmeets
    have ho := hu.overlooks schedule
    dsimp only
    rw [hmeets.enforcer, hmeets.host]
    exact ⟨ho.slot, ho.interface, ho.operations⟩

/-- Programs of others on two interfaces. -/
def crowded : Host :=
  .ofKernel (((Model.fresh ∅ none).tamperAttach "eth0" "other").2.tamperAttach "eth1" "other").2
    .logging

theorem course_crowded : ∃ seen, Course seen ⟨oneRule, crowded, ∅⟩ := by
  have hnew : Chronicle [] _ ⟨oneRule, .ofKernel (.fresh ∅ none) .logging, ∅⟩ :=
    .start rfl fun _ => ⟨_, rfl⟩
  have hfirst := hnew.edit (h := .ofKernel ((Model.fresh ∅ none).tamperAttach "eth0" "other").2
    .logging) (.tamperAttach "eth0" "other") rfl
  have hboth := hfirst.edit (h := crowded) (.tamperAttach "eth1" "other") rfl
  exact ⟨_, hboth.course (by decide)⟩

/-- A tick detaches a program of others from the interface that its one rule names, and along every
schedule it leaves the one on another interface alone. -/
theorem leaves_alone_elsewhere :
    let t := (start oneRule crowded).run
      (.begin "eth0" ⟨0, 0⟩ :: List.replicate 5 (.call "eth0"))
    let q : Program := ⟨100, "other"⟩
    t.host.kernel.program "eth0" = some q ∧
      (t.step (.call "eth0")).host.kernel.program "eth0" ≠ some q ∧
      (∃ seen, Course seen t ∧ Engages seen t "eth0") ∧
      ∀ schedule, ((start oneRule crowded).run schedule).host.kernel.program "eth1" =
        some ⟨101, "other"⟩ := by
  intro t q
  have hbefore : t.host.kernel.program "eth0" = some q := by decide +kernel
  have hlost : (t.step (.call "eth0")).host.kernel.program "eth0" ≠ some q := by decide +kernel
  obtain ⟨_, hstart⟩ := course_crowded
  obtain ⟨seen, -, course⟩ := (hstart.goes (.tick _)).run
    (.begin "eth0" ⟨0, 0⟩ :: List.replicate 5 (.call "eth0"))
  obtain ⟨-, hengages⟩ := (leaves_alone course "eth0").2.1 _ _ q (.move t (.call "eth0")) hbefore
    (by decide) hlost
  refine ⟨hbefore, hlost, ⟨seen, course, hengages⟩, fun schedule => ?_⟩
  have hunconcerned : Unconcerned oneRule crowded.kernel "eth1" :=
    ⟨by decide +kernel, ⟨.fresh, rfl, rfl⟩, by decide +kernel, by decide +kernel⟩
  obtain ⟨hoverlooks, -⟩ := ((leaves_alone hstart "eth1").2.2 hunconcerned).1 schedule
  have hprogram : crowded.kernel.program "eth1" = some ⟨101, "other"⟩ := by decide +kernel
  unfold Model.program at hprogram ⊢
  rwa [hoverlooks.interface]

end Tick

end IngressGuard
