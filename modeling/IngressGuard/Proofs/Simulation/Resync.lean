import IngressGuard.Proofs.Cycle.Drift
import IngressGuard.Proofs.Enforcer.Convergence
import IngressGuard.Proofs.Simulation.Draws
import IngressGuard.Simulation

/-!
# A round of cycles

A simulation runs one cycle on each interface, one after another, against one kernel, in which
failures may be armed.  A cycle that succeeds has left its interface exactly as the policy wants
it, and the cycles after it do not disturb that, since they are about other interfaces
(`Simulation.resyncEach_spec`).  Without failures all of them succeed, and where nobody has
tampered with anything, they have nothing to repair.
-/

namespace IngressGuard

open Kernel (Behaviour Call Model InterfaceState Work Procedure)

/-! ## Interfaces that can carry programs -/

/-- A kernel of which nothing is known but that its interfaces can carry programs. -/
def Kernel.Behaviour.able : Behaviour Unit
  | .probe, _, .ok answer, _ => answer = Probe.supported
  | _, _, _, _ => True

theorem Kernel.Model.able_answer {m : Model} (hm : m.unsupported = ∅) (name : String) (c : Call) :
    Behaviour.able c () (m.answer name c).1 () := by
  cases c with
  | probe =>
    show Behaviour.able .probe () (m.probe name).1 ()
    have hnone : m.unsupported[name]? = none := by simp [hm]
    unfold Model.probe
    rw [hnone]
    split
    · exact trivial
    · exact rfl
  | _ => exact trivial

namespace Hook

open Kernel.Work

variable {name : String}

/-- What is remembered is not that the interface cannot carry programs. -/
def Hopeful (h : Hook) : Prop := h.isUnsupported = false

theorem preserves_move {f : Hook → Hook} (hf : ∀ h, (f h).state ≠ .unsupported) :
    Preserves .able Hopeful (Work.modify f : HookWork Unit) :=
  preserves_modify fun h _ => beq_eq_false_iff_ne.mpr (hf h)

theorem preserves_probe : Preserves .able Hopeful (probe name) := by
  refine preserves_get.bind fun h => ?_
  split
  · exact preserves_pure _
  · intro h k hh
    refine ensures_bind.mpr (ensures_call.mpr fun b k' hb => ?_)
    cases b with
    | error e => exact hh
    | ok answer =>
      obtain rfl : answer = Probe.supported := hb
      exact ensures_bind.mpr (ensures_modify.mpr (ensures_pure.mpr hh))

theorem preserves_requireSupport : Preserves .able Hopeful (requireSupport name) := by
  refine preserves_get.bind fun h => ?_
  split
  · exact preserves_fail _
  · exact preserves_pure _

theorem preserves_ensureSupported : Preserves .able Hopeful (ensureSupported name) :=
  preserves_probe.bind fun _ => preserves_requireSupport

theorem preserves_adopt (p : Program) : Preserves .able Hopeful (adopt name p) := by
  refine preserves_get.bind fun h => ?_
  have hend : ∀ events, Preserves .able Hopeful (do
      Work.modify fun h => { h with program := some p, state := .attached }
      return events : HookWork (List HookEvent)) :=
    fun events => Preserves.bind (preserves_move fun _ => nofun) fun _ => preserves_pure _
  dsimp only
  split
  · exact (preserves_note _).bind fun _ => (preserves_pure _).bind hend
  · split
    · exact (preserves_note _).bind fun _ => (preserves_pure _).bind hend
    · exact (preserves_pure _).bind hend

theorem preserves_attach (foreign : Option Program) :
    Preserves .able Hopeful (attach name foreign) := by
  refine preserves_get.bind fun h => ?_
  have hcall : ∀ (next : BindingState) (events : Program → List HookEvent), next ≠ .unsupported →
      Preserves .able Hopeful (do
        Work.modify fun h => { h with program := none, state := next }
        let current : Program ← Work.call .attach (.attachFailed name)
        tell .info "Program attached" name [idField current]
        Work.modify fun h => { h with program := some current, state := .attached }
        return events current : HookWork (List HookEvent)) := fun next events hnext =>
    Preserves.bind (preserves_move fun _ => hnext) fun _ => (preserves_call _ _).bind fun current =>
      (preserves_note _).bind fun _ => Preserves.bind (preserves_move fun _ => nofun) fun _ =>
        preserves_pure _
  have hnext : ∀ drifted : Bool, (if drifted || foreign.isSome then BindingState.reattaching
      else .attaching) ≠ .unsupported := by
    intro drifted
    split <;> exact nofun
  dsimp only
  split
  · exact (preserves_note _).bind fun _ => hcall _ _ (hnext _)
  · exact hcall _ _ (hnext _)

theorem preserves_ensureAttached : Preserves .able Hopeful (ensureAttached name) := by
  refine preserves_ensureSupported.bind fun _ => (preserves_call _ _).bind fun found => ?_
  split
  · exact preserves_attach none
  · split
    · exact preserves_adopt _
    · exact (preserves_note _).bind fun _ => (preserves_call _ _).bind fun _ => preserves_attach _

theorem preserves_ensureDetached : Preserves .able Hopeful (ensureDetached name) := by
  refine preserves_get.bind fun h => ?_
  have hend : ∀ events, Preserves .able Hopeful (do
      Work.modify fun h => { h with program := none, state := .noProgram }
      return events : HookWork (List HookEvent)) :=
    fun events => Preserves.bind (preserves_move fun _ => nofun) fun _ => preserves_pure _
  split
  · exact preserves_pure _
  · refine (preserves_call _ _).bind fun found => ?_
    split
    · exact (preserves_pure _).bind hend
    · split
      · exact Preserves.bind (preserves_move fun _ => nofun) fun _ =>
          (preserves_call _ _).bind fun _ => (preserves_note _).bind fun _ =>
            (preserves_pure _).bind hend
      · exact (preserves_note _).bind fun _ => (preserves_pure _).bind hend

end Hook

namespace Context

open Kernel.Work

variable {name : String} {wanted : DenyList} {mode : SyncMode} {c : Context} {m : Model}

theorem preserves_onHook {α : Type} {w : Hook.HookWork α} (h : Preserves .able Hook.Hopeful w) :
    Preserves .able (fun c : Context => c.hook.Hopeful) (onHook w) :=
  h.focus (fun _ hc => hc) fun _ _ _ hh => hh

theorem preserves_applyAndBind :
    Preserves .able (fun c : Context => c.hook.Hopeful) (applyAndBind name wanted mode) := by
  have htables : Preserves .able (fun c : Context => c.hook.Hopeful)
      (onTables (BlockTables.apply name wanted mode.baseline)) :=
    (preserves_true _).focus (fun _ _ => trivial) fun _ _ hc _ => hc
  refine (preserves_onHook Hook.preserves_requireSupport).bind fun _ => ?_
  split
  · exact (preserves_onHook Hook.preserves_ensureDetached).bind fun _ =>
      htables.bind fun _ => preserves_pure _
  · exact (preserves_onHook Hook.preserves_ensureSupported).bind fun _ => htables.bind fun _ =>
      (preserves_onHook Hook.preserves_ensureAttached).bind fun _ => preserves_pure _

/-- On a kernel of which all interfaces can carry programs, no cycle comes to think otherwise. -/
theorem hopeful_cycle (now : Timestamp) (hm : m.unsupported = ∅) (hc : c.hook.Hopeful) :
    ((c.cycle name wanted mode now).eval (Model.answer name) m).1.2.hook.Hopeful := by
  have hable : (c.cycle name wanted mode now).Ensures .able (fun r _ => r.2.hook.Hopeful) () := by
    rw [cycle_eq_conclude]
    refine Procedure.ensures_bind.mpr
      (Procedure.Ensures.mono (preserves_applyAndBind (c.beginAttempt now) () hc) ?_)
    rintro ⟨e | ⟨report, events⟩, c'⟩ _ hc'
    · exact Procedure.ensures_done.mpr hc'
    · exact Procedure.ensures_note.mpr (Procedure.ensures_done.mpr hc')
  have hstep : ∀ call (k : Model) b k', k.unsupported = ∅ →
      Behaviour.ofAnswer (Model.answer name) call k b k' →
        k'.unsupported = ∅ ∧ Behaviour.able call () b () := by
    intro call k b k' hk hanswer
    have hagrees := Model.agreesBesides_answer name k call
    have hable := Model.able_answer hk name call
    rw [show k.answer name call = (b, k') from hanswer] at hagrees hable
    exact ⟨hagrees.unsupported.trans hk, hable⟩
  exact (Procedure.Ensures.simulate hstep hm hable).eval.2

end Context

namespace Simulation

open Context (Undisturbed)

variable {name : String} {wanted : DenyList} {c : Context} {m : Model}

/-! ## One cycle -/

/-- What becomes of an interface and of what is remembered about it by a cycle. -/
structure Cycled (name : String) (wanted : DenyList) (c : Context) (m : Model)
    (result : Except CycleError SyncReport) (c' : Context) (m' : Model) : Prop where
  frame : Model.AgreesBesides name m m'
  hopeful : c'.hook.Hopeful
  enforces : ∀ report, result = .ok report → (m'.interface name).Enforces wanted
  succeeds : m.faults = .none → ∃ report, result = .ok report
  /-- Without failures and tampering, there is nothing to repair. -/
  calm : m.faults = .none → Undisturbed c (m.interface name) false →
    Undisturbed c' (m'.interface name) false ∧ ∀ report, result = .ok report → repairs report = 0

theorem repairs_eq_zero {report : SyncReport} (hdrift : report.apply.drift = [])
    (hquiet : Hook.Quiet report.hookEvents) : repairs report = 0 := by
  have hevents : report.hookEvents.countP HookEvent.isDrift = 0 := by
    rw [List.countP_eq_zero]
    intro e he
    rw [hquiet e he]
    exact Bool.false_ne_true
  rw [repairs, hdrift, hevents]
  rfl

theorem cycled (filed : wanted.WellFiled) (now : Timestamp) (hpresent : m.exists? name = true)
    (hm : m.unsupported = ∅) (hc : c.hook.Hopeful) :
    let run := (c.cycle name wanted .resync now).eval (Model.answer name) m
    Cycled name wanted c m run.1.1 run.1.2 run.2.1 := by
  intro run
  have hhealthy : m.faults = .none → m.Healthy name :=
    fun hfaults => ⟨hfaults, hpresent, by simp [hm]⟩
  obtain ⟨hend, hok, -⟩ := Context.cycle_heals c m name wanted filed .resync now
  have hsucceeds : m.faults = .none → ∃ report, run.1.1 = .ok report :=
    fun hfaults => hok (hhealthy hfaults) hc
  refine ⟨?_, Context.hopeful_cycle now hm hc, fun report hreport => ?_, hsucceeds, ?_⟩
  · have hany : True ∨ m.Healthy name := .inl trivial
    exact (Context.ensures_cycle_answer c .resync filed now hany).eval.1
  · obtain ⟨htables, hprogram, -⟩ := hend report hreport
    exact ⟨htables (Context.effectiveMode_resync c), hprogram⟩
  · intro hfaults hu
    have hcycle : (c.cycle name wanted .resync now).Ensures (InterfaceState.behaviour False) _
        (m.interface name) := hu.ensures_cycle filed now
    obtain ⟨-, hleft, hcandid⟩ := (Model.ensures_answer (.inr (hhealthy hfaults)) hcycle).eval
    obtain ⟨report, hreport⟩ := hsucceeds hfaults
    have hwhole : Context.tornAfter false (c.effectiveMode .resync) run.1.1 = false := by
      rw [hreport]
      rfl
    refine ⟨hwhole ▸ hleft, fun report' hreport' => ?_⟩
    have hcandid := hcandid report' hreport'
    exact repairs_eq_zero (hcandid.drift_eq_nil hu) hcandid.hook

/-! ## Rounds -/

/-- What every moment of a simulation has: something is remembered about the interfaces that there
are, all of which exist and can carry programs, and the policy translates. -/
structure Fit (names : List String) (k : Model) (p : PolicySnapshot) (cs : NameMap Context) :
    Prop where
  size : cs.size = names.length
  members : ∀ name, name ∈ cs ↔ name ∈ names
  present : ∀ name ∈ names, k.exists? name = true
  able : k.unsupported = ∅
  hopeful : ∀ (name : String) (c : Context), cs[name]? = some c → c.hook.Hopeful
  parses : p.Parses

/-- Nobody has tampered with anything, and no failure is armed. -/
structure Calm (k : Model) (cs : NameMap Context) : Prop where
  noFaults : k.faults = .none
  undisturbed : ∀ (name : String) (c : Context), cs[name]? = some c →
    Undisturbed c (k.interface name) false

/-- An interface is exactly as the policy wants it. -/
def Exact (k : Model) (p : PolicySnapshot) (name : String) : Prop :=
  ∃ wanted, p.denyList name = .ok wanted ∧ (k.interface name).Enforces wanted

/-- What becomes of a simulation by cycles on some interfaces, one after another. -/
structure Round (names served : List String) (s : Simulation)
    (outcomes : List (String × Except SyncError SyncReport)) (s' : Simulation) : Prop where
  policy : s'.policy = s.policy
  counts : s'.counts = s.counts
  fit : Fit names s'.kernel s'.policy s'.contexts
  others : ∀ other ∉ served, s'.kernel.interface other = s.kernel.interface other
  told : outcomes.map (·.1) = served
  exact : ∀ name report, (name, .ok report) ∈ outcomes → Exact s'.kernel s'.policy name
  succeeds : s.kernel.faults = .none →
    s'.kernel.faults = .none ∧ ∀ x ∈ outcomes, ∃ report, x.2 = .ok report
  calm : Calm s.kernel s.contexts →
    Calm s'.kernel s'.contexts ∧ ∀ name report, (name, .ok report) ∈ outcomes → repairs report = 0

variable {names served : List String} {s s₁ s₂ : Simulation}
  {outcomes more : List (String × Except SyncError SyncReport)}

theorem Round.nil (h : Fit names s.kernel s.policy s.contexts) : Round names [] s [] s where
  policy := rfl
  counts := rfl
  fit := h
  others _ _ := rfl
  told := rfl
  exact := by simp
  succeeds hfaults := ⟨hfaults, by simp⟩
  calm hcalm := ⟨hcalm, by simp⟩

/-- The cycles of a round do not disturb each other. -/
theorem Round.append {next : List String} (h : Round names served s outcomes s₁)
    (h' : Round names next s₁ more s₂) (hdisjoint : ∀ name ∈ served, name ∉ next) :
    Round names (served ++ next) s (outcomes ++ more) s₂ where
  policy := h'.policy.trans h.policy
  counts := h'.counts.trans h.counts
  fit := h'.fit
  others other hother := by
    rw [List.mem_append, not_or] at hother
    exact (h'.others other hother.2).trans (h.others other hother.1)
  told := by rw [List.map_append, h.told, h'.told]
  exact name report hmem := by
    rcases List.mem_append.mp hmem with hmem | hmem
    · obtain ⟨wanted, hwanted, henforces⟩ := h.exact name report hmem
      have hserved : name ∈ served := by
        rw [← h.told]
        exact List.mem_map.mpr ⟨_, hmem, rfl⟩
      refine ⟨wanted, ?_, ?_⟩
      · rw [h'.policy, hwanted]
      · rw [h'.others name (hdisjoint name hserved)]
        exact henforces
    · exact h'.exact name report hmem
  succeeds hfaults := by
    obtain ⟨hfaults₁, hall₁⟩ := h.succeeds hfaults
    obtain ⟨hfaults₂, hall₂⟩ := h'.succeeds hfaults₁
    refine ⟨hfaults₂, fun x hx => ?_⟩
    rcases List.mem_append.mp hx with hx | hx
    · exact hall₁ x hx
    · exact hall₂ x hx
  calm hcalm := by
    obtain ⟨hcalm₁, hall₁⟩ := h.calm hcalm
    obtain ⟨hcalm₂, hall₂⟩ := h'.calm hcalm₁
    refine ⟨hcalm₂, fun name report hmem => ?_⟩
    rcases List.mem_append.mp hmem with hmem | hmem
    · exact hall₁ name report hmem
    · exact hall₂ name report hmem

theorem resync_eq (hwanted : s.policy.denyList name = .ok wanted)
    (hc : s.contexts[name]? = some c) :
    let run := (c.cycle name wanted .resync s.moment).eval (Model.answer name) s.kernel
    ∃ journal, resync name s = (run.1.1.mapError .cycle,
      { s with kernel := run.2.1, contexts := s.contexts.insert name run.1.2, journal }) := by
  have hjoin : PolicySnapshot.joinTranslations (s.policy.translations name) DenyList.empty =
    .ok wanted := hwanted
  obtain rfl : s.contexts[name]?.getD .fresh = c := by rw [hc]; rfl
  intro run
  refine ⟨run.2.2.reverse ++
    ((PolicySnapshot.translationLog name (s.policy.translations name)).reverse ++ s.journal), ?_⟩
  dsimp only [resync, Simulation.wanted, tell, bind, StateT.bind, get, getThe, MonadStateOf.get,
    StateT.get, pure, StateT.pure, modify, modifyGet, MonadStateOf.modifyGet, StateT.modifyGet]
  rw [hjoin]
  rfl

/-- What holds of a new value and of the values under other names holds after the new value is
filed. -/
theorem forall_insert {cs : NameMap Context} {P : String → Context → Prop} (hc : P name c)
    (h : ∀ other c', other ≠ name → cs[other]? = some c' → P other c') :
    ∀ (other : String) (c' : Context), (cs.insert name c)[other]? = some c' → P other c' := by
  intro other c' hc'
  by_cases hother : other = name
  · subst hother
    rw [NameMap.getElem?_insert_same] at hc'
    cases hc'
    exact hc
  · rw [NameMap.getElem?_insert_other hother] at hc'
    exact h other c' hother hc'

/-- What is remembered about one interface is replaced. -/
theorem Fit.insert {k k' : Model} {p : PolicySnapshot} {cs : NameMap Context}
    (h : Fit names k p cs) (hname : name ∈ names) (hframe : Model.AgreesBesides name k k')
    (hc : c.hook.Hopeful) : Fit names k' p (cs.insert name c) where
  size := by
    have hcontains := Std.ExtTreeMap.mem_iff_contains.mp ((h.members name).mpr hname)
    rw [Std.ExtTreeMap.size_insert, if_pos hcontains, h.size]
  members other := by
    rw [Std.ExtTreeMap.mem_insert, Std.LawfulEqCmp.compare_eq_iff_eq, h.members]
    constructor
    · rintro (rfl | hother)
      · exact hname
      · exact hother
    · exact .inr
  present other hother := by
    unfold Model.exists?
    rw [hframe.known]
    exact h.present other hother
  able := hframe.unsupported.trans h.able
  hopeful := forall_insert hc fun other c' _ => h.hopeful other c'
  parses := h.parses

theorem Calm.insert {k k' : Model} {cs : NameMap Context} (h : Calm k cs)
    (hframe : Model.AgreesBesides name k k') (hc : Undisturbed c (k'.interface name) false) :
    Calm k' (cs.insert name c) where
  noFaults := hframe.noFaults h.noFaults
  undisturbed := by
    refine forall_insert hc fun other c' hother hc' => ?_
    rw [hframe.others other hother]
    exact h.undisturbed other c' hc'

theorem round_resync (h : Fit names s.kernel s.policy s.contexts) (hname : name ∈ names) :
    Round names [name] s [(name, (resync name s).1)] (resync name s).2 := by
  obtain ⟨wanted, hwanted⟩ := h.parses.denyList name
  obtain ⟨c, hc⟩ : ∃ c, s.contexts[name]? = some c :=
    Option.isSome_iff_exists.mp
      (Std.ExtTreeMap.mem_iff_isSome_getElem?.mp ((h.members name).mpr hname))
  have hcycled := cycled (PolicySnapshot.wellFiled_denyList hwanted) s.moment (h.present name hname)
    h.able (h.hopeful name c hc)
  obtain ⟨journal, hrun⟩ := resync_eq hwanted hc
  rw [hrun]
  generalize (c.cycle name wanted .resync s.moment).eval (Model.answer name) s.kernel = run
    at hcycled
  obtain ⟨⟨result, c'⟩, m', log⟩ := run
  have hreported : ∀ name' report, (name', .ok report) ∈ [(name, result.mapError SyncError.cycle)] →
      name' = name ∧ result = .ok report := by
    intro name' report hmem
    obtain ⟨rfl, hreport⟩ := Prod.mk.inj (List.mem_singleton.mp hmem)
    cases result with
    | error e => cases hreport
    | ok report' =>
      cases hreport
      exact ⟨rfl, rfl⟩
  refine ⟨rfl, rfl, h.insert hname hcycled.frame hcycled.hopeful, ?_, rfl, ?_, ?_, ?_⟩
  · intro other hother
    exact hcycled.frame.others other fun heq => hother (List.mem_singleton.mpr heq)
  · intro name' report hmem
    obtain ⟨rfl, hreport⟩ := hreported name' report hmem
    exact ⟨wanted, hwanted, hcycled.enforces report hreport⟩
  · intro hfaults
    refine ⟨hcycled.frame.noFaults hfaults, fun x hx => ?_⟩
    obtain ⟨report, rfl⟩ := hcycled.succeeds hfaults
    rw [List.mem_singleton.mp hx]
    exact ⟨report, rfl⟩
  · intro hcalm
    obtain ⟨hleft, hrepairs⟩ := hcycled.calm hcalm.noFaults (hcalm.undisturbed name c hc)
    refine ⟨hcalm.insert hcycled.frame hleft, fun name' report hmem => ?_⟩
    exact hrepairs report (hreported name' report hmem).2

/-- Cycles on some interfaces, one after another, are a round. -/
theorem resyncEach_spec (h : Fit names s.kernel s.policy s.contexts) (hserved : served ⊆ names)
    (hnodup : served.Nodup) :
    Round names served s (resyncEach served s).1 (resyncEach served s).2 := by
  induction served generalizing s with
  | nil => exact .nil h
  | cons name rest ih =>
    obtain ⟨hname, hrest⟩ := List.cons_subset.mp hserved
    obtain ⟨hnot, hnodup⟩ := List.nodup_cons.mp hnodup
    have hfirst := round_resync h hname
    refine hfirst.append (ih hfirst.fit hrest hnodup) ?_
    intro name' hname'
    rw [List.mem_singleton.mp hname']
    exact hnot

end Simulation

end IngressGuard
