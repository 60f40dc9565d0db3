import IngressGuard.Proofs.Simulation.Resync

/-!
# Every simulation converges

A simulation checks itself.  It fails if a cycle has succeeded and its interface is not as the
policy wants it, or if a cycle fails although failures have ceased.  Whatever is drawn, it comes to
neither (`Simulation.every_run_converges`).

`Trial.Succeeds` says that a trial does not fail, and its rules follow what trials are made of.
Every tick keeps `Steady`: some failure may be armed and come due at any later cycle, and what is
remembered may be wrong in any way, unless no fault was injected so far; then every cycle has
succeeded and has found nothing to repair.
-/

namespace IngressGuard

open Kernel (Model)

namespace Simulation

/-! ## Trials that do not fail -/

namespace Trial

variable {α β : Type} {s : Simulation} {w : Trial α} {Q : α → Simulation → Prop}
  {R : β → Simulation → Prop}

/-- A trial does not fail, and ends as required. -/
def Succeeds (w : Trial α) (Q : α → Simulation → Prop) (s : Simulation) : Prop :=
  ∃ a s', w.run.run s = (.ok a, s') ∧ Q a s'

theorem succeeds_pure {a : α} (h : Q a s) : Succeeds (pure a) Q s := ⟨a, s, rfl, h⟩

theorem Succeeds.bind {next : α → Trial β} (h : Succeeds w Q s)
    (hnext : ∀ a s', Q a s' → Succeeds (next a) R s') : Succeeds (w >>= next) R s := by
  obtain ⟨a, s', hrun, hQ⟩ := h
  obtain ⟨b, s'', hrun', hR⟩ := hnext a s' hQ
  refine ⟨b, s'', ?_, hR⟩
  rw [ExceptT.run_bind, StateT.run_bind, hrun]
  exact hrun'

theorem Succeeds.mono {Q' : α → Simulation → Prop} (h : Succeeds w Q s)
    (hQ : ∀ a s', Q a s' → Q' a s') : Succeeds w Q' s := by
  obtain ⟨a, s', hrun, hend⟩ := h
  exact ⟨a, s', hrun, hQ a s' hend⟩

/-- To do something that cannot fail and then go on. -/
theorem succeeds_act (act : Act α) {next : α → Trial β}
    (h : Succeeds (next (act.run s).1) R (act.run s).2) : Succeeds (liftM act >>= next) R s := h

/-- A loop that keeps an invariant, which speaks of the members that are still to come. -/
theorem succeeds_each {I : List β → Simulation → Prop} {f : β → Trial Unit}
    (hround : ∀ b rest s, I (b :: rest) s → Succeeds (f b) (fun _ => I rest) s) {l : List β}
    (h : I l s) :
    Succeeds (forIn l PUnit.unit fun b _ => do f b; pure (ForInStep.yield PUnit.unit))
      (fun _ => I []) s := by
  induction l generalizing s with
  | nil => exact succeeds_pure h
  | cons b rest ih =>
    have hfirst : Succeeds (do f b; pure (ForInStep.yield PUnit.unit))
        (fun step s' => step = .yield PUnit.unit ∧ I rest s') s :=
      (hround b rest s h).bind fun _ s' h' => succeeds_pure ⟨rfl, h'⟩
    rw [List.forIn_cons]
    refine hfirst.bind ?_
    rintro _ s' ⟨rfl, h'⟩
    exact ih h'

end Trial

/-! ## Before a tick -/

variable {names : List String} {done : Nat} {s : Simulation}

/-- What holds after some ticks: every cycle was counted, and as long as no fault was injected, all
have succeeded and found nothing to repair. -/
structure Steady (names : List String) (done : Nat) (s : Simulation) : Prop where
  fit : Fit names s.kernel s.policy s.contexts
  ticks : s.counts.ticks = done
  cycles : s.counts.cyclesOk + s.counts.cyclesFailed = done * names.length
  calm : s.counts.faultsInjected = 0 →
    Calm s.kernel s.contexts ∧ s.counts.cyclesFailed = 0 ∧ s.counts.driftRepaired = 0

theorem Fit.policy {k : Model} {p p' : PolicySnapshot} {cs : NameMap Context}
    (h : Fit names k p cs) (hp : p'.Parses) : Fit names k p' cs :=
  ⟨h.size, h.members, h.present, h.able, h.hopeful, hp⟩

theorem Fit.befalls {k k' : Model} {p : PolicySnapshot} {cs : NameMap Context}
    {fault : Option InjectedFault} (h : Fit names k p cs) (hk : InjectedFault.Befalls k fault k') :
    Fit names k' p cs where
  size := h.size
  members := h.members
  present name hname := by
    unfold Model.exists?
    rw [hk.known]
    exact h.present name hname
  able := hk.unsupported.trans h.able
  hopeful := h.hopeful
  parses := h.parses

theorem Calm.befalls {k k' : Model} {cs : NameMap Context} (h : Calm k cs)
    (hk : InjectedFault.Befalls k none k') : Calm k' cs := by
  obtain ⟨hfaults, hinterface⟩ := hk.spared rfl
  refine ⟨hfaults.trans h.noFaults, fun name c hc => ?_⟩
  rw [hinterface]
  exact h.undisturbed name c hc

/-- What a change of the policy can do.  The selectors that it brings in parse. -/
theorem churnPolicy_snd (s : Simulation) :
    ∃ churn policy changes happened journal, (churnPolicy.run s).2 = { s with
        churn, policy, happened, journal, counts := { s.counts with policyChanges := changes } } ∧
      (s.policy.Parses → policy.Parses) := by
  have hdrawn := Churn.always_event (Chance.ofFloat s.config.churnProbability) s.config.interfaces
    s.policy s.churn
  dsimp only [churnPolicy, bind, StateT.bind, get, getThe, MonadStateOf.get, StateT.get, pure, set,
    MonadStateOf.set, StateT.run]
  generalize Churn.event (Chance.ofFloat s.config.churnProbability) s.config.interfaces s.policy
    s.churn = drawn at hdrawn ⊢
  obtain ⟨_ | event, churn⟩ := drawn
  · exact ⟨_, _, _, _, _, rfl, id⟩
  · refine ⟨_, _, _, _, _, rfl, fun hparses => ?_⟩
    exact hparses.apply fun rule heq => hdrawn rule (congrArg some heq)

/-- What an injected fault can do.  It counts unless nothing came of it. -/
theorem injectFault_snd (s : Simulation) :
    let drawn := InjectedFault.inject (Chance.ofFloat s.config.faultProbability) s.interfaces
      s.kernel s.faults
    ∃ injected happened journal, (injectFault.run s).2 = { s with
        kernel := drawn.1.2, faults := drawn.2, happened, journal
        counts := { s.counts with faultsInjected := injected } } ∧
      (injected = 0 → drawn.1.1 = none ∧ s.counts.faultsInjected = 0) := by
  dsimp only [injectFault, bind, StateT.bind, get, getThe, MonadStateOf.get, StateT.get, pure, set,
    MonadStateOf.set, StateT.run]
  generalize InjectedFault.inject (Chance.ofFloat s.config.faultProbability) s.interfaces s.kernel
    s.faults = drawn
  obtain ⟨⟨_ | fault, k⟩, faults⟩ := drawn
  · exact ⟨_, _, _, rfl, fun hzero => ⟨rfl, hzero⟩⟩
  · exact ⟨_, _, _, rfl, fun hzero => absurd hzero (Nat.succ_ne_zero _)⟩

theorem steady_churnPolicy (h : Steady names done s) :
    Steady names done (churnPolicy.run s).2 := by
  obtain ⟨churn, policy, changes, happened, journal, hchurn, hparses⟩ := churnPolicy_snd s
  rw [hchurn]
  exact ⟨h.fit.policy (hparses h.fit.parses), h.ticks, h.cycles, h.calm⟩

theorem steady_injectFault (h : Steady names done s) :
    Steady names done (injectFault.run s).2 := by
  have hbefalls := InjectedFault.befalls_inject (Chance.ofFloat s.config.faultProbability)
    s.interfaces s.kernel s.faults
  obtain ⟨injected, happened, journal, hinject, hnone⟩ := injectFault_snd s
  rw [hinject]
  refine ⟨h.fit.befalls hbefalls, h.ticks, h.cycles, fun hzero => ?_⟩
  obtain ⟨hfault, hbefore⟩ := hnone hzero
  obtain ⟨hcalm, hcounts⟩ := h.calm hbefore
  dsimp only at hbefalls
  rw [hfault] at hbefalls
  exact ⟨hcalm.befalls hbefalls, hcounts⟩

/-! ## Ticks -/

theorem round_resyncAll (h : Fit names s.kernel s.policy s.contexts) :
    Round names s.interfaces s (resyncAll.run s).1 (resyncAll.run s).2 := by
  refine resyncEach_spec h ?_ Std.ExtTreeMap.nodup_keys
  intro name hname
  exact (h.members name).mp (Std.ExtTreeMap.mem_keys.mp hname)

/-- A round does not count. -/
theorem Steady.round {s' : Simulation} {served : List String}
    {outcomes : List (String × Except SyncError SyncReport)} (h : Steady names done s)
    (hround : Round names served s outcomes s') : Steady names done s' := by
  refine ⟨hround.fit, ?_, ?_, fun hzero => ?_⟩
  · rw [hround.counts, h.ticks]
  · rw [hround.counts, h.cycles]
  · rw [hround.counts] at hzero ⊢
    obtain ⟨hcalm, hcounts⟩ := h.calm hzero
    exact ⟨(hround.calm hcalm).1, hcounts⟩

/-- An interface that is as the policy wants it has no flaw. -/
theorem flaw?_eq_none {k : Model} {name : String} {wanted : DenyList}
    (h : (k.interface name).Enforces wanted) : flaw? k name wanted = none := by
  have hprogram : ((k.interface name).carriesOurs == wanted.isEmpty) = false := by
    refine beq_eq_false_iff_ne.mpr fun heq => ?_
    have hiff := h.program
    rw [heq] at hiff
    cases hempty : wanted.isEmpty <;> simp [hempty] at hiff
  have htables : ∀ f, tableMatches (wanted.get f) ((k.interface name).tables.get f) = true := by
    intro f
    rw [h.tables f, DenyList.table]
    split
    case isTrue hempty => exact hempty
    case isFalse hne => simp [tableMatches, hne]
  unfold flaw?
  simp only [hprogram, htables, Bool.false_eq_true, if_false, if_true]
  rfl

theorem verify_succeeds (number : Nat) {name : String} (h : Exact s.kernel s.policy name) :
    Trial.Succeeds (verify number name) (fun _ s' => ∃ journal, s' = { s with journal }) s := by
  obtain ⟨wanted, hwanted, henforces⟩ := h
  refine Trial.succeeds_act _ ?_
  have hread : ((Simulation.wanted name).run s).1 = .ok wanted := hwanted
  rw [hread]
  refine Trial.succeeds_act get ?_
  split
  case h_1 detail hflaw => cases (flaw?_eq_none henforces).symm.trans hflaw
  case h_2 => exact Trial.succeeds_pure ⟨_, rfl⟩

/-- What holds while the outcomes of a tick are looked at, some of which are still to come. -/
structure Reviewing (names : List String) (done : Nat)
    (rest : List (String × Except SyncError SyncReport)) (s : Simulation) : Prop where
  fit : Fit names s.kernel s.policy s.contexts
  ticks : s.counts.ticks = done
  cycles : s.counts.cyclesOk + s.counts.cyclesFailed + rest.length = (done + 1) * names.length
  exact : ∀ name report, (name, .ok report) ∈ rest → Exact s.kernel s.policy name
  calm : s.counts.faultsInjected = 0 →
    Calm s.kernel s.contexts ∧ s.counts.cyclesFailed = 0 ∧ s.counts.driftRepaired = 0 ∧
      ∀ x ∈ rest, ∃ report, x.2 = .ok report ∧ repairs report = 0

/-- The next outcome is counted, and it is not found wanting. -/
theorem review_succeeds {x : String × Except SyncError SyncReport}
    {rest : List (String × Except SyncError SyncReport)} (h : Reviewing names done (x :: rest) s) :
    Trial.Succeeds (review done x) (fun _ => Reviewing names done rest) s := by
  have hcycles := h.cycles
  rw [List.length_cons] at hcycles
  have hexact : ∀ name report, (name, .ok report) ∈ rest → Exact s.kernel s.policy name :=
    fun name report hmem => h.exact name report (.tail _ hmem)
  obtain ⟨name, cause | report⟩ := x
  · have hfault : s.counts.faultsInjected ≠ 0 := by
      intro hzero
      obtain ⟨-, -, -, hall⟩ := h.calm hzero
      obtain ⟨report, hreport, -⟩ := hall _ List.mem_cons_self
      cases hreport
    have hcount : Reviewing names done rest { s with
        counts := { s.counts with cyclesFailed := s.counts.cyclesFailed + 1 } } := by
      refine ⟨h.fit, h.ticks, ?_, hexact, fun hzero => absurd hzero hfault⟩
      show s.counts.cyclesOk + (s.counts.cyclesFailed + 1) + rest.length = _
      omega
    refine Trial.succeeds_act _ ?_
    exact ⟨_, _, rfl, hcount.fit, hcount.ticks, hcount.cycles, hcount.exact, hcount.calm⟩
  · have hcount : Reviewing names done rest { s with
        counts := { s.counts with
          cyclesOk := s.counts.cyclesOk + 1
          driftRepaired := s.counts.driftRepaired + repairs report } } := by
      refine ⟨h.fit, h.ticks, ?_, hexact, fun hzero => ?_⟩
      · show s.counts.cyclesOk + 1 + s.counts.cyclesFailed + rest.length = _
        omega
      · obtain ⟨hcalm, hfailed, hrepaired, hall⟩ := h.calm hzero
        refine ⟨hcalm, hfailed, ?_, fun x hx => hall x (.tail _ hx)⟩
        obtain ⟨_, heq, hrepairs⟩ := hall _ List.mem_cons_self
        cases heq
        show s.counts.driftRepaired + repairs report = 0
        rw [hrepaired, hrepairs]
    refine Trial.succeeds_act _ ?_
    refine Trial.Succeeds.mono (verify_succeeds done ?_) ?_
    · exact h.exact name report List.mem_cons_self
    · rintro _ _ ⟨journal, rfl⟩
      exact ⟨hcount.fit, hcount.ticks, hcount.cycles, hcount.exact, hcount.calm⟩

/-- A tick counts a cycle for every interface. -/
theorem tick_succeeds (h : Steady names done s) :
    Trial.Succeeds (tick done) (fun _ => Steady names (done + 1)) s := by
  refine Trial.succeeds_act _ (Trial.succeeds_act _ (Trial.succeeds_act _ ?_))
  have hdrawn := steady_injectFault (steady_churnPolicy h)
  generalize (injectFault.run (churnPolicy.run s).2).2 = s₁ at hdrawn ⊢
  have hround := round_resyncAll hdrawn.fit
  have hlength : (resyncAll.run s₁).1.length = names.length := by
    rw [← List.length_map (·.1), hround.told, ← hdrawn.fit.size]
    exact Std.ExtTreeMap.length_keys
  generalize resyncAll.run s₁ = resynced at hround hlength ⊢
  obtain ⟨outcomes, s₂⟩ := resynced
  have hsteady := hdrawn.round hround
  have hreviewing : Reviewing names done outcomes s₂ := by
    refine ⟨hsteady.fit, hsteady.ticks, ?_, hround.exact, fun hzero => ?_⟩
    · rw [hsteady.cycles, hlength, Nat.succ_mul]
    · obtain ⟨hcalm, hfailed, hrepaired⟩ := hsteady.calm hzero
      rw [hround.counts] at hzero
      have hbefore := (hdrawn.calm hzero).1
      refine ⟨hcalm, hfailed, hrepaired, ?_⟩
      rintro ⟨name, result⟩ hmem
      obtain ⟨report, rfl⟩ := (hround.succeeds hbefore.noFaults).2 _ hmem
      exact ⟨report, rfl, (hround.calm hbefore).2 name report hmem⟩
  refine (Trial.succeeds_each (fun _ _ _ => review_succeeds) hreviewing).bind fun _ s₃ h₃ => ?_
  refine ⟨_, _, rfl, h₃.fit, congrArg (· + 1) h₃.ticks, h₃.cycles, fun hzero => ?_⟩
  obtain ⟨hcalm, hfailed, hrepaired, -⟩ := h₃.calm hzero
  exact ⟨hcalm, hfailed, hrepaired⟩

theorem ticks_succeeds (count : Nat) (h : Steady names 0 s) :
    Trial.Succeeds (ticks count) (fun _ => Steady names count) s := by
  -- The ticks to come are those from the number of ticks done on.
  let I (rest : List Nat) (s : Simulation) : Prop :=
    ∃ done, rest = List.range' done rest.length ∧ done + rest.length = count ∧ Steady names done s
  have hround : ∀ number rest s, I (number :: rest) s →
      Trial.Succeeds (tick number) (fun _ => I rest) s := by
    rintro number rest s ⟨done, hrest, hcount, hsteady⟩
    rw [List.length_cons, List.range'_succ, List.cons.injEq] at hrest
    obtain ⟨rfl, hrest⟩ := hrest
    rw [List.length_cons] at hcount
    refine (tick_succeeds hsteady).mono fun _ s' hs' => ⟨number + 1, hrest, ?_, hs'⟩
    omega
  have hstart : I (List.range count) s := by
    refine ⟨0, ?_, ?_, h⟩
    · rw [List.length_range, List.range_eq_range']
    · rw [List.length_range, Nat.zero_add]
  refine (Trial.succeeds_each hround hstart).bind ?_
  rintro _ s' ⟨done, -, rfl, hsteady⟩
  exact Trial.succeeds_pure hsteady

/-! ## Runs -/

theorem steady_clearFaults (h : Steady names done s) :
    Steady names done { s with kernel := s.kernel.clearFaults } := by
  refine ⟨⟨h.fit.size, h.fit.members, h.fit.present, h.fit.able, h.fit.hopeful, h.fit.parses⟩,
    h.ticks, h.cycles, fun hzero => ?_⟩
  obtain ⟨hcalm, hcounts⟩ := h.calm hzero
  exact ⟨⟨rfl, hcalm.undisturbed⟩, hcounts⟩

/-- Without failures, a round succeeds on every interface. -/
theorem Round.all_exact {s' : Simulation} {served : List String}
    {outcomes : List (String × Except SyncError SyncReport)} (h : Round names served s outcomes s')
    (hfaults : s.kernel.faults = .none) :
    (∀ x ∈ outcomes, ∃ report, x.2 = .ok report ∧ Exact s'.kernel s'.policy x.1) ∧
      ∀ name ∈ served, Exact s'.kernel s'.policy name := by
  have hall : ∀ x ∈ outcomes, ∃ report, x.2 = .ok report ∧ Exact s'.kernel s'.policy x.1 := by
    rintro ⟨name, result⟩ hmem
    obtain ⟨report, rfl⟩ := (h.succeeds hfaults).2 _ hmem
    exact ⟨report, rfl, h.exact name report hmem⟩
  refine ⟨hall, fun name hname => ?_⟩
  rw [← h.told] at hname
  obtain ⟨x, hx, rfl⟩ := List.mem_map.mp hname
  exact (hall x hx).elim fun report hreport => hreport.2

theorem reviewFinals_succeed (number : Nat)
    {outcomes : List (String × Except SyncError SyncReport)}
    (h : ∀ x ∈ outcomes, ∃ report, x.2 = .ok report ∧ Exact s.kernel s.policy x.1) :
    Trial.Succeeds (forIn outcomes PUnit.unit fun outcome _ => do
        reviewFinal number outcome
        pure (ForInStep.yield PUnit.unit))
      (fun _ s' => ∃ journal, s' = { s with journal }) s := by
  let I (rest : List (String × Except SyncError SyncReport)) (s' : Simulation) : Prop :=
    (∀ x ∈ rest, ∃ report, x.2 = .ok report ∧ Exact s.kernel s.policy x.1) ∧
      ∃ journal, s' = { s with journal }
  have hround : ∀ x rest s', I (x :: rest) s' →
      Trial.Succeeds (reviewFinal number x) (fun _ => I rest) s' := by
    rintro ⟨name, result⟩ rest _ ⟨hall, journal, rfl⟩
    obtain ⟨report, rfl, hexact⟩ := hall _ List.mem_cons_self
    refine Trial.Succeeds.mono (verify_succeeds number hexact) ?_
    rintro _ _ ⟨journal', rfl⟩
    exact ⟨fun x hx => hall x (.tail _ hx), journal', rfl⟩
  exact (Trial.succeeds_each hround ⟨h, s.journal, rfl⟩).mono fun _ _ hend => hend.2

/-- A run ends well, and then every interface is as the policy wants it. -/
theorem run_succeeds (count : Nat) (h : Steady names 0 s) :
    Trial.Succeeds (run count) (fun report s' =>
      Steady names count s' ∧ report.counts = s'.counts ∧
        ∀ name ∈ names, Exact s'.kernel s'.policy name) s := by
  refine (ticks_succeeds count h).bind fun _ s₁ h₁ => ?_
  refine Trial.succeeds_act (modify _) (Trial.succeeds_act _ ?_)
  have hcleared := steady_clearFaults h₁
  have hround := round_resyncAll hcleared.fit
  have hsteady := hcleared.round hround
  obtain ⟨hall, hexact⟩ := hround.all_exact rfl
  refine (reviewFinals_succeed count hall).bind ?_
  rintro _ _ ⟨journal, rfl⟩
  refine ⟨_, _, rfl, ⟨hsteady.fit, hsteady.ticks, hsteady.cycles, hsteady.calm⟩, rfl, ?_⟩
  intro name hname
  exact hexact name (Std.ExtTreeMap.mem_keys.mpr ((hcleared.fit.members name).mpr hname))

/-! ## Before the first tick -/

theorem nodup_interfaceNames (config : ChaosConfig) : config.interfaceNames.Nodup := by
  refine List.pairwise_map.mpr (List.nodup_range.imp fun {i j} hne heq => hne ?_)
  have hdigits : i.repr = j.repr := (String.append_right_inj "eth").mp heq
  calc
    i = Nat.ofDigitChars 10 i.repr.toList 0 := by
      rw [Nat.toList_repr, Nat.ofDigitChars_ten_toDigits]
    _ = j := by rw [hdigits, Nat.toList_repr, Nat.ofDigitChars_ten_toDigits]

/-- At the start, nothing is remembered about the interfaces that there are. -/
theorem getElem?_fresh {l : List String} {cs : NameMap Context} (name : String) :
    (l.foldl (fun m name => m.insert name Context.fresh) cs)[name]? =
      if name ∈ l then some Context.fresh else cs[name]? := by
  induction l generalizing cs with
  | nil => simp
  | cons first rest ih =>
    rw [List.foldl_cons, ih]
    by_cases hfirst : name = first
    · subst hfirst
      simp
    · simp [hfirst, NameMap.getElem?_insert_other hfirst]

theorem size_fresh {l : List String} {cs : NameMap Context} (hnodup : l.Nodup)
    (hnew : ∀ name ∈ l, name ∉ cs) :
    (l.foldl (fun m name => m.insert name Context.fresh) cs).size = cs.size + l.length := by
  induction l generalizing cs with
  | nil => rfl
  | cons first rest ih =>
    obtain ⟨hfirst, hnodup⟩ := List.nodup_cons.mp hnodup
    have hnot : first ∉ cs := hnew first List.mem_cons_self
    have hrest : ∀ name ∈ rest, name ∉ cs.insert first Context.fresh := by
      intro name hname hmem
      rw [Std.ExtTreeMap.mem_insert, Std.LawfulEqCmp.compare_eq_iff_eq] at hmem
      rcases hmem with rfl | hmem
      · exact hfirst hname
      · exact hnew name (.tail _ hname) hmem
    rw [List.foldl_cons, ih hnodup hrest, Std.ExtTreeMap.size_insert,
      if_neg (mt Std.ExtTreeMap.mem_iff_contains.mpr hnot), List.length_cons]
    omega

theorem steady_ofDraws (seed : UInt64) (config : ChaosConfig) (faults churn : Draws) :
    Steady config.interfaceNames 0 (ofDraws seed config faults churn) := by
  have hget : ∀ name, (ofDraws seed config faults churn).contexts[name]? =
      if name ∈ config.interfaceNames then some Context.fresh else none := by
    intro name
    refine (getElem?_fresh name).trans ?_
    rw [Std.ExtTreeMap.getElem?_empty]
  have hfresh : ∀ (name : String) (c : Context),
      (ofDraws seed config faults churn).contexts[name]? = some c → c = Context.fresh := by
    intro name c hc
    rw [hget] at hc
    split at hc
    · exact (Option.some.inj hc).symm
    · cases hc
  have hsize := size_fresh (nodup_interfaceNames config)
    fun (name : String) _ => (Std.ExtTreeMap.not_mem_empty : name ∉ (∅ : NameMap Context))
  refine ⟨⟨?_, fun name => ?_, fun name hname => ?_, rfl, ?_, PolicySnapshot.parses_empty⟩, rfl,
    (Nat.zero_mul _).symm, fun _ => ⟨⟨rfl, ?_⟩, rfl, rfl⟩⟩
  · rw [Std.ExtTreeMap.size_empty, Nat.zero_add] at hsize
    exact hsize
  · rw [Std.ExtTreeMap.mem_iff_isSome_getElem?, hget]
    split <;> simp [*]
  · show (TextSet.ofList config.interfaceNames).contains name = true
    exact Std.ExtTreeSet.mem_iff_contains.mp (TextSet.mem_ofList.mpr hname)
  · intro name c hc
    rw [hfresh name c hc]
    rfl
  · intro name c hc
    rw [hfresh name c hc]
    exact Context.undisturbed_fresh rfl

/-- Whatever is drawn, and however likely faults and changes of the policy are: a simulation of any
length does not fail, and in the end every interface is as the policy wants it.  In every tick, a
cycle of every interface is counted as having succeeded or failed.  If no fault was injected, none
has failed and none had anything to repair. -/
theorem every_run_converges (seed : UInt64) (config : ChaosConfig) (faults churn : Draws)
    (count : Nat) :
    ∃ report s, (run count).run (ofDraws seed config faults churn) = (.ok report, s) ∧
      report.counts.ticks = count ∧
      report.counts.cyclesOk + report.counts.cyclesFailed = count * config.interfaces ∧
      (report.counts.faultsInjected = 0 →
        report.counts.cyclesFailed = 0 ∧ report.counts.driftRepaired = 0) ∧
      ∀ name ∈ config.interfaceNames, ∃ wanted, s.policy.denyList name = .ok wanted ∧
        (s.kernel.interface name).Enforces wanted := by
  obtain ⟨report, s, hrun, hsteady, hcounts, hexact⟩ :=
    run_succeeds count (steady_ofDraws seed config faults churn)
  refine ⟨report, s, hrun, ?_, ?_, ?_, hexact⟩
  · rw [hcounts, hsteady.ticks]
  · rw [hcounts, hsteady.cycles, ChaosConfig.interfaceNames, List.length_map, List.length_range]
  · rw [hcounts]
    exact fun hzero => (hsteady.calm hzero).2

end Simulation

end IngressGuard
