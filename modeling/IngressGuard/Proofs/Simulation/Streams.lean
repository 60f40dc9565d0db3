import IngressGuard.Proofs.Simulation.Convergence

/-!
# What is drawn for faults

Faults and changes of the policy are drawn from streams of their own, so that a policy that changes
more often does not take words away from the faults.  The kernel has a say in it all the same: which
entry a fault deletes is drawn only if there is one, and how many words that takes depends on how
many there are.  Two runs over one stream of faults read it from the same places if and only if they
spend equally many words on that (`Simulation.faults_aligned_iff`); nothing else in a tick shifts
the stream, whatever the policy is and whatever the kernel holds.

`Draws.skip` and `Draws.wordsBelow` count words, `FaultAttempt.carryOut_snd` says how many an
attempt takes, and `Act.Keeps` says of the rest of a tick that it reads none of them.
-/

namespace IngressGuard

open Kernel (Model)

/-! ## Words that are read -/

namespace Draws

variable {d : Draws} {m n : Nat}

/-- The same stream, to be read some words further on. -/
def skip (d : Draws) (count : Nat) : Draws := { d with place := d.place + count }

/-- How many words it takes to draw a number below a bound. -/
def wordsBelow (d : Draws) (bound : Nat) : Nat :=
  if (d.words d.place).toNat * bound % Nat.pow 2 32 ≤ Nat.pow 2 32 - bound then 1 else 2

theorem wordsBelow_ne_zero (d : Draws) (bound : Nat) : d.wordsBelow bound ≠ 0 := by
  unfold wordsBelow
  split <;> simp

theorem skip_skip : (d.skip m).skip n = d.skip (m + n) :=
  congrArg (Draws.mk d.words) (Nat.add_assoc d.place m n)

theorem skip_inj : d.skip m = d.skip n ↔ m = n := by
  constructor
  · intro h
    exact Nat.add_left_cancel (congrArg Draws.place h)
  · exact congrArg d.skip

end Draws

namespace Draw

/-- Nothing is read. -/
def Idle {α : Type} (w : Draw α) : Prop := ∀ d, (w d).2 = d

theorem idle_pure {α : Type} (a : α) : Idle (pure a) := fun _ => rfl

/-- What is done with what was drawn reads nothing more. -/
theorem bind_snd {α β : Type} {w : Draw α} {next : α → Draw β} (h : ∀ a, Idle (next a))
    (d : Draws) : ((w >>= next) d).2 = (w d).2 := h _ _

theorem below_snd (bound : Nat) (d : Draws) : (below bound d).2 = d.skip (d.wordsBelow bound) := by
  dsimp only [below, word, Draws.wordsBelow, bind, StateT.bind, pure, StateT.pure]
  split <;> rfl

end Draw

/-! ## Attempts -/

namespace FaultAttempt

open Draw

/-- How many words it takes to choose the entry that is to be deleted, if one is. -/
def choiceWords (a : FaultAttempt) (k : Model) (d : Draws) : Nat :=
  match a.kind with
  | .deleteEntry =>
    if (entries k a.interface).isEmpty then 0 else d.wordsBelow (entries k a.interface).length
  | _ => 0

/-- How many words an attempt of any other kind takes. -/
def otherWords (a : FaultAttempt) (d : Draws) : Nat :=
  match a.kind with
  | .insertEntry => 2
  | .deleteTable => d.wordsBelow Family.all.length
  | .failWrite => d.wordsBelow 4
  | _ => 0

/-- Of all that an attempt reads, only the choice of an entry depends on the kernel. -/
theorem carryOut_snd (a : FaultAttempt) (k : Model) (d : Draws) :
    (a.carryOut k d).2 = d.skip (a.otherWords d + a.choiceWords k d) := by
  unfold carryOut otherWords choiceWords
  cases a.kind with
  | deleteEntry =>
    dsimp only
    split
    case isTrue => rfl
    case isFalse =>
      rw [Nat.zero_add, ← below_snd]
      refine bind_snd (fun index => ?_) d
      split <;> exact idle_pure _
  | insertEntry => rfl
  | deleteTable =>
    rw [Nat.add_zero, ← below_snd]
    refine bind_snd (fun index => ?_) d
    dsimp only
    split <;> exact idle_pure _
  | detachProgram =>
    dsimp only
    generalize k.tamperDetach a.interface = detached
    obtain ⟨_ | p, k'⟩ := detached
    · rfl
    · rfl
  | attachForeign => rfl
  | failWrite => exact below_snd 4 d
  | failAttach => rfl

end FaultAttempt

namespace Simulation

/-! ## A tick -/

/-- What the next tick attempts to have go wrong, and the stream behind that. -/
def drawAttempt (s : Simulation) : Option FaultAttempt × Draws :=
  FaultAttempt.draw (Chance.ofFloat s.config.faultProbability) s.interfaces s.faults

/-- What the next tick attempts to have go wrong. -/
def attempted (s : Simulation) : Option FaultAttempt := s.drawAttempt.1

/-- How many words the next tick reads to choose an entry that a fault deletes. -/
def choiceWords (s : Simulation) : Nat :=
  match s.drawAttempt with
  | (some attempt, d) => attempt.choiceWords s.kernel d
  | (none, _) => 0

/-- Words are read for that only where an entry is to be deleted and there are some. -/
theorem choiceWords_ne_zero_iff (s : Simulation) : s.choiceWords ≠ 0 ↔
    ∃ name, s.attempted = some ⟨name, .deleteEntry⟩ ∧
      FaultAttempt.entries s.kernel name ≠ [] := by
  unfold choiceWords attempted
  generalize s.drawAttempt = drawn
  obtain ⟨_ | ⟨name, kind⟩, d⟩ := drawn
  · simp
  · by_cases hkind : kind = .deleteEntry
    · subst hkind
      by_cases hnone : FaultAttempt.entries s.kernel name = []
      · simp [FaultAttempt.choiceWords, hnone]
      · simp [FaultAttempt.choiceWords, hnone, Draws.wordsBelow_ne_zero]
    · have hzero : FaultAttempt.choiceWords ⟨name, kind⟩ s.kernel d = 0 := by
        cases kind <;> first | rfl | exact absurd rfl hkind
      simp [hzero, hkind]

/-- The stream behind the next tick, but for the choice of an entry. -/
def besidesChoice (s : Simulation) : Draws :=
  match s.drawAttempt with
  | (some attempt, d) => d.skip (attempt.otherWords d)
  | (none, d) => d

theorem inject_snd (s : Simulation) :
    (InjectedFault.inject (Chance.ofFloat s.config.faultProbability) s.interfaces s.kernel
      s.faults).2 = s.besidesChoice.skip s.choiceWords := by
  dsimp only [InjectedFault.inject, besidesChoice, choiceWords, drawAttempt, bind, StateT.bind]
  generalize FaultAttempt.draw _ _ _ = drawn
  obtain ⟨_ | attempt, d⟩ := drawn
  · rfl
  · rw [Draws.skip_skip]
    exact attempt.carryOut_snd s.kernel d

/-- The part of a simulation that is the same whatever the policy and the kernel are. -/
def fixed (s : Simulation) : ChaosConfig × VirtualClock × Draws := (s.config, s.clock, s.faults)

namespace Act

variable {α β : Type}

/-- The configuration and the clock are left alone, and no word of the faults is read. -/
def Keeps (act : Act α) : Prop := ∀ s, (act.run s).2.fixed = s.fixed

theorem Keeps.bind {act : Act α} {next : α → Act β} (h : act.Keeps) (hnext : ∀ a, (next a).Keeps) :
    Keeps (act >>= next) :=
  fun s => (hnext _ _).trans (h s)

theorem keeps_get : Keeps get := fun _ => rfl

theorem keeps_modify {f : Simulation → Simulation} (h : ∀ s, (f s).fixed = s.fixed) :
    Keeps (modify f) :=
  h

theorem keeps_tally (f : SimulationCounts → SimulationCounts) : (tally f).Keeps :=
  keeps_modify fun _ => rfl

theorem keeps_tell (entries : Log.Entries) : (tell entries).Keeps :=
  keeps_modify fun _ => rfl

theorem keeps_wanted (name : String) : (wanted name).Keeps := fun _ => rfl

theorem keeps_resync (name : String) : (resync name).Keeps := by
  refine (keeps_wanted name).bind fun translated => ?_
  cases translated with
  | error cause => exact fun _ => rfl
  | ok wanted => exact fun _ => rfl

theorem keeps_resyncEach (names : List String) : (resyncEach names).Keeps := by
  induction names with
  | nil => exact fun _ => rfl
  | cons name rest ih => exact (keeps_resync name).bind fun _ => ih.bind fun _ _ => rfl

theorem keeps_resyncAll : resyncAll.Keeps := fun s => keeps_resyncEach s.interfaces s

end Act

namespace Trial

variable {α β : Type}

/-- Whether it fails or not, a trial leaves the configuration and the clock alone and reads no word
of the faults. -/
def Keeps (w : Trial α) : Prop := Act.Keeps w.run

theorem Keeps.fixed_eq {w : Trial α} {result : Except SimulationError α} {s s' : Simulation}
    (h : w.Keeps) (hrun : w.run.run s = (result, s')) : s'.fixed = s.fixed := by
  have hkept := h s
  rw [hrun] at hkept
  exact hkept

theorem keeps_pure (a : α) : Keeps (pure a) := fun _ => rfl

theorem keeps_throw (e : SimulationError) : Keeps (throw e : Trial α) := fun _ => rfl

theorem keeps_lift {act : Act α} (h : act.Keeps) : Keeps (liftM act) := h

theorem run_act (act : Act α) (next : α → Trial β) (s : Simulation) :
    (liftM act >>= next : Trial β).run.run s = (next (act.run s).1).run.run (act.run s).2 := rfl

theorem run_modify (f : Simulation → Simulation) (next : Trial β) (s : Simulation) :
    (modify f >>= fun _ => next : Trial β).run.run s = next.run.run (f s) := rfl

theorem run_tally (f : SimulationCounts → SimulationCounts) (s : Simulation) :
    (liftM (tally f) : Trial Unit).run.run s = (.ok (), { s with counts := f s.counts }) := rfl

/-- A trial of two parts that succeeds has succeeded in the first one. -/
theorem exists_of_bind_eq_ok {w : Trial α} {next : α → Trial β} {b : β} {s s' : Simulation}
    (h : (w >>= next).run.run s = (.ok b, s')) :
    ∃ a s₁, w.run.run s = (.ok a, s₁) ∧ (next a).run.run s₁ = (.ok b, s') := by
  rw [ExceptT.run_bind, StateT.run_bind] at h
  generalize w.run.run s = first at h
  obtain ⟨e | a, s₁⟩ := first
  · cases h
  · exact ⟨a, s₁, rfl, h⟩

theorem Keeps.bind {w : Trial α} {next : α → Trial β} (h : w.Keeps)
    (hnext : ∀ a, (next a).Keeps) : Keeps (w >>= next) := by
  unfold Keeps
  rw [ExceptT.run_bind]
  refine Act.Keeps.bind h fun result => ?_
  cases result with
  | error e => exact fun _ => rfl
  | ok a => exact hnext a

theorem keeps_each {f : β → Trial Unit} (h : ∀ b, (f b).Keeps) (l : List β) :
    Keeps (forIn l PUnit.unit fun b _ => do f b; pure (ForInStep.yield PUnit.unit)) := by
  induction l with
  | nil => exact keeps_pure _
  | cons b rest ih =>
    have hfirst : Keeps (do f b; pure (ForInStep.yield PUnit.unit)) :=
      (h b).bind fun _ => keeps_pure _
    rw [List.forIn_cons]
    refine hfirst.bind fun step => ?_
    cases step with
    | done r => exact keeps_pure r
    | yield r => exact ih

theorem keeps_verify (number : Nat) (name : String) : (verify number name).Keeps := by
  refine (keeps_lift (Act.keeps_wanted name)).bind fun wanted => ?_
  cases wanted with
  | error cause => exact keeps_throw _
  | ok wanted =>
    refine (keeps_lift Act.keeps_get).bind fun s => ?_
    split
    · exact keeps_throw _
    · exact keeps_pure _

theorem keeps_review (number : Nat) (outcome : String × Except SyncError SyncReport) :
    (review number outcome).Keeps := by
  obtain ⟨name, cause | report⟩ := outcome
  · exact (keeps_lift (Act.keeps_tally _)).bind fun _ => keeps_lift (Act.keeps_tell _)
  · exact (keeps_lift (Act.keeps_tally _)).bind fun _ => keeps_verify number name

end Trial

theorem fixed_injectFault (s : Simulation) :
    (injectFault.run s).2.fixed = (s.config, s.clock, s.besidesChoice.skip s.choiceWords) := by
  obtain ⟨injected, happened, journal, hinject, -⟩ := injectFault_snd s
  rw [← inject_snd, hinject]
  rfl

/-- A tick reads the words of its attempt and moves the clock by the period, and whatever else it
does, it reads no other words. -/
theorem fixed_tick {number : Nat} {s s' : Simulation} (h : (tick number).run.run s = (.ok (), s')) :
    s'.fixed = (s.config, s.clock.advance s.config.period,
      s.besidesChoice.skip s.choiceWords) := by
  obtain ⟨churn, policy, changes, happened, journal, hchurn, -⟩ := churnPolicy_snd s
  have hinjected : (injectFault.run (churnPolicy.run s).2).2.fixed =
      (s.config, s.clock, s.besidesChoice.skip s.choiceWords) := by
    rw [hchurn]
    exact fixed_injectFault _
  unfold tick at h
  rw [Trial.run_act, Trial.run_act, Trial.run_act] at h
  obtain ⟨_, s₁, hreviews, hend⟩ := Trial.exists_of_bind_eq_ok h
  have hreviewed : s₁.fixed = (s.config, s.clock, s.besidesChoice.skip s.choiceWords) := by
    have hkept := (Trial.keeps_each (Trial.keeps_review number) _).fixed_eq hreviews
    exact hkept.trans ((Act.keeps_resyncAll _).trans hinjected)
  obtain ⟨hconfig, hrest⟩ := Prod.mk.inj hreviewed
  obtain ⟨hclock, hfaults⟩ := Prod.mk.inj hrest
  rw [Trial.run_modify, Trial.run_tally] at hend
  obtain ⟨-, rfl⟩ := Prod.mk.inj hend
  show (s₁.config, s₁.clock.advance s₁.config.period, s₁.faults) = _
  rw [hconfig, hclock, hfaults]

/-! ## Runs -/

/-- A simulation after some ticks. -/
def after (count : Nat) (s : Simulation) : Simulation := ((ticks count).run.run s).2

variable {names : List String} {count done done' : Nat} {s s' : Simulation}

theorem ticks_succ (count : Nat) : ticks (count + 1) = ticks count >>= fun _ => tick count := by
  simp [ticks, List.range_succ, List.forIn_yield_eq_foldlM, List.foldlM_append]

theorem steady_after (h : Steady names 0 s) : Steady names count (after count s) := by
  obtain ⟨_, s', hrun, hsteady⟩ := ticks_succeeds count h
  unfold after
  rw [hrun]
  exact hsteady

/-- Since no tick fails, there is always a next one. -/
theorem after_succ (h : Steady names 0 s) :
    after (count + 1) s = ((tick count).run.run (after count s)).2 := by
  obtain ⟨_, s', hrun, -⟩ := ticks_succeeds count h
  unfold after
  rw [ticks_succ, ExceptT.run_bind, StateT.run_bind, hrun]
  rfl

theorem fixed_after_succ (h : Steady names 0 s) : (after (count + 1) s).fixed =
    ((after count s).config, (after count s).clock.advance (after count s).config.period,
      (after count s).besidesChoice.skip (after count s).choiceWords) := by
  have hsteady : Steady names count (after count s) := steady_after h
  obtain ⟨_, s', hrun, -⟩ := tick_succeeds hsteady
  rw [after_succ h, hrun]
  exact fixed_tick hrun

theorem config_after (h : Steady names 0 s) : (after count s).config = s.config := by
  induction count with
  | zero => rfl
  | succ count ih => exact (congrArg Prod.fst (fixed_after_succ h)).trans ih

theorem faults_after_succ (h : Steady names 0 s) : (after (count + 1) s).faults =
    (after count s).besidesChoice.skip (after count s).choiceWords :=
  congrArg (·.2.2) (fixed_after_succ h)

/-- Interfaces are listed in order, so the same interfaces are the same list. -/
theorem Steady.interfaces_eq (h : Steady names done s) (h' : Steady names done' s') :
    s'.interfaces = s.interfaces := by
  have hperm : s'.interfaces.Perm s.interfaces := by
    refine (List.perm_ext_iff_of_nodup Std.ExtTreeMap.nodup_keys Std.ExtTreeMap.nodup_keys).mpr ?_
    intro name
    exact Std.ExtTreeMap.mem_keys.trans ((h'.fit.members name).trans
      ((h.fit.members name).symm.trans Std.ExtTreeMap.mem_keys.symm))
  refine hperm.eq_of_pairwise ?_ Std.ExtTreeMap.ordered_keys Std.ExtTreeMap.ordered_keys
  intro a b _ _ hab hba
  rw [Std.OrientedCmp.gt_of_lt hab] at hba
  cases hba

section TwoRuns

variable (h : Steady names 0 s) (h' : Steady names 0 s')
  (hchance : s'.config.faultProbability = s.config.faultProbability)

include h h' hchance

/-- From the same place of the stream, both runs draw the same attempt. -/
theorem drawAttempt_after (hfaults : (after count s').faults = (after count s).faults) :
    (after count s').drawAttempt = (after count s).drawAttempt := by
  unfold drawAttempt
  rw [hfaults, config_after h, config_after h', hchance,
    (steady_after h).interfaces_eq (steady_after h')]

/-- Then they go on from the same place if and only if they spend as much on choosing entries. -/
theorem faults_after_succ_eq_iff (hfaults : (after count s').faults = (after count s).faults) :
    (after (count + 1) s').faults = (after (count + 1) s).faults ↔
      (after count s').choiceWords = (after count s).choiceWords := by
  have hdrawn := drawAttempt_after h h' hchance hfaults
  have hbesides : (after count s').besidesChoice = (after count s).besidesChoice := by
    unfold besidesChoice
    rw [hdrawn]
  rw [faults_after_succ h, faults_after_succ h', hbesides, Draws.skip_inj]

theorem faults_after_eq_iff (hstart : s'.faults = s.faults) :
    (∀ m ≤ count, (after m s').faults = (after m s).faults) ↔
      ∀ m < count, (after m s').choiceWords = (after m s).choiceWords := by
  constructor
  · intro hall m hm
    have hnow := hall m (Nat.le_of_lt hm)
    exact (faults_after_succ_eq_iff h h' hchance hnow).mp (hall (m + 1) hm)
  · intro hall m
    induction m with
    | zero => exact fun _ => hstart
    | succ m ih =>
      intro hm
      have hnow := ih (Nat.le_of_succ_le hm)
      exact (faults_after_succ_eq_iff h h' hchance hnow).mpr (hall m hm)

end TwoRuns

/-- Two simulations read one stream of faults and have the same interfaces and the same chance of
faults, and they may differ in all else, above all in how their policies change.  They read the
stream from the same places if and only if in each tick both spend equally many words on choosing an
entry that a fault deletes, and while they do, they attempt the same faults.  It is just where an
entry is to be deleted, and the interface has some, that words are spent on that. -/
theorem faults_aligned_iff (seed seed' : UInt64) (config config' : ChaosConfig)
    (faults churn churn' : Draws) (hchance : config'.faultProbability = config.faultProbability)
    (hinterfaces : config'.interfaces = config.interfaces) (count : Nat) :
    let run m := after m (ofDraws seed config faults churn)
    let other m := after m (ofDraws seed' config' faults churn')
    ((∀ m ≤ count, (other m).faults = (run m).faults) ↔
      ∀ m < count, (other m).choiceWords = (run m).choiceWords) ∧
    ((∀ m ≤ count, (other m).faults = (run m).faults) →
      ∀ m ≤ count, (other m).attempted = (run m).attempted) ∧
    ∀ m, (run m).choiceWords ≠ 0 ↔ ∃ name, (run m).attempted = some ⟨name, .deleteEntry⟩ ∧
      FaultAttempt.entries (run m).kernel name ≠ [] := by
  intro run other
  have h := steady_ofDraws seed config faults churn
  have h' : Steady config.interfaceNames 0 (ofDraws seed' config' faults churn') := by
    unfold ChaosConfig.interfaceNames
    rw [← hinterfaces]
    exact steady_ofDraws seed' config' faults churn'
  refine ⟨faults_after_eq_iff h h' hchance rfl, fun hall m hm => ?_, fun m => ?_⟩
  · exact congrArg Prod.fst (drawAttempt_after h h' hchance (hall m hm))
  · exact choiceWords_ne_zero_iff (run m)

/-- One interface, and a fault is attempted before every tick. -/
def attacked (churnProbability : Float) : ChaosConfig where
  interfaces := 1
  faultProbability := 1.0
  churnProbability := churnProbability

/-- Before the third tick an entry is to be deleted.  If that reads no word, a program is to be
detached before the fourth, and otherwise an entry is to be deleted again. -/
def attackWords : Draws := ⟨fun n => if n % 3 = 2 then 0 else 2147483648, 0⟩

/-- The policy gets an address set before the first tick, and a rule that selects it before the
second. -/
def churnWords : Draws := ⟨fun n => if n = 17 then 2147483648 else 1073741824, 0⟩

/-- If the policy of one run fills a table and that of the other does not, the runs part where an
entry is to be deleted. -/
theorem faults_aligned_iff_attacked :
    let quiet m := after m (ofDraws 0 (attacked 0.0) attackWords churnWords)
    let churned m := after m (ofDraws 0 (attacked 1.0) attackWords churnWords)
    (∀ m ≤ 2, (churned m).faults = (quiet m).faults) ∧
      ¬ ∀ m ≤ 3, (churned m).faults = (quiet m).faults := by
  intro quiet churned
  have hiff : ∀ count, (∀ m ≤ count, (churned m).faults = (quiet m).faults) ↔
      ∀ m < count, (churned m).choiceWords = (quiet m).choiceWords :=
    fun count => (faults_aligned_iff 0 0 (attacked 0.0) (attacked 1.0) attackWords churnWords
      churnWords rfl rfl count).1
  constructor
  · exact (hiff 2).mpr (by decide +kernel)
  · intro hall
    have hspent := (hiff 3).mp hall
    exact absurd hspent (by decide +kernel)

/-- So a policy that changes can have a fault of another kind attempted than one that does not. -/
theorem not_every_churn_aligned : ¬ ∀ (seed : UInt64) (config config' : ChaosConfig)
    (faults churn churn' : Draws) (count : Nat),
    config'.faultProbability = config.faultProbability → config'.interfaces = config.interfaces →
    (after count (ofDraws seed config' faults churn')).attempted =
      (after count (ofDraws seed config faults churn)).attempted := by
  intro h
  have hsame := h 0 (attacked 0.0) (attacked 1.0) attackWords churnWords churnWords 3 rfl rfl
  exact absurd hsame (by decide +kernel)

end Simulation

end IngressGuard
