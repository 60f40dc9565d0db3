import IngressGuard.Cycle
import IngressGuard.Digest
import IngressGuard.Policy.Translation
import IngressGuard.Simulation.Chaos
import IngressGuard.Simulation.Churn
import IngressGuard.Simulation.Clock
import IngressGuard.Simulation.Fault

/-!
# Simulations

A simulation runs cycles against the model of the kernel while the policy changes and faults are
injected, tick after tick, and checks after every cycle that succeeds that the kernel is exactly as
the policy wants it.  After the ticks faults cease, and then every cycle must succeed.  The digest
of everything that happened stands for the whole run: what is drawn depends on the seed alone.

Changes of the policy and faults are drawn from streams of their own.
-/

namespace IngressGuard

/-- Why a simulation has failed. -/
inductive SimulationError where
  /-- A cycle has succeeded, but the kernel is not as the policy wants it. -/
  | violated (tick : Nat) (interface detail : String)
  /-- A cycle has failed although there are no faults any more. -/
  | notConverged (interface : String) (cause : SyncError)
  deriving DecidableEq, Repr

namespace SimulationError

/-- What a failure tells an operator. -/
def message : SimulationError → String
  | violated tick interface detail => s!"tick {Text.decimal tick}: {interface}: {detail}"
  | notConverged interface cause =>
    s!"{interface} did not converge once faults stopped: {cause.message}"

/-- A failure in reports. -/
def tree (e : SimulationError) : Tree :=
  match e with
  | violated .. => .failure "InvariantViolated" e.message []
  | notConverged .. => .failure "NotConverged" e.message []

end SimulationError

/-- What has happened in a simulation so far. -/
structure SimulationCounts where
  ticks : Nat := 0
  cyclesOk : Nat := 0
  cyclesFailed : Nat := 0
  faultsInjected : Nat := 0
  driftRepaired : Nat := 0
  policyChanges : Nat := 0
  deriving DecidableEq, Repr

/-- The report on a simulation. -/
structure SimulationReport where
  seed : UInt64
  counts : SimulationCounts
  elapsedSecs : Nat
  /-- The digest of everything that has happened. -/
  stateHash : String
  deriving DecidableEq, Repr

/-- A report as a document. -/
def SimulationReport.tree (r : SimulationReport) : Tree :=
  .record
    [("seed", r.seed.toNat), ("ticks", r.counts.ticks), ("cycles_ok", r.counts.cyclesOk),
      ("cycles_failed", r.counts.cyclesFailed), ("faults_injected", r.counts.faultsInjected),
      ("drift_repaired", r.counts.driftRepaired), ("policy_changes", r.counts.policyChanges),
      ("elapsed_secs", r.elapsedSecs), ("state_hash", r.stateHash)]

/-- A simulation. -/
structure Simulation where
  seed : UInt64
  config : ChaosConfig
  clock : VirtualClock
  kernel : Kernel.Model
  policy : PolicySnapshot
  contexts : NameMap Context
  /-- The draws of faults. -/
  faults : Draws
  /-- The draws of changes of the policy. -/
  churn : Draws
  counts : SimulationCounts
  /-- The texts that the digest covers, latest first. -/
  happened : List String
  /-- The log so far, latest entry first. -/
  journal : List Log.Entry

namespace Simulation

/-- A simulation with given draws before its first tick. -/
def ofDraws (seed : UInt64) (config : ChaosConfig) (faults churn : Draws) : Simulation where
  seed := seed
  config := config
  clock := VirtualClock.fresh
  kernel := Kernel.Model.fresh (Failsafe.ofRules FailsafeRule.defaults)
    (some (TextSet.ofList config.interfaceNames))
  policy := PolicySnapshot.empty
  contexts := config.interfaceNames.foldl (fun m name => m.insert name Context.fresh) ∅
  faults := faults
  churn := churn
  counts := {}
  happened := []
  journal := []

/-- A simulation before its first tick. -/
def ofSeed (seed : UInt64) (config : ChaosConfig) : Simulation :=
  ofDraws seed config (Draws.ofSeed seed) (Draws.ofSeed (seed + 1))

/-- Does something in a simulation. -/
abbrev Act := StateM Simulation

/-- Adds entries to the log. -/
def tell (entries : Log.Entries) : Act Unit :=
  modify fun s => { s with journal := entries.reverse ++ s.journal }

/-- Changes the counts. -/
def tally (f : SimulationCounts → SimulationCounts) : Act Unit :=
  modify fun s => { s with counts := f s.counts }

/-- Adds a text to what the digest covers. -/
def remember (text : String) : Act Unit := modify fun s => { s with happened := text :: s.happened }

/-- The names of the interfaces in order. -/
def interfaces (s : Simulation) : List String := s.contexts.keys

/-- Kernel and policy of a simulation in reports. -/
def tree (s : Simulation) : Tree :=
  .record [("kernel", s.kernel.dump s.interfaces), ("policy", s.policy.tree)]

/-! ## Before a tick -/

/-- The log entry of a change of the policy. -/
def churnNote (affected : TextSet) : Log.Entry where
  level := .debug
  message := "Policy changed"
  fields := [("affected", Text.braced (affected.toList.map Text.quoted))]

/-- Changes the policy, if there is to be a change. -/
def churnPolicy : Act Unit := do
  let s ← get
  let chance := Chance.ofFloat s.config.churnProbability
  let (event, churn) := Churn.event chance s.config.interfaces s.policy s.churn
  set { s with churn }
  match event with
  | none => return ()
  | some event =>
    remember event.kind
    let (policy, affected) := s.policy.apply event
    modify fun s => { s with policy }
    tally fun c => { c with policyChanges := c.policyChanges + 1 }
    tell [churnNote affected]

/-- Injects a fault, if there is to be one. -/
def injectFault : Act Unit := do
  let s ← get
  let chance := Chance.ofFloat s.config.faultProbability
  let ((fault, kernel), faults) := InjectedFault.inject chance s.interfaces s.kernel s.faults
  set { s with kernel, faults }
  match fault with
  | none => return ()
  | some fault =>
    tell [fault.note]
    tally fun c => { c with faultsInjected := c.faultsInjected + 1 }
    remember fault.record

/-! ## Cycles -/

/-- The moment that the clock shows. -/
def moment (s : Simulation) : Timestamp :=
  ⟨s.clock.seconds, s.clock.nanos.toNat % 1000000000⟩

/-- The deny list that the policy wants for an interface. -/
def wanted (interface : String) : Act (Except TranslateError DenyList) := do
  let translations := (← get).policy.translations interface
  tell (PolicySnapshot.translationLog interface translations)
  return PolicySnapshot.joinTranslations translations DenyList.empty

/-- Runs one cycle on an interface. -/
def resync (interface : String) : Act (Except SyncError SyncReport) := do
  match ← wanted interface with
  | .error cause => return .error (.translate cause)
  | .ok wanted =>
    let s ← get
    let before := s.contexts[interface]?.getD Context.fresh
    let ((result, after), kernel, log) :=
      (before.cycle interface wanted .resync s.moment).eval (Kernel.Model.answer interface) s.kernel
    set { s with kernel, contexts := s.contexts.insert interface after }
    tell log
    return result.mapError .cycle

/-- Runs one cycle on each of some interfaces. -/
def resyncEach : List String → Act (List (String × Except SyncError SyncReport))
  | [] => return []
  | interface :: rest => do
    let result ← resync interface
    return (interface, result) :: (← resyncEach rest)

/-- Runs one cycle on every interface. -/
def resyncAll : Act (List (String × Except SyncError SyncReport)) := do
  resyncEach (← get).interfaces

/-- How often a cycle has repaired what others had done. -/
def repairs (r : SyncReport) : Nat :=
  r.apply.drift.length + r.hookEvents.countP HookEvent.isDrift

/-- The log entry of a cycle that has failed. -/
def failureNote (tick : Nat) (interface : String) (cause : SyncError) : Log.Entry where
  level := .debug
  message := "Cycle failed"
  fields := [("tick", Text.decimal tick), ("interface", interface), ("error", cause.message)]

/-! ## Checks -/

/-- Whether a table is as wanted: it exists if and only if there is something to hold. -/
def tableMatches (wanted : PrefixSet) : Option PrefixSet → Bool
  | none => wanted.isEmpty
  | some found => !wanted.isEmpty && found == wanted

/-- What is wrong with an interface, if it is not as wanted. -/
def flaw? (k : Kernel.Model) (interface : String) (wanted : DenyList) : Option String :=
  let state := k.interface interface
  if state.carriesOurs == wanted.isEmpty then
    some s!"program attached = {state.carriesOurs} with {Text.decimal wanted.size} desired entries"
  else
    Family.all.findSome? fun f =>
      let found := state.tables.get f
      if tableMatches (wanted.get f) found then none
      else
        let size := match found with
          | some t => s!"Some({Text.decimal t.size})"
          | none => "None"
        some s!"{f.label} table {size} != desired {Text.decimal (wanted.get f).size}"

/-- Does something in a simulation that may fail. -/
abbrev Trial := ExceptT SimulationError Act

/-- Checks that an interface is as the policy wants it. -/
def verify (tick : Nat) (interface : String) : Trial Unit := do
  let wanted ← wanted interface
  match wanted with
  | .error cause => throw (.violated tick interface cause.message)
  | .ok wanted =>
    match flaw? (← get).kernel interface wanted with
    | some detail => throw (.violated tick interface detail)
    | none => return ()

/-! ## Runs -/

/-- Looks at how a cycle has ended. -/
def review (tick : Nat) : String × Except SyncError SyncReport → Trial Unit
  | (interface, .ok report) => do
    tally fun c =>
      { c with cyclesOk := c.cyclesOk + 1, driftRepaired := c.driftRepaired + repairs report }
    verify tick interface
  | (interface, .error cause) => do
    tally fun c => { c with cyclesFailed := c.cyclesFailed + 1 }
    tell [failureNote tick interface cause]

/-- Looks at how a cycle without faults has ended. -/
def reviewFinal (tick : Nat) : String × Except SyncError SyncReport → Trial Unit
  | (interface, .ok _) => verify tick interface
  | (interface, .error cause) => throw (.notConverged interface cause)

/-- One tick. -/
def tick (number : Nat) : Trial Unit := do
  churnPolicy
  injectFault
  for outcome in ← resyncAll do
    review number outcome
  modify fun s => { s with clock := s.clock.advance s.config.period }
  tally fun c => { c with ticks := c.ticks + 1 }

/-- Ticks one after another. -/
def ticks (count : Nat) : Trial Unit := do
  for number in List.range count do
    tick number

/-- The texts that stand for the kernel in the digest. -/
def kernelTexts (s : Simulation) : List String :=
  s.interfaces.flatMap fun interface =>
    let state := s.kernel.interface interface
    let names := state.program.toList.map Program.name
    let keys := Family.all.flatMap fun f =>
      match state.tables.get f with
      | some t => t.toList.map Prefix.keyHex
      | none => []
    interface :: names ++ keys

/-- The report on a simulation. -/
def report (s : Simulation) : SimulationReport where
  seed := s.seed
  counts := s.counts
  elapsedSecs := s.clock.seconds
  stateHash := Digest.ofTexts s.happened.reverse

/-- The log entry of the end of a run. -/
def finishNote (r : SimulationReport) : Log.Entry where
  level := .info
  message := "Simulation finished"
  fields := [("seed", Text.decimal r.seed.toNat), ("ticks", Text.decimal r.counts.ticks),
    ("faults", Text.decimal r.counts.faultsInjected),
    ("repaired", Text.decimal r.counts.driftRepaired), ("hash", r.stateHash)]

/-- Runs some ticks, and then a round without faults. -/
def run (count : Nat) : Trial SimulationReport := do
  ticks count
  modify fun s => { s with kernel := s.kernel.clearFaults }
  for outcome in ← resyncAll do
    reviewFinal count outcome
  modify fun s => { s with happened := s.kernelTexts.reverse ++ s.happened }
  let r := (← get).report
  tell [finishNote r]
  return r

end Simulation

end IngressGuard
