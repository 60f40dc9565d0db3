import IngressGuard.Config
import IngressGuard.Daemon.Loops

/-!
# Starting the daemon

A configuration says everything that a daemon needs to start: what kernel it acts on, where its
policy comes from, how often its loops come round, and where its reports go.  It does not start
on a kernel that it cannot act on, or without a policy to begin with.
-/

namespace IngressGuard

/-- Why a daemon does not start. -/
inductive StartError where
  /-- It cannot act on the kernel itself. -/
  | backend
  | source (cause : SourceError)
  deriving DecidableEq, Repr

/-- What a daemon that does not start tells an operator. -/
def StartError.message : StartError → String
  | .backend => "Kernel backend unavailable: " ++
    "built without the ebpf_firewall feature; set kernel.backend = memory"
  | .source cause => s!"Policy source error: {cause.message}"

/-- A daemon that does not start, in reports. -/
def StartError.tree (e : StartError) : Tree :=
  match e with
  | .backend => .failure "Backend" e.message []
  | .source (.malformed _) => .failure "Source" "Parse" []
  | .source _ => .failure "Source" e.message []

/-- The periods of the loops. -/
def Config.periods (c : Config) : LoopPeriods where
  tick := c.resync.periodSecs * 1000
  drain := c.resync.eventPollMs
  watch := some c.policy.watchIntervalMs

/-- What a configuration comes to in an environment, in reports. -/
def Config.report (c : Config) (environment : List (String × String)) : Tree :=
  .record
    [("config", c.tree), ("failsafe_rules", .texts (c.failsafe.rules.map FailsafeRule.text)),
      ("bpf_object", c.kernel.program environment), ("period_ms", c.periods.tick),
      ("cycle_timeout_ms", c.resync.cycleTimeoutMs), ("event_poll_ms", c.periods.drain),
      ("watch_interval_ms", .optional (fun n => n) c.periods.watch)]

namespace Daemon

/-- A daemon with a policy to begin with. -/
def ofConfig (c : Config) (policy : PolicySnapshot) (files : Files) : Daemon :=
  let kernel := Kernel.Model.fresh (Failsafe.ofRules c.failsafe.rules) none
  { fresh policy (.ofKernel kernel .logging) (c.resync.cycleTimeoutMs * 1000000) with
    source := .file c.policy.path
    queue := EventQueue.ofCapacity c.resync.eventCapacity
    statusPath := c.telemetry.statusPath
    metricsPath := c.telemetry.metricsPath
    files }

/-- The log entry of the choice of a kernel. -/
def backendNote (c : Config) : Log.Entry where
  level := .info
  message := "Selecting kernel backend"
  fields := [("backend", c.kernel.backend.logName),
    ("failsafe_rules", Text.decimal (Failsafe.ofRules c.failsafe.rules).size)]

/-- The log entry of the policy to begin with. -/
def policyNote (c : Config) (policy : PolicySnapshot) : Log.Entry where
  level := .info
  message := "Policy loaded"
  fields := [("path", c.policy.path), ("rules", Text.decimal policy.rules.size),
    ("sets", Text.decimal policy.sets.size)]

/-- Starts a daemon and its loops.  The log of a start that fails is handed on as well. -/
def start (c : Config) (files : Files) : Log.Entries × Except StartError Loops :=
  match c.kernel.backend with
  | .host => ([backendNote c], .error .backend)
  | .memory =>
    match files.policy c.policy.path with
    | .error cause => ([backendNote c], .error (.source cause))
    | .ok policy =>
      ([backendNote c, policyNote c policy],
        .ok (Loops.start (ofConfig c policy files) c.periods c.resync.cycleTimeoutMs))

end Daemon

end IngressGuard
