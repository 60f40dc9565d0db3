import IngressGuard.Config.Finding
import IngressGuard.Failsafe
import IngressGuard.Log
import IngressGuard.Tree

/-!
# The configuration

The configuration of the daemon has five sections.  It is read once, checked, and does not change
afterwards.
-/

namespace IngressGuard

/-- When policies are carried out. -/
structure ResyncConfig where
  /-- The time between two ticks. -/
  periodSecs : Nat := 10
  /-- How long a cycle may take. -/
  cycleTimeoutMs : Nat := 2000
  /-- The time between two rounds of draining the queue of events. -/
  eventPollMs : Nat := 50
  /-- How many events the queue takes. -/
  eventCapacity : Nat := 1024
  deriving DecidableEq, Repr

/-- The ports that stay reachable. -/
structure FailsafeConfig where
  inbound : List ProtocolPort := FailsafeRule.defaultInbound
  outbound : List ProtocolPort := FailsafeRule.defaultOutbound
  deriving DecidableEq, Repr

/-- Where policies are carried out. -/
inductive KernelBackend where
  /-- The kernel of this host. -/
  | host
  /-- A model of the kernel. -/
  | memory
  deriving DecidableEq, Repr

namespace KernelBackend

/-- All backends. -/
def all : List KernelBackend := [host, memory]

/-- The name of a backend in configurations. -/
def label : KernelBackend → String
  | host => "aya"
  | memory => "memory"

/-- The name of a backend in the log. -/
def logName : KernelBackend → String
  | host => "Aya"
  | memory => "Memory"

end KernelBackend

/-- How a program is attached to an interface. -/
inductive AttachMode where
  | generic
  | driver
  | offload
  deriving DecidableEq, Repr

namespace AttachMode

/-- All modes. -/
def all : List AttachMode := [generic, driver, offload]

/-- The name of a mode. -/
def label : AttachMode → String
  | generic => "generic"
  | driver => "driver"
  | offload => "offload"

end AttachMode

/-- How the kernel is used. -/
structure KernelConfig where
  backend : KernelBackend := .host
  /-- The file of the program to attach. -/
  programPath : Option String := none
  /-- The directory in which tables are pinned, one directory inside it for each interface. -/
  pinRoot : String := "/sys/fs/bpf/skansen/xdp"
  attachMode : AttachMode := .generic
  /-- How many entries a table takes. -/
  maxEntries : Nat := 65536
  deriving DecidableEq, Repr

/-- Where the policy comes from. -/
structure PolicyConfig where
  path : String := "config/policy.yaml"
  /-- The time between two looks at the policy. -/
  watchIntervalMs : Nat := 1000
  deriving DecidableEq, Repr

/-- Where logs, status and metrics go. -/
structure TelemetryConfig where
  logLevel : String := "info"
  jsonLogs : Bool := false
  statusPath : Option String := none
  metricsPath : Option String := none
  deriving DecidableEq, Repr

/-- The least severe level of the log that is shown, if any is. -/
def TelemetryConfig.level? (c : TelemetryConfig) : Option Log.Level :=
  Log.Level.ofLabel? (String.ofList (c.logLevel.toList.map Char.toLower))

/-- A configuration. -/
structure Config where
  resync : ResyncConfig := {}
  failsafe : FailsafeConfig := {}
  kernel : KernelConfig := {}
  policy : PolicyConfig := {}
  telemetry : TelemetryConfig := {}
  deriving DecidableEq, Repr

/-! ## Paths -/

/-- The path of a name inside a directory.  A rooted name stands for itself. -/
def joinPath (directory name : String) : String :=
  if directory.isEmpty || name.startsWith "/" then name
  else if directory.endsWith "/" then directory ++ name
  else s!"{directory}/{name}"

namespace KernelConfig

/-- The environment variable that names the program if the configuration does not. -/
def programVariable : String := "SKANSEN_BPF_OBJECT"

/-- The file of the program to attach. -/
def program (c : KernelConfig) (environment : List (String × String)) : String :=
  match c.programPath with
  | some path => path
  | none => (environment.lookup programVariable).getD "/usr/lib/skansen/skansen-ebpf"

/-- The directory in which the tables of an interface are pinned. -/
def pinDirectory (c : KernelConfig) (interface : String) : String :=
  joinPath c.pinRoot interface

end KernelConfig

/-- The rules for the ports that stay reachable. -/
def FailsafeConfig.rules (c : FailsafeConfig) : List FailsafeRule :=
  FailsafeRule.ofPorts c.inbound c.outbound

/-! ## Checks -/

/-- The names that a log level may have, in any case. -/
def logLevels : List String := ["trace", "debug", "info", "warn", "error", "off"]

/-- Whether a text names a log level. -/
def isLogLevel (text : String) : Bool :=
  logLevels.contains (String.ofList (text.toList.map Char.toLower))

/-- Whether ports can occur in packets. -/
def arePorts (ports : List ProtocolPort) : Bool := ports.all fun p => p.port != 0

/-- The findings about a number that must be in a range. -/
def Findings.ofRange (name : String) (low high n : Nat) : Findings :=
  require name (low ≤ n && n ≤ high) "range"

/-- The findings about a list of ports. -/
def Findings.ofPorts (name : String) (ports : List ProtocolPort) : Findings :=
  require name (arePorts ports) "invalid_port"

namespace Config

/-- What is wrong with a configuration. -/
def findings (c : Config) : Findings :=
  .within "resync"
    (.ofRange "period_secs" 1 3600 c.resync.periodSecs ++
      .ofRange "cycle_timeout_ms" 100 60000 c.resync.cycleTimeoutMs ++
      .ofRange "event_poll_ms" 1 1000 c.resync.eventPollMs ++
      .ofRange "event_capacity" 16 1048576 c.resync.eventCapacity) ++
  .within "failsafe"
    (.ofPorts "inbound" c.failsafe.inbound ++ .ofPorts "outbound" c.failsafe.outbound) ++
  .within "kernel" (.ofRange "max_entries" 1 1048576 c.kernel.maxEntries) ++
  .within "policy" (.ofRange "watch_interval_ms" 10 600000 c.policy.watchIntervalMs) ++
  .within "telemetry"
    (.require "log_level" (isLogLevel c.telemetry.logLevel) "invalid_log_level")

/-! ## Reports -/

/-- A configuration in reports. -/
def tree (c : Config) : Tree :=
  let path := Tree.optional Tree.text
  .record
    [("resync", .record
      [("period_secs", c.resync.periodSecs), ("cycle_timeout_ms", c.resync.cycleTimeoutMs),
        ("event_poll_ms", c.resync.eventPollMs), ("event_capacity", c.resync.eventCapacity)]),
      ("failsafe", .record
        [("inbound", .each ProtocolPort.tree c.failsafe.inbound),
          ("outbound", .each ProtocolPort.tree c.failsafe.outbound)]),
      ("kernel", .record
        [("backend", c.kernel.backend.label), ("bpf_object", path c.kernel.programPath),
          ("pin_root", c.kernel.pinRoot), ("xdp_mode", c.kernel.attachMode.label),
          ("max_entries", c.kernel.maxEntries)]),
      ("policy", .record
        [("path", c.policy.path), ("watch_interval_ms", c.policy.watchIntervalMs)]),
      ("telemetry", .record
        [("log_level", c.telemetry.logLevel), ("json_logs", c.telemetry.jsonLogs),
          ("status_path", path c.telemetry.statusPath),
          ("metrics_path", path c.telemetry.metricsPath)])]

end Config

end IngressGuard
