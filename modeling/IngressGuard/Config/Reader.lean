import IngressGuard.Config
import IngressGuard.Config.Document
import IngressGuard.Config.Environment
import IngressGuard.Files

/-!
# Reading configurations

The settings of files and of the environment are merged, later ones over earlier ones, and what
they leave open keeps its default.  The outcome is checked as a whole.
-/

namespace IngressGuard

open Setting (Field)

/-- Why there is no configuration. -/
inductive ConfigError where
  | missingFile (path : String)
  | malformed (fault : SettingFault)
  | invalid (findings : Findings)

namespace ConfigError

/-- What an error tells an operator. -/
def message : ConfigError → String
  | missingFile path => s!"Configuration file not found: {path}"
  | malformed fault => s!"Configuration parsing error: {fault.message}"
  | invalid findings =>
    "Invalid configuration:\n" ++ String.join (findings.blocks.map (· ++ "\n"))

/-- An error in reports. -/
def tree (e : ConfigError) : Tree :=
  match e with
  | missingFile _ => .failure "FileNotFound" e.message []
  | malformed fault => fault.tree
  | invalid findings => .record [("error", "Validation"), ("fields", .texts findings.blocks)]

end ConfigError

/-! ## Sections -/

namespace Setting

/-- A field that may be left out. -/
def Field.optional {α β : Type} (name : String) (read : Setting → Reading β)
    (put : α → β → α) : Field α :=
  ⟨name, fun a s => put a <$> read s, none⟩

/-- Reads a natural number of 64 bits. -/
def nat64 : Setting → Reading Nat := nat (Nat.pow 2 64 - 1) "u64"

/-- Reads a natural number that counts things. -/
def count : Setting → Reading Nat := nat (Nat.pow 2 64 - 1) "usize"

end Setting

/-- Reads a port. -/
def ProtocolPort.ofSetting (s : Setting) : Reading ProtocolPort := do
  let protocols := Protocol.all.map fun p => (p.label, p)
  let (protocol, port) ← s.fields "ProtoPort"
    [⟨"protocol", fun (d : Option Protocol × Option Nat) t =>
        return (some (← t.choice "Protocol" protocols), d.2), some (·.1.isSome)⟩,
      ⟨"port", fun d t => return (d.1, some (← t.nat 65535 "u16")), some (·.2.isSome)⟩]
    (none, none)
  return ⟨protocol.getD .tcp, UInt16.ofNat (port.getD 0)⟩

/-- Reads the first section. -/
def ResyncConfig.ofSetting (s : Setting) : Reading ResyncConfig :=
  s.fields "ResyncConfig"
    [.optional "period_secs" Setting.nat64 fun c periodSecs => { c with periodSecs },
      .optional "cycle_timeout_ms" Setting.nat64 fun c cycleTimeoutMs => { c with cycleTimeoutMs },
      .optional "event_poll_ms" Setting.nat64 fun c eventPollMs => { c with eventPollMs },
      .optional "event_capacity" Setting.count fun c eventCapacity => { c with eventCapacity }]
    {}

/-- Reads the section on ports. -/
def FailsafeConfig.ofSetting (s : Setting) : Reading FailsafeConfig :=
  s.fields "FailsafeConfig"
    [.optional "inbound" (Setting.each ProtocolPort.ofSetting) fun c inbound => { c with inbound },
      .optional "outbound" (Setting.each ProtocolPort.ofSetting) fun c outbound =>
        { c with outbound }]
    {}

/-- Reads the section on the kernel. -/
def KernelConfig.ofSetting (s : Setting) : Reading KernelConfig :=
  let backends := KernelBackend.all.map fun b => (b.label, b)
  let modes := AttachMode.all.map fun m => (m.label, m)
  s.fields "KernelConfig"
    [.optional "backend" (Setting.choice "KernelBackend" backends) fun c backend =>
        { c with backend },
      .optional "bpf_object" Setting.optionalPath fun c programPath => { c with programPath },
      .optional "pin_root" Setting.path fun c pinRoot => { c with pinRoot },
      .optional "xdp_mode" (Setting.choice "XdpMode" modes) fun c attachMode =>
        { c with attachMode },
      .optional "max_entries" (Setting.nat (Nat.pow 2 32 - 1) "u32") fun c maxEntries =>
        { c with maxEntries }]
    {}

/-- Reads the section on the policy. -/
def PolicyConfig.ofSetting (s : Setting) : Reading PolicyConfig :=
  s.fields "PolicyConfig"
    [.optional "path" Setting.path fun c path => { c with path },
      .optional "watch_interval_ms" Setting.nat64 fun c watchIntervalMs =>
        { c with watchIntervalMs }]
    {}

/-- Reads the section on logs and reports. -/
def TelemetryConfig.ofSetting (s : Setting) : Reading TelemetryConfig :=
  s.fields "TelemetryConfig"
    [.optional "log_level" (Setting.word "a string") fun c logLevel => { c with logLevel },
      .optional "json_logs" Setting.truth fun c jsonLogs => { c with jsonLogs },
      .optional "status_path" Setting.optionalPath fun c statusPath => { c with statusPath },
      .optional "metrics_path" Setting.optionalPath fun c metricsPath => { c with metricsPath }]
    {}

namespace Config

/-- Reads a configuration. -/
def ofSetting (s : Setting) : Reading Config :=
  s.fields "SkansenConfig"
    [.optional "resync" ResyncConfig.ofSetting fun c resync => { c with resync },
      .optional "failsafe" FailsafeConfig.ofSetting fun c failsafe => { c with failsafe },
      .optional "kernel" KernelConfig.ofSetting fun c kernel => { c with kernel },
      .optional "policy" PolicyConfig.ofSetting fun c policy => { c with policy },
      .optional "telemetry" TelemetryConfig.ofSetting fun c telemetry => { c with telemetry }]
    {}

/-! ## Layers -/

/-- A configuration unless there is something wrong with it. -/
def check (c : Config) : Except ConfigError Config :=
  if c.findings.isEmpty then .ok c else .error (.invalid c.findings)

/-- A path without steps that lead nowhere; a path from the root stays as it is. -/
def shortPath (path : String) : String :=
  if isRooted path then path else "/".intercalate (pathSteps path)

/-- The settings of the files that there are, later ones over earlier ones.  Of several files that
cannot be read the first one counts. -/
def fileLayers (files : Files) (paths : List String) : Reading Setting :=
  let layer (path : String) : Layer := .file (shortPath path)
  -- The first layer is that of the defaults.
  let layers := .untold :: (paths.filter files.hasPath).map layer ++ [.environment]
  paths.foldlM
    (fun before path =>
      match files.read path with
      | .error _ => return before
      | .ok text => return before.merge (← Setting.ofYaml ⟨layer path, layers⟩ text))
    (.record .environment [])

/-- The configuration that files and an environment give together. -/
def ofLayers (files : Files) (paths : List String) (environment : List (String × String)) :
    Except ConfigError Config :=
  let reading := do
    let s ← fileLayers files paths
    ofSetting (s.merge (Environment.layer environment))
  match reading with
  | .error fault => .error (.malformed fault)
  | .ok c => c.check

/-- The file that every configuration starts from. -/
def basePath : String := "config/skansen.yaml"

/-- The environment variable that picks the second file, and what it is without the variable. -/
def stageVariable : String × String := ("SKANSEN_ENV", "production")

/-- The configuration of a working directory and an environment. -/
def load (files : Files) (environment : List (String × String)) : Except ConfigError Config :=
  let stage := (environment.lookup stageVariable.1).getD stageVariable.2
  ofLayers files [basePath, s!"config/{stage}.yaml"] environment

/-- The configuration of a file and an environment. -/
def loadFile (files : Files) (path : String) (environment : List (String × String)) :
    Except ConfigError Config :=
  if files.hasPath path then ofLayers files [path] environment
  else .error (.missingFile path)

end Config

end IngressGuard
