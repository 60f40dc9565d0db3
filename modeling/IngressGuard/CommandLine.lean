import IngressGuard.CommandLine.Arguments
import IngressGuard.Config.Reader
import IngressGuard.Daemon.Startup
import IngressGuard.Simulation
import IngressGuard.Yaml.Writer

/-!
# The command line

The program runs the daemon, simulates it, once or for seed after seed, or shows what a policy
translates to.  All of this but the passing of time is a function of the arguments, the files and
the environment.
-/

namespace IngressGuard

open CommandLine

/-- What the program is told to do. -/
inductive Command where
  /-- Runs the daemon with the configuration of a file, or of the working directory. -/
  | run (config : Option String)
  /-- Runs one simulation, which may have to end with a given digest. -/
  | simulate (seed : UInt64) (ticks : Nat) (chaos expected : Option String)
  /-- Runs a number of simulations, or one after another until one fails if the number is zero. -/
  | fuzz (seed : UInt64) (iterations ticks : Nat)
  /-- Shows the deny lists of a policy, of all interfaces or of one. -/
  | translate (policy : String) (interface : Option String)
  deriving DecidableEq, Repr

namespace Command

/-! ## Manuals -/

/-- The manual of running the daemon. -/
def runManual : Manual where
  name := "run"
  about := "Enforce the policy on the configured kernel backend until interrupted"
  operands := []
  flags :=
    [⟨"config", some 'c', .path,
      "Configuration file; defaults to config/skansen.yaml plus SKANSEN_* overrides", none⟩]

/-- The manual of simulations. -/
def simulateManual : Manual where
  name := "simulate"
  about := "Run a deterministic chaos simulation against the in-memory kernel"
  operands := []
  flags :=
    [⟨"seed", none, .count, "", some "0"⟩,
      ⟨"ticks", none, .count, "Number of resync ticks", some "100"⟩,
      ⟨"chaos", none, .path, "Optional chaos configuration (YAML)", none⟩,
      ⟨"validate-hash", none, .word, "Fail unless the final state hash equals this value", none⟩]

/-- The manual of many simulations. -/
def fuzzManual : Manual where
  name := "fuzz"
  about := "Run simulations over consecutive seeds until one fails"
  operands := []
  flags :=
    [⟨"seed", none, .count, "Initial seed (incremented per iteration)", some "1"⟩,
      ⟨"iterations", none, .count, "Number of iterations (0 for unlimited)", some "0"⟩,
      ⟨"ticks", none, .count, "", some "500"⟩]

/-- The manual of showing deny lists. -/
def translateManual : Manual where
  name := "translate"
  about := "Print the block entries a policy file resolves to, per interface"
  operands := [⟨"POLICY", "Policy document (YAML)"⟩]
  flags := [⟨"interface", some 'i', .word, "Only show this interface", none⟩]

/-- The manuals of all commands. -/
def manuals : List Manual := [runManual, simulateManual, fuzzManual, translateManual]

/-- The command that a manual and what was given make. -/
def ofGiven (m : Manual) (g : Given) : Command :=
  let seed (default : Nat) : UInt64 := UInt64.ofNat (g.count "seed" default)
  if m = runManual then .run (g.value? "config")
  else if m = simulateManual then
    .simulate (seed 0) (g.count "ticks" 100) (g.value? "chaos") (g.value? "validate-hash")
  else if m = fuzzManual then .fuzz (seed 1) (g.count "iterations" 0) (g.count "ticks" 500)
  else .translate (g.operands.headD "") (g.value? "interface")

/-- What arguments ask for. -/
inductive Wish where
  | command (c : Command)
  /-- Some lines to be shown. -/
  | text (lines : List String)
  deriving DecidableEq, Repr

/-- What the arguments of the program ask for, if they make sense. -/
def ofArguments? : List String → Option Wish
  | [] => none
  | name :: rest =>
    match manuals.find? (·.name == name) with
    | some m =>
      match m.read rest with
      | .ok g => some (.command (ofGiven m g))
      | .error .manual => some (.text m.lines)
      | .error .misuse => none
    | none =>
      if name = helpCommand.1 then
        match rest with
        | [] => some (.text (overview manuals))
        | [topic] =>
          if topic = helpCommand.1 then some (.text helpLines)
          else (manuals.find? (·.name == topic)).map fun m => .text m.lines
        | _ => none
      else
        match name.toList with
        | '-' :: '-' :: name =>
          if String.ofList name = "help" then some (.text (overview manuals))
          else if String.ofList name = "version" then some (.text [version])
          else none
        | '-' :: 'h' :: _ => some (.text (overview manuals))
        | '-' :: 'V' :: _ => some (.text [version])
        | _ => none

end Command

/-! ## Outcomes -/

/-- Why a command has failed. -/
inductive CommandError where
  | config (cause : ConfigError)
  | start (cause : StartError)
  | policy (cause : SourceError)
  | chaos (cause : ChaosError)
  | simulation (cause : SimulationError)
  | unreadable (path : String) (fault : FileFault)
  | otherHash (expected found : String)

/-- What a command that has failed tells an operator. -/
def CommandError.message : CommandError → String
  | .config cause => cause.message
  | .start cause => cause.message
  | .policy cause => cause.message
  | .chaos cause => cause.message
  | .simulation cause => cause.message
  | .unreadable path fault => s!"failed to read {path}: {fault.message}"
  | .otherHash expected found => s!"state hash mismatch: expected {expected}, got {found}"

/-- How a command ends, or that it keeps running, with the log so far and the least severe level of
the log that is shown, if any is. -/
inductive Outcome where
  /-- What was shown, and why the command has failed if it has. -/
  | ended (shown : List String) (error : Option CommandError)
  | running (log : Log.Entries) (level : Option Log.Level) (loops : Loops)

namespace Command

/-- A command that has failed without showing anything. -/
def failed (e : CommandError) : Outcome := .ended [] (some e)

/-- The log entry of the start of the daemon. -/
def startNote (c : Config) : Log.Entry where
  level := .info
  message := "Starting enforcer"
  fields := [("backend", c.kernel.backend.logName), ("policy", c.policy.path)]

/-- Starts the daemon. -/
def startDaemon (config : Option String) (files : Files) (environment : List (String × String)) :
    Outcome :=
  let loaded := match config with
    | some path => Config.loadFile files path environment
    | none => Config.load files environment
  match loaded with
  | .error cause => failed (.config cause)
  | .ok c =>
    match Daemon.start c files with
    | (_, .error cause) => failed (.start cause)
    | (log, .ok loops) => .running (startNote c :: log) c.telemetry.level? loops

/-- What a simulation from a seed comes to. -/
def trial (seed : UInt64) (config : ChaosConfig) (ticks : Nat) :
    Except SimulationError SimulationReport :=
  ((Simulation.run ticks).run (Simulation.ofSeed seed config)).1

/-- Runs one simulation. -/
def runSimulation (seed : UInt64) (ticks : Nat) (chaos expected : Option String) (files : Files) :
    Outcome :=
  let loaded := match chaos with
    | some path => ChaosConfig.load files path
    | none => .ok {}
  match loaded with
  | .error cause => failed (.chaos cause)
  | .ok config =>
    match trial seed config ticks with
    | .error cause => failed (.simulation cause)
    | .ok report =>
      let mismatch := expected.bind fun hash =>
        if hash = report.stateHash then none else some (.otherHash hash report.stateHash)
      .ended (Yaml.lines report.tree) mismatch

/-- Runs simulations from seed to seed. -/
def runSimulations (ticks : Nat) : Nat → UInt64 → Except SimulationError Unit
  | 0, _ => .ok ()
  | n + 1, seed => do
    let _ ← trial seed {} ticks
    runSimulations ticks n (seed + 1)

/-- Runs a number of simulations. -/
def fuzzing (seed : UInt64) (iterations ticks : Nat) : Outcome :=
  match runSimulations ticks iterations seed with
  | .error cause => failed (.simulation cause)
  | .ok () => .ended [s!"{Text.decimal iterations} seeds converged"] none

/-- What a policy translates to on an interface. -/
def translationTree (policy : PolicySnapshot) (interface : String) : Tree :=
  match policy.denyList interface with
  | .error cause => .record [("error", cause.message)]
  | .ok d =>
    .record <| d.families.map fun f =>
      (f.label, .each (fun p => .record [("prefix", p.text), ("key", p.keyHex)]) (d.get f).toList)

/-- Shows what a policy translates to. -/
def showTranslation (path : String) (only : Option String) (files : Files) : Outcome :=
  match files.read path with
  | .error fault => failed (.unreadable path fault)
  | .ok text =>
    match PolicyDocument.load text with
    | .error cause => failed (.policy cause)
    | .ok policy =>
      let shown := policy.interfaces.toList.filter fun i => only.all (· == i)
      .ended (Yaml.lines (.record (shown.map fun i => (i, translationTree policy i)))) none

/-- Carries out a command. -/
def carryOut (files : Files) (environment : List (String × String)) : Command → Outcome
  | run config => startDaemon config files environment
  | simulate seed ticks chaos expected => runSimulation seed ticks chaos expected files
  | fuzz seed iterations ticks => fuzzing seed iterations ticks
  | translate policy interface => showTranslation policy interface files

end Command

end IngressGuard
