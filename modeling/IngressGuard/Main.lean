import IngressGuard.CommandLine

/-!
# The program

Reads the files that a command needs, carries the command out, and shows the outcome.  A daemon
that keeps running is moved on with the time that passes; before each step it sees the policy file
as it is then, and after each step its output files are written.
-/

namespace IngressGuard.Main

/-! ## Files and variables -/

/-- What stands for a directory among files. -/
def directoryMark (path : String) : String := s!"{path}/-"

/-- A file with what it holds, or the mark of a directory; nothing if there is neither. -/
def lookAt (path : String) : IO (List (String × String)) := do
  try
    return [(path, ← IO.FS.readFile path)]
  catch
    | .inappropriateType .. => return [(directoryMark path, "")]
    | _ => return []

/-- What can be found at some paths. -/
def gather (paths : List String) : IO Files := do
  let mut found := []
  for path in paths do
    found := found ++ (← lookAt path)
  return Files.ofList found

/-- The variables of the environment. -/
def environment : IO (List (String × String)) := do
  let text ← try IO.FS.readFile "/proc/self/environ" catch _ => pure ""
  return (text.splitOn "\x00").filterMap fun entry =>
    match entry.splitOn "=" with
    | name :: value@(_ :: _) => some (name, "=".intercalate value)
    | _ => none

/-- The files that a configuration may be in. -/
def configPaths (config : Option String) (environment : List (String × String)) : List String :=
  match config with
  | some path => [path]
  | none =>
    let stage := (environment.lookup Config.stageVariable.1).getD Config.stageVariable.2
    ["config", Config.basePath, s!"config/{stage}.yaml"]

/-- The files that a command may read. -/
def inputs (environment : List (String × String)) : Command → IO (List String)
  | .run config => do
    let paths := configPaths config environment
    let files ← gather paths
    let loaded := match config with
      | some path => Config.loadFile files path environment
      | none => Config.load files environment
    return match loaded with
      | .ok c => c.policy.path :: paths
      | .error _ => paths
  | .simulate _ _ chaos _ => return chaos.toList
  | .fuzz .. => return []
  | .translate policy _ => return [policy]

/-! ## The daemon -/

/-- The output files of a daemon. -/
def outputs (d : Daemon) : List String := d.statusPath.toList ++ d.metricsPath.toList

/-- The directory that a path is in. -/
def parentOf (path : String) : String :=
  match (path.splitOn "/").dropLast with
  | [] => "."
  | steps => "/".intercalate steps ++ "/"

/-- A daemon that knows in which directories its output files can be written. -/
def withOutputs (d : Daemon) : IO Daemon := do
  let found ← gather ((outputs d).map parentOf)
  return { d with files := found.toList.foldl (fun m (key, text) => m.insert key text) d.files }

/-- A daemon that sees its policy file as it is now. -/
def withPolicy (d : Daemon) : IO Daemon := do
  match d.source with
  | .held _ => return d
  | .file path =>
    let key := startSteps path ++ pathSteps path
    try
      return { d with files := d.files.insert key (← IO.FS.readFile path) }
    catch _ => return { d with files := d.files.erase key }

/-- A log entry as a line. -/
def logLine (e : Log.Entry) : String :=
  let fields := e.fields.map fun (name, value) => s!"{name}={value}"
  " ".intercalate (e.level.label :: e.message :: fields)

/-- Shows the entries of a log down to a level. -/
def showLog (level : Option Log.Level) (log : Log.Entries) : IO Unit := do
  for e in log do
    if level.any e.isAtLeast then
      IO.println (logLine e)
  (← IO.getStdout).flush

/-- Writes the output files of a daemon, and shows its log since the last step. -/
def report (level : Option Log.Level) (d : Daemon) : IO Daemon := do
  for path in outputs d do
    match d.files.read path with
    | .ok text => if text ≠ "" then IO.FS.writeFile path text
    | .error _ => pure ()
  showLog level d.session.journal.reverse
  return { d with session := { d.session with journal := [] } }

/-- The first whole number in a text. -/
def firstNumber (text : String) : Nat :=
  let digits := (text.toList.dropWhile (!·.isDigit)).takeWhile Char.isDigit
  (Text.natOfDigits? 10 digits).getD 0

/-- The time since 1970, in milliseconds, as far as the host tells it. -/
def wallClock : IO Nat := do
  try
    let uptime := firstNumber (← IO.FS.readFile "/proc/uptime")
    let start := match (← IO.FS.readFile "/proc/stat").splitOn "btime " with
      | _ :: rest :: _ => firstNumber rest
      | _ => 0
    return (start + uptime) * 1000
  catch _ => return 0

/-- The time between two steps, in milliseconds. -/
def stepMs : UInt32 := 10

/-- Moves a daemon on, from what a clock of milliseconds has shown before, until the program is
interrupted. -/
partial def keepRunning (level : Option Log.Level) (l : Loops) (before : Nat) : IO Unit := do
  let now ← IO.monoMsNow
  let l := { l with daemon := ← withPolicy l.daemon }
  let l := l.advance (now - before)
  let l := { l with daemon := ← report level l.daemon }
  IO.sleep stepMs
  keepRunning level l now

/-- Runs a daemon until the program is interrupted. -/
def runLoops (level : Option Log.Level) (l : Loops) : IO Unit := do
  let l := { l with daemon := ← withOutputs l.daemon, epoch := ← wallClock }
  keepRunning level l (← IO.monoMsNow)

/-! ## Commands -/

/-- Runs simulations until one fails. -/
partial def fuzzOn (seed : UInt64) (ticks : Nat) : IO CommandError := do
  match Command.trial seed {} ticks with
  | .error cause => return .simulation cause
  | .ok _ => fuzzOn (seed + 1) ticks

/-- Tells why a command has failed. -/
def complain (e : CommandError) : IO UInt32 := do
  IO.eprintln s!"Error: {e.message}"
  return 1

/-- Shows lines. -/
def showLines (lines : List String) : IO Unit := do
  for line in lines do
    IO.println line

/-- Carries out a command. -/
def carryOut (c : Command) : IO UInt32 := do
  if let .fuzz seed 0 ticks := c then
    return ← complain (← fuzzOn seed ticks)
  let environment ← environment
  let files ← gather (← inputs environment c)
  match c.carryOut files environment with
  | .ended lines error =>
    showLines lines
    match error with
    | some e => complain e
    | none => return 0
  | .running log level l =>
    showLog level log
    runLoops level l
    return 0

end IngressGuard.Main

/-- The program. -/
def main (arguments : List String) : IO UInt32 := do
  match IngressGuard.Command.ofArguments? arguments with
  | some (.command c) => IngressGuard.Main.carryOut c
  | some (.text lines) =>
    IngressGuard.Main.showLines lines
    return 0
  | none =>
    for line in IngressGuard.CommandLine.overview IngressGuard.Command.manuals do
      IO.eprintln line
    return 2
