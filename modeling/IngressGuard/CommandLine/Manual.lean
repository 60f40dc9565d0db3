/-!
# The manual of a command line

A command takes options, each with a value and at most once, and operands.  The manual says which,
and is shown when it is asked for.
-/

namespace IngressGuard.CommandLine

/-- What kinds of values there are. -/
inductive ValueKind where
  | word
  /-- A path, which is not empty. -/
  | path
  /-- A natural number of 64 bits. -/
  | count
  deriving DecidableEq, Repr

/-- An option. -/
structure Flag where
  name : String
  letter : Option Char
  kind : ValueKind
  help : String
  default : Option String
  deriving DecidableEq, Repr

/-- An operand that must be given. -/
structure Operand where
  name : String
  help : String
  deriving DecidableEq, Repr

/-- The manual of one command. -/
structure Manual where
  name : String
  about : String
  operands : List Operand
  flags : List Flag
  deriving DecidableEq, Repr

/-- The name of the program. -/
def program : String := "skansen"

/-- The name and the version of the program. -/
def version : String := "skansen-cli 0.1.0"

/-- What the program is. -/
def about : String := "Command line entrypoint for the skansen XDP deny-list enforcer"

/-! ## Showing a manual -/

/-- Two columns, the second one lined up. -/
def columns (rows : List (String × String)) : List String :=
  let start := (rows.map fun (left, _) => left.length).foldl max 0 + 2
  rows.map fun (left, right) =>
    if right.isEmpty then s!"  {left}"
    else s!"  {left}" ++ String.ofList (List.replicate (start - left.length) ' ') ++ right

/-- The name of the value of an option. -/
def Flag.valueName (f : Flag) : String :=
  String.ofList (f.name.toList.map fun c => if c = '-' then '_' else c.toUpper)

/-- An option and what it does. -/
def Flag.row (f : Flag) : String × String :=
  let letter := match f.letter with
    | some c => s!"-{c}, "
    | none => "    "
  let default := match f.default with
    | some value => s!"[default: {value}]"
    | none => ""
  let words := [f.help, default].filter (· ≠ "")
  (s!"{letter}--{f.name} <{f.valueName}>", " ".intercalate words)

/-- The row of the option that asks for the manual. -/
def helpRow : String × String := ("-h, --help", "Print help")

/-- An operand and what it is. -/
def Operand.row (o : Operand) : String × String := (s!"<{o.name}>", o.help)

/-- The manual of a command, line by line. -/
def Manual.lines (m : Manual) : List String :=
  let operands := m.operands.map fun o => s!" <{o.name}>"
  let arguments :=
    if m.operands.isEmpty then [] else "" :: "Arguments:" :: columns (m.operands.map Operand.row)
  [m.about, "", s!"Usage: {program} {m.name} [OPTIONS]" ++ String.join operands] ++ arguments ++
    ["", "Options:"] ++ columns (m.flags.map Flag.row ++ [helpRow])

/-- The command that shows manuals, and what it does. -/
def helpCommand : String × String :=
  ("help", "Print this message or the help of the given subcommand(s)")

/-- The manual of the command that shows manuals, line by line. -/
def helpLines : List String :=
  [helpCommand.2, "", s!"Usage: {program} {helpCommand.1} [COMMAND]...", "", "Arguments:"] ++
    columns [("[COMMAND]...", "Print help for the subcommand(s)")]

/-- The manual of a program with some commands, line by line. -/
def overview (manuals : List Manual) : List String :=
  [about, "", s!"Usage: {program} <COMMAND>", "", "Commands:"] ++
    columns (manuals.map (fun m => (m.name, m.about)) ++ [helpCommand]) ++
    ["", "Options:"] ++ columns [helpRow, ("-V, --version", "Print version")]

end IngressGuard.CommandLine
