import IngressGuard.CommandLine.Manual
import IngressGuard.Text.Digits

/-!
# Reading arguments

Arguments are read from left to right.  An option is named in full after two hyphens, or by its
letter after one; its value is attached with an equals sign, or directly to the letter, or is the
next argument, which then does not begin with a hyphen.  After two hyphens alone there are only
operands.  The first thing wrong ends the reading, and so does the wish to see the manual.
-/

namespace IngressGuard.CommandLine

/-- Why arguments give no command. -/
inductive Refusal where
  | misuse
  /-- The manual was asked for. -/
  | manual
  deriving DecidableEq, Repr

/-- What arguments give. -/
structure Given where
  /-- The values of options, by the names of the options. -/
  values : List (String × String)
  operands : List String
  deriving DecidableEq, Repr

namespace Given

/-- Nothing yet. -/
def empty : Given := ⟨[], []⟩

/-- The value of an option. -/
def value? (g : Given) (name : String) : Option String := g.values.lookup name

/-- The number that is the value of an option. -/
def count (g : Given) (name : String) (default : Nat) : Nat :=
  match g.value? name with
  | some text => (Text.natOfDigits? 10 (text.toList.dropWhile (· == '+'))).getD default
  | none => default

end Given

/-- Whether a text is a value of some kind. -/
def ValueKind.admits (text : String) : ValueKind → Bool
  | .word => true
  | .path => text ≠ ""
  | .count => (Text.boundedNat? (Nat.pow 2 64 - 1) text.toList).isSome

/-- Adds the value of an option. -/
def Given.put (g : Given) (f : Flag) (text : String) : Except Refusal Given :=
  if (g.value? f.name).isSome || !f.kind.admits text then .error .misuse
  else .ok { g with values := g.values ++ [(f.name, text)] }

/-- Adds an operand. -/
def Given.add (g : Given) (m : Manual) (text : String) : Except Refusal Given :=
  if g.operands.length < m.operands.length && text ≠ "" then
    .ok { g with operands := g.operands ++ [text] }
  else .error .misuse

/-- What an argument is. -/
inductive Argument where
  /-- Only operands follow. -/
  | border
  /-- An option with the value that is attached to it, if any. -/
  | flag (f : Flag) (value : Option String)
  | help
  | operand (text : String)
  | unknown
  deriving DecidableEq, Repr

/-- Cuts a list at the first equals sign. -/
def cutAtEquals (cs : List Char) : List Char × Option String :=
  let (name, rest) := cs.span (· ≠ '=')
  (name, rest.tail?.map String.ofList)

/-- What an argument is in the manual of a command. -/
def Manual.argument (m : Manual) (text : String) : Argument :=
  match text.toList with
  | ['-', '-'] => .border
  | '-' :: '-' :: rest =>
    let (name, value) := cutAtEquals rest
    match m.flags.find? (·.name == String.ofList name) with
    | some f => .flag f value
    | none => if String.ofList name = "help" ∧ value = none then .help else .unknown
  | '-' :: letter :: rest =>
    match m.flags.find? (·.letter == some letter) with
    | some f =>
      .flag f <| match rest with
        | [] => none
        | '=' :: rest => some (String.ofList rest)
        | rest => some (String.ofList rest)
    | none => if letter = 'h' then .help else .unknown
  | _ => .operand text

/-- Adds operands. -/
def Manual.addAll (m : Manual) : List String → Given → Except Refusal Given
  | [], g => .ok g
  | text :: rest, g => do m.addAll rest (← g.add m text)

/-- Reads arguments into what was read so far. -/
def Manual.readFrom (m : Manual) : List String → Given → Except Refusal Given
  | [], g => .ok g
  | text :: rest, g =>
    match m.argument text with
    | .border => m.addAll rest g
    | .help => .error .manual
    | .unknown => .error .misuse
    | .operand text => do m.readFrom rest (← g.add m text)
    | .flag f (some value) => do m.readFrom rest (← g.put f value)
    | .flag f none =>
      match rest with
      | [] => .error .misuse
      | value :: rest =>
        match m.argument value with
        | .operand value => do m.readFrom rest (← g.put f value)
        | _ => .error .misuse

/-- Reads the arguments of a command; every operand must be there. -/
def Manual.read (m : Manual) (arguments : List String) : Except Refusal Given := do
  let g ← m.readFrom arguments Given.empty
  if g.operands.length < m.operands.length then throw .misuse
  return g

end IngressGuard.CommandLine
