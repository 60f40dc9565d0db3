/-!
# Readers

A reader takes a value from the front of a list of characters.  It stops with the place where
the input is no longer of the expected form, or because the input nests too deeply.  A misfit
lets other readers try the same input; too deep a nesting ends the reading at once.
-/

namespace IngressGuard

/-- Why reading stopped. -/
inductive Stop where
  /-- The input is not of the expected form from here on. -/
  | misfit (rest : List Char)
  /-- The input nests too deeply. -/
  | tooDeep
  deriving DecidableEq, Repr

/-- Takes a value from the front of the input. -/
abbrev Reader (α : Type) := List Char → Except Stop (α × List Char)

namespace Reader

variable {α β : Type}

/-- Takes a given text. -/
def literal (text : List Char) : Reader Unit := fun input =>
  if text.isPrefixOf input then .ok ((), input.drop text.length) else .error (.misfit input)

/-- Takes the longest run of characters of a class. -/
def run (p : Char → Bool) : Reader (List Char) := fun input =>
  .ok (input.takeWhile p, input.dropWhile p)

/-- Takes the longest run of characters of a class, which must not be empty. -/
def run1 (p : Char → Bool) : Reader (List Char) := fun input =>
  if (input.takeWhile p).isEmpty then .error (.misfit input) else run p input

/-- Reads a value and then, from what is left, a second one that may depend on it. -/
def andThen (r : Reader α) (next : α → Reader β) : Reader β := fun input =>
  match r input with
  | .ok (a, rest) => next a rest
  | .error stop => .error stop

/-- Applies a function to the value. -/
def map (f : α → β) (r : Reader α) : Reader β := r.andThen fun a rest => .ok (f a, rest)

/-- Reads two values and keeps the second. -/
def skipThen (first : Reader α) (second : Reader β) : Reader β := first.andThen fun _ => second

/-- Reads two values and keeps the first. -/
def thenSkip (first : Reader α) (second : Reader β) : Reader α :=
  first.andThen fun a => second.map fun _ => a

/-- Tries a second reader where the first one misfits; the misfit of the last one counts. -/
def orElse (first second : Reader α) : Reader α := fun input =>
  match first input with
  | .error (.misfit _) => second input
  | answer => answer

/-- Reads as many values as possible.  A value that takes nothing ends the reading. -/
def many (r : Reader α) : Reader (List α) := fun input =>
  match r input with
  | .error .tooDeep => .error .tooDeep
  | .error (.misfit _) => .ok ([], input)
  | .ok (a, rest) =>
    if rest.length < input.length then
      match many r rest with
      | .ok (as, final) => .ok (a :: as, final)
      | .error stop => .error stop
    else .error (.misfit input)
termination_by input => input.length

/-- Reads values with a separator between them, or none. -/
def sepBy (r : Reader α) (sep : Reader β) : Reader (List α) :=
  (r.andThen fun a => (many (sep.skipThen r)).map fun as => a :: as).orElse
    fun input => .ok ([], input)

/-- Characters that may stand between any two tokens: blank, tab, carriage return, newline. -/
def isGap (c : Char) : Bool := c == ' ' || c == '\t' || c == '\r' || c == '\n'

/-- Skips gaps. -/
def gaps : Reader Unit := (run isGap).map fun _ => ()

/-- Reads a value with gaps around it. -/
def padded (r : Reader α) : Reader α := gaps.skipThen (r.thenSkip gaps)

end Reader

end IngressGuard
