import IngressGuard.Policy
import IngressGuard.Text.Fields

/-!
# Files

Text files by their path, from the root or from a working directory.  A directory exists if a file
below it does.
-/

namespace IngressGuard

/-- Why a file cannot be read or written. -/
inductive FileFault where
  | missing
  /-- Something that is always there would be replaced. -/
  | busy
  | notDirectory
  | isDirectory
  | nameTooLong
  /-- The path holds the character that ends paths. -/
  | brokenName
  deriving DecidableEq, Repr

/-- What a file fault tells an operator. -/
def FileFault.message : FileFault → String
  | .missing => "No such file or directory (os error 2)"
  | .busy => "Device or resource busy (os error 16)"
  | .notDirectory => "Not a directory (os error 20)"
  | .isDirectory => "Is a directory (os error 21)"
  | .nameTooLong => "File name too long (os error 36)"
  | .brokenName => "file name contained an unexpected NUL byte"

/-- The most bytes a step of a path may have. -/
def maxStepLength : Nat := 255

/-- The most bytes a path may have. -/
def maxPathLength : Nat := 4095

/-- The steps of a path, from the root or from the working directory. -/
def pathSteps (path : String) : List String :=
  ((Text.fields '/' path.toList).map String.ofList).filter fun step => step ≠ "" ∧ step ≠ "."

/-- Whether a path can only lead to a directory. -/
def namesDirectory (path : String) : Bool :=
  match ((Text.fields '/' path.toList).map String.ofList).getLast? with
  | some step => ["", ".", ".."].contains step
  | none => false

/-- Whether a path leads to a place that has no name of its own there. -/
def endsUnnamed (path : String) : Bool :=
  let steps := ((Text.fields '/' path.toList).map String.ofList).filter (· ≠ "")
  steps.getLast?.all [".", ".."].contains

/-- Whether a path starts at the root. -/
def isRooted (path : String) : Bool := path.toList.head? == some '/'

/-- The step that paths from the root begin with. -/
def rootStep : String := "/"

/-- Where a path begins. -/
def startSteps (path : String) : List String := if isRooted path then [rootStep] else []

/-- Text files, by the steps of their paths. -/
abbrev Files := Std.ExtTreeMap (List String) String

namespace Files

/-- The files that are always there: a device that reads as an empty text. -/
def standing : Files := (∅ : Files).insert [rootStep, "dev", "null"] ""

/-- The files of a list of paths and texts. -/
def ofList (files : List (String × String)) : Files :=
  files.foldl (fun m (path, text) => m.insert (startSteps path ++ pathSteps path) text) standing

/-- The directory around a directory.  Around the working directory there are others, too. -/
def around (here : List String) : List String :=
  if here == [rootStep] then here
  else if here.all (· == "..") then here ++ [".."]
  else here.dropLast

/-- Whether some steps lead to a directory; the root, the working directory and those around it
always exist. -/
def isDirectory (m : Files) (steps : List String) : Bool :=
  steps.all (· == "..") || steps == [rootStep] ||
    m.keys.any fun key => steps.isPrefixOf key && key.length > steps.length

/-- Follows the steps of a path from a directory; every step but the last must lead to a
directory. -/
def walk (m : Files) : List String → List String → Except FileFault (List String)
  | here, [] => .ok here
  | here, ".." :: rest => m.walk (around here) rest
  | here, name :: rest =>
    let next := here ++ [name]
    if name.utf8ByteSize > maxStepLength then .error .nameTooLong
    else if rest.isEmpty then .ok next
    else if m.isDirectory next then m.walk next rest
    else if m.contains next then .error .notDirectory
    else .error .missing

/-- Where a path leads. -/
def resolve (m : Files) (path : String) : Except FileFault (List String) :=
  if path.toList.contains '\x00' then .error .brokenName
  else if path.isEmpty then .error .missing
  else if path.utf8ByteSize > maxPathLength then .error .nameTooLong
  else m.walk (startSteps path) (pathSteps path)

/-- The text of a file. -/
def read (m : Files) (path : String) : Except FileFault String := do
  let key ← m.resolve path
  match m[key]? with
  | some text => if namesDirectory path then throw .notDirectory else return text
  | none => throw (if m.isDirectory key then .isDirectory else .missing)

/-- Whether some steps lead to a file or a directory. -/
def hasEntry (m : Files) (steps : List String) : Bool := m.isDirectory steps || m.contains steps

/-- Whether there is a file or a directory at a path. -/
def hasPath (m : Files) (path : String) : Bool :=
  match m.resolve path with
  | .ok key => if namesDirectory path then m.isDirectory key else m.hasEntry key
  | .error _ => false

/-- Writes a file, which need not have been there. -/
def write (m : Files) (path text : String) : Except FileFault Files := do
  let key ← m.resolve path
  if namesDirectory path || m.isDirectory key then throw .isDirectory
  return m.insert key text

/-- Moves a file to the place of another one, or to where there is none yet. -/
def move (m : Files) (source target : String) : Except FileFault Files := do
  let sourceKey ← m.resolve source
  let targetKey ← m.resolve target
  if endsUnnamed target then throw .busy
  match m[sourceKey]? with
  | none => throw .missing
  | some text =>
    if namesDirectory target then throw .notDirectory
    if m.isDirectory targetKey then throw .isDirectory
    return (m.erase sourceKey).insert targetKey text

/-- Replaces a file so that it is never seen half written: the text is written to a file beside it,
which then takes its place.  That file stays if it cannot be moved. -/
def replace (m : Files) (path text : String) : Files × Option FileFault :=
  let draft := path ++ ".tmp"
  match m.write draft text with
  | .error fault => (m, some fault)
  | .ok written =>
    match written.move draft path with
    | .error fault => (written, some fault)
    | .ok moved => (moved, none)

end Files

end IngressGuard
