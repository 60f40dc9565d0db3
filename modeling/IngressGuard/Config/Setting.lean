import IngressGuard.Decimal.Shortest
import IngressGuard.Text.Quoted
import IngressGuard.Tree

/-!
# Settings

A setting is a value that a layer of the configuration gives, together with the layer it comes
from.  A later layer replaces values of an earlier one, except that records are merged field by
field.  Reading a setting of some type fails with what was found instead of what was expected, and
with the names of the fields that lead there.
-/

namespace IngressGuard

/-- A layer of the configuration. -/
inductive Layer where
  | file (path : String)
  | environment
  /-- A setting does not have to tell which layer it comes from. -/
  | untold
  deriving DecidableEq, Repr

/-- A setting without parts. -/
inductive SettingValue where
  | nothing
  | bool (value : Bool)
  | unsigned (value : Nat)
  /-- An integer that was written with a minus sign. -/
  | signed (value : Int)
  | float (value : Float)
  | letter (value : Char)
  | text (value : String)

/-- A setting.  The fields of a record are in the order of their names. -/
inductive Setting where
  | value (layer : Layer) (value : SettingValue)
  | list (layer : Layer) (items : List Setting)
  | record (layer : Layer) (fields : List (String × Setting))

instance : Inhabited Setting := ⟨.value .environment .nothing⟩

namespace Setting

/-- The layer a setting comes from. -/
def layer : Setting → Layer
  | value l _ | list l _ | record l _ => l

/-- A setting as one of another layer; its parts stay where they are. -/
def attributed (l : Layer) : Setting → Setting
  | value _ v => value l v
  | list _ items => list l items
  | record _ fields => record l fields

/-! ## Merging layers -/

/-- Adds a field, or replaces one with the same name. -/
def putField (name : String) (s : Setting) : List (String × Setting) → List (String × Setting)
  | [] => [(name, s)]
  | (other, t) :: rest =>
    if name < other then (name, s) :: (other, t) :: rest
    else if name = other then (name, s) :: rest
    else (other, t) :: putField name s rest

/-- A record with given fields; of fields with the same name the last one counts. -/
def ofFields (layer : Layer) (fields : List (String × Setting)) : Setting :=
  .record layer (fields.foldl (fun fs (name, s) => putField name s fs) [])

/-- A setting below some names of fields. -/
def nested (layer : Layer) : List String → Setting → Setting
  | [], s => s
  | name :: rest, s => .record layer [(name, nested layer rest s)]

mutual

/-- What an earlier and a later layer give together. -/
def merge (earlier : Setting) : Setting → Setting
  | .record layer later =>
    match earlier with
    | .record _ fields => .record layer (mergeFields fields later)
    | _ => .record layer later
  | later => later

/-- Merges fields of a later layer into those of an earlier one. -/
def mergeFields (earlier : List (String × Setting)) : List (String × Setting) →
    List (String × Setting)
  | [] => earlier
  | (name, s) :: rest =>
    let merged := match earlier.lookup name with
      | some t => merge t s
      | none => s
    mergeFields (putField name merged earlier) rest

end

end Setting

/-! ## Faults -/

/-- What a setting is instead of what was expected. -/
inductive Found where
  | nothing
  | bool (value : Bool)
  | unsigned (value : Nat)
  | signed (value : Int)
  | float (value : Float)
  | text (value : String)
  | list
  | record
  /-- An integer beyond 64 bits. -/
  | wide (value : Int) (kind : String)

/-- What a setting is, in faults. -/
def Found.description : Found → String
  | nothing => "unit"
  | bool b => s!"bool {b}"
  | unsigned n => s!"unsigned int `{n}`"
  | signed n => s!"signed int `{n}`"
  | float x => s!"float `{Decimal.text x}`"
  | text s => s!"string {Text.quoted s}"
  | list => "sequence"
  | record => "map"
  | wide n kind => s!"integer `{n}` as {kind}"

/-- Why a setting cannot be read. -/
inductive SettingProblem where
  | unreadable (detail : String)
  | wrongType (found : Found) (expected : String)
  | wrongValue (found : Found) (expected : String)
  | wrongLength (length : Nat) (expected : String)
  | unknownChoice (name : String) (choices : List String)
  | missingField (name : String)

namespace SettingProblem

/-- The label of a problem. -/
def kind : SettingProblem → String
  | unreadable _ => "Message"
  | wrongType .. => "InvalidType"
  | wrongValue .. => "InvalidValue"
  | wrongLength .. => "InvalidLength"
  | unknownChoice .. => "UnknownVariant"
  | missingField _ => "MissingField"

/-- Names in a row of alternatives. -/
def alternatives : List String → String
  | [] => "none"
  | [a] => s!"`{a}`"
  | [a, b] => s!"`{a}` or `{b}`"
  | names => "one of " ++ ", ".intercalate (names.map fun n => s!"`{n}`")

/-- What a problem tells an operator. -/
def message : SettingProblem → String
  | unreadable detail => detail
  | wrongType found expected => s!"invalid type: found {found.description}, expected {expected}"
  | wrongValue found expected => s!"invalid value {found.description}, expected {expected}"
  | wrongLength length expected => s!"invalid length {length}, expected {expected}"
  | unknownChoice name choices =>
    s!"unknown variant: found `{name}`, expected `{alternatives choices}`"
  | missingField name => s!"missing field `{name}`"

end SettingProblem

/-- A problem with a setting, the names that lead to it, and the layer it comes from. -/
structure SettingFault where
  problem : SettingProblem
  path : List String
  layer : Layer

namespace SettingFault

/-- The part of a message that tells where a setting comes from. -/
def place (f : SettingFault) : String :=
  match f.layer with
  | .file path =>
    let name := ".".intercalate ("default" :: f.path)
    let key := if f.path.isEmpty then "" else s!" for key {Text.quoted name}"
    s!"{key} in {path} YAML file"
  | .environment =>
    let name := ".".intercalate (f.path.map fun s => String.ofList (s.toList.map Char.toUpper))
    let key := if f.path.isEmpty then "" else s!" for key {Text.quoted name}"
    s!"{key} in `SKANSEN_` environment variable(s)"
  | .untold => ""

/-- What a fault tells an operator. -/
def message (f : SettingFault) : String := f.problem.message ++ f.place

/-- A fault in reports. -/
def tree (f : SettingFault) : Tree :=
  .record [("error", "Parsing"), ("kind", f.problem.kind), ("path", ".".intercalate f.path),
    ("message", match f.problem with
      | .unreadable _ => .null
      | p => p.message)]

end SettingFault

/-! ## Reading settings -/

/-- The outcome of reading a setting. -/
abbrev Reading (α : Type) := Except SettingFault α

namespace Setting

/-- Fails at a setting. -/
def fail {α : Type} (s : Setting) (problem : SettingProblem) : Reading α :=
  .error ⟨problem, [], s.layer⟩

/-- Adds a name in front of those that lead to a fault. -/
def under {α : Type} (name : String) (r : Reading α) : Reading α :=
  match r with
  | .error f => .error { f with path := name :: f.path }
  | .ok a => .ok a

/-- What a setting is. -/
def found : Setting → Found
  | value _ v =>
    match v with
    | .nothing => .nothing
    | .bool b => .bool b
    | .unsigned n => if n < Nat.pow 2 64 then .unsigned n else .wide n "u128"
    | .signed n => if -(Nat.pow 2 63) ≤ n then .signed n else .wide n "i128"
    | .float x => .float x
    | .letter c => .text c.toString
    | .text t => .text t
  | list .. => .list
  | record .. => .record

/-- Fails because a setting is of another type. -/
def unexpected {α : Type} (s : Setting) (expected : String) : Reading α :=
  s.fail (.wrongType s.found expected)

/-- Reads a natural number up to a bound below `2 ^ 64`. -/
def nat (bound : Nat) (expected : String) (s : Setting) : Reading Nat :=
  match s with
  | value _ (.unsigned n) =>
    if n ≤ bound then .ok n
    else if n < Nat.pow 2 64 then s.fail (.wrongValue s.found expected)
    else s.unexpected expected
  | value _ (.signed n) =>
    if 0 ≤ n then .ok n.toNat
    else if -(Nat.pow 2 63) ≤ n then s.fail (.wrongValue s.found expected)
    else s.unexpected expected
  | _ => s.unexpected expected

/-- Reads a truth value. -/
def truth (s : Setting) : Reading Bool :=
  match s with
  | value _ (.bool b) => .ok b
  | _ => s.unexpected "a boolean"

/-- Reads a text. -/
def word (expected : String) (s : Setting) : Reading String :=
  match s with
  | value _ (.text t) => .ok t
  | value _ (.letter c) => .ok c.toString
  | _ => s.unexpected expected

/-- Reads a path. -/
def path : Setting → Reading String := word "path string"

/-- Reads a path that may be left open. -/
def optionalPath (s : Setting) : Reading (Option String) :=
  match s with
  | value _ .nothing => .ok none
  | s => some <$> s.path

/-- Reads a list. -/
def each {α : Type} (item : Setting → Reading α) (s : Setting) : Reading (List α) :=
  match s with
  | list _ items => items.zipIdx.mapM fun (t, i) => under (toString i) (item t)
  | _ => s.unexpected "a sequence"

/-- Reads one of several names.  It may also be the name of a field with nothing in it.  Of a record
without fields it is not said which names were expected. -/
def choice {α : Type} (name : String) (options : List (String × α)) (s : Setting) : Reading α :=
  let pick (text : String) : Reading α :=
    match options.lookup text with
    | some a => .ok a
    | none => s.fail (.unknownChoice text (options.map Prod.fst))
  match s with
  | value _ (.text text) => pick text
  | record _ ((text, content) :: _) => under text do
    let a ← pick text
    match content with
    | value _ .nothing => return a
    | t => t.unexpected "unit"
  | record _ [] => s.unexpected "enum"
  | s => s.unexpected s!"enum {name}"

/-- A field of a record: its name, how it is read into what was read so far, and whether it was
read already if it must not be left out. -/
structure Field (α : Type) where
  name : String
  read : α → Setting → Reading α
  present : Option (α → Bool)

/-- Reads the fields of a record from settings without names, in their order. -/
def positional {α : Type} (s : Setting) (expected : String) :
    Nat → List (Field α) → List Setting → α → Reading α
  | _, [], _, a => .ok a
  | i, f :: fields, [], a =>
    if f.present.isSome then s.fail (.wrongLength i expected)
    else positional s expected (i + 1) fields [] a
  | i, f :: fields, t :: items, a => do
    let a ← under (toString i) (f.read a t)
    positional s expected (i + 1) fields items a

/-- Reads a record.  Fields that are not known are passed over. -/
def fields {α : Type} (name : String) (known : List (Field α)) (start : α) (s : Setting) :
    Reading α :=
  match s with
  | record _ given => do
    let a ← given.foldlM
      (fun a (name, t) =>
        match known.find? (·.name == name) with
        | some f => under name (f.read a t)
        | none => .ok a)
      start
    match known.find? fun f => f.present.any fun present => !present a with
    | some f => s.fail (.missingField f.name)
    | none => return a
  | list _ items =>
    positional s s!"struct {name} with {known.length} elements" 0 known items start
  | s => s.unexpected s!"struct {name}"

end Setting

end IngressGuard
