import IngressGuard.Decimal.Shortest
import IngressGuard.Text.Quoted
import IngressGuard.Yaml.Document
import IngressGuard.Yaml.Scalar

/-!
# Reading values of a document

A decoder reads a value of a kind from a node.  Every scalar can be read as a text, which is then
what is written, whatever it stands for otherwise; an empty plain scalar can be read as a list or
a map without entries.  Aliases are followed, so often at most, and so deep at most, that a
document cannot blow up.
-/

namespace IngressGuard.Yaml

open Text

/-- A decoder may fail, and counts the aliases that were followed. -/
abbrev Decode (α : Type) := ReaderT Document (StateT Nat (Except Fault)) α

/-- A node on the way to be read: how it was reached, and how many collections may still be
entered. -/
structure Spot where
  node : Node
  path : Path
  depth : Nat

/-- How many collections may be inside one another. -/
def maxDepth : Nat := 128

/-- How often aliases may be followed, for each node. -/
def aliasesPerNode : Nat := 100

namespace Decode

/-- Fails because a value is not of the expected kind. -/
def mismatch {α : Type} (problem : String) : Decode α := throw (.mismatch problem none)

/-- Adds the place to a failure that has none. -/
def located {α : Type} (mark : Mark) (path : Path) (d : Decode α) : Decode α :=
  fun document jumps =>
    match d document jumps with
    | .error (.mismatch problem none) => .error (.mismatch problem (some (mark, path)))
    | r => r

/-- Follows an alias. -/
def resolve (s : Spot) : Decode Spot := do
  match s.node with
  | .reference _ number =>
    modify (· + 1)
    let d ← read
    if (← get) > d.size * aliasesPerNode then throw .tooRepetitive
    return { s with node := (d.anchoredNode? number).getD s.node }
  | _ => return s

/-! ## Scalars -/

/-- What a scalar stands for, and an error if its tag says that it must stand for something
else. -/
def meaning (tag : Option Tag) (text : String) (style : Style) : Except String Meaning :=
  let cs := text.toList
  let wrong (what : String) : Except String Meaning :=
    .error s!"invalid value: string {quoted text}, expected {what}"
  let plain : Except String Meaning := .ok (if style = .plain then meaningOf cs else .text)
  match tag with
  | none => plain
  | some tag =>
    if tag = .common "bool" then
      match boolOf? cs with
      | some b => .ok (.bool b)
      | none => wrong "a boolean"
    else if tag = .common "int" then
      match integerOf? cs with
      | some m => .ok m
      | none => wrong "an integer"
    else if tag = .common "float" then
      match floatOf? cs with
      | some x => .ok (.float x)
      | none => wrong "a float"
    else if tag = .common "null" then if isNull cs then .ok .null else wrong "null"
    else if tag.isLocal then plain
    else .ok .text

/-- An integer as failures show it. -/
def integerText (n : Int) (bound : Nat) (wide : String) : String :=
  if n.natAbs ≤ bound then s!"integer `{n}`" else s!"integer `{n}` as {wide}"

/-- What a node is instead of what was expected. -/
def foundText (n : Node) : Except String String :=
  match n with
  | .scalar _ tag text style =>
    (meaning tag text style).map fun
      | .null => "unit value"
      | .bool b => s!"boolean `{b}`"
      | .unsigned n => integerText n (Nat.pow 2 64 - 1) "u128"
      | .signed n => integerText n (Nat.pow 2 63) "i128"
      | .float x => s!"floating point `{Decimal.pointed x}`"
      | .text => s!"string {quoted text}"
  | .sequence .. => .ok "sequence"
  | _ => .ok "map"

/-- Fails because a node is something else than expected. -/
def unexpected {α : Type} (n : Node) (expected : String) : Decode α :=
  match n with
  | .absent _ => throw .unfinished
  | .broken fault => throw fault
  | n =>
    match foundText n with
    | .ok found => mismatch s!"invalid type: {found}, expected {expected}"
    | .error problem => mismatch problem

/-- Where a node begins. -/
def markOf : Node → Mark
  | .absent mark | .reference mark _ | .scalar mark .. => mark
  | .sequence mark .. | .mapping mark .. => mark
  | .broken _ => .start

/-- The tag in front of a node. -/
def tagOf : Node → Option Tag
  | .scalar _ tag .. | .sequence _ tag _ | .mapping _ tag _ => tag
  | .absent _ | .reference .. | .broken _ => none

/-- The name that a node has from a tag of the document alone. -/
def localName? (n : Node) : Option String := (tagOf n).bind Tag.localName?

/-- Reads a text. -/
def text (expected : String) (s : Spot) : Decode String := do
  let s ← resolve s
  match s.node with
  | .scalar _ _ text _ => return text
  | n => located (markOf n) s.path (unexpected n expected)

/-- Reads a scalar of a kind that may not be quoted, unless it is a literal block with a tag. -/
def unquoted {α : Type} (kind expected : String) (f : List Char → Option α) (s : Spot) :
    Decode α := do
  let s ← resolve s
  let found := match s.node with
    | .scalar _ given text style =>
      if style = .plain || (style = .literal && given = some (.common kind)) then f text.toList
      else none
    | _ => none
  match found with
  | some a => return a
  | none => located (markOf s.node) s.path (unexpected s.node expected)

/-- Reads an unsigned integer up to a bound. -/
def unsigned (bound : Nat) (expected : String) : Spot → Decode Nat :=
  unquoted "int" expected (unsignedOf? bound)

/-- Reads a floating-point number. -/
def float : Spot → Decode Float := unquoted "float" "f64" floatOf?

/-- Names in a row of alternatives. -/
def alternatives (names : List String) : String :=
  match names with
  | [a, b] => s!"`{a}` or `{b}`"
  | names => "one of " ++ ", ".intercalate (names.map fun n => s!"`{n}`")

/-- Reads nothing, under a tag. -/
def nothing (s : Spot) : Decode Unit :=
  located (markOf s.node) s.path do
    match s.node with
    | .scalar _ _ text style =>
      unless style = .plain && (text.isEmpty || isNull text.toList) do
        mismatch s!"invalid value: string {quoted text}, expected null"
    | n => unexpected n "unit"

/-- Reads one of several names.  A name may also be given as a tag of nothing; that there is no such
name is then a failure of what is around. -/
def choice {α : Type} (options : List (String × α)) (s : Spot) : Decode α := do
  let s ← resolve s
  let pick (name : String) : Decode α :=
    match options.lookup name with
    | some a => return a
    | none =>
      mismatch s!"unknown variant `{name}`, expected {alternatives (options.map Prod.fst)}"
  match localName? s.node with
  | some name => do
    let a ← pick name
    nothing s
    return a
  | none =>
    located (markOf s.node) s.path do
      match s.node with
      | .scalar _ _ text _ => pick text
      | .sequence .. | .mapping .. =>
        match foundText s.node with
        | .ok found =>
          mismatch s!"invalid type: {found}, expected a YAML tag starting with '!'"
        | .error problem => mismatch problem
      | n => unexpected n ""

/-! ## Collections -/

/-- The spot of a part of a collection. -/
def within (s : Spot) (mark : Mark) (path : Path) (n : Node) : Decode Spot :=
  match s.depth with
  | 0 => throw (.tooDeep mark)
  | depth + 1 => return ⟨n, path, depth⟩

/-- Whether a node can be read as a collection without parts. -/
def isEmptyCollection : Node → Bool
  | .absent _ => true
  | .scalar _ _ text style => text.isEmpty && style = .plain
  | _ => false

/-- Reads a list. -/
def list {α : Type} (item : Spot → Decode α) (s : Spot) : Decode (List α) := do
  let s ← resolve s
  located (markOf s.node) s.path do
    match s.node with
    | .sequence mark _ items =>
      if s.depth = 0 then throw (.tooDeep mark)
      items.zipIdx.mapM fun (n, i) => do item (← within s mark (.item s.path i) n)
    | n => if isEmptyCollection n then return [] else unexpected n "a sequence"

/-- Passes over a value. -/
def ignore (s : Spot) : Decode Unit :=
  match s.node.fault? with
  | some fault => throw fault
  | none => return ()

/-- The path to the value of a key. -/
def valuePath (parent : Path) : Node → Path
  | .scalar _ _ name _ => .field parent name
  | _ => .unknown parent

/-- Reads a map entry by entry, each one into what was read so far. -/
def entries {α : Type} (expected : String) (entry : α → Spot → Spot → Decode α) (start : α)
    (finish : α → Decode α) (s : Spot) : Decode α := do
  let s ← resolve s
  located (markOf s.node) s.path do
    match s.node with
    | .mapping mark _ nodes =>
      if s.depth = 0 then throw (.tooDeep mark)
      let a ← nodes.foldlM
        (fun a (k, v) => do
          entry a (← within s mark s.path k) (← within s mark (valuePath s.path k) v))
        start
      finish a
    | n => if isEmptyCollection n then finish start else unexpected n expected

/-- Reads the fields of a record, each at most once and into what was read so far.  A field whose
name is not known is passed over. -/
def fields {α : Type} (expected : String) (known : List (String × (α → Spot → Decode α)))
    (start : α) (required : List (String × (α → Bool))) (s : Spot) : Decode α := do
  let entry (seen : List String × α) (k v : Spot) : Decode (List String × α) := do
    let name ← text "field identifier" k
    match known.lookup name with
    | some read =>
      if seen.1.contains name then mismatch s!"duplicate field `{name}`"
      return (name :: seen.1, ← read seen.2 v)
    | none =>
      ignore v
      return seen
  let finish (seen : List String × α) : Decode (List String × α) :=
    match required.find? fun (_, present) => !present seen.2 with
    | some (name, _) => mismatch s!"missing field `{name}`"
    | none => return seen
  return (← entries expected entry ([], start) finish s).2

end Decode

/-- Reads the only document of a text. -/
def decode {α : Type} (d : Spot → Decode α) (source : String) : Except Fault α :=
  let document := document source
  match d ⟨document.root, .root, maxDepth⟩ document 0 with
  | .error fault => .error fault
  | .ok (a, _) =>
    match document.fault with
    | some fault => .error fault
    | none => if document.continues then .error .severalDocuments else .ok a

end IngressGuard.Yaml
