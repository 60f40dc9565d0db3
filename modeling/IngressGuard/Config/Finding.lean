/-!
# Findings of a check

A check of a record finds complaints about its fields.  A field may itself be a record, or a list
of records, with findings of their own; then the way to the field that is complained about is
spelled out.
-/

namespace IngressGuard

/-- What is wrong with a field. -/
structure Complaint where
  code : String
  message : Option String
  deriving DecidableEq, Repr

/-- What an operator is told of a complaint. -/
def Complaint.text (c : Complaint) : String := c.message.getD c.code

/-- What was found out about one field. -/
inductive Finding where
  | field (complaints : List Complaint)
  | record (fields : List (String × Finding))
  /-- Findings about the items with given numbers. -/
  | list (items : List (Nat × List (String × Finding)))

/-- What was found out about the fields of a record. -/
abbrev Findings := List (String × Finding)

namespace Finding

/-- The way to a field of a record that itself is reached by some way. -/
def join (path name : String) : String := if path.isEmpty then name else s!"{path}.{name}"

/-- The complaints about one field. -/
def block (path : String) (complaints : List Complaint) : String :=
  "\n".intercalate (s!"Field \x27{path}\x27:" :: complaints.map fun c => s!"  - {c.text}")

mutual

/-- The complaints about a field and what is inside it, field by field. -/
def blocks (path : String) : Finding → List String
  | .field complaints => [block path complaints]
  | .record fields => blocksOfFields path fields
  | .list items => blocksOfItems path items

/-- The complaints about the fields of a record. -/
def blocksOfFields (path : String) : List (String × Finding) → List String
  | [] => []
  | (name, f) :: rest => f.blocks (join path name) ++ blocksOfFields path rest

/-- The complaints about the items of a list. -/
def blocksOfItems (path : String) : List (Nat × List (String × Finding)) → List String
  | [] => []
  | (index, fields) :: rest =>
    blocksOfFields s!"{path}[{index}]" fields ++ blocksOfItems path rest

end

end Finding

namespace Findings

/-- The complaints field by field, in alphabetical order. -/
def blocks (f : Findings) : List String :=
  (Finding.blocksOfFields "" f).mergeSort fun a b => a ≤ b

/-- The findings about a field, if there is anything wrong with it. -/
def require (name : String) (holds : Bool) (code : String) : Findings :=
  if holds then [] else [(name, .field [⟨code, none⟩])]

/-- The findings about a field that is itself a record. -/
def within (name : String) (f : Findings) : Findings :=
  if f.isEmpty then [] else [(name, .record f)]

end Findings

end IngressGuard
