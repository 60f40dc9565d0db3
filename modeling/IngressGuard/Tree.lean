/-!
# Data trees

The form in which reports, documents and failures are written down or handed on: texts, numbers
and truth values in lists and in records with named fields.
-/

namespace IngressGuard

/-- A piece of structured data. -/
inductive Tree where
  | null
  | bool (value : Bool)
  | number (value : Int)
  | float (value : Float)
  | text (value : String)
  | list (items : List Tree)
  | record (fields : List (String × Tree))

namespace Tree

instance : Inhabited Tree := ⟨null⟩

instance : Coe String Tree := ⟨text⟩

instance : Coe Bool Tree := ⟨bool⟩

instance : Coe Float Tree := ⟨float⟩

instance : Coe Nat Tree := ⟨fun n => number n⟩

/-- A value that may be missing. -/
def optional {α : Type} (f : α → Tree) : Option α → Tree
  | some a => f a
  | none => null

/-- A list of values. -/
def each {α : Type} (f : α → Tree) (items : List α) : Tree := list (items.map f)

/-- A list of texts. -/
def texts (items : List String) : Tree := each text items

/-- A record with more fields. -/
def extend (more : List (String × Tree)) : Tree → Tree
  | record fields => record (fields ++ more)
  | t => t

/-- A failure with its label and what it tells an operator. -/
def failure (kind message : String) (more : List (String × Tree)) : Tree :=
  record (("error", kind) :: ("message", message) :: more)

/-- A result, or the failure in its place. -/
def result {ε α : Type} (onError : ε → Tree) (f : α → Tree) : Except ε α → Tree
  | .ok a => f a
  | .error e => onError e

end Tree

end IngressGuard
