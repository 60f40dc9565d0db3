import IngressGuard.Tree

/-!
# Address families

An interface carries one block table per address family.  `PerFamily` is the pair of values
that anything kept once per family consists of.
-/

namespace IngressGuard

/-- An internet protocol family. -/
inductive Family where
  | ipv4
  | ipv6
  deriving DecidableEq, Repr, Inhabited

namespace Family

/-- Both families, in the order in which tables are planned and listed. -/
def all : List Family := [.ipv4, .ipv6]

/-- Address width in bits, which is also the length of a host prefix. -/
def width : Family → Nat
  | .ipv4 => 32
  | .ipv6 => 128

/-- Number of address bytes. -/
def byteCount (f : Family) : Nat := f.width / 8

/-- The name of a family in policies, tables and messages. -/
def label : Family → String
  | .ipv4 => "ipv4"
  | .ipv6 => "ipv6"

/-- The name of a family as a diagnostic tag. -/
def tag : Family → String
  | .ipv4 => "Ipv4"
  | .ipv6 => "Ipv6"

/-- The family with a given name. -/
def ofLabel? (text : String) : Option Family :=
  all.find? fun f => f.label == text

theorem mem_all (f : Family) : f ∈ all := by cases f <;> simp [all]

theorem width_le (f : Family) : f.width ≤ 128 := by cases f <;> simp [width]

theorem byteCount_mul (f : Family) : f.byteCount * 8 = f.width := by cases f <;> rfl

end Family

/-- One value for each family. -/
structure PerFamily (α : Type) where
  ipv4 : α
  ipv6 : α
  deriving DecidableEq, Repr

namespace PerFamily

variable {α β : Type}

/-- The same value for both families. -/
def const (a : α) : PerFamily α := ⟨a, a⟩

/-- The value of one family. -/
def get (p : PerFamily α) : Family → α
  | .ipv4 => p.ipv4
  | .ipv6 => p.ipv6

/-- Replaces the value of one family. -/
def set (p : PerFamily α) (f : Family) (a : α) : PerFamily α :=
  match f with
  | .ipv4 => { p with ipv4 := a }
  | .ipv6 => { p with ipv6 := a }

/-- Tabulates a function of the family. -/
def ofFn (g : Family → α) : PerFamily α := ⟨g .ipv4, g .ipv6⟩

@[simp] theorem get_const (a : α) (f : Family) : (const a).get f = a := by cases f <;> rfl

@[simp] theorem get_ofFn (g : Family → α) (f : Family) : (ofFn g).get f = g f := by
  cases f <;> rfl

@[simp] theorem get_set_self (p : PerFamily α) (f : Family) (a : α) :
    (p.set f a).get f = a := by
  cases f <;> rfl

theorem get_set_of_ne (p : PerFamily α) {f g : Family} (a : α) (h : g ≠ f) :
    (p.set f a).get g = p.get g := by
  cases f <;> cases g <;> first | rfl | exact absurd rfl h

theorem get_set (p : PerFamily α) (f g : Family) (a : α) :
    (p.set f a).get g = if g = f then a else p.get g := by
  cases f <;> cases g <;> rfl

@[ext] theorem ext {p q : PerFamily α} (h : ∀ f, p.get f = q.get f) : p = q := by
  cases p
  cases q
  have h4 := h .ipv4
  have h6 := h .ipv6
  simp only [get] at h4 h6
  rw [h4, h6]

/-- The values that are there, by the name of their family. -/
def tree (p : PerFamily (Option α)) (f : α → Tree) : Tree :=
  .record (Family.all.filterMap fun family => (p.get family).map fun a => (family.label, f a))

end PerFamily

end IngressGuard
