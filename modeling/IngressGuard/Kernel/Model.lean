import IngressGuard.Failsafe
import IngressGuard.Kernel
import IngressGuard.Net.Match
import IngressGuard.Policy

/-!
# A model of the kernel

The model behaves like the kernel as far as the control plane can tell: program ids are handed
out on attaching, tables appear with their first entry, and no program is attached over another
one.  Others can tamper with it behind the control plane's back, and it can be armed to fail.
-/

namespace IngressGuard

namespace Kernel

/-- A call that the model has carried out, or was asked to. -/
inductive Operation where
  | probe (interface : String)
  | query (interface : String)
  | attach (interface : String) (id : UInt32)
  | detach (interface : String) (id : UInt32)
  | read (interface : String) (family : Family)
  | insert (interface : String) (entry : Prefix)
  | remove (interface : String) (entry : Prefix)
  | destroy (interface : String) (family : Family)
  deriving DecidableEq, Repr

/-- An operation in reports. -/
def Operation.tree : Operation → Tree
  | .probe i => .texts ["probe", i]
  | .query i => .texts ["query", i]
  | .attach i id => .list ["attach", i, id.toNat]
  | .detach i id => .list ["detach", i, id.toNat]
  | .read i f => .texts ["read", i, f.label]
  | .insert i p => .texts ["insert", i, p.text]
  | .remove i p => .texts ["remove", i, p.text]
  | .destroy i f => .texts ["destroy", i, f.label]

/-- What the kernel holds for one interface. -/
structure InterfaceState where
  program : Option Program
  tables : PerFamily (Option PrefixSet)
  /-- Every prefix is in the table of its own family. -/
  filed : ∀ f t p, tables.get f = some t → p ∈ t → p.family = f
  deriving DecidableEq

namespace InterfaceState

@[ext] theorem ext {s t : InterfaceState} (hp : s.program = t.program)
    (ht : s.tables = t.tables) : s = t := by
  cases s
  cases t
  simp_all

/-- An interface without program and tables. -/
def blank : InterfaceState where
  program := none
  tables := PerFamily.const none
  filed := by simp

/-! ## Changes -/

/-- Replaces the program. -/
def withProgram (s : InterfaceState) (p : Option Program) : InterfaceState :=
  { s with program := p }

/-- Inserts a prefix into the table of its family, which is created if needed. -/
def insert (s : InterfaceState) (p : Prefix) : InterfaceState where
  program := s.program
  tables := s.tables.set p.family (some (((s.tables.get p.family).getD ∅).insert p))
  filed := by
    intro f t q ht hq
    rw [PerFamily.get_set] at ht
    split at ht
    case isTrue hf =>
      cases ht
      rw [Std.ExtTreeSet.mem_insert, Std.LawfulEqCmp.compare_eq_iff_eq] at hq
      rcases hq with rfl | hq
      · exact hf.symm
      · cases htable : s.tables.get p.family with
        | none => simp [htable] at hq
        | some t => exact hf ▸ s.filed p.family t q htable (by simpa [htable] using hq)
    case isFalse => exact s.filed f t q ht hq

/-- Removes a prefix from the table of its family.  A table that becomes empty stays. -/
def remove (s : InterfaceState) (p : Prefix) : InterfaceState where
  program := s.program
  tables := s.tables.set p.family ((s.tables.get p.family).map (·.erase p))
  filed := by
    intro f t q ht hq
    rw [PerFamily.get_set] at ht
    split at ht
    case isTrue hf =>
      obtain ⟨u, hu, rfl⟩ := Option.map_eq_some_iff.mp ht
      exact hf ▸ s.filed p.family u q hu (Std.ExtTreeSet.mem_of_mem_erase hq)
    case isFalse => exact s.filed f t q ht hq

/-- Deletes the table of a family. -/
def destroy (s : InterfaceState) (f : Family) : InterfaceState where
  program := s.program
  tables := s.tables.set f none
  filed := by
    intro g t q ht hq
    rw [PerFamily.get_set] at ht
    split at ht
    · cases ht
    · exact s.filed g t q ht hq

/-! ## Views -/

/-- Whether a program of ours is attached. -/
def carriesOurs (s : InterfaceState) : Bool := s.program.any Program.isOurs

/-- Whether there is a table for some family. -/
def hasTable (s : InterfaceState) : Bool := s.tables.ipv4.isSome || s.tables.ipv6.isSome

/-- The longest entry of the table of an address's family that covers the address. -/
def lookup (s : InterfaceState) (a : Address) : Option Prefix :=
  (s.tables.get a.family).bind (PrefixSet.lookup · a)

/-- What is held for an interface, in reports. -/
def tree (s : InterfaceState) : Tree :=
  .record
    [("program", .optional Program.tree s.program),
      ("ipv4", .optional PrefixSet.tree s.tables.ipv4),
      ("ipv6", .optional PrefixSet.tree s.tables.ipv6)]

end InterfaceState

/-- Failures that are still to come. -/
structure Faults where
  /-- How many writes succeed before one fails, if a failure is due at all. -/
  writesBeforeFailure : Option Nat
  writes : Nat
  reads : Nat
  attaches : Nat
  detaches : Nat
  deriving DecidableEq, Repr

namespace Faults

/-- No failures. -/
def none : Faults := ⟨.none, 0, 0, 0, 0⟩

/-- Counts one write, and tells whether it fails. -/
def write (f : Faults) : Bool × Faults :=
  let f := match f.writesBeforeFailure with
    | some 0 => { f with writesBeforeFailure := .none, writes := max f.writes 1 }
    | some (n + 1) => { f with writesBeforeFailure := some n }
    | .none => f
  if f.writes > 0 then (true, { f with writes := f.writes - 1 }) else (false, f)

end Faults

/-- The state of the modelled kernel. -/
structure Model where
  interfaces : NameMap InterfaceState
  /-- The interfaces that exist; without a list, every name exists. -/
  known : Option TextSet
  /-- Why interfaces cannot carry programs. -/
  unsupported : NameMap String
  nextId : UInt32
  faults : Faults
  /-- The operations so far, the latest one first. -/
  history : List Operation
  failsafe : Failsafe

namespace Model

/-- The id of the first program. -/
def firstId : UInt32 := 100

/-- How many operations the log keeps. -/
def logCapacity : Nat := 4096

/-- A kernel that holds nothing, with given failsafe rules and existing interfaces. -/
def fresh (failsafe : Failsafe) (known : Option TextSet) : Model where
  interfaces := ∅
  known := known
  unsupported := ∅
  nextId := firstId
  faults := Faults.none
  history := []
  failsafe := failsafe

/-! ## Views -/

/-- What is held for an interface. -/
def interface (m : Model) (name : String) : InterfaceState :=
  m.interfaces[name]?.getD InterfaceState.blank

/-- What is held for some interfaces, in reports. -/
def dump (m : Model) (names : List String) : Tree :=
  .record (names.map fun name => (name, (m.interface name).tree))

/-- The program attached to an interface. -/
def program (m : Model) (name : String) : Option Program := (m.interface name).program

/-- The table of an interface and a family. -/
def table (m : Model) (name : String) (f : Family) : Option PrefixSet :=
  (m.interface name).tables.get f

/-- The latest operations, oldest first. -/
def log (m : Model) : List Operation := (m.history.take logCapacity).reverse

/-- The interfaces that carry a table or a program of ours. -/
def managed (m : Model) : TextSet :=
  TextSet.ofList
    ((m.interfaces.toList.filter fun (_, s) => s.hasTable || s.carriesOurs).map (·.1))

/-- Whether an interface exists. -/
def exists? (m : Model) (name : String) : Bool :=
  match m.known with
  | some known => known.contains name
  | none => true

/-- The verdict of the attached program on a packet.  Without a program of ours, everything
passes. -/
def evaluate (m : Model) (name : String) (p : Packet) : Verdict :=
  let s := m.interface name
  if !s.carriesOurs || m.failsafe.permits p then .pass
  else if (s.lookup p.source).isSome then .drop else .pass

/-! ## Changes -/

/-- Changes what is held for an interface. -/
def change (m : Model) (name : String) (f : InterfaceState → InterfaceState) : Model :=
  { m with interfaces := m.interfaces.insert name (f (m.interface name)) }

/-- Replaces the program of an interface. -/
def putProgram (m : Model) (name : String) (p : Option Program) : Model :=
  m.change name (·.withProgram p)

/-- Adds an operation to the log. -/
def record (m : Model) (op : Operation) : Model := { m with history := op :: m.history }

/-- Hands out a program id. -/
def takeId (m : Model) : UInt32 × Model := (m.nextId, { m with nextId := m.nextId + 1 })

/-! ## Calls -/

/-- The failure of a call on an interface that does not exist. -/
def missing {α : Type} (name : String) : Except KernelError α := .error (.noSuchInterface name)

/-- Tells whether an interface can carry a program. -/
def probe (m : Model) (name : String) : Except KernelError Probe × Model :=
  let next := m.record (.probe name)
  if !m.exists? name then (missing name, next)
  else
    match m.unsupported[name]? with
    | some reason => (.ok (.unsupported reason), next)
    | none => (.ok .supported, next)

/-- Tells which program is attached. -/
def query (m : Model) (name : String) : Except KernelError (Option Program) × Model :=
  let next := m.record (.query name)
  if !m.exists? name then (missing name, next) else (.ok (m.program name), next)

/-- Attaches our program, unless another one is attached. -/
def attach (m : Model) (name : String) : Except KernelError Program × Model :=
  if !m.exists? name then (missing name, m)
  else if m.faults.attaches > 0 then
    (.error (.program "injected attach failure"),
      { m with faults := { m.faults with attaches := m.faults.attaches - 1 } })
  else
    match m.program name with
    | some other =>
      (.error (.program s!"program {Text.decimal other.id.toNat} already attached"), m)
    | none =>
      let (id, m) := m.takeId
      let p : Program := ⟨id, Program.ownName⟩
      (.ok p, (m.putProgram name (some p)).record (.attach name id))

/-- Detaches the program with a given id; if none is attached, there is nothing to do. -/
def detach (m : Model) (name : String) (p : Program) : Except KernelError Unit × Model :=
  if !m.exists? name then (missing name, m)
  else if m.faults.detaches > 0 then
    (.error (.program "injected detach failure"),
      { m with faults := { m.faults with detaches := m.faults.detaches - 1 } })
  else
    match m.program name with
    | some other =>
      if other.id = p.id then (.ok (), (m.putProgram name none).record (.detach name p.id))
      else
        let attached := Text.decimal other.id.toNat
        let asked := Text.decimal p.id.toNat
        (.error (.program s!"program {attached} is attached, not {asked}"), m)
    | none => (.ok (), m.record (.detach name p.id))

/-- Reads a table. -/
def read (m : Model) (name : String) (f : Family) :
    Except KernelError (Option PrefixSet) × Model :=
  let next := m.record (.read name f)
  if !m.exists? name then (missing name, next)
  else if m.faults.reads > 0 then
    (.error (.read "injected read failure"),
      { next with faults := { m.faults with reads := m.faults.reads - 1 } })
  else (.ok (m.table name f), next)

/-- Carries out a change of tables, unless the interface is missing or a failure is due. -/
def write (m : Model) (name : String) (f : InterfaceState → InterfaceState) (op : Operation) :
    Except KernelError Unit × Model :=
  if !m.exists? name then (missing name, m)
  else
    let (fails, faults) := m.faults.write
    let m := { m with faults := faults }
    if fails then (.error (.write "injected write failure"), m)
    else (.ok (), (m.change name f).record op)

/-- Inserts a prefix, creating its table if needed. -/
def insert (m : Model) (name : String) (p : Prefix) : Except KernelError Unit × Model :=
  m.write name (·.insert p) (.insert name p)

/-- Removes a prefix.  A table that becomes empty stays. -/
def remove (m : Model) (name : String) (p : Prefix) : Except KernelError Unit × Model :=
  m.write name (·.remove p) (.remove name p)

/-- Deletes a table. -/
def destroy (m : Model) (name : String) (f : Family) : Except KernelError Unit × Model :=
  m.write name (·.destroy f) (.destroy name f)

/-- Answers a call about an interface. -/
def answer (name : String) : (c : Call) → Model → c.Answer × Model
  | .probe, m => m.probe name
  | .query, m => m.query name
  | .attach, m => m.attach name
  | .detach p, m => m.detach name p
  | .read f, m => m.read name f
  | .insert p, m => m.insert name p
  | .remove p, m => m.remove name p
  | .destroy f, m => m.destroy name f

/-! ## Tampering -/

/-- Deletes a prefix behind the control plane's back, and tells whether it was there. -/
def tamperDelete (m : Model) (name : String) (p : Prefix) : Bool × Model :=
  match m.table name p.family with
  | some t => (t.contains p, m.change name (·.remove p))
  | none => (false, m)

/-- Inserts a prefix behind the control plane's back. -/
def tamperInsert (m : Model) (name : String) (p : Prefix) : Model :=
  m.change name (·.insert p)

/-- Deletes a table behind the control plane's back, and tells whether it was there. -/
def tamperDestroy (m : Model) (name : String) (f : Family) : Bool × Model :=
  ((m.table name f).isSome, m.change name (·.destroy f))

/-- Detaches whatever is attached. -/
def tamperDetach (m : Model) (name : String) : Option Program × Model :=
  (m.program name, m.putProgram name none)

/-- Attaches a program of a given name in place of whatever is attached. -/
def tamperAttach (m : Model) (name programName : String) : Program × Model :=
  let (id, m) := m.takeId
  let p : Program := ⟨id, programName⟩
  (p, m.putProgram name (some p))

/-- Makes probes of an interface answer that it cannot carry a program. -/
def markUnsupported (m : Model) (name reason : String) : Model :=
  { m with unsupported := m.unsupported.insert name reason }

/-! ## Arming failures -/

/-- Lets some more writes succeed and then fails one. -/
def failWriteAfter (m : Model) (count : Nat) : Model :=
  { m with faults := { m.faults with writesBeforeFailure := some count } }

/-- Fails the next writes. -/
def failWrites (m : Model) (count : Nat) : Model :=
  { m with faults := { m.faults with writes := count } }

/-- Fails the next reads. -/
def failReads (m : Model) (count : Nat) : Model :=
  { m with faults := { m.faults with reads := count } }

/-- Fails the next attempts to attach. -/
def failAttaches (m : Model) (count : Nat) : Model :=
  { m with faults := { m.faults with attaches := count } }

/-- Fails the next attempts to detach. -/
def failDetaches (m : Model) (count : Nat) : Model :=
  { m with faults := { m.faults with detaches := count } }

/-- Disarms all failures. -/
def clearFaults (m : Model) : Model := { m with faults := Faults.none }

/-- Forgets the operations so far. -/
def clearLog (m : Model) : Model := { m with history := [] }

end Model

end Kernel

end IngressGuard
