import IngressGuard.Net.DenyList
import IngressGuard.Net.Prefix.Text

/-!
# The kernel as a cycle sees it

A cycle works on one interface through a fixed set of calls.  Each call has its own type of
answers, and every answer may be a failure.
-/

namespace IngressGuard

/-- Why a kernel call failed. -/
inductive KernelError where
  | noSuchInterface (name : String)
  | write (detail : String)
  | read (detail : String)
  | program (detail : String)
  | netlink (detail : String)
  deriving DecidableEq, Repr

/-- What a kernel failure tells an operator. -/
def KernelError.message : KernelError → String
  | .noSuchInterface name => s!"Interface '{name}' does not exist"
  | .write detail => s!"Table write failed: {detail}"
  | .read detail => s!"Table read failed: {detail}"
  | .program detail => s!"Program operation failed: {detail}"
  | .netlink detail => s!"Netlink request failed: {detail}"

/-- The label of a kernel failure. -/
def KernelError.kind : KernelError → String
  | .noSuchInterface _ => "NoSuchInterface"
  | .write _ => "Write"
  | .read _ => "Read"
  | .program _ => "Program"
  | .netlink _ => "Netlink"

/-- A kernel failure in reports. -/
def KernelError.tree (e : KernelError) : Tree := .failure e.kind e.message []

/-- A program attached to an interface. -/
structure Program where
  id : UInt32
  name : String
  deriving DecidableEq, Repr

namespace Program

/-- The name that tells our programs from those of others. -/
def ownName : String := "skansen_xdp"

/-- Whether a program carries our name. -/
def isOurs (p : Program) : Bool := p.name == ownName

/-- A program in reports. -/
def tree (p : Program) : Tree := .record [("id", p.id.toNat), ("name", p.name)]

/-- A program in reports that tell whose it is. -/
def outline (p : Program) : Tree := p.tree.extend [("ours", p.isOurs)]

end Program

/-- Whether an interface can carry a program.  The answer that it cannot is final. -/
inductive Probe where
  | supported
  | unsupported (reason : String)
  deriving DecidableEq, Repr

/-- The answer to a probe in reports. -/
def Probe.tree : Probe → Tree
  | .supported => "supported"
  | .unsupported reason => .record [("unsupported", reason)]

namespace Kernel

/-- A call about one interface. -/
inductive Call where
  /-- Asks whether a program can be loaded. -/
  | probe
  /-- Asks for the attached program, ours or not. -/
  | query
  /-- Attaches our program. -/
  | attach
  /-- Detaches a program. -/
  | detach (program : Program)
  /-- Reads the block table of a family. -/
  | read (family : Family)
  /-- Inserts a prefix, creating its table if needed. -/
  | insert (entry : Prefix)
  /-- Removes a prefix, if it is there. -/
  | remove (entry : Prefix)
  /-- Deletes the table of a family, if it is there. -/
  | destroy (family : Family)
  deriving DecidableEq, Repr

/-- What a call answers if it does not fail. -/
def Call.Value : Call → Type
  | .probe => Probe
  | .query => Option Program
  | .attach => Program
  | .read _ => Option PrefixSet
  | .detach _ | .insert _ | .remove _ | .destroy _ => Unit

/-- What a call answers. -/
abbrev Call.Answer (c : Call) : Type := Except KernelError c.Value

/-- Whether a call writes to a block table. -/
def Call.isTableWrite : Call → Bool
  | .insert _ | .remove _ | .destroy _ => true
  | _ => false

end Kernel

end IngressGuard
