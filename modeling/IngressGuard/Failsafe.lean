import IngressGuard.Packet
import IngressGuard.Text.Digits
import IngressGuard.Tree
import Std.Data.ExtTreeSet

/-!
# Failsafe ports

Failsafe rules name ports that stay reachable whatever is blocked.  An inbound rule protects a
service of this host and looks at the destination port; an outbound rule protects the replies of
a remote service and looks at the source port.
-/

namespace IngressGuard

/-- A port that is never blocked. -/
structure FailsafeRule where
  protocol : Protocol
  port : UInt16
  direction : Direction
  deriving DecidableEq, Repr

namespace FailsafeRule

/-- Rules are ordered by protocol, port and direction. -/
instance : Ord FailsafeRule where
  compare := compareLex (compareOn fun r => r.protocol.number)
    (compareLex (compareOn port) (compareOn fun r => r.direction.number))

instance : Std.TransOrd FailsafeRule :=
  inferInstanceAs (Std.TransCmp (compareLex (compareOn fun r : FailsafeRule => r.protocol.number)
    (compareLex (compareOn port) (compareOn fun r : FailsafeRule => r.direction.number))))

instance : Std.LawfulEqOrd FailsafeRule where
  eq_of_compare := by
    intro r s h
    obtain ⟨hprotocol, h⟩ := compareLex_eq_eq.mp h
    obtain ⟨hport, hdirection⟩ := compareLex_eq_eq.mp h
    obtain ⟨_, _, _⟩ := r
    obtain ⟨_, _, _⟩ := s
    rw [FailsafeRule.mk.injEq]
    exact ⟨Protocol.number_inj (Std.compare_eq_iff_eq.mp hprotocol),
      Std.compare_eq_iff_eq.mp hport,
      Direction.number_inj (Std.compare_eq_iff_eq.mp hdirection)⟩

/-- The written form of a rule. -/
def text (r : FailsafeRule) : String :=
  s!"{r.direction.label} {r.protocol.label}:{Text.decimal r.port.toNat}"

end FailsafeRule

/-- A protocol and a port, as configurations list them. -/
structure ProtocolPort where
  protocol : Protocol
  port : UInt16
  deriving DecidableEq, Repr

/-- The rule that protects a port in a given direction. -/
def ProtocolPort.rule (p : ProtocolPort) (d : Direction) : FailsafeRule :=
  ⟨p.protocol, p.port, d⟩

/-- A port in reports. -/
def ProtocolPort.tree (p : ProtocolPort) : Tree :=
  .record [("protocol", p.protocol.label), ("port", p.port.toNat)]

/-- The entry of a rule in the kernel's table of ports. -/
structure FailsafeKey where
  port : UInt16
  protocol : UInt8
  direction : UInt8
  deriving DecidableEq, Repr

namespace FailsafeRule

/-- The kernel's entry for a rule. -/
def key (r : FailsafeRule) : FailsafeKey :=
  ⟨r.port, r.protocol.number, r.direction.number⟩

/-- Ports of this host that stay reachable unless configured otherwise: remote login, address
assignment, routing, and the ports of a cluster's control plane. -/
def defaultInbound : List ProtocolPort :=
  [⟨.tcp, 22⟩, ⟨.udp, 68⟩, ⟨.tcp, 179⟩, ⟨.tcp, 2379⟩, ⟨.tcp, 2380⟩, ⟨.tcp, 5473⟩, ⟨.tcp, 6443⟩,
   ⟨.tcp, 6666⟩, ⟨.tcp, 6667⟩]

/-- Remote ports whose replies stay reachable unless configured otherwise: name service, address
assignment, routing, and the ports of a cluster's control plane. -/
def defaultOutbound : List ProtocolPort :=
  [⟨.udp, 53⟩, ⟨.udp, 67⟩, ⟨.tcp, 179⟩, ⟨.tcp, 2379⟩, ⟨.tcp, 2380⟩, ⟨.tcp, 5473⟩, ⟨.tcp, 6443⟩,
   ⟨.tcp, 6666⟩, ⟨.tcp, 6667⟩]

/-- The rules for inbound and outbound ports. -/
def ofPorts (inbound outbound : List ProtocolPort) : List FailsafeRule :=
  inbound.map (·.rule .inbound) ++ outbound.map (·.rule .outbound)

/-- The rules that hold unless configured otherwise. -/
def defaults : List FailsafeRule := ofPorts defaultInbound defaultOutbound

end FailsafeRule

/-- The failsafe rules in force, in the order of rules. -/
abbrev Failsafe := Std.ExtTreeSet FailsafeRule

namespace Failsafe

/-- The rules of a list. -/
def ofRules (rules : List FailsafeRule) : Failsafe := Std.ExtTreeSet.ofList rules

/-- Whether a packet matches a rule in one of the two directions. -/
def permits (f : Failsafe) (p : Packet) : Bool :=
  [Direction.inbound, Direction.outbound].any fun d =>
    match p.transport.protocol?, p.transport.port? d with
    | some protocol, some port => f.contains ⟨protocol, port, d⟩
    | _, _ => false

/-- What becomes of a packet, in reports. -/
def explain (f : Failsafe) (p : Packet) : Tree :=
  let port (d : Direction) : Tree := .optional (fun n => n.toNat) (p.transport.port? d)
  .record
    [("permits", f.permits p), ("protocol", .optional (fun q => q.label) p.transport.protocol?),
      ("inbound_port", port .inbound), ("outbound_port", port .outbound)]

/-- The kernel's entries for all rules. -/
def keys (f : Failsafe) : List FailsafeKey := f.toList.map FailsafeRule.key

/-- Failsafe rules in reports. -/
def tree (f : Failsafe) : Tree :=
  .record
    [("rules", .texts (f.toList.map FailsafeRule.text)), ("len", f.size), ("empty", f.isEmpty),
      ("keys", .each (fun k => .record [("port", k.port.toNat), ("protocol", k.protocol.toNat),
        ("direction", k.direction.toNat)]) f.keys)]

end Failsafe

end IngressGuard
