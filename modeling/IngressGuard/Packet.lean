import IngressGuard.Net.Address

/-!
# Packets

What a packet filter looks at in a packet: its addresses, its transport protocol, and the ports
if the transport has any.
-/

namespace IngressGuard

/-- A transport protocol that has ports. -/
inductive Protocol where
  | tcp
  | udp
  deriving DecidableEq, Repr

namespace Protocol

/-- All protocols. -/
def all : List Protocol := [tcp, udp]

/-- The assigned protocol number. -/
def number : Protocol → UInt8
  | .tcp => 6
  | .udp => 17

theorem number_inj {p q : Protocol} (h : p.number = q.number) : p = q := by
  revert h
  cases p <;> cases q <;> decide

/-- The name of a protocol. -/
def label : Protocol → String
  | .tcp => "tcp"
  | .udp => "udp"

/-- The protocol with a given name. -/
def ofLabel? : String → Option Protocol
  | "tcp" => some .tcp
  | "udp" => some .udp
  | _ => none

/-- The protocol with a given number. -/
def ofNumber? (n : UInt8) : Option Protocol :=
  if n = 6 then some .tcp else if n = 17 then some .udp else none

end Protocol

/-- A protocol name that is not known, in lower case. -/
structure UnknownProtocol where
  name : String
  deriving DecidableEq, Repr

/-- What an unknown protocol name tells an operator. -/
def UnknownProtocol.message (e : UnknownProtocol) : String :=
  s!"Unknown transport protocol '{e.name}'"

/-- Reads a protocol name in any mixture of ASCII cases. -/
def Protocol.ofText (text : String) : Except UnknownProtocol Protocol :=
  let name := String.ofList (text.toList.map Char.toLower)
  match Protocol.ofLabel? name with
  | some p => .ok p
  | none => .error ⟨name⟩

/-- Which end of a connection is on this host: arriving packets carry a local service in their
destination port, replies carry a remote service in their source port. -/
inductive Direction where
  | inbound
  | outbound
  deriving DecidableEq, Repr

namespace Direction

/-- The name of a direction. -/
def label : Direction → String
  | .inbound => "inbound"
  | .outbound => "outbound"

/-- The direction with a given name. -/
def ofLabel? : String → Option Direction
  | "inbound" => some .inbound
  | "outbound" => some .outbound
  | _ => none

/-- The number of a direction in the kernel's table of ports. -/
def number : Direction → UInt8
  | .inbound => 0
  | .outbound => 1

theorem number_inj {d e : Direction} (h : d.number = e.number) : d = e := by
  revert h
  cases d <;> cases e <;> decide

end Direction

/-- The transport layer of a packet. -/
inductive Transport where
  | tcp (source destination : UInt16)
  | udp (source destination : UInt16)
  | icmp
  | other (number : UInt8)
  deriving DecidableEq, Repr

namespace Transport

/-- The protocol, if it has ports. -/
def protocol? : Transport → Option Protocol
  | .tcp .. => some .tcp
  | .udp .. => some .udp
  | .icmp | .other _ => none

/-- The port that a rule of a given direction looks at. -/
def port? (t : Transport) (d : Direction) : Option UInt16 :=
  match t, d with
  | .tcp _ port, .inbound | .udp _ port, .inbound => some port
  | .tcp port _, .outbound | .udp port _, .outbound => some port
  | .icmp, _ | .other _, _ => none

/-- The transport of a protocol with ports. -/
def ofProtocol (p : Protocol) (source destination : UInt16) : Transport :=
  match p with
  | .tcp => .tcp source destination
  | .udp => .udp source destination

end Transport

/-- A packet as the filter sees it. -/
structure Packet where
  source : Address
  destination : Address
  transport : Transport
  deriving DecidableEq, Repr

/-- What happens to an arriving packet. -/
inductive Verdict where
  | pass
  | drop
  deriving DecidableEq, Repr

/-- The name of a verdict. -/
def Verdict.label : Verdict → String
  | .pass => "pass"
  | .drop => "drop"

end IngressGuard
