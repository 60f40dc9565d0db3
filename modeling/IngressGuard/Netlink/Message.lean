import IngressGuard.Net.Address

/-!
# Messages of the routing subsystem

The messages that are exchanged with the kernel's routing subsystem.  Of what they say, the
program attached to a link is spelt out; messages about addresses, routes and the rest are kept as
they come.  Numbers are written least significant byte first; every message starts with a header
of sixteen bytes, and attributes are padded to a multiple of four bytes.

How bytes are decoded is left open.  A client takes any `Decoder`, and `Decoder.Delimited` says
what it needs to know of one.
-/

namespace IngressGuard

/-- The number whose base-256 digits are given, least significant first. -/
def ofLittleEndianBytes (bytes : List UInt8) : Nat := ofBigEndianBytes bytes.reverse

namespace Netlink

/-- A property of the program attached to a link. -/
inductive ProgramAttribute where
  /-- How a program is attached; zero if none is. -/
  | attached (mode : UInt8)
  | programId (id : UInt32)
  | other (kind : Nat) (value : List UInt8)
  deriving DecidableEq, Repr

/-- A property of a link. -/
inductive LinkAttribute where
  | name (text : String)
  | mtu (size : UInt32)
  | program (attributes : List ProgramAttribute)
  | other (kind : Nat) (value : List UInt8)
  deriving DecidableEq, Repr

/-- What a message about a link wants or tells. -/
inductive LinkAction where
  | new
  | delete
  | get
  | set
  deriving DecidableEq, Repr

/-- A link, as a message describes it. -/
structure Link where
  index : UInt32
  attributes : List LinkAttribute
  deriving DecidableEq, Repr

/-- What a message says about the routing subsystem. -/
inductive Content where
  | link (action : LinkAction) (link : Link)
  /-- Something about addresses, routes, neighbours and so on. -/
  | other (kind : Nat) (body : List UInt8)
  deriving DecidableEq, Repr

/-- What a message carries. -/
inductive Payload where
  | nothing
  | overrun
  | done
  /-- The answer to a request: zero if it succeeded, else a negative error number. -/
  | answer (code : Int32)
  | content (content : Content)
  deriving DecidableEq, Repr

/-- A message, and the request that it answers. -/
structure Message where
  sequence : UInt32
  payload : Payload
  deriving DecidableEq, Repr

/-- Number of bytes in a message header. -/
def headerSize : Nat := 16

/-- Number of bytes in front of the attributes of a link. -/
def linkHeaderSize : Nat := 16

/-- The least multiple of four that is not less than a number. -/
def aligned (n : Nat) : Nat := (n + 3) / 4 * 4

/-! ## Decoders -/

/-- A message, and the length that its header states. -/
structure Envelope where
  length : Nat
  message : Message
  deriving DecidableEq, Repr

/-- Decodes the first message of some bytes, unless it is malformed. -/
abbrev Decoder := List UInt8 → Option Envelope

/-- Messages are delimited by their headers: a length that does not cover the header itself is
refused, and nothing behind the bytes that it covers is looked at. -/
structure Decoder.Delimited (decode : Decoder) : Prop where
  headerSize_le : ∀ {bytes e}, decode bytes = some e → headerSize ≤ e.length
  confined : ∀ {bytes e}, decode bytes = some e →
    ∀ behind, decode (bytes.take e.length ++ behind) = some e

/-! ## Requests -/

/-- An attribute with its length and kind in front and its padding behind. -/
def attributeBytes (kind : Nat) (value : List UInt8) : List UInt8 :=
  littleEndianBytes 2 (4 + value.length) ++ littleEndianBytes 2 kind ++ value ++
    List.replicate (aligned value.length - value.length) 0

/-- A request about a link with encoded attributes. -/
def requestBytes (kind flags : Nat) (sequence index : UInt32) (attributes : List UInt8) :
    List UInt8 :=
  littleEndianBytes 4 (headerSize + linkHeaderSize + attributes.length) ++
    littleEndianBytes 2 kind ++ littleEndianBytes 2 flags ++
    littleEndianBytes 4 sequence.toNat ++ littleEndianBytes 4 0 ++
    littleEndianBytes 4 0 ++ littleEndianBytes 4 index.toNat ++ littleEndianBytes 8 0 ++
    attributes

/-- Asks for a link. -/
def getLinkRequest (sequence index : UInt32) : List UInt8 := requestBytes 18 1 sequence index []

/-- Asks to detach the program of a link, attached in a given mode, and for an acknowledgement. -/
def detachRequest (sequence index modeFlags : UInt32) : List UInt8 :=
  let mode := if modeFlags = 0 then [] else attributeBytes 3 (littleEndianBytes 4 modeFlags.toNat)
  requestBytes 19 5 sequence index
    (attributeBytes 43 (attributeBytes 1 (List.replicate 4 0xff) ++ mode))

end Netlink

end IngressGuard
