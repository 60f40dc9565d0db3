import IngressGuard.Packet

/-!
# Ethernet frames

How a frame carries a packet: an Ethernet header with up to two tags, an IPv4 header with any
options or an IPv6 header without regard to extension headers, and the two ports at the start of
the transport header.  A frame that carries no packet in this sense decodes to nothing.
-/

namespace IngressGuard

/-- The bytes of a frame as it arrives from the wire. -/
abbrev Frame := List UInt8

/-- The number of two bytes in network byte order. -/
def word (high low : UInt8) : UInt16 := UInt16.ofNat (high.toNat * 256 + low.toNat)

namespace EtherType

/-- The content is an IPv4 packet. -/
def ipv4 : UInt16 := 0x0800

/-- The content is an IPv6 packet. -/
def ipv6 : UInt16 := 0x86dd

/-- The content starts with a tag: a customer's or a provider's. -/
def isTag (t : UInt16) : Bool := t == 0x8100 || t == 0x88a8

end EtherType

/-- Whether the fragment field of an IPv4 header belongs to a fragment other than the first.
Such a fragment has no transport header. -/
def isLaterFragment (field : UInt16) : Bool := field &&& 0x1fff != 0

namespace Transport

/-- The transport of a protocol number when no ports are known. -/
def withoutPorts (number : UInt8) : Transport := if number = 1 then .icmp else .other number

/-- The transport of a protocol number with the transport header in front of it. -/
def ofHeader (number : UInt8) (header : List UInt8) : Transport :=
  match Protocol.ofNumber? number, header with
  | some protocol, s₁ :: s₂ :: d₁ :: d₂ :: _ => ofProtocol protocol (word s₁ s₂) (word d₁ d₂)
  | _, _ => withoutPorts number

end Transport

namespace Frame

/-- What follows a given type and up to a given number of tags: the type of the content and the
content. -/
def untagged : Nat → UInt16 → List UInt8 → Option (UInt16 × List UInt8)
  | 0, kind, content => some (kind, content)
  | tags + 1, kind, content =>
    if EtherType.isTag kind then
      match content with
      | _ :: _ :: high :: low :: content => untagged tags (word high low) content
      | _ => none
    else some (kind, content)

/-- The type of the content of a frame, and the content. -/
def content? (frame : Frame) : Option (UInt16 × List UInt8) :=
  match frame.drop 12 with
  | high :: low :: content => untagged 2 (word high low) content
  | _ => none

/-- The packet behind the start of an IPv4 header. -/
def ipv4Packet? : List UInt8 → Option Packet
  | vihl :: tos :: l₁ :: l₂ :: i₁ :: i₂ :: f₁ :: f₂ :: ttl :: protocol :: c₁ :: c₂ ::
      s₁ :: s₂ :: s₃ :: s₄ :: d₁ :: d₂ :: d₃ :: d₄ :: rest =>
    let headerLength := (vihl &&& 0x0f).toNat * 4
    let header := vihl :: tos :: l₁ :: l₂ :: i₁ :: i₂ :: f₁ :: f₂ :: ttl :: protocol :: c₁ ::
      c₂ :: s₁ :: s₂ :: s₃ :: s₄ :: d₁ :: d₂ :: d₃ :: d₄ :: rest
    if headerLength < 20 then none
    else some {
      source := .ofBytes .ipv4 [s₁, s₂, s₃, s₄]
      destination := .ofBytes .ipv4 [d₁, d₂, d₃, d₄]
      transport :=
        if isLaterFragment (word f₁ f₂) then .withoutPorts protocol
        else .ofHeader protocol (header.drop headerLength) }
  | _ => none

/-- The packet behind the start of an IPv6 header. -/
def ipv6Packet? (bytes : List UInt8) : Option Packet :=
  match bytes.take 8, bytes.drop 40 with
  | [_, _, _, _, _, _, next, _], header =>
    if bytes.length < 40 then none
    else some {
      source := .ofBytes .ipv6 ((bytes.drop 8).take 16)
      destination := .ofBytes .ipv6 ((bytes.drop 24).take 16)
      transport := .ofHeader next header }
  | _, _ => none

/-- The packet that a frame carries. -/
def packet? (frame : Frame) : Option Packet := do
  let (kind, content) ← content? frame
  if kind = EtherType.ipv4 then ipv4Packet? content
  else if kind = EtherType.ipv6 then ipv6Packet? content
  else none

end Frame

end IngressGuard
