import IngressGuard.Failsafe
import IngressGuard.Frame
import IngressGuard.Net.Trie

/-!
# The program that filters frames

The program runs in the kernel for every frame that arrives at an interface.  It sees the frame
as bytes, and what it enforces as tables of keys.  It checks, in this order:

* a TCP or UDP packet on a failsafe port passes, where a later fragment has no ports;
* a packet whose source is in the block table of its family is dropped;
* everything else passes, and so does whatever the program cannot read.

A read gives the bytes only if all of them are inside the frame, and every read that is carried
out is recorded.
-/

namespace IngressGuard

/-- A range of bytes of a frame. -/
structure Span where
  offset : Nat
  size : Nat
  deriving DecidableEq, Repr

/-- The tables that the program looks into. -/
structure FilterTables where
  blocked : PerFamily Trie
  failsafe : List FailsafeKey

namespace FilterTables

/-- The tables that enforce sets of prefixes and failsafe rules. -/
def ofSets (blocked : PerFamily PrefixSet) (failsafe : Failsafe) : FilterTables where
  blocked := .ofFn fun f => .ofPrefixes (blocked.get f)
  failsafe := failsafe.keys

end FilterTables

/-- A computation that reads from a frame, records its reads, latest first, and gives up when
it would read past the end. -/
abbrev FrameReader (α : Type) := ReaderT Frame (OptionT (StateM (List Span))) α

namespace FrameFilter

/-- Reads bytes, if all of them are inside the frame. -/
def peek (offset size : Nat) : FrameReader (Option (List UInt8)) := do
  let frame ← ReaderT.read
  if offset + size ≤ frame.length then
    modify (⟨offset, size⟩ :: ·)
    return some ((frame.drop offset).take size)
  else return none

/-- Reads bytes that must be inside the frame. -/
def read (offset size : Nat) : FrameReader (List UInt8) := do
  match ← peek offset size with
  | some bytes => return bytes
  | none => failure

/-- Reads a number of two bytes that must be inside the frame. -/
def readWord (offset : Nat) : FrameReader UInt16 := do
  match ← read offset 2 with
  | [high, low] => return word high low
  | _ => failure

/-- The type of the content after up to a given number of tags, and where the content starts. -/
def skipTags : Nat → UInt16 → Nat → FrameReader (UInt16 × Nat)
  | 0, kind, offset => return (kind, offset)
  | tags + 1, kind, offset => do
    if EtherType.isTag kind then skipTags tags (← readWord (offset + 2)) (offset + 4)
    else return (kind, offset)

/-- Whether a packet is on a failsafe port, given its protocol number and where its transport
header starts. -/
def isFailsafe (tables : FilterTables) (protocol : UInt8) (offset : Nat) : FrameReader Bool := do
  if (Protocol.ofNumber? protocol).isNone then return false
  match ← peek offset 4 with
  | some [s₁, s₂, d₁, d₂] =>
    return tables.failsafe.contains ⟨word d₁ d₂, protocol, Direction.inbound.number⟩ ||
      tables.failsafe.contains ⟨word s₁ s₂, protocol, Direction.outbound.number⟩
  | _ => return false

/-- Drops what comes from a blocked source. -/
def judge (tables : FilterTables) (f : Family) (source : List UInt8) : Verdict :=
  if ((tables.blocked.get f).lookup? (.full source)).isSome then .drop else .pass

/-- The verdict on an IPv4 packet. -/
def judgeIpv4 (tables : FilterTables) (offset : Nat) : FrameReader Verdict := do
  let header ← read offset 20
  let fragment ← readWord (offset + 6)
  let headerLength := (header.getD 0 0 &&& 0x0f).toNat * 4
  if headerLength < 20 then return .pass
  if !isLaterFragment fragment then
    if ← isFailsafe tables (header.getD 9 0) (offset + headerLength) then return .pass
  return judge tables .ipv4 ((header.drop 12).take 4)

/-- The verdict on an IPv6 packet. -/
def judgeIpv6 (tables : FilterTables) (offset : Nat) : FrameReader Verdict := do
  let header ← read offset 40
  if ← isFailsafe tables (header.getD 6 0) (offset + 40) then return .pass
  return judge tables .ipv6 ((header.drop 8).take 16)

/-- The program. -/
def program (tables : FilterTables) : FrameReader Verdict := do
  let (kind, offset) ← skipTags 2 (← readWord 12) 14
  if kind = EtherType.ipv4 then judgeIpv4 tables offset
  else if kind = EtherType.ipv6 then judgeIpv6 tables offset
  else return .pass

/-- The verdict on a frame, and the reads that were carried out, latest first. -/
def run (tables : FilterTables) (frame : Frame) : Verdict × List Span :=
  let (verdict?, reads) := ((program tables frame).run []).run
  (verdict?.getD .pass, reads)

/-- The verdict on a frame. -/
def verdict (tables : FilterTables) (frame : Frame) : Verdict := (run tables frame).1

end FrameFilter

end IngressGuard
