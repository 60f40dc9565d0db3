import IngressGuard.Netlink.Message

/-!
# A decoder

The decoder that clients are run with.  It looks into messages only as far as a client does:
attributes whose values a client never reads are split up and otherwise taken as they are, and so
is all of a message about something other than a link.  Hosts come with decoders that check more.
Nothing in the client or its theory rests on this one; it is here to run the client, and as an
instance of what the theory assumes (`delimited_basicDecoder`).
-/

namespace IngressGuard.Netlink

/-- The kind and value of an attribute; the two top bits of the kind are flags. -/
abbrev RawAttribute := Nat × List UInt8

/-- Splits bytes into attributes.  The last one need not be padded. -/
def rawAttributes? (bytes : List UInt8) : Option (List RawAttribute) :=
  match bytes with
  | [] => some []
  | l₁ :: l₂ :: k₁ :: k₂ :: rest =>
    let length := ofLittleEndianBytes [l₁, l₂]
    if length < 4 ∨ length > bytes.length then none
    else
      (rawAttributes? (rest.drop (aligned length - 4))).map
        ((ofLittleEndianBytes [k₁, k₂] % Nat.pow 2 14, rest.take (length - 4)) :: ·)
  | _ => none
termination_by bytes.length
decreasing_by
  simp only [List.length_drop, List.length_cons]
  omega

/-- The number of exactly four bytes. -/
def number32? (bytes : List UInt8) : Option UInt32 :=
  if bytes.length = 4 then some (UInt32.ofNat (ofLittleEndianBytes bytes)) else none

/-- A text, with or without a zero byte at its end. -/
def name? (bytes : List UInt8) : Option String :=
  let content := if bytes.getLast? = some 0 then bytes.dropLast else bytes
  String.fromUTF8? ⟨content.toArray⟩

/-- A property of the program attached to a link. -/
def programAttribute? : RawAttribute → Option ProgramAttribute
  | (2, [mode]) => some (.attached mode)
  | (2, _) => none
  | (4, value) => (number32? value).map .programId
  | (kind, value) =>
    if kind ∈ [1, 3, 5, 6, 7, 8] ∧ value.length ≠ 4 then none else some (.other kind value)

/-- A property of a link.  The list of a program's properties must not be empty. -/
def linkAttribute? : RawAttribute → Option LinkAttribute
  | (3, value) => (name? value).map .name
  | (4, value) => (number32? value).map .mtu
  | (43, []) => none
  | (43, value) => do
    return .program (← (← rawAttributes? value).mapM programAttribute?)
  | (kind, value) => some (.other kind value)

/-- The meaning of a message type that concerns links. -/
def linkAction? : Nat → Option LinkAction
  | 16 => some .new
  | 17 => some .delete
  | 18 => some .get
  | 19 => some .set
  | _ => none

/-- Number of bytes in front of the attributes of a message about something else: addresses,
routes, neighbours, rules and the shaping of traffic. -/
def otherHeaderSize? : Nat → Option Nat
  | 20 | 21 | 22 => some 8
  | 24 | 25 | 26 | 28 | 29 | 30 | 32 | 33 | 34 => some 12
  | 36 | 37 | 38 | 40 | 41 | 42 | 44 | 45 | 46 => some 20
  | _ => none

/-- A link, from its header and attributes.  A query may be cut after the first four bytes. -/
def link? (action : LinkAction) (body : List UInt8) : Option Link :=
  if body.length < linkHeaderSize then
    if action = .get ∧ body.length = 4 then some ⟨0, []⟩ else none
  else do
    let attributes ← rawAttributes? (body.drop linkHeaderSize)
    return {
      index := UInt32.ofNat (ofLittleEndianBytes ((body.drop 4).take 4))
      attributes := ← attributes.mapM linkAttribute? }

/-- What a message of a given type says about the routing subsystem. -/
def content? (kind : Nat) (body : List UInt8) : Option Content :=
  match linkAction? kind with
  | some action => (link? action body).map (.link action)
  | none => do
    let size ← otherHeaderSize? kind
    if body.length < size then none
    else (rawAttributes? (body.drop size)).map fun _ => .other kind body

/-- What a message of a given type carries. -/
def payload? (kind : Nat) (body : List UInt8) : Option Payload :=
  match kind with
  | 1 => some .nothing
  | 2 => (number32? (body.take 4)).map fun code => .answer code.toInt32
  | 3 => if body.length < 4 then none else some .done
  | 4 => some .overrun
  | kind => (content? kind body).map .content

/-- The length that the header of the first message states, if the header is complete and the
length plausible. -/
def messageLength? (bytes : List UInt8) : Option Nat :=
  let length := ofLittleEndianBytes (bytes.take 4)
  if bytes.length < headerSize ∨ length < headerSize ∨ length > bytes.length then none
  else some length

/-- The number in some bytes of a header. -/
def headerField (bytes : List UInt8) (offset size : Nat) : Nat :=
  ofLittleEndianBytes ((bytes.drop offset).take size)

/-- The first message of some bytes. -/
def basicDecoder : Decoder := fun bytes => do
  let length ← messageLength? bytes
  let payload ← payload? (headerField bytes 4 2) ((bytes.take length).drop headerSize)
  return ⟨length, UInt32.ofNat (headerField bytes 8 4), payload⟩

/-! ## Where messages end -/

variable {bytes : List UInt8} {n : Nat} {e : Envelope}

theorem headerSize_le_of_messageLength? (h : messageLength? bytes = some n) :
    headerSize ≤ n ∧ n ≤ bytes.length := by
  simp only [messageLength?] at h
  split at h
  · cases h
  · cases h
    omega

theorem messageLength?_of_basicDecoder (h : basicDecoder bytes = some e) :
    messageLength? bytes = some e.length := by
  simp only [basicDecoder, Option.bind_eq_bind, Option.bind_eq_some_iff, Option.pure_def,
    Option.some.injEq] at h
  obtain ⟨length, hlength, _, -, rfl⟩ := h
  exact hlength

theorem messageLength?_take_append (h : messageLength? bytes = some n) (behind : List UInt8) :
    messageLength? (bytes.take n ++ behind) = some n := by
  obtain ⟨hheader, hle⟩ := headerSize_le_of_messageLength? h
  simp only [headerSize] at hheader
  have hfront : (bytes.take n).length = n := List.length_take_of_le hle
  have hstated : (bytes.take n ++ behind).take 4 = bytes.take 4 := by
    rw [List.take_append_of_le_length (by omega), List.take_take, Nat.min_eq_left (by omega)]
  simp only [messageLength?, hstated, List.length_append, hfront] at h ⊢
  split at h
  case isTrue => cases h
  case isFalse hplausible =>
    rw [Option.some.injEq] at h
    rw [if_neg (by omega), h]

theorem headerField_take_append {offset size : Nat} (hfield : offset + size ≤ n)
    (hle : n ≤ bytes.length) (behind : List UInt8) :
    headerField (bytes.take n ++ behind) offset size = headerField bytes offset size := by
  have hfront : (bytes.take n).length = n := List.length_take_of_le hle
  rw [headerField, headerField, List.drop_append_of_le_length (by omega),
    List.take_append_of_le_length (by rw [List.length_drop]; omega), List.drop_take,
    List.take_take, Nat.min_eq_left (by omega)]

theorem delimited_basicDecoder : basicDecoder.Delimited where
  headerSize_le h := (headerSize_le_of_messageLength? (messageLength?_of_basicDecoder h)).1
  confined := by
    intro bytes e h behind
    have hlength := messageLength?_of_basicDecoder h
    obtain ⟨hheader, hle⟩ := headerSize_le_of_messageLength? hlength
    simp only [headerSize] at hheader
    have hfield : ∀ offset size, offset + size ≤ 16 →
        headerField (bytes.take e.length ++ behind) offset size = headerField bytes offset size :=
      fun _ _ hsize => headerField_take_append (by omega) hle behind
    have hbody : (bytes.take e.length ++ behind).take e.length = bytes.take e.length :=
      List.take_left' (List.length_take_of_le hle)
    rw [← h, basicDecoder, basicDecoder, messageLength?_take_append hlength, hlength]
    simp only [Option.bind_eq_bind, Option.bind_some, hfield 4 2 (by omega),
      hfield 8 4 (by omega), hbody]

end IngressGuard.Netlink
