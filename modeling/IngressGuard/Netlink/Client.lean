import IngressGuard.Netlink.Message
import IngressGuard.Text.Digits
import IngressGuard.Tree

/-!
# A client of the routing subsystem

A request is sent over a socket that is opened for it, and datagrams are received until the
request is answered.  Messages with another sequence number answer somebody else and are passed
over, but they must be well-formed.  A plain request is answered by the first datagram that
holds anything for it, whatever it is about, a request with acknowledgement by the
acknowledgement.

The socket is a list of the datagrams still to come, and of the calls that were made.  How
messages are decoded, and what the system knows the links by, is for the caller to say.
-/

namespace IngressGuard.Netlink

/-- Why a request fails. -/
inductive Fault where
  /-- A call, or the request itself, failed with an error number. -/
  | failed (code : Int)
  /-- A message does not follow the format. -/
  | malformed
  /-- The request makes no sense. -/
  | badRequest (reason : String)
  deriving DecidableEq, Repr

/-- A failure as reports show it. -/
def Fault.tree : Fault → Tree
  | .failed code => .record [("error", "Os"), ("code", .number code)]
  | .malformed => .record [("error", "InvalidData")]
  | .badRequest reason => .failure "InvalidInput" reason []

/-! ## Answers -/

/-- How far a request has come. -/
inductive Progress where
  /-- It is not answered yet; this much was said to it. -/
  | waiting (contents : List Content)
  | finished (answer : Except Fault (List Content))

/-- What the code of an answer means, after some messages. -/
def answered (code : Int32) (contents : List Content) : Progress :=
  .finished (if code = 0 then .ok contents else .error (.failed (-code).toInt))

/-- What a message means for a request with a given sequence number. -/
def afterMessage (sequence : UInt32) (contents : List Content) (m : Message) : Progress :=
  if m.sequence ≠ sequence then .waiting contents
  else match m.payload with
    | .answer code => answered code contents
    | .done => .finished (.ok contents)
    | .content content => .waiting (contents ++ [content])
    | .nothing | .overrun => .waiting contents

/-- What the messages of a datagram mean for a request. -/
def afterDatagram (decode : Decoder) (sequence : UInt32) (contents : List Content)
    (bytes : List UInt8) : Progress :=
  if bytes = [] then .waiting contents
  else
    match decode bytes with
    | none => .finished (.error .malformed)
    | some ⟨length, m⟩ =>
      if length = 0 then .waiting contents
      else match afterMessage sequence contents m with
        | .waiting contents => afterDatagram decode sequence contents (bytes.drop length)
        | finished => finished
termination_by bytes.length
decreasing_by
  have := List.length_pos_iff.mpr ‹¬bytes = []›
  rw [List.length_drop]
  omega

/-! ## Sockets -/

/-- A call on a socket. -/
inductive SocketCall where
  | create
  | bind
  | connect
  | send
  | receive
  deriving DecidableEq, Repr

/-- The name of a call. -/
def SocketCall.label : SocketCall → String
  | .create => "open"
  | .bind => "bind"
  | .connect => "connect"
  | .send => "send"
  | .receive => "recv"

/-- The call with a given name. -/
def SocketCall.ofLabel? (text : String) : Option SocketCall :=
  [create, bind, connect, send, receive].find? (·.label == text)

/-- What waits to be received. -/
inductive Reply where
  | datagram (bytes : List UInt8)
  | failure (code : Int)
  deriving DecidableEq, Repr

/-- A socket and what was done with it. -/
structure Socket where
  /-- What will be received. -/
  replies : List Reply
  /-- A call that always fails, and its error number. -/
  failing : Option (SocketCall × Int)
  /-- The calls that were made, latest first. -/
  calls : List SocketCall
  /-- The requests that were sent, latest first. -/
  sent : List (List UInt8)
  deriving DecidableEq, Repr

/-- A computation with a socket. -/
abbrev Client (α : Type) := ExceptT Fault (StateM Socket) α

namespace Socket

/-- The longest datagram that is received whole. -/
def bufferSize : Nat := 32768

/-- The error number for a receive call with nothing to receive. -/
def nothingToReceive : Int := 11

/-- A socket on which nothing was done yet. -/
def fresh (replies : List Reply) (failing : Option (SocketCall × Int)) : Socket :=
  ⟨replies, failing, [], []⟩

/-- Records a call, which may fail. -/
def call (c : SocketCall) : Client Unit := do
  modify fun s => { s with calls := c :: s.calls }
  match (← get).failing with
  | some (failing, code) => if failing = c then throw (.failed code)
  | none => return ()

/-- Opens a socket. -/
def connect : Client Unit := do
  call .create
  call .bind
  call .connect

/-- Sends a request. -/
def send (request : List UInt8) : Client Unit := do
  call .send
  modify fun s => { s with sent := request :: s.sent }

end Socket

/-- Receives until a request is answered: the answer, what is left to receive, and the number
of receive calls that were made. -/
def awaitAnswer (decode : Decoder) (acknowledged : Bool) (sequence : UInt32) :
    List Content → List Reply → Except Fault (List Content) × List Reply × Nat
  | _, [] => (.error (.failed Socket.nothingToReceive), [], 1)
  | _, .failure code :: rest => (.error (.failed code), rest, 1)
  | contents, .datagram bytes :: rest =>
    match afterDatagram decode sequence contents (bytes.take Socket.bufferSize) with
    | .finished answer => (answer, rest, 1)
    | .waiting contents =>
      if !acknowledged && !contents.isEmpty then (.ok contents, rest, 1)
      else
        let (answer, rest, calls) := awaitAnswer decode acknowledged sequence contents rest
        (answer, rest, calls + 1)

namespace Socket

/-- Receives until a request is answered. -/
def receive (decode : Decoder) (acknowledged : Bool) (sequence : UInt32) :
    Client (List Content) := do
  let s ← get
  match s.failing with
  | some (.receive, code) =>
    set { s with calls := .receive :: s.calls }
    throw (.failed code)
  | _ =>
    let (answer, replies, calls) := awaitAnswer decode acknowledged sequence [] s.replies
    set { s with replies, calls := List.replicate calls SocketCall.receive ++ s.calls }
    match answer with
    | .ok contents => return contents
    | .error e => throw e

end Socket

/-! ## Requests -/

/-- The sequence number of the only request on a socket. -/
def firstSequence : UInt32 := 1

/-- A program attached to a link, and the flags of the way it is attached. -/
structure Attachment where
  programId : UInt32
  modeFlags : UInt32
  deriving DecidableEq, Repr

/-- An attachment as reports show it. -/
def Attachment.tree (a : Attachment) : Tree :=
  .record [("program_id", a.programId.toNat), ("mode_flags", a.modeFlags.toNat)]

/-- The flags that select a way of attachment, if there is one at all. -/
def modeFlags? (mode : UInt8) : Option UInt32 :=
  match mode.toNat with
  | 0 => none
  | 1 => some 4
  | 2 => some 2
  | 3 => some 8
  | _ => some 0

/-- The attachment that a link's properties tell of: the first list of the program's properties
counts, and in it the last mode and the last identity. -/
def Link.attachment? (l : Link) : Option Attachment := do
  let attributes ← l.attributes.findSome? fun
    | .program attributes => some attributes
    | _ => none
  let mode := attributes.foldl
    (fun mode a =>
      match a with
      | .attached m => m
      | _ => mode) 0
  let id := attributes.foldl
    (fun id a =>
      match a with
      | .programId n => n
      | _ => id) 0
  let flags ← modeFlags? mode
  if id = 0 then none else some ⟨id, flags⟩

/-- The first description of a new link with a given index. -/
def findLink? (index : UInt32) (contents : List Content) : Option Link :=
  contents.findSome? fun
    | .link .new link => if link.index = index then some link else none
    | _ => none

/-- The program attached to a link. -/
def attachment (decode : Decoder) (index : UInt32) : Client (Option Attachment) := do
  Socket.connect
  Socket.send (getLinkRequest firstSequence index)
  let contents ← Socket.receive decode false firstSequence
  return (findLink? index contents).bind Link.attachment?

/-- Detaches the program of a link that is attached in the way the flags select. -/
def detach (decode : Decoder) (index modeFlags : UInt32) : Client Unit := do
  Socket.connect
  Socket.send (detachRequest firstSequence index modeFlags)
  let _ ← Socket.receive decode true firstSequence

/-- The index of the link with a given name, as the system looks it up: an index, which is zero if
there is no such link, and the error number that is left behind then. -/
def linkIndex (lookup : String → UInt32 × Int) (name : String) : Except Fault UInt32 :=
  if name.toList.contains '\x00' then .error (.badRequest "nul in name")
  else
    let (index, code) := lookup name
    if index = 0 then .error (.failed code) else .ok index

/-- What became of a computation with a socket, as reports show it. -/
def report {α : Type} (f : α → Tree) (work : Client α) (s : Socket) : Tree :=
  let (result, s) := work.run.run s
  .record [
    ("result", .result Fault.tree f result),
    ("calls", .texts (s.calls.reverse.map SocketCall.label)),
    ("sent", .texts (s.sent.reverse.map Text.hexBytes)),
    ("replies_left", s.replies.length)]

end IngressGuard.Netlink
