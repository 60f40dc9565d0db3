import IngressGuard.Netlink.Client
import IngressGuard.Netlink.Decoder

/-!
# Replies of other requests

Whatever is sent on a host may turn up on a socket, so a request has to tell its own replies by
their sequence number.  The two loops that do this are first taken apart: a datagram that is a
row of well-formed messages (`Wire`) means what these mean one after the other
(`afterDatagram_wire`), and a script of such datagrams (`Receives`) has the `outcome` of its
messages.  There, messages of others can be taken out, with the datagrams that hold nothing else
(`outcome_own`).

A plain request ends with the first datagram that holds anything for it.  So what it is told of
a link depends on one datagram (`map_outcome_plain`), but not only on the messages about that
link: whatever else is said to the request ends it as well, be it about another link
(`not_only_first_link`) or about no link at all.

Which bytes are a message, and which one, is up to the decoder.  All that is assumed of it is that
messages end where their headers say (`Decoder.Delimited`); it may know any kinds of messages.
-/

namespace IngressGuard.Netlink

variable {decode : Decoder} {sequence index : UInt32} {contents contents' : List Content}
  {m : Message} {ms : List Message} {ds ds' : List (List Message)} {bytes : List UInt8} {code : Int}
  {acknowledged : Bool} {replies : List Reply}

/-! ## Datagrams as messages -/

/-- Bytes are well-formed messages, one right after the other. -/
inductive Wire (decode : Decoder) : List UInt8 → List Message → Prop
  | nil : Wire decode [] []
  | cons {bytes rest : List UInt8} {m : Message} {ms : List Message}
      (message : decode bytes = some ⟨bytes.length, m⟩) (next : Wire decode rest ms) :
      Wire decode (bytes ++ rest) (m :: ms)

/-- What messages mean for a request, one after the other. -/
def afterMessages (sequence : UInt32) (contents : List Content) :
    List Message → Progress
  | [] => .waiting contents
  | m :: rest =>
    match afterMessage sequence contents m with
    | .waiting contents => afterMessages sequence contents rest
    | .finished answer => .finished answer

theorem afterDatagram_wire (hdecode : decode.Delimited) (h : Wire decode bytes ms) :
    afterDatagram decode sequence contents bytes = afterMessages sequence contents ms := by
  induction h generalizing contents with
  | nil => simp [afterDatagram, afterMessages]
  | @cons bytes rest m ms hmessage hnext ih =>
    have hsize : headerSize ≤ bytes.length := hdecode.headerSize_le hmessage
    have hlength : bytes.length ≠ 0 := by
      simp only [headerSize] at hsize
      omega
    have hne : bytes ++ rest ≠ [] := by
      intro hnil
      simp [List.append_eq_nil_iff.mp hnil] at hlength
    have hfirst : decode (bytes ++ rest) = some ⟨bytes.length, m⟩ := by
      simpa using hdecode.confined hmessage rest
    rw [afterDatagram, if_neg hne, hfirst]
    simp only [hlength, if_false, List.drop_left]
    rw [afterMessages]
    cases afterMessage sequence contents m with
    | waiting contents => exact ih
    | finished answer => rfl

/-! ## Scripts -/

/-- What is received from a socket: datagrams of messages, and the error number of the receive
call after them. -/
inductive Receives (decode : Decoder) : List Reply → List (List Message) → Int → Prop
  | exhausted : Receives decode [] [] Socket.nothingToReceive
  | failure (code : Int) (rest : List Reply) : Receives decode (.failure code :: rest) [] code
  | datagram {bytes : List UInt8} {ms : List Message} {replies : List Reply}
      {ds : List (List Message)} {code : Int}
      (wire : Wire decode (bytes.take Socket.bufferSize) ms)
      (next : Receives decode replies ds code) :
      Receives decode (.datagram bytes :: replies) (ms :: ds) code

/-- What datagrams of messages, and an error after them, mean for a request. -/
def outcome (acknowledged : Bool) (sequence : UInt32) (code : Int) :
    List Content → List (List Message) → Except Fault (List Content)
  | _, [] => .error (.failed code)
  | contents, ms :: rest =>
    match afterMessages sequence contents ms with
    | .finished answer => answer
    | .waiting contents =>
      if !acknowledged && !contents.isEmpty then .ok contents
      else outcome acknowledged sequence code contents rest

theorem awaitAnswer_eq_outcome (hdecode : decode.Delimited) (h : Receives decode replies ds code) :
    (awaitAnswer decode acknowledged sequence contents replies).1 =
      outcome acknowledged sequence code contents ds := by
  induction h generalizing contents with
  | exhausted => rfl
  | failure code rest => rfl
  | datagram wire next ih =>
    rw [awaitAnswer, outcome, afterDatagram_wire hdecode wire]
    cases afterMessages sequence contents _ with
    | finished answer => rfl
    | waiting contents =>
      dsimp only
      split
      · rfl
      · exact ih

/-- No more calls are made than there are replies, but for one that finds none. -/
theorem calls_awaitAnswer_le (replies : List Reply) :
    (awaitAnswer decode acknowledged sequence contents replies).2.2 ≤ replies.length + 1 := by
  induction replies generalizing contents with
  | nil => simp [awaitAnswer]
  | cons reply rest ih =>
    cases reply with
    | failure code => simp [awaitAnswer]
    | datagram bytes =>
      rw [awaitAnswer]
      cases afterDatagram decode sequence contents (bytes.take Socket.bufferSize) with
      | finished answer => simp
      | waiting contents =>
        dsimp only
        split
        · simp
        · exact Nat.succ_le_succ ih

/-! ## Where an answer comes from -/

/-- A result is what messages of the request tell, or the error of the socket. -/
def Justified (sequence : UInt32) (all : List Message) (code : Int) :
    Except Fault (List Content) → Prop
  | .ok contents => ∀ c ∈ contents, ⟨sequence, .content c⟩ ∈ all
  | .error e => e = .failed code ∨
    ∃ c : Int32, c ≠ 0 ∧ ⟨sequence, .answer c⟩ ∈ all ∧ e = .failed (-c).toInt

theorem justified_afterMessages {all : List Message} (hms : ∀ m ∈ ms, m ∈ all)
    (hcontents : Justified sequence all code (.ok contents)) :
    match afterMessages sequence contents ms with
    | .waiting contents => Justified sequence all code (.ok contents)
    | .finished answer => Justified sequence all code answer := by
  induction ms generalizing contents with
  | nil => exact hcontents
  | cons m rest ih =>
    have hrest : ∀ m ∈ rest, m ∈ all := fun m hm => hms m (List.mem_cons_of_mem _ hm)
    have hm : m ∈ all := hms m List.mem_cons_self
    rw [afterMessages, afterMessage]
    by_cases hown : m.sequence = sequence
    · obtain ⟨s, payload⟩ := m
      obtain rfl : s = sequence := hown
      rw [if_neg (by simp)]
      cases payload with
      | nothing => exact ih hrest hcontents
      | overrun => exact ih hrest hcontents
      | done => exact hcontents
      | answer c =>
        by_cases hc : c = 0
        · simpa only [answered, hc, if_true] using hcontents
        · simp only [answered, hc, if_false]
          exact .inr ⟨c, hc, hm, rfl⟩
      | content content =>
        refine ih hrest fun c hc => ?_
        rcases List.mem_append.mp hc with hc | hc
        · exact hcontents c hc
        · obtain rfl := List.mem_singleton.mp hc
          exact hm
    · rw [if_pos hown]
      exact ih hrest hcontents

theorem justified_outcome {all : List Message} (hds : ∀ ms ∈ ds, ∀ m ∈ ms, m ∈ all)
    (hcontents : Justified sequence all code (.ok contents)) :
    Justified sequence all code (outcome acknowledged sequence code contents ds) := by
  induction ds generalizing contents with
  | nil => exact .inl rfl
  | cons ms rest ih =>
    have hfirst := justified_afterMessages (hds ms List.mem_cons_self) hcontents
    rw [outcome]
    cases hafter : afterMessages sequence contents ms with
    | finished answer =>
      rw [hafter] at hfirst
      exact hfirst
    | waiting contents =>
      rw [hafter] at hfirst
      dsimp only
      split
      · exact hfirst
      · exact ih (fun ms hms => hds ms (List.mem_cons_of_mem _ hms)) hfirst

/-! ## Messages of others -/

/-- The messages for a request. -/
def ownOf (sequence : UInt32) (ms : List Message) : List Message :=
  ms.filter (·.sequence == sequence)

/-- The messages for a request, datagram by datagram, where there are any. -/
def own (sequence : UInt32) (ds : List (List Message)) : List (List Message) :=
  (ds.map (ownOf sequence)).filter (!·.isEmpty)

/-- Something for others gets between datagrams: a message, or a datagram of such messages. -/
inductive Inserted (sequence : UInt32) : List (List Message) → List (List Message) → Prop
  | message (before after : List (List Message)) (d d' : List Message) (m : Message)
      (stale : m.sequence ≠ sequence) :
      Inserted sequence (before ++ (d ++ d') :: after) (before ++ (d ++ m :: d') :: after)
  | datagram (before after : List (List Message)) (d : List Message)
      (stale : ∀ m ∈ d, m.sequence ≠ sequence) :
      Inserted sequence (before ++ after) (before ++ d :: after)

theorem own_eq_of_inserted (h : Inserted sequence ds ds') : own sequence ds = own sequence ds' := by
  cases h with
  | message before after d d' m stale => simp [own, ownOf, stale]
  | datagram before after d stale =>
    have hnone : ownOf sequence d = [] := by
      rw [ownOf, List.filter_eq_nil_iff]
      intro m hm
      simpa using stale m hm
    simp [own, hnone]

theorem afterMessages_ownOf :
    afterMessages sequence contents (ownOf sequence ms) = afterMessages sequence contents ms := by
  induction ms generalizing contents with
  | nil => rfl
  | cons m rest ih =>
    by_cases hown : m.sequence = sequence
    · simp only [ownOf, hown, List.filter_cons, beq_self_eq_true, if_true, afterMessages]
      cases afterMessage sequence contents m with
      | waiting contents => exact ih
      | finished answer => rfl
    · have hskip : afterMessage sequence contents m = .waiting contents := if_pos hown
      simp only [ownOf, hown, List.filter_cons, beq_iff_eq, if_false, afterMessages, hskip]
      exact ih

/-- What others are told means nothing for a request.  For a plain one, this rests on the fact
that it never waits with something said to it. -/
theorem outcome_own (hcontents : acknowledged = true ∨ contents = []) :
    outcome acknowledged sequence code contents (own sequence ds) =
      outcome acknowledged sequence code contents ds := by
  induction ds generalizing contents with
  | nil => rfl
  | cons ms rest ih =>
    rw [outcome]
    by_cases hnone : ownOf sequence ms = []
    · have hown : own sequence (ms :: rest) = own sequence rest := by simp [own, hnone]
      have hwaiting : afterMessages sequence contents ms = .waiting contents := by
        rw [← afterMessages_ownOf, hnone]
        rfl
      have hgoes : (!acknowledged && !contents.isEmpty) = false := by
        rcases hcontents with h | h <;> simp [h]
      rw [hown, hwaiting]
      simp only [hgoes, Bool.false_eq_true, if_false]
      exact ih hcontents
    · have hown : own sequence (ms :: rest) = ownOf sequence ms :: own sequence rest := by
        simp [own, hnone]
      rw [hown, outcome, afterMessages_ownOf]
      cases afterMessages sequence contents ms with
      | finished answer => rfl
      | waiting contents =>
        dsimp only
        by_cases hends : (!acknowledged && !contents.isEmpty) = true
        · rw [if_pos hends, if_pos hends]
        · rw [if_neg hends, if_neg hends]
          refine ih ?_
          cases acknowledged with
          | true => exact .inl rfl
          | false => simpa using hends

/-! ## What a plain request depends on -/

/-- Whether a message for a plain request has it end with the datagram at the latest. -/
def Message.settles (m : Message) : Bool :=
  match m.payload with
  | .nothing | .overrun => false
  | .done | .answer _ | .content _ => true

/-- The messages for a request in the first datagram that has one which settles a plain request. -/
def settling (sequence : UInt32) (ds : List (List Message)) : Option (List Message) :=
  (ds.map (ownOf sequence)).find? (·.any Message.settles)

/-- Messages without those that describe a new link, unless it is the first one with an index and
that was not found before. -/
def relevantAfter (index : UInt32) : Bool → List Message → List Message
  | _, [] => []
  | found, m :: rest =>
    match m.payload with
    | .content (.link .new link) =>
      if link.index = index ∧ found = false then m :: relevantAfter index true rest
      else relevantAfter index found rest
    | _ => m :: relevantAfter index found rest

/-- What of the messages for a request matters for the first new link with an index. -/
def relevant (index : UInt32) (ms : List Message) : List Message := relevantAfter index false ms

/-- How far a request has come, as far as the first new link with an index tells. -/
def Progress.seen (index : UInt32) : Progress → Except Fault (Option Link)
  | .waiting contents => .ok (findLink? index contents)
  | .finished answer => answer.map (findLink? index)

theorem findLink?_append (c : Content) :
    findLink? index (contents ++ [c]) = (findLink? index contents).or (findLink? index [c]) := by
  simp [findLink?, List.findSome?_append]

theorem afterMessages_content (c : Content) :
    afterMessages sequence contents (⟨sequence, .content c⟩ :: ms) =
      afterMessages sequence (contents ++ [c]) ms := by
  simp [afterMessages, afterMessage]

theorem findLink?_singleton_of_not_new {c : Content} (h : ∀ link, c ≠ .link .new link) :
    findLink? index [c] = none := by
  cases c with
  | other kind body => rfl
  | link action link =>
    cases action with
    | new => exact absurd rfl (h link)
    | _ => rfl

theorem relevantAfter_cons_of_not_new {c : Content} (h : ∀ link, c ≠ .link .new link)
    (found : Bool) :
    relevantAfter index found (⟨sequence, .content c⟩ :: ms) =
      ⟨sequence, .content c⟩ :: relevantAfter index found ms := by
  cases c with
  | other kind body => rfl
  | link action link =>
    cases action with
    | new => exact absurd rfl (h link)
    | _ => rfl

/-- Messages without what does not matter have the first new link with an index found as well. -/
theorem seen_relevantAfter (hown : ∀ m ∈ ms, m.sequence = sequence)
    (hsame : findLink? index contents' = findLink? index contents) :
    (afterMessages sequence contents'
        (relevantAfter index (findLink? index contents).isSome ms)).seen index =
      (afterMessages sequence contents ms).seen index := by
  induction ms generalizing contents contents' with
  | nil => simp [relevantAfter, afterMessages, Progress.seen, hsame]
  | cons m rest ih =>
    have hrest : ∀ m ∈ rest, m.sequence = sequence := fun m hm =>
      hown m (List.mem_cons_of_mem _ hm)
    obtain ⟨s, payload⟩ := m
    obtain rfl : s = sequence := hown _ List.mem_cons_self
    cases payload with
    | nothing | overrun =>
      simpa [relevantAfter, afterMessages, afterMessage] using ih hrest hsame
    | done => simp [relevantAfter, afterMessages, afterMessage, Progress.seen, hsame, Except.map]
    | answer c =>
      by_cases hc : c = 0
      · simp [relevantAfter, afterMessages, afterMessage, answered, hc, Progress.seen, hsame,
          Except.map]
      · simp [relevantAfter, afterMessages, afterMessage, answered, hc, Progress.seen, Except.map]
    | content c =>
      have hboth : findLink? index (contents' ++ [c]) = findLink? index (contents ++ [c]) := by
        rw [findLink?_append, findLink?_append, hsame]
      by_cases hnew : ∃ link, c = .link .new link
      · obtain ⟨link, rfl⟩ := hnew
        by_cases hfirst : link.index = index ∧ (findLink? index contents).isSome = false
        · -- The first one that is found is kept.
          have hsome : (findLink? index (contents ++ [.link .new link])).isSome = true := by
            simp [findLink?, hfirst.1]
          have hkept := ih hrest hboth
          rw [hsome] at hkept
          simp only [relevantAfter, hfirst, and_self, if_true, afterMessages_content]
          exact hkept
        · have hold :
              findLink? index (contents ++ [.link .new link]) = findLink? index contents := by
            rw [findLink?_append]
            by_cases hindex : link.index = index
            · have hfound : (findLink? index contents).isSome = true := by
                simpa [hindex, Option.isSome_iff_ne_none] using hfirst
              exact Option.or_of_isSome hfound
            · simp [findLink?, hindex]
          have hdropped := ih hrest (hsame.trans hold.symm)
          rw [hold] at hdropped
          simp only [relevantAfter, hfirst, if_false, afterMessages_content]
          exact hdropped
      · have hother : ∀ link, c ≠ .link .new link := not_exists.mp hnew
        have hold : findLink? index (contents ++ [c]) = findLink? index contents := by
          rw [findLink?_append, findLink?_singleton_of_not_new hother, Option.or_none]
        have hkept := ih hrest hboth
        rw [hold] at hkept
        rw [relevantAfter_cons_of_not_new hother, afterMessages_content, afterMessages_content]
        exact hkept

/-- Messages that settle nothing leave a plain request waiting. -/
theorem afterMessages_of_not_settles (h : ms.any Message.settles = false) :
    afterMessages sequence contents ms = .waiting contents := by
  induction ms with
  | nil => rfl
  | cons m rest ih =>
    obtain ⟨s, payload⟩ := m
    rw [List.any_cons, Bool.or_eq_false_iff] at h
    have hwaits : afterMessage sequence contents ⟨s, payload⟩ = .waiting contents := by
      cases payload with
      | nothing | overrun => simp [afterMessage]
      | done | answer c | content c => simp [Message.settles] at h
    rw [afterMessages, hwaits]
    exact ih h.2

/-- Where a message settles a plain request, it ends, or something was said to it. -/
theorem waiting_of_settles (hown : ∀ m ∈ ms, m.sequence = sequence)
    (h : ms.any Message.settles = true ∨ contents ≠ [])
    (hafter : afterMessages sequence contents ms = .waiting contents') : contents' ≠ [] := by
  induction ms generalizing contents with
  | nil =>
    obtain rfl : contents = contents' := by simpa [afterMessages] using hafter
    simpa using h
  | cons m rest ih =>
    have hrest : ∀ m ∈ rest, m.sequence = sequence := fun m hm =>
      hown m (List.mem_cons_of_mem _ hm)
    obtain ⟨s, payload⟩ := m
    obtain rfl : s = sequence := hown _ List.mem_cons_self
    cases payload with
    | nothing | overrun =>
      refine ih hrest (by simpa [Message.settles] using h) ?_
      simpa [afterMessages, afterMessage] using hafter
    | done => simp [afterMessages, afterMessage] at hafter
    | answer c => simp [afterMessages, afterMessage, answered] at hafter
    | content c =>
      rw [afterMessages_content] at hafter
      exact ih hrest (.inr (by simp)) hafter

/-- A plain request depends on the datagram that settles it, and there, as far as the first new
link with an index is concerned, on what matters for that. -/
theorem map_outcome_plain :
    (outcome false sequence code [] ds).map (findLink? index) =
      match (settling sequence ds).map (relevant index) with
      | none => .error (.failed code)
      | some ms => (afterMessages sequence [] ms).seen index := by
  induction ds with
  | nil => rfl
  | cons ms rest ih =>
    have hown : ∀ m ∈ ownOf sequence ms, m.sequence = sequence := by
      intro m hm
      simpa using (List.mem_filter.mp hm).2
    rw [outcome, ← afterMessages_ownOf]
    by_cases hsettles : (ownOf sequence ms).any Message.settles = true
    · have hfirst : settling sequence (ms :: rest) = some (ownOf sequence ms) := by
        simp [settling, hsettles]
      have hseen : (afterMessages sequence [] (relevant index (ownOf sequence ms))).seen index =
          (afterMessages sequence [] (ownOf sequence ms)).seen index := seen_relevantAfter hown rfl
      rw [hfirst]
      cases hafter : afterMessages sequence [] (ownOf sequence ms) with
      | finished answer =>
        rw [hafter] at hseen
        exact hseen.symm
      | waiting contents =>
        have hne := waiting_of_settles hown (.inl hsettles) hafter
        rw [hafter] at hseen
        simp only [Bool.not_false, Bool.true_and, Bool.not_eq_true', List.isEmpty_eq_false_iff, hne,
          ne_eq, not_false_eq_true, if_true]
        exact hseen.symm
    · rw [Bool.not_eq_true] at hsettles
      have hlater : settling sequence (ms :: rest) = settling sequence rest := by
        simp only [settling, List.map_cons, List.find?_cons, hsettles]
      rw [afterMessages_of_not_settles hsettles, hlater]
      exact ih

/-! ## Requests -/

section Runs

variable {α β : Type} {s : Socket}

theorem run_bind (w : Client α) (next : α → Client β) (s : Socket) :
    (w >>= next).run.run s =
      match w.run.run s with
      | (.ok a, s') => (next a).run.run s'
      | (.error e, s') => (.error e, s') := by
  simp only [ExceptT.run_bind, StateT.run_bind]
  cases w.run.run s with
  | mk r s' => cases r <;> rfl

theorem run_connect (h : s.failing = none) :
    Socket.connect.run.run s =
      (.ok (), { s with calls := .connect :: .bind :: .create :: s.calls }) := by
  obtain ⟨replies, failing, calls, sent⟩ := s
  obtain rfl : failing = none := h
  rfl

theorem run_send (request : List UInt8) (h : s.failing = none) :
    (Socket.send request).run.run s =
      (.ok (), { s with calls := .send :: s.calls, sent := request :: s.sent }) := by
  obtain ⟨replies, failing, calls, sent⟩ := s
  obtain rfl : failing = none := h
  rfl

theorem run_receive (h : s.failing = none) :
    (Socket.receive decode acknowledged sequence).run.run s =
      ((awaitAnswer decode acknowledged sequence [] s.replies).1,
        { s with
          replies := (awaitAnswer decode acknowledged sequence [] s.replies).2.1
          calls := List.replicate (awaitAnswer decode acknowledged sequence [] s.replies).2.2
            .receive ++ s.calls }) := by
  obtain ⟨replies, failing, calls, sent⟩ := s
  obtain rfl : failing = none := h
  have hget : (get : Client Socket).run.run (⟨replies, none, calls, sent⟩ : Socket) =
      (.ok ⟨replies, none, calls, sent⟩, ⟨replies, none, calls, sent⟩) := rfl
  have hset : ∀ s', (set s' : Client PUnit).run.run (⟨replies, none, calls, sent⟩ : Socket) =
      (.ok ⟨⟩, s') := fun _ => rfl
  rw [Socket.receive, run_bind, hget]
  simp only [run_bind, hset]
  cases (awaitAnswer decode acknowledged sequence [] replies).1 <;> rfl

/-- A request on a new socket ends with what its answer is made of, unless a call always fails. -/
theorem run_request (request : List UInt8) (use : List Content → α)
    (failing : Option (SocketCall × Int)) :
    ((do
      Socket.connect
      Socket.send request
      let contents ← Socket.receive decode acknowledged sequence
      return use contents : Client α).run.run (.fresh replies failing)).1 =
      match failing with
      | some (_, code) => .error (.failed code)
      | none => (awaitAnswer decode acknowledged sequence [] replies).1.map use := by
  rcases failing with _ | ⟨c, code⟩
  · rw [run_bind, run_connect rfl]
    dsimp only
    rw [run_bind, run_send request rfl]
    dsimp only
    rw [run_bind, run_receive rfl]
    cases hanswer : (awaitAnswer decode acknowledged sequence [] replies).1 with
    | ok contents =>
      simp only [Socket.fresh, hanswer, Except.map]
      rfl
    | error e => simp only [Socket.fresh, hanswer, Except.map]
  · cases c <;> rfl

end Runs

/-- What is received that is not for a request, in whatever places, does not matter for it. -/
theorem awaitAnswer_of_own_eq {replies' : List Reply} (hdecode : decode.Delimited)
    (h : Receives decode replies ds code) (h' : Receives decode replies' ds' code)
    (hown : own sequence ds = own sequence ds') :
    (awaitAnswer decode acknowledged sequence [] replies).1 =
      (awaitAnswer decode acknowledged sequence [] replies').1 := by
  rw [awaitAnswer_eq_outcome hdecode h, awaitAnswer_eq_outcome hdecode h',
    ← outcome_own (.inr rfl), hown, outcome_own (.inr rfl)]

/-- The attachment of a link, by what is received. -/
theorem attachment_eq (hdecode : decode.Delimited) (h : Receives decode replies ds code)
    (failing : Option (SocketCall × Int)) :
    ((attachment decode index).run.run (.fresh replies failing)).1 =
      match failing with
      | some (_, code) => .error (.failed code)
      | none => ((outcome false firstSequence code [] ds).map (findLink? index)).map
          (·.bind Link.attachment?) := by
  have hrun : ((attachment decode index).run.run (.fresh replies failing)).1 =
      match failing with
      | some (_, code) => .error (.failed code)
      | none => (awaitAnswer decode false firstSequence [] replies).1.map fun contents =>
          (findLink? index contents).bind Link.attachment? := run_request _ _ failing
  rw [hrun, awaitAnswer_eq_outcome hdecode h]
  cases failing with
  | some failing => rfl
  | none => cases outcome false firstSequence code [] ds <;> rfl

/-- The attachment of a link is told by what matters for it in one datagram. -/
theorem attachment_of_settling_eq {replies' : List Reply} (hdecode : decode.Delimited)
    (h : Receives decode replies ds code) (h' : Receives decode replies' ds' code)
    (hsame : (settling firstSequence ds).map (relevant index) =
      (settling firstSequence ds').map (relevant index))
    (failing : Option (SocketCall × Int)) :
    ((attachment decode index).run.run (.fresh replies failing)).1 =
      ((attachment decode index).run.run (.fresh replies' failing)).1 := by
  rw [attachment_eq hdecode h, attachment_eq hdecode h', map_outcome_plain, map_outcome_plain,
    hsame]

/-- However messages are decoded, as long as their headers delimit them, a request comes to its end
with what was said in messages for it, with the error that an answer to it gives, or with the error
of its socket.  Messages for others, or datagrams of them, that get between what is received change
nothing about it.  The attachment of a link depends only on the first datagram that has a message
which settles the request, and there on the messages for it, of which, among those about new links,
only the first one counts that has the index asked for. -/
theorem replies_isolated (hdecode : decode.Delimited) :
    (∀ acknowledged sequence replies ds code, Receives decode replies ds code →
      Justified sequence ds.flatten code (awaitAnswer decode acknowledged sequence [] replies).1 ∧
        (awaitAnswer decode acknowledged sequence [] replies).2.2 ≤ replies.length + 1) ∧
    (∀ acknowledged sequence replies replies' ds ds' code, Receives decode replies ds code →
      Receives decode replies' ds' code → own sequence ds = own sequence ds' →
      (awaitAnswer decode acknowledged sequence [] replies).1 =
        (awaitAnswer decode acknowledged sequence [] replies').1) ∧
    (∀ sequence ds ds', Inserted sequence ds ds' → own sequence ds = own sequence ds') ∧
    ∀ index failing replies replies' ds ds' code, Receives decode replies ds code →
      Receives decode replies' ds' code →
      (settling firstSequence ds).map (relevant index) =
        (settling firstSequence ds').map (relevant index) →
      ((attachment decode index).run.run (.fresh replies failing)).1 =
        ((attachment decode index).run.run (.fresh replies' failing)).1 := by
  refine ⟨fun acknowledged sequence replies ds code h => ⟨?_, calls_awaitAnswer_le replies⟩,
    fun _ _ _ _ _ _ _ h h' hown => awaitAnswer_of_own_eq hdecode h h' hown,
    fun _ _ _ h => own_eq_of_inserted h,
    fun _ failing _ _ _ _ _ h h' hsame => attachment_of_settling_eq hdecode h h' hsame failing⟩
  rw [awaitAnswer_eq_outcome hdecode h]
  refine justified_outcome (fun ms hms m hm => ?_) fun c hc => by simp at hc
  exact List.mem_flatten.mpr ⟨ms, hms, hm⟩

/-! ## Two links and an address -/

/-- A message that describes a new link with a program. -/
def newLink (sequence index id : UInt32) : List UInt8 :=
  requestBytes 16 0 sequence index
    (attributeBytes 43 (attributeBytes 2 [2] ++ attributeBytes 4 (littleEndianBytes 4 id.toNat)))

/-- What such a message says. -/
def linkNews (sequence index id : UInt32) : Message :=
  ⟨sequence, .content (.link .new ⟨index, [.program [.attached 2, .programId id]]⟩)⟩

/-- The part of a message that describes an address of a link. -/
def addressBody (index : UInt32) : List UInt8 := [2, 24, 0, 0] ++ littleEndianBytes 4 index.toNat

/-- A message that describes a new address of a link. -/
def newAddress (sequence index : UInt32) : List UInt8 :=
  littleEndianBytes 4 (headerSize + (addressBody index).length) ++ littleEndianBytes 2 20 ++
    littleEndianBytes 2 0 ++ littleEndianBytes 4 sequence.toNat ++ littleEndianBytes 4 0 ++
    addressBody index

/-- What such a message says. -/
def addressNews (sequence index : UInt32) : Message :=
  ⟨sequence, .content (.other 20 (addressBody index))⟩

theorem basicDecoder_newLink :
    ∀ l ∈ ([(1, 5, 41), (2, 5, 41), (1, 3, 42)] : List (UInt32 × UInt32 × UInt32)),
      basicDecoder (newLink l.1 l.2.1 l.2.2) =
        some ⟨(newLink l.1 l.2.1 l.2.2).length, linkNews l.1 l.2.1 l.2.2⟩ := by
  intro l hl
  -- The list is gone through, and not all the triples of words that there are.
  have hall : ([(1, 5, 41), (2, 5, 41), (1, 3, 42)] : List (UInt32 × UInt32 × UInt32)).all
      (fun l => decide (basicDecoder (newLink l.1 l.2.1 l.2.2) =
        some ⟨(newLink l.1 l.2.1 l.2.2).length, linkNews l.1 l.2.1 l.2.2⟩)) = true := by
    decide +kernel
  exact of_decide_eq_true (List.all_eq_true.mp hall l hl)

theorem basicDecoder_newAddress (sequence : UInt32) (h : sequence = 1 ∨ sequence = 2) :
    basicDecoder (newAddress sequence 3) =
      some ⟨(newAddress sequence 3).length, addressNews sequence 3⟩ := by
  rcases h with rfl | rfl <;> decide +kernel

theorem wire_singleton (h : decode bytes = some ⟨bytes.length, m⟩) : Wire decode bytes [m] := by
  simpa using Wire.cons h .nil

/-- A datagram that is not too long is received whole. -/
theorem Wire.received (h : Wire decode bytes ms) (hsize : bytes.length ≤ Socket.bufferSize) :
    Wire decode (bytes.take Socket.bufferSize) ms := by
  rwa [List.take_of_length_le hsize]

/-- Some message is received first, and then news of the link that is asked for. -/
theorem receives_newLink (h : basicDecoder bytes = some ⟨bytes.length, m⟩)
    (hsize : bytes.length ≤ Socket.bufferSize) :
    Receives basicDecoder [.datagram bytes, .datagram (newLink 1 3 42)]
      [[m], [linkNews 1 3 42]] Socket.nothingToReceive := by
  have hlast := wire_singleton (basicDecoder_newLink (1, 3, 42) (by simp))
  exact .datagram ((wire_singleton h).received hsize)
    (.datagram (hlast.received (by decide)) .exhausted)

/-- A plain request may end without the only link that was asked for, because of another one. -/
theorem not_only_first_link :
    ¬∀ index failing replies replies' ds ds' code, Receives basicDecoder replies ds code →
      Receives basicDecoder replies' ds' code →
      ds.map (fun ms => relevant index (ownOf firstSequence ms)) =
        ds'.map (fun ms => relevant index (ownOf firstSequence ms)) →
      ((attachment basicDecoder index).run.run (.fresh replies failing)).1 =
        ((attachment basicDecoder index).run.run (.fresh replies' failing)).1 := by
  intro hall
  have hown := receives_newLink (basicDecoder_newLink (1, 5, 41) (by simp)) (by decide)
  have hother := receives_newLink (basicDecoder_newLink (2, 5, 41) (by simp)) (by decide)
  have hsame := hall 3 none _ _ _ _ _ hown hother rfl
  rw [attachment_eq delimited_basicDecoder hown, attachment_eq delimited_basicDecoder hother]
    at hsame
  have hfound : (.ok none : Except Fault (Option Attachment)) = .ok (some ⟨42, 2⟩) := hsame
  cases hfound

/-- The same link is found whether or not messages for another request come first, about a link or
about an address.  Said to the request itself, news of an address end it without the link. -/
theorem replies_isolated_newLinks :
    let before := [.datagram (newLink 2 5 41), .datagram (newAddress 2 3 ++ newLink 1 3 42)]
    let alone := [.datagram (newLink 1 3 42)]
    let address := [.datagram (newAddress 1 3), .datagram (newLink 1 3 42)]
    ((attachment basicDecoder 3).run.run (.fresh before none)).1 =
        ((attachment basicDecoder 3).run.run (.fresh alone none)).1 ∧
      ((attachment basicDecoder 3).run.run (.fresh before none)).1 = .ok (some ⟨42, 2⟩) ∧
      (awaitAnswer basicDecoder false 1 [] before).1 =
        (awaitAnswer basicDecoder false 1 [] alone).1 ∧
      (awaitAnswer basicDecoder false 1 [] before).2.2 ≤ 3 ∧
      ((attachment basicDecoder 3).run.run (.fresh address none)).1 = .ok none := by
  intro before alone address
  have hlink := wire_singleton (basicDecoder_newLink (1, 3, 42) (by simp))
  have hother := wire_singleton (basicDecoder_newLink (2, 5, 41) (by simp))
  have hboth := hlink.cons (basicDecoder_newAddress 2 (.inr rfl))
  have halone : Receives basicDecoder alone [[linkNews 1 3 42]] Socket.nothingToReceive :=
    .datagram (hlink.received (by decide)) .exhausted
  have hbefore : Receives basicDecoder before
      [[linkNews 2 5 41], [addressNews 2 3, linkNews 1 3 42]] Socket.nothingToReceive :=
    .datagram (hother.received (by decide))
      (.datagram (hboth.received (by decide)) .exhausted)
  have haddress := receives_newLink (basicDecoder_newAddress 1 (.inl rfl)) (by decide)
  have hmessage : Inserted 1 [[linkNews 1 3 42]] [[addressNews 2 3, linkNews 1 3 42]] :=
    .message [] [] [] [linkNews 1 3 42] (addressNews 2 3) (by decide)
  have hdatagram : Inserted 1 [[addressNews 2 3, linkNews 1 3 42]]
      [[linkNews 2 5 41], [addressNews 2 3, linkNews 1 3 42]] :=
    .datagram [] [[addressNews 2 3, linkNews 1 3 42]] [linkNews 2 5 41] (by simp [linkNews])
  obtain ⟨hends, hsame, hinsert, hattachment⟩ := replies_isolated delimited_basicDecoder
  have hown : own 1 [[linkNews 1 3 42]] =
      own 1 [[linkNews 2 5 41], [addressNews 2 3, linkNews 1 3 42]] :=
    (hinsert 1 _ _ hmessage).trans (hinsert 1 _ _ hdatagram)
  refine ⟨hattachment 3 none _ _ _ _ _ hbefore halone rfl, ?_, ?_,
    (hends false 1 _ _ _ hbefore).2, ?_⟩
  · rw [attachment_eq delimited_basicDecoder hbefore]
    rfl
  · exact hsame false 1 _ _ _ _ _ hbefore halone hown.symm
  · rw [attachment_eq delimited_basicDecoder haddress]
    rfl

end IngressGuard.Netlink
