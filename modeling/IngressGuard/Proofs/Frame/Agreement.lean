import IngressGuard.Proofs.Frame.Reads
import IngressGuard.Proofs.Kernel.Interface
import IngressGuard.Proofs.Net.Trie

/-!
# The program and the model agree

The program that filters frames reads bytes at offsets and looks up keys; the model decodes the
frame into a packet and looks at prefixes and rules.  Each step of the program is matched with the
part of the packet that it is about: the tags, the ports, the source.  Put together, the program
drops a frame if and only if the frame carries a packet that the model drops, and it never reads
past the end (`FrameFilter.verdict_agrees`).
-/

namespace IngressGuard

open Kernel (Model InterfaceState)

/-! ## Ports -/

theorem Protocol.number_of_ofNumber? {n : UInt8} {q : Protocol} (h : ofNumber? n = some q) :
    n = q.number := by
  unfold ofNumber? at h
  split at h
  case isTrue htcp =>
    cases h
    exact htcp
  case isFalse =>
    split at h
    case isTrue hudp =>
      cases h
      exact hudp
    case isFalse => cases h

namespace Failsafe

variable {f : Failsafe} {p : Packet}

theorem permits_of_withoutPorts {n : UInt8} (h : p.transport = .withoutPorts n) :
    f.permits p = false := by
  unfold permits
  rw [h]
  unfold Transport.withoutPorts
  split <;> simp [Transport.protocol?]

theorem permits_of_ofProtocol {q : Protocol} {source destination : UInt16}
    (h : p.transport = .ofProtocol q source destination) :
    f.permits p =
      (f.contains ⟨q, destination, .inbound⟩ || f.contains ⟨q, source, .outbound⟩) := by
  unfold permits
  rw [h]
  cases q <;> simp [Transport.ofProtocol, Transport.protocol?, Transport.port?]

/-- The kernel's table of ports has a key if and only if the rules have the rule. -/
theorem contains_keys (f : Failsafe) (q : Protocol) (port : UInt16) (d : Direction) :
    f.keys.contains ⟨port, q.number, d.number⟩ = f.contains ⟨q, port, d⟩ := by
  rw [Bool.eq_iff_iff, List.contains_iff_mem, Std.ExtTreeSet.contains_iff_mem]
  unfold keys
  constructor
  · intro h
    obtain ⟨⟨q', port', d'⟩, hrule, hkey⟩ := List.mem_map.mp h
    simp only [FailsafeRule.key, FailsafeKey.mk.injEq] at hkey
    obtain ⟨rfl, hq, hd⟩ := hkey
    rw [← Protocol.number_inj hq, ← Direction.number_inj hd]
    exact Std.ExtTreeSet.mem_toList.mp hrule
  · intro h
    exact List.mem_map.mpr ⟨_, Std.ExtTreeSet.mem_toList.mpr h, rfl⟩

end Failsafe

namespace FrameFilter

variable {frame : Frame} {blocked : PerFamily PrefixSet} {failsafe : Failsafe}

/-- The program finds a packet on a failsafe port if and only if the rules permit the packet whose
transport header is where the program looks for it. -/
theorem gives_isFailsafe {protocol : UInt8} {offset : Nat} {p : Packet}
    (h : p.transport = .ofHeader protocol (frame.drop offset)) :
    Gives (isFailsafe (.ofSets blocked failsafe) protocol offset) frame
      (some (failsafe.permits p)) := by
  unfold isFailsafe
  unfold Transport.ofHeader at h
  cases hprotocol : Protocol.ofNumber? protocol with
  | none =>
    rw [hprotocol] at h
    rw [Failsafe.permits_of_withoutPorts h]
    exact gives_pure false
  | some q =>
    have hnumber := Protocol.number_of_ofNumber? hprotocol
    have hpeek : Gives (peek offset 4) frame _ := gives_peek offset 4
    have hlength : (frame.drop offset).length = frame.length - offset := List.length_drop
    rcases hcontent : frame.drop offset with
      _ | ⟨s₁, _ | ⟨s₂, _ | ⟨d₁, _ | ⟨d₂, rest⟩⟩⟩⟩
    case cons.cons.cons.cons =>
      rw [hprotocol, hcontent] at h
      rw [hcontent] at hpeek hlength
      simp only [List.length_cons] at hlength
      rw [if_pos (by omega)] at hpeek
      rw [Failsafe.permits_of_ofProtocol h, ← Failsafe.contains_keys, ← Failsafe.contains_keys,
        ← hnumber]
      exact hpeek.bind (gives_pure _)
    all_goals
      rw [hprotocol, hcontent] at h
      rw [hcontent] at hlength
      simp only [List.length_cons, List.length_nil] at hlength
      rw [if_neg (by omega)] at hpeek
      rw [Failsafe.permits_of_withoutPorts h]
      exact hpeek.bind (gives_pure false)

end FrameFilter

/-! ## Headers -/

theorem drop_eq_cons_cons {l : List UInt8} {n : Nat} (h : n + 2 ≤ l.length) :
    l.drop n = l.getD n 0 :: l.getD (n + 1) 0 :: l.drop (n + 2) := by
  rw [List.drop_eq_getElem_cons (by omega), List.drop_eq_getElem_cons (by omega),
    List.getElem_eq_getD 0, List.getElem_eq_getD 0]

theorem getD_take {l : List UInt8} {m n : Nat} (h : n < m) : (l.take m).getD n 0 = l.getD n 0 := by
  rw [List.getD_eq_getElem?_getD, List.getD_eq_getElem?_getD, List.getElem?_take_of_lt h]

theorem take_drop_take {l : List UInt8} {m n k : Nat} (h : n + k ≤ m) :
    ((l.take m).drop n).take k = (l.drop n).take k := by
  rw [List.drop_take, List.take_take, Nat.min_eq_left (by omega)]

namespace Frame

variable {bytes : List UInt8}

/-- The packet behind an IPv4 header that is all there. -/
theorem ipv4Packet?_of_le (h : 20 ≤ bytes.length) :
    ipv4Packet? bytes =
      if (bytes.getD 0 0 &&& 0x0f).toNat * 4 < 20 then none
      else some {
        source := .ofBytes .ipv4 ((bytes.drop 12).take 4)
        destination := .ofBytes .ipv4 ((bytes.drop 16).take 4)
        transport :=
          if isLaterFragment (word (bytes.getD 6 0) (bytes.getD 7 0)) then
            .withoutPorts (bytes.getD 9 0)
          else
            .ofHeader (bytes.getD 9 0) (bytes.drop ((bytes.getD 0 0 &&& 0x0f).toNat * 4)) } := by
  rcases bytes with _ | ⟨vihl, _ | ⟨tos, _ | ⟨l₁, _ | ⟨l₂, _ | ⟨i₁, _ | ⟨i₂, _ | ⟨f₁, _ | ⟨f₂,
    _ | ⟨ttl, _ | ⟨protocol, _ | ⟨c₁, _ | ⟨c₂, _ | ⟨s₁, _ | ⟨s₂, _ | ⟨s₃, _ | ⟨s₄, _ | ⟨d₁,
    _ | ⟨d₂, _ | ⟨d₃, _ | ⟨d₄, rest⟩⟩⟩⟩⟩⟩⟩⟩⟩⟩⟩⟩⟩⟩⟩⟩⟩⟩⟩⟩
  any_goals simp at h
  rfl

theorem ipv4Packet?_of_lt (h : bytes.length < 20) : ipv4Packet? bytes = none := by
  unfold ipv4Packet?
  split
  case h_1 => simp only [List.length_cons] at h; omega
  case h_2 => rfl

/-- The packet behind an IPv6 header, which must be all there. -/
theorem ipv6Packet?_eq :
    ipv6Packet? bytes =
      if bytes.length < 40 then none
      else some {
        source := .ofBytes .ipv6 ((bytes.drop 8).take 16)
        destination := .ofBytes .ipv6 ((bytes.drop 24).take 16)
        transport := .ofHeader (bytes.getD 6 0) (bytes.drop 40) } := by
  unfold ipv6Packet?
  by_cases h : bytes.length < 40
  · simp only [h, if_true]
    split <;> rfl
  · have hnext : ∃ b₀ b₁ b₂ b₃ b₄ b₅ b₇,
        bytes.take 8 = [b₀, b₁, b₂, b₃, b₄, b₅, bytes.getD 6 0, b₇] := by
      rcases bytes with _ | ⟨b₀, _ | ⟨b₁, _ | ⟨b₂, _ | ⟨b₃, _ | ⟨b₄, _ | ⟨b₅, _ | ⟨next,
        _ | ⟨b₇, rest⟩⟩⟩⟩⟩⟩⟩⟩
      case cons.cons.cons.cons.cons.cons.cons.cons => exact ⟨b₀, b₁, b₂, b₃, b₄, b₅, b₇, rfl⟩
      all_goals simp at h
    obtain ⟨b₀, b₁, b₂, b₃, b₄, b₅, b₇, htake⟩ := hnext
    simp only [htake, h, if_false]

end Frame

namespace FrameFilter

variable {frame : Frame} {blocked : PerFamily PrefixSet} {failsafe : Failsafe}

/-! ## Verdicts -/

/-- What sets of prefixes and failsafe rules make of a packet. -/
def judgePacket (blocked : PerFamily PrefixSet) (failsafe : Failsafe) (p : Packet) : Verdict :=
  if failsafe.permits p then .pass
  else if ((blocked.get p.source.family).lookup p.source).isSome then .drop else .pass

/-- A computation judges a frame as the packet is judged that it carries; it passes without a
packet. -/
def Judges (blocked : PerFamily PrefixSet) (failsafe : Failsafe) (r : FrameReader Verdict)
    (frame : Frame) (packet : Option Packet) : Prop :=
  ∃ verdict, Gives r frame verdict ∧
    verdict.getD .pass = (packet.map (judgePacket blocked failsafe)).getD .pass

theorem judge_eq {f : Family} (filed : ∀ p ∈ blocked.get f, p.family = f) {source : List UInt8}
    (h : source.length = f.byteCount) :
    judge (.ofSets blocked failsafe) f source =
      if ((blocked.get f).lookup (.ofBytes f source)).isSome then .drop else .pass := by
  have htable :
      (FilterTables.ofSets blocked failsafe).blocked.get f = .ofPrefixes (blocked.get f) :=
    PerFamily.get_ofFn ..
  unfold judge
  rw [htable]
  refine ite_congr (propext (Trie.isSome_lookup?_ofPrefixes filed h)) (fun _ => rfl) fun _ => rfl

/-- A packet that is on no failsafe port is judged by its source. -/
theorem judges_source {f : Family} (filed : ∀ p ∈ blocked.get f, p.family = f)
    {source : List UInt8} (h : source.length = f.byteCount) {p : Packet}
    (hp : p.source = .ofBytes f source) (hpermits : failsafe.permits p = false) :
    Judges blocked failsafe (return judge (.ofSets blocked failsafe) f source) frame (some p) := by
  refine ⟨_, gives_pure _, ?_⟩
  have hfamily : p.source.family = f := by rw [hp]; rfl
  rw [Option.getD_some, Option.map_some, Option.getD_some, judgePacket, hpermits, judge_eq filed h,
    hfamily, hp]
  rfl

/-- What comes after a computation that gives a result. -/
theorem Judges.of_bind {α : Type} {r : FrameReader α} {next : α → FrameReader Verdict} {a : α}
    {packet : Option Packet} (h : Gives r frame (some a))
    (hnext : Judges blocked failsafe (next a) frame packet) :
    Judges blocked failsafe (r >>= next) frame packet := by
  obtain ⟨verdict, hgives, hverdict⟩ := hnext
  exact ⟨verdict, h.bind hgives, hverdict⟩

/-- A frame that cannot be read carries no packet. -/
theorem Judges.of_bind_none {α : Type} {r : FrameReader α} {next : α → FrameReader Verdict}
    (h : Gives r frame none) : Judges blocked failsafe (r >>= next) frame none :=
  ⟨none, h.bind_none, rfl⟩

theorem judges_pass : Judges blocked failsafe (return .pass) frame none :=
  ⟨_, gives_pure _, rfl⟩

/-- A packet passes on a failsafe port and is judged by its source otherwise. -/
theorem judges_isFailsafe {f : Family} (filed : ∀ p ∈ blocked.get f, p.family = f)
    {source : List UInt8} (h : source.length = f.byteCount) {p : Packet}
    (hp : p.source = .ofBytes f source) {protocol : UInt8} {offset : Nat}
    (htransport : p.transport = .ofHeader protocol (frame.drop offset)) :
    Judges blocked failsafe
      (do
        if ← isFailsafe (.ofSets blocked failsafe) protocol offset then return .pass
        return judge (.ofSets blocked failsafe) f source) frame (some p) := by
  refine Judges.of_bind (gives_isFailsafe htransport) ?_
  cases hpermits : failsafe.permits p with
  | true => exact ⟨_, gives_pure _, by simp [judgePacket, hpermits]⟩
  | false => exact judges_source filed h hp hpermits

theorem judges_judgeIpv4 (filed : ∀ p ∈ blocked.get .ipv4, p.family = .ipv4) (offset : Nat) :
    Judges blocked failsafe (judgeIpv4 (.ofSets blocked failsafe) offset) frame
      (Frame.ipv4Packet? (frame.drop offset)) := by
  have hread : Gives (read offset 20) frame _ := gives_read offset 20
  have hlength : (frame.drop offset).length = frame.length - offset := List.length_drop
  unfold judgeIpv4
  by_cases h : offset + 20 ≤ frame.length
  · rw [if_pos h] at hread
    have hcontent : 20 ≤ (frame.drop offset).length := by omega
    have hfragment : frame.drop (offset + 6) = _ :=
      List.drop_drop.symm.trans (drop_eq_cons_cons (by omega))
    have hsource : (((frame.drop offset).drop 12).take 4).length = Family.ipv4.byteCount := by
      simp [Family.byteCount, Family.width]
      omega
    refine Judges.of_bind hread (Judges.of_bind (gives_readWord hfragment) ?_)
    rw [getD_take (by decide), getD_take (by decide), take_drop_take (by decide),
      Frame.ipv4Packet?_of_le hcontent]
    dsimp only
    split
    case isTrue => exact judges_pass
    case isFalse =>
      -- A later fragment has no ports, so it cannot be on a failsafe port.
      by_cases hlater : isLaterFragment (word ((frame.drop offset).getD 6 0)
          ((frame.drop offset).getD (6 + 1) 0)) = true
      · rw [if_neg (by rw [hlater]; decide), if_pos hlater]
        exact judges_source filed hsource rfl (Failsafe.permits_of_withoutPorts rfl)
      · rw [if_pos (by rw [Bool.eq_false_iff.mpr hlater]; decide), if_neg hlater]
        exact judges_isFailsafe filed hsource rfl (congrArg (Transport.ofHeader _) List.drop_drop)
  · rw [if_neg h] at hread
    rw [Frame.ipv4Packet?_of_lt (by omega)]
    exact Judges.of_bind_none hread

theorem judges_judgeIpv6 (filed : ∀ p ∈ blocked.get .ipv6, p.family = .ipv6) (offset : Nat) :
    Judges blocked failsafe (judgeIpv6 (.ofSets blocked failsafe) offset) frame
      (Frame.ipv6Packet? (frame.drop offset)) := by
  have hread : Gives (read offset 40) frame _ := gives_read offset 40
  have hlength : (frame.drop offset).length = frame.length - offset := List.length_drop
  unfold judgeIpv6
  rw [Frame.ipv6Packet?_eq]
  by_cases h : offset + 40 ≤ frame.length
  · rw [if_pos h] at hread
    have hsource : (((frame.drop offset).drop 8).take 16).length = Family.ipv6.byteCount := by
      simp [Family.byteCount, Family.width]
      omega
    rw [if_neg (by omega)]
    refine Judges.of_bind hread ?_
    rw [getD_take (by decide), take_drop_take (by decide)]
    exact judges_isFailsafe filed hsource rfl (congrArg (Transport.ofHeader _) List.drop_drop)
  · rw [if_neg h] at hread
    rw [if_pos (by omega)]
    exact Judges.of_bind_none hread

/-- The program judges a frame as the packet is judged that it carries. -/
theorem judges_program (filed : ∀ f, ∀ p ∈ blocked.get f, p.family = f) (frame : Frame) :
    Judges blocked failsafe (program (.ofSets blocked failsafe)) frame frame.packet? := by
  unfold program Frame.packet? Frame.content?
  rcases hstart : frame.drop 12 with _ | ⟨high, _ | ⟨low, content⟩⟩
  case cons.cons =>
    have hcontent : frame.drop 14 = content := by
      rw [show 14 = 12 + 2 from rfl, ← List.drop_drop, hstart]
      rfl
    obtain ⟨result, hskip, huntagged⟩ := gives_skipTags frame 2 (word high low) 14
    rw [hcontent] at huntagged
    refine Judges.of_bind (gives_readWord hstart) ?_
    dsimp only
    rw [huntagged]
    -- The frame either ends inside a tag or has some content behind its tags.
    obtain _ | ⟨kind, offset⟩ := result
    · exact Judges.of_bind_none hskip
    · refine Judges.of_bind hskip ?_
      show Judges blocked failsafe _ frame
        (if kind = EtherType.ipv4 then Frame.ipv4Packet? (frame.drop offset)
          else if kind = EtherType.ipv6 then Frame.ipv6Packet? (frame.drop offset) else none)
      dsimp only
      split
      case isTrue => exact judges_judgeIpv4 (filed .ipv4) offset
      case isFalse =>
        split
        case isTrue => exact judges_judgeIpv6 (filed .ipv6) offset
        case isFalse => exact judges_pass
  -- The frame ends before its type.
  all_goals
    refine Judges.of_bind_none (gives_readWord_none ?_)
    rw [hstart]
    simp

/-! ## Agreement -/

/-- The modelled kernel with our program attached judges packets by its tables and its rules. -/
theorem evaluate_eq {m : Model} {name : String} (h : (m.interface name).carriesOurs = true)
    (p : Packet) :
    m.evaluate name p =
      judgePacket (.ofFn fun f => (m.table name f).getD ∅) m.failsafe p := by
  have hlookup : ((m.interface name).lookup p.source).isSome =
      (((m.table name p.source.family).getD ∅).lookup p.source).isSome := by
    rw [Bool.eq_iff_iff, InterfaceState.isSome_lookup, PrefixSet.isSome_lookup]
    rfl
  unfold Model.evaluate judgePacket
  dsimp only
  rw [h, hlookup, PerFamily.get_ofFn]
  rfl

/-- The program drops a frame if and only if the frame carries a packet that the modelled kernel
drops, with our program attached and the same tables and rules; and it does not read past the end
of the frame. -/
theorem verdict_agrees (m : Model) (name : String) (h : (m.interface name).carriesOurs = true)
    (frame : Frame) :
    let tables := FilterTables.ofSets (.ofFn fun f => (m.table name f).getD ∅) m.failsafe
    (verdict tables frame = .drop ↔
      ∃ p, frame.packet? = some p ∧ m.evaluate name p = .drop) ∧
    ∀ span ∈ (run tables frame).2, span.offset + span.size ≤ frame.length := by
  intro tables
  have filed : ∀ f, ∀ p ∈ (PerFamily.ofFn fun f => (m.table name f).getD ∅).get f,
      p.family = f := by
    intro f p hp
    rw [PerFamily.get_ofFn] at hp
    exact (InterfaceState.mem_getD_iff.mp hp).1
  have hjudges : Judges _ m.failsafe (program tables) frame frame.packet? :=
    judges_program filed frame
  obtain ⟨v, hgives, hverdict⟩ := hjudges
  obtain ⟨reads, hrun, hreads⟩ := hgives [] (by simp [InBounds])
  have hrun' : run tables frame = (v.getD .pass, reads) := by
    show ((((program tables frame).run []).1).getD .pass, ((program tables frame).run []).2) = _
    rw [hrun]
  refine ⟨?_, ?_⟩
  · rw [verdict, hrun', hverdict]
    cases frame.packet? with
    | none => simp
    | some p =>
      rw [Option.map_some, Option.getD_some, ← evaluate_eq h]
      simp
  · rw [hrun']
    exact hreads

/-- A fragment-free TCP packet without a transport header, from a blocked source. -/
theorem verdict_agrees_blocked :
    let m := ((Model.fresh ∅ none).attach "eth0").2.tamperInsert "eth0"
      (.host (.ofBytes .ipv4 [10, 0, 0, 1]))
    let frame : Frame := List.replicate 12 0 ++
      [0x08, 0x00, 0x45, 0, 0, 20, 0, 0, 0, 0, 64, 6, 0, 0, 10, 0, 0, 1, 10, 0, 0, 2]
    (m.interface "eth0").carriesOurs = true ∧
      ∃ p, frame.packet? = some p ∧ m.evaluate "eth0" p = .drop := by
  intro m frame
  have hours : (m.interface "eth0").carriesOurs = true := by decide +kernel
  refine ⟨hours, (verdict_agrees m "eth0" hours frame).1.mp ?_⟩
  decide +kernel

end FrameFilter

end IngressGuard
