import IngressGuard.Enforcer.Reporting
import IngressGuard.Proofs.Enforcer.Exclusion

/-!
# Generations that operators are told

The generation of an interface counts its cycles that have succeeded.  A query that can look counts
all that have ended.  One that cannot counts up to the cycle whose status was noted last
(`Reporting.Accounted`), and the status of a cycle that has outlasted its caller is never noted.  So
a generation that was told may be higher than one that is told later, and `Reporting.recedes_iff`
says when: exactly if a cycle that has succeeded is counted first and not later.
-/

namespace IngressGuard

open Kernel (Call Exchange)

namespace Enforcer

variable {e : Enforcer} {name : String}

/-- The generation in the status that was noted last. -/
def recorded (e : Enforcer) (interface : String) : Option Nat :=
  e.statuses[interface]?.map (·.generation)

theorem recorded_noteFailure (e : Enforcer) (name : String) (cause : SyncError) :
    (e.noteFailure name cause).recorded name = e.recorded name := by
  unfold noteFailure
  cases hstatus : e.statuses[name]? with
  | none => rfl
  | some status =>
    dsimp only
    rw [recorded, recorded, hstatus, NameMap.getElem?_insert_same]
    rfl

theorem recorded_abandon (e : Enforcer) (name : String) (mode : SyncMode) (wanted : DenyList)
    (rest : RunningCycle) : (e.abandon name mode wanted rest).2.recorded name = e.recorded name :=
  recorded_noteFailure (e.putSlot name (.running rest)) name _

theorem generation_of_running {rest : RunningCycle} (h : e.slots[name]? = some (.running rest)) :
    e.generation name = e.recorded name := by
  rw [generation, h]
  rfl

/-- Where another query is looking, the generation is the one that is recorded. -/
theorem generation_occupied {s : Slot} (h : e.slots[name]? = some s) :
    (e.occupied name).generation name = e.recorded name := by
  unfold occupied
  rw [h]
  cases s with
  | idle c => exact generation_of_running NameMap.getElem?_insert_same
  | running rest => exact generation_of_running h

/-- The generation that is told is the one in the status that is told; if none is, that says 0. -/
theorem getD_generation (e : Enforcer) (name : String) :
    (e.generation name).getD 0 = (e.statusOf name (e.slot name)).generation := by
  unfold generation slot
  cases e.slots[name]? with
  | none => rfl
  | some s =>
    cases s with
    | idle c => rfl
    | running rest =>
      dsimp only [statusOf, Option.getD_some]
      cases e.statuses[name]? <;> rfl

end Enforcer

/-! ## Syncs -/

namespace Overlap

variable {κ : Type} {answer : (c : Call) → κ → Option c.Answer × κ} {name : String}
  {o o' : Overlap κ}

/-- Cycles may have ended, and the same generation is recorded. -/
structure Extends (name : String) (o o' : Overlap κ) : Prop where
  ended : ∃ more, o'.ended = o.ended ++ more
  recorded : o'.enforcer.recorded name = o.enforcer.recorded name

theorem extends_of_eq (hended : o'.ended = o.ended)
    (hrecorded : o'.enforcer.recorded name = o.enforcer.recorded name) : Extends name o o' :=
  ⟨⟨[], by rw [hended, List.append_nil]⟩, hrecorded⟩

theorem Extends.refl (name : String) (o : Overlap κ) : Extends name o o := extends_of_eq rfl rfl

/-- Unless its caller waits for it to complete, a cycle that ends leaves what is recorded. -/
theorem extends_settle (name : String) (o : Overlap κ)
    {ending : Kernel.Ending Context (Except CycleError SyncReport × Context)}
    (h : ∀ s result, o.holder = some s → ending = .completed result →
      s.request.awaited = false) : Extends name o (o.settle name ending) := by
  unfold settle
  cases hholder : o.holder with
  | none => exact .refl name o
  | some s =>
    dsimp only
    cases ending with
    | completed result =>
      rw [if_neg (by simp [h s result hholder rfl])]
      exact ⟨⟨_, rfl⟩, rfl⟩
    | aborted after =>
      split
      · exact ⟨⟨_, rfl⟩, Enforcer.recorded_noteFailure ..⟩
      · exact ⟨⟨_, rfl⟩, rfl⟩

/-- The end of a cycle apart, a turn leaves what is recorded. -/
theorem extends_step (turn : Turn κ) (h : turn ≠ .finish) :
    Extends name o (o.step answer name turn) := by
  cases turn with
  | adopt policy => exact extends_of_eq rfl rfl
  | meanwhile kernel => exact extends_of_eq rfl rfl
  | finish => exact absurd rfl h
  | ask mode now observed =>
    show Extends name o (o.ask name mode now observed)
    unfold ask
    split
    · dsimp only
      split
      · exact extends_of_eq rfl rfl
      · unfold Enforcer.refuse
        cases o.enforcer.slot name <;> exact extends_of_eq rfl rfl
    · exact extends_of_eq rfl rfl
  | start index now observed =>
    show Extends name o (o.start name index now observed)
    unfold start
    split
    · exact .refl name o
    · dsimp only
      split
      · split <;> exact extends_of_eq rfl rfl
      · split <;> exact extends_of_eq rfl rfl
      · exact extends_of_eq rfl rfl
  | call =>
    show Extends name o (o.call answer name)
    unfold call
    cases o.enforcer.slot name with
    | idle c => exact .refl name o
    | running rest =>
      dsimp only
      cases rest.afterOpening with
      | done result => exact .refl name o
      | note entry next => exact .refl name o
      | call c state resume =>
        dsimp only
        cases answer c o.kernel with
        | mk b kernel =>
          cases b with
          | some a => exact extends_of_eq rfl rfl
          | none =>
            have hsettled : Extends name { o with kernel }
                (settle name (.aborted state) { o with kernel }) :=
              extends_settle name { o with kernel } fun _ _ _ h => by cases h
            exact ⟨hsettled.ended, hsettled.recorded⟩
  | giveUp =>
    show Extends name o (o.giveUp name)
    unfold giveUp
    split
    case h_1 s rest _ _ =>
      split
      · exact extends_of_eq rfl
          (Enforcer.recorded_abandon o.enforcer name s.request.mode s.request.wanted rest)
      · exact .refl name o
    case h_2 => exact .refl name o
  | giveUpEarly index =>
    show Extends name o (o.giveUpEarly name index)
    unfold giveUpEarly
    split
    · exact .refl name o
    · split
      · exact extends_of_eq rfl (Enforcer.recorded_noteFailure ..)
      · exact .refl name o

/-- Either there is no cycle to end, or the running one completes. -/
theorem finish_cases (name : String) (o : Overlap κ) :
    o.finish name = o ∨
      ∃ s result told, o.holder = some s ∧ o.finish name = o.settle name (.completed result) ∧
        (o.finish name).enforcer.slot name = .idle result.2 ∧
        (o.finish name).ended = o.ended ++ [⟨s, .completed result, told⟩] := by
  have hsettle : o.finish name = o ∨
      ∃ result, o.finish name = o.settle name (.completed result) := by
    unfold finish
    split
    · split
      · exact .inr ⟨_, rfl⟩
      · exact .inl rfl
    · exact .inl rfl
  rcases hsettle with hsame | ⟨result, hsettle⟩
  · exact .inl hsame
  rw [hsettle]
  cases hholder : o.holder with
  | none =>
    left
    unfold settle
    rw [hholder]
  | some s =>
    obtain ⟨told, hslot, -, hended⟩ := settle_spec name hholder (.completed result)
    exact .inr ⟨s, result, told, rfl, rfl, hslot, hended⟩

end Overlap

namespace Reporting

variable {κ : Type} {answer : (c : Call) → κ → Option c.Answer × κ} {name : String}
  {r : Reporting κ} {ended : List CycleEnd} {n g : Nat}

/-- If the status is noted at once, a cycle ends as it does among syncs. -/
theorem overlap_note_finish (name : String) (r : Reporting κ) :
    ((r.finish name).note name r.due.length).overlap = r.overlap.finish name := by
  have hdue : r.due[r.due.length]? = none := List.getElem?_eq_none (Nat.le_refl _)
  unfold Reporting.finish
  dsimp only
  rcases Overlap.finish_cases name r.overlap with
    hsame | ⟨s, ⟨result, after⟩, told, hholder, hsettle, -, hended⟩
  · rw [hsame, List.getElem?_eq_none (Nat.le_refl _)]
    unfold Reporting.note
    rw [hdue]
  have hlast : (r.overlap.finish name).ended[r.overlap.ended.length]? =
      some ⟨s, .completed (result, after), told⟩ := by
    rw [hended, List.getElem?_concat_length]
  rw [hlast]
  dsimp only
  split
  case isFalse =>
    unfold Reporting.note
    rw [hdue]
  case isTrue hawaited =>
    unfold Reporting.note
    rw [List.getElem?_concat_length, hsettle]
    unfold Overlap.settle
    rw [hholder]
    dsimp only
    rw [if_pos hawaited]
    rfl

/-! ## Counting -/

/-- How many of the first cycles have succeeded. -/
def successesUpTo (n : Nat) (ended : List CycleEnd) : Nat :=
  (ended.take n).countP (·.succeeded)

theorem successesUpTo_append (h : n ≤ ended.length) (more : List CycleEnd) :
    successesUpTo n (ended ++ more) = successesUpTo n ended := by
  rw [successesUpTo, successesUpTo, List.take_append_of_le_length h]

theorem successesUpTo_le (n : Nat) (ended : List CycleEnd) :
    successesUpTo n ended ≤ ended.countP (·.succeeded) :=
  (List.take_sublist n ended).countP_le

/-- Fewer successes are counted exactly if one is left out. -/
theorem successesUpTo_lt_iff (m n : Nat) (ended : List CycleEnd) :
    successesUpTo m ended < successesUpTo n ended ↔
      ∃ i x, ended[i]? = some x ∧ x.succeeded = true ∧ i < n ∧ m ≤ i := by
  rcases Nat.le_total n m with h | h
  · have hle : successesUpTo n ended ≤ successesUpTo m ended :=
      (List.take_sublist_take_left h).countP_le
    refine iff_of_false (Nat.not_lt.mpr hle) ?_
    rintro ⟨i, -, -, -, hn, hm⟩
    omega
  · have hsplit := List.take_append_drop m (ended.take n)
    rw [List.take_take, Nat.min_eq_left h] at hsplit
    have hsum : successesUpTo n ended =
        successesUpTo m ended + ((ended.take n).drop m).countP (·.succeeded) := by
      rw [successesUpTo, successesUpTo, ← List.countP_append, hsplit]
    rw [hsum, Nat.lt_add_right_iff_pos, List.countP_pos_iff]
    constructor
    · rintro ⟨x, hx, hsucceeded⟩
      obtain ⟨i, hi⟩ := List.mem_iff_getElem?.mp hx
      rw [List.getElem?_drop, List.getElem?_take] at hi
      split at hi
      case isTrue hlt => exact ⟨m + i, x, hi, hsucceeded, hlt, Nat.le_add_right m i⟩
      case isFalse => cases hi
    · rintro ⟨i, x, hi, hsucceeded, hn, hm⟩
      refine ⟨x, List.mem_iff_getElem?.mpr ⟨i - m, ?_⟩, hsucceeded⟩
      rw [List.getElem?_drop, Nat.add_sub_cancel' hm, List.getElem?_take, if_pos hn, hi]

/-- A generation that counts the cycles up to one whose caller still waited, or none. -/
inductive Tallies (ended : List CycleEnd) : Nat → Nat → Prop
  | none : Tallies ended 0 0
  | upTo {n : Nat} {x : CycleEnd} (last : ended[n]? = some x)
      (awaited : x.start.request.awaited = true) :
      Tallies ended (n + 1) (successesUpTo (n + 1) ended)

theorem Tallies.le (h : Tallies ended n g) : n ≤ ended.length := by
  cases h with
  | none => exact Nat.zero_le _
  | upTo last => exact (List.getElem?_eq_some_iff.mp last).1

theorem Tallies.eq (h : Tallies ended n g) : g = successesUpTo n ended := by
  cases h <;> rfl

theorem Tallies.last (h : Tallies ended (n + 1) g) :
    ∃ x, ended[n]? = some x ∧ x.start.request.awaited = true := by
  cases h with
  | upTo last awaited => exact ⟨_, last, awaited⟩

theorem Tallies.append (h : Tallies ended n g) (more : List CycleEnd) :
    Tallies (ended ++ more) n g := by
  cases h with
  | none => exact .none
  | @upTo n x last awaited =>
    have hlt : n < ended.length := (List.getElem?_eq_some_iff.mp last).1
    rw [← successesUpTo_append hlt more]
    exact .upTo (by rw [List.getElem?_append_left hlt, last]) awaited

/-- What is noted and what is still to be noted counts cycles. -/
structure Accounted (name : String) (r : Reporting κ) : Prop where
  sequential : ∃ said, r.overlap.Sequential name said
  recorded : Tallies r.overlap.ended r.noted ((r.overlap.enforcer.recorded name).getD 0)
  due : ∀ n status, (n, status) ∈ r.due → Tallies r.overlap.ended n status.generation

theorem accounted_fresh (policy : PolicySnapshot) (limit : Nat) (kernel : κ) :
    Accounted name (fresh policy limit kernel) := by
  have hrecorded : (Enforcer.fresh policy limit).recorded name = none := by
    simp [Enforcer.recorded, Enforcer.fresh]
  refine ⟨⟨[], Overlap.sequential_fresh policy limit kernel⟩, ?_, ?_⟩
  · show Tallies [] 0 (((Enforcer.fresh policy limit).recorded name).getD 0)
    rw [hrecorded]
    exact .none
  · rintro n status ⟨⟩

/-- What was counted before stays so. -/
theorem Accounted.extend (h : Accounted name r) {o : Overlap κ}
    (hextends : Overlap.Extends name r.overlap o) (hsequential : ∃ said, o.Sequential name said) :
    Accounted name { r with overlap := o } := by
  obtain ⟨more, hended⟩ := hextends.ended
  have hrecorded := h.recorded.append more
  rw [← hended, ← hextends.recorded] at hrecorded
  refine ⟨hsequential, hrecorded, fun n status hmem => ?_⟩
  have hdue := (h.due n status hmem).append more
  rwa [← hended] at hdue

/-! ## Turns -/

/-- The generation that a cycle leaves counts all that have ended with it. -/
theorem successes_of_idle {o : Overlap κ} {said : List Exchange} {c : Context}
    (h : o.Sequential name said) (hslot : o.enforcer.slot name = .idle c) :
    c.attempts.generation = successesUpTo o.ended.length o.ended := by
  obtain ⟨_, _, _, _, _, hheld⟩ := h
  rw [successesUpTo, List.take_length]
  cases hheld with
  | free slot _ generation =>
    rw [hslot] at slot
    cases slot
    exact generation
  | taken slot =>
    rw [hslot] at slot
    cases slot

theorem Accounted.note (h : Accounted name r) (index : Nat) :
    Accounted name (r.note name index) := by
  unfold Reporting.note
  split
  case h_1 => exact h
  case h_2 n status hdue =>
    refine ⟨?_, ?_, fun n status hmem => h.due n status (List.mem_of_mem_eraseIdx hmem)⟩
    · obtain ⟨said, hsequential⟩ := h.sequential
      exact ⟨said, hsequential.congr rfl rfl (.inl rfl)⟩
    · have hrecorded : (Enforcer.recorded { r.overlap.enforcer with
          statuses := r.overlap.enforcer.statuses.insert name status } name).getD 0 =
          status.generation := by
        rw [Enforcer.recorded, NameMap.getElem?_insert_same]
        rfl
      show Tallies r.overlap.ended n _
      rw [hrecorded]
      exact h.due n status (List.mem_of_getElem? hdue)

theorem Accounted.finish (h : Accounted name r) : Accounted name (r.finish name) := by
  obtain ⟨said, hsequential⟩ := h.sequential
  have hafter : (r.overlap.finish name).Sequential name said := hsequential.finish
  unfold Reporting.finish
  dsimp only
  rcases Overlap.finish_cases name r.overlap with
    hsame | ⟨s, result, told, hholder, hsettle, hslot, hended⟩
  · rw [hsame, List.getElem?_eq_none (Nat.le_refl _)]
    exact h
  have hlast : (r.overlap.finish name).ended[r.overlap.ended.length]? =
      some ⟨s, .completed result, told⟩ := by
    rw [hended, List.getElem?_concat_length]
  rw [hlast]
  dsimp only
  split
  case isFalse hforsaken =>
    refine h.extend ?_ ⟨said, hafter⟩
    rw [hsettle]
    refine Overlap.extends_settle name r.overlap fun s' _ hs' _ => ?_
    rw [hholder] at hs'
    cases hs'
    exact Bool.eq_false_iff.mpr hforsaken
  case isTrue hawaited =>
    refine ⟨⟨said, hafter.congr rfl rfl (.inl rfl)⟩, ?_, fun n status hmem => ?_⟩
    · have hrecorded := h.recorded.append [⟨s, .completed result, told⟩]
      rwa [← hended] at hrecorded
    · rcases List.mem_append.mp hmem with hmem | hmem
      · have hdue := (h.due n status hmem).append [⟨s, .completed result, told⟩]
        rwa [← hended] at hdue
      · cases List.mem_singleton.mp hmem
        have hlength : (r.overlap.finish name).ended.length = r.overlap.ended.length + 1 := by
          rw [hended, List.length_append]
          rfl
        have hgeneration : (result.2.status name).generation = successesUpTo _ _ :=
          successes_of_idle hafter hslot
        show Tallies (r.overlap.finish name).ended _ _
        rw [hgeneration, hlength]
        exact .upTo hlast hawaited

theorem Accounted.ask (h : Accounted name r) (mode : SyncMode) (now : Timestamp)
    (observed : Bool) :
    Accounted name (r.step answer name (.sync (.ask mode now observed))) := by
  let o := { r.overlap with enforcer := r.overlap.enforcer.meet name }
  have hmet : o.enforcer.slot name = r.overlap.enforcer.slot name := Enforcer.slot_putSlot_same
  obtain ⟨said, hsequential⟩ := h.sequential
  have hknown : o.Sequential name said := hsequential.congr rfl rfl (.inl hmet)
  have hextends : Overlap.Extends name o (o.step answer name (.ask mode now observed)) :=
    Overlap.extends_step _ nofun
  exact h.extend ⟨hextends.ended, hextends.recorded⟩ ⟨said, hknown.ask mode now observed⟩

theorem Accounted.step (h : Accounted name r) (turn : Turn κ) :
    Accounted name (r.step answer name turn) := by
  cases turn with
  | note index => exact h.note index
  | sync turn =>
    have hother : turn ≠ .finish →
        Accounted name { r with overlap := r.overlap.step answer name turn } := by
      intro hne
      obtain ⟨said, hsequential⟩ := h.sequential
      exact h.extend (Overlap.extends_step turn hne) ⟨_, hsequential.step turn⟩
    cases turn with
    | finish => exact h.finish
    | ask mode now observed => exact h.ask mode now observed
    | _ => exact hother nofun

theorem accounted_run (turns : List (Turn κ)) (h : Accounted name r) :
    Accounted name (r.run answer name turns) := by
  induction turns generalizing r with
  | nil => exact h
  | cons turn turns ih => exact ih (h.step turn)

/-! ## Answers -/

/-- How many of the cycles that have ended show in an answer. -/
def scope (interface : String) (hindered : Bool) (r : Reporting κ) : Nat :=
  match r.overlap.enforcer.slot interface, hindered with
  | .idle _, false => r.overlap.ended.length
  | _, _ => r.noted

/-- The generation that a query is told; where it is told none, none has counted. -/
def shown (interface : String) (hindered : Bool) (r : Reporting κ) : Nat :=
  ((r.seen interface hindered).generation interface).getD 0

theorem shown_eq_status (name : String) (hindered : Bool) (r : Reporting κ) :
    r.shown name hindered =
      ((r.seen name hindered).statusOf name ((r.seen name hindered).slot name)).generation :=
  Enforcer.getD_generation _ name

theorem Accounted.scope_le (h : Accounted name r) (hindered : Bool) :
    r.scope name hindered ≤ r.overlap.ended.length := by
  unfold scope
  split
  · exact Nat.le_refl _
  · exact h.recorded.le

theorem scope_hindered (name : String) (r : Reporting κ) : r.scope name true = r.noted := by
  unfold scope
  cases r.overlap.enforcer.slot name <;> rfl

theorem scope_of_idle {c : Context} (h : r.overlap.enforcer.slot name = .idle c) :
    r.scope name false = r.overlap.ended.length := by
  unfold scope
  rw [h]

theorem scope_of_running {rest : RunningCycle}
    (h : r.overlap.enforcer.slot name = .running rest) : r.scope name false = r.noted := by
  unfold scope
  rw [h]

/-- As long as an interface is not known, no cycle has counted. -/
theorem Accounted.successesUpTo_of_unknown (h : Accounted name r)
    (hunknown : r.overlap.enforcer.slots[name]? = none) (n : Nat) :
    successesUpTo n r.overlap.ended = 0 := by
  obtain ⟨said, hsequential⟩ := h.sequential
  have hslot : r.overlap.enforcer.slot name = .idle Context.fresh := by
    rw [Enforcer.slot, hunknown]
    rfl
  have hall : 0 = r.overlap.ended.countP (·.succeeded) := by
    have hidle := successes_of_idle hsequential hslot
    rwa [successesUpTo, List.take_length] at hidle
  have hle := successesUpTo_le n r.overlap.ended
  omega

/-- An answer counts the successes among the cycles that show in it. -/
theorem Accounted.shown_eq (h : Accounted name r) (hindered : Bool) :
    r.shown name hindered = successesUpTo (r.scope name hindered) r.overlap.ended := by
  unfold shown seen
  cases hslots : r.overlap.enforcer.slots[name]? with
  | none =>
    rw [h.successesUpTo_of_unknown hslots]
    cases hindered <;> simp [Enforcer.generation, Enforcer.occupied, hslots]
  | some s =>
    have hslot : r.overlap.enforcer.slot name = s := by
      rw [Enforcer.slot, hslots]
      rfl
    cases hindered with
    | true =>
      rw [if_pos rfl, Enforcer.generation_occupied hslots, h.recorded.eq, scope_hindered]
    | false =>
      rw [if_neg (by decide)]
      cases s with
      | idle c =>
        obtain ⟨said, hsequential⟩ := h.sequential
        rw [Enforcer.generation, hslots, scope_of_idle hslot,
          ← successes_of_idle hsequential hslot]
        rfl
      | running rest =>
        rw [Enforcer.generation_of_running hslots, h.recorded.eq, scope_of_running hslot]

/-- Whether or not its status is to be noted, a cycle ends as it does among syncs. -/
theorem ended_finish (name : String) (r : Reporting κ) :
    (r.finish name).overlap.ended = (r.overlap.finish name).ended := by
  unfold Reporting.finish
  dsimp only
  split
  · split <;> rfl
  · rfl

theorem exists_ended_step (turn : Turn κ) (r : Reporting κ) :
    ∃ more, (r.step answer name turn).overlap.ended = r.overlap.ended ++ more := by
  have hother : ∀ turn : Overlap.Turn κ, turn ≠ .finish →
      ∃ more, (r.overlap.step answer name turn).ended = r.overlap.ended ++ more :=
    fun turn hne => (Overlap.extends_step turn hne).ended
  cases turn with
  | note index =>
    show ∃ more, (r.note name index).overlap.ended = r.overlap.ended ++ more
    unfold Reporting.note
    split <;> exact ⟨[], (List.append_nil _).symm⟩
  | sync turn =>
    cases turn with
    | finish =>
      show ∃ more, (r.finish name).overlap.ended = r.overlap.ended ++ more
      rw [ended_finish]
      rcases Overlap.finish_cases name r.overlap with hsame | ⟨_, _, _, -, -, -, hended⟩
      · exact ⟨[], by rw [hsame, List.append_nil]⟩
      · exact ⟨_, hended⟩
    | ask mode now observed =>
      let o := { r.overlap with enforcer := r.overlap.enforcer.meet name }
      have hasked : Overlap.Extends name o (o.step answer name (.ask mode now observed)) :=
        Overlap.extends_step _ nofun
      exact hasked.ended
    | _ => exact hother _ nofun

theorem exists_ended_run (turns : List (Turn κ)) (r : Reporting κ) :
    ∃ more, (r.run answer name turns).overlap.ended = r.overlap.ended ++ more := by
  induction turns generalizing r with
  | nil => exact ⟨[], (List.append_nil _).symm⟩
  | cons turn turns ih =>
    obtain ⟨more, hstep⟩ : ∃ more, (r.step answer name turn).overlap.ended =
        r.overlap.ended ++ more := exists_ended_step turn r
    obtain ⟨rest, hrun⟩ := ih (r.step answer name turn)
    exact ⟨more ++ rest, by rw [← List.append_assoc, ← hstep, ← hrun]; rfl⟩

/-- Syncs, ends of cycles and queries of one interface may come in any order.  An answer about the
generation is the one in the status.  It counts the successes among the cycles that had ended, if
the query can look, and otherwise among those that had ended when the status noted last was taken,
at the end of a cycle whose caller still waited.  A later answer is lower exactly if some cycle that
has succeeded shows in the earlier one and not in the later.  So that of a query that can look never
is. -/
theorem recedes_iff (policy : PolicySnapshot) (limit : Nat) (kernel : κ)
    (turns later : List (Turn κ)) (hindered hindered' : Bool) :
    let r := (fresh policy limit kernel).run answer name turns
    let r' := r.run answer name later
    (∀ hindered, r'.shown name hindered =
        ((r'.seen name hindered).statusOf name ((r'.seen name hindered).slot name)).generation ∧
      r'.shown name hindered =
        (r'.overlap.ended.take (r'.scope name hindered)).countP (·.succeeded)) ∧
    (∀ n, r'.noted = n + 1 →
      ∃ x, r'.overlap.ended[n]? = some x ∧ x.start.request.awaited = true) ∧
    (r'.shown name hindered' < r.shown name hindered ↔
      ∃ i x, r.overlap.ended[i]? = some x ∧ x.succeeded = true ∧ i < r.scope name hindered ∧
        r'.scope name hindered' ≤ i) ∧
    (∀ c, r'.overlap.enforcer.slot name = .idle c →
      r.shown name hindered ≤ r'.shown name false) := by
  intro r r'
  have haccounted : Accounted name r := accounted_run turns (accounted_fresh policy limit kernel)
  have haccounted' : Accounted name r' := accounted_run later haccounted
  obtain ⟨more, hended⟩ : ∃ more, r'.overlap.ended = r.overlap.ended ++ more :=
    exists_ended_run later r
  have hscope := haccounted.scope_le hindered
  have hrecedes : ∀ hindered', r'.shown name hindered' < r.shown name hindered ↔
      ∃ i x, r.overlap.ended[i]? = some x ∧ x.succeeded = true ∧ i < r.scope name hindered ∧
        r'.scope name hindered' ≤ i := by
    intro hindered'
    have hearlier : r.shown name hindered =
        successesUpTo (r.scope name hindered) r'.overlap.ended := by
      rw [hended, successesUpTo_append hscope, haccounted.shown_eq]
    rw [hearlier, haccounted'.shown_eq, successesUpTo_lt_iff]
    refine exists_congr fun i => exists_congr fun x => and_congr_left ?_
    rintro ⟨-, hi, -⟩
    rw [hended, List.getElem?_append_left (Nat.lt_of_lt_of_le hi hscope)]
  refine ⟨fun hindered => ⟨shown_eq_status .., haccounted'.shown_eq hindered⟩, ?_,
    hrecedes hindered', ?_⟩
  · intro n hn
    have hrecorded := haccounted'.recorded
    rw [hn] at hrecorded
    exact hrecorded.last
  · intro c hslot
    refine Nat.not_lt.mp fun hlt => ?_
    obtain ⟨i, x, hi, -, -, hle⟩ := (hrecedes false).mp hlt
    have hshort : i < r.overlap.ended.length := (List.getElem?_eq_some_iff.mp hi).1
    rw [scope_of_idle hslot, hended, List.length_append] at hle
    omega

/-! ## A generation that goes back -/

/-- A cycle runs to its end: so many calls are enough. -/
def wholeCycle : List (Turn Host) := List.replicate 40 (.sync .call) ++ [.sync .finish]

/-- A cycle ends in time, and its status is noted.  The next one outlasts its caller. -/
def timelyThenLate : List (Turn Host) :=
  [.sync (.ask .event ⟨0, 0⟩ false), .sync (.start 0 ⟨0, 0⟩ false)] ++ wholeCycle ++
    [.note 0, .sync (.ask .resync ⟨1, 0⟩ false), .sync (.start 0 ⟨1, 0⟩ false), .sync .giveUp] ++
    wholeCycle

/-- A third cycle starts. -/
def thirdStart : List (Turn Host) :=
  [.sync (.ask .resync ⟨2, 0⟩ false), .sync (.start 0 ⟨2, 0⟩ false)]

/-- The syncs when the late cycle has ended. -/
def afterLate : Reporting Host :=
  (fresh Tick.oneRule.policy 30 Tick.leftTable).run (Host.answer "eth0") "eth0" timelyThenLate

/-- The syncs when the third cycle has started. -/
def duringThird : Reporting Host := afterLate.run (Host.answer "eth0") "eth0" thirdStart

/-- The generation goes back, because the late cycle does not show while the third one runs. -/
theorem recedes_iff_duringThird :
    duringThird.shown "eth0" false < afterLate.shown "eth0" false ∧
      ∃ i x, afterLate.overlap.ended[i]? = some x ∧ x.succeeded = true ∧
        i < afterLate.scope "eth0" false ∧ duringThird.scope "eth0" false ≤ i := by
  have hlt : duringThird.shown "eth0" false < afterLate.shown "eth0" false := by decide +kernel
  have hall := @recedes_iff Host (Host.answer "eth0") "eth0" Tick.oneRule.policy 30
    Tick.leftTable timelyThenLate thirdStart false false
  dsimp only at hall
  rw [← afterLate, ← duringThird] at hall
  exact ⟨hlt, hall.2.2.1.mp hlt⟩

/-- A generation that was told may be followed by a lower one, and so may the one in a status. -/
theorem not_every_answer_advances :
    (¬∀ (name : String) (policy : PolicySnapshot) (limit : Nat) (kernel : Host)
      (turns later : List (Turn Host)),
      let r := (fresh policy limit kernel).run (Host.answer name) name turns
      let r' := r.run (Host.answer name) name later
      ∀ g g', r.overlap.enforcer.generation name = some g →
        r'.overlap.enforcer.generation name = some g' → g ≤ g') ∧
    ¬∀ (name : String) (policy : PolicySnapshot) (limit : Nat) (kernel : Host)
      (turns later : List (Turn Host)),
      let r := (fresh policy limit kernel).run (Host.answer name) name turns
      let r' := r.run (Host.answer name) name later
      let status := fun e : Enforcer => e.statusOf name (e.slot name)
      (status r.overlap.enforcer).generation ≤ (status r'.overlap.enforcer).generation := by
  have hearlier : afterLate.overlap.enforcer.generation "eth0" = some 2 := by decide +kernel
  have hlater : duringThird.overlap.enforcer.generation "eth0" = some 1 := by decide +kernel
  constructor
  · intro hadvances
    have hle := hadvances "eth0" Tick.oneRule.policy 30 Tick.leftTable timelyThenLate thirdStart
    dsimp only at hle
    rw [← afterLate, ← duringThird] at hle
    exact absurd (hle 2 1 hearlier hlater) (by decide)
  · intro hadvances
    have hle := hadvances "eth0" Tick.oneRule.policy 30 Tick.leftTable timelyThenLate thirdStart
    dsimp only at hle
    rw [← afterLate, ← duringThird, ← Enforcer.getD_generation, ← Enforcer.getD_generation,
      hearlier, hlater] at hle
    exact absurd hle (by decide)

end Reporting

end IngressGuard
