import IngressGuard.Enforcer.Overlap
import IngressGuard.Proofs.Enforcer.Convergence
import IngressGuard.Proofs.Enforcer.Session
import IngressGuard.Proofs.Kernel.Transcript

/-!
# One cycle at a time

Syncs of one interface may overlap in any way, and a cycle whose caller has lost patience goes on
for as long as it takes.  Still the kernel never sees two cycles of the interface interleaved: what
is called is the transcript of one cycle after another, and of the one that is running as far as it
has come (`Overlap.one_at_a_time`).  A sync that comes between changes nothing but that its caller
is told so.  And when no cycle is running, the generation counts the cycles that have succeeded,
whatever their callers were told.

The calls are any calls, and they may be answered in any way or bring the cycle down, so this
rests only on what is held for the interface: a context, or what is left of the one cycle that has
taken it (`Overlap.Held`).
-/

namespace IngressGuard

open Kernel (Call Exchange Procedure Work)

namespace Context

variable {name : String} {wanted : DenyList} {mode : SyncMode} {now : Timestamp} {c : Context}

theorem retains_applyAndBind :
    Work.Retains (·.attempts.generation) (applyAndBind name wanted mode) := by
  have hhook : ∀ {α : Type} (w : Hook.HookWork α),
      Work.Retains (·.attempts.generation) (onHook w) := fun w => Work.retains_focus fun _ _ => rfl
  have htables : Work.Retains (·.attempts.generation)
      (onTables (BlockTables.apply name wanted mode.baseline)) :=
    Work.retains_focus fun _ _ => rfl
  refine (hhook _).bind fun _ => ?_
  split
  · exact (hhook _).bind fun _ => htables.bind fun _ => Work.retains_pure _
  · exact (hhook _).bind fun _ => htables.bind fun _ => (hhook _).bind fun _ => Work.retains_pure _

/-- A cycle counts if it succeeds, and not otherwise. -/
theorem guards_generation (past : List Exchange) :
    (c.cycle name wanted mode now).Guards (fun _ => True)
      (fun c' _ => c'.attempts.generation = c.attempts.generation)
      (fun r _ => r.2.attempts.generation =
        c.attempts.generation + if r.1.isOk then 1 else 0) past := by
  refine Procedure.guards_bind.mpr (Procedure.Guards.mono
    (retains_applyAndBind (c.beginAttempt now) past) ?_ ?_)
  · exact fun c' _ hkept => hkept
  · rintro ⟨e | ⟨report, events⟩, c'⟩ past' hkept
    · exact hkept
    · exact ⟨trivial, congrArg (· + 1) hkept⟩

end Context

/-! ## Cycles that have ended -/

namespace CycleEnd

variable {name : String} {x : CycleEnd}

/-- Whether a cycle has succeeded. -/
def succeeded (x : CycleEnd) : Bool :=
  match x.ending with
  | .completed (result, _) => result.isOk
  | .aborted _ => false

/-- A transcript is the whole of a cycle, from its start to its end. -/
def Whole (name : String) (x : CycleEnd) (trace : List Exchange) : Prop :=
  ∃ log, (x.start.cycle name).Runs x.ending trace log

/-- A caller was told how the cycle has ended, or that it has taken too long. -/
def Reported (name : String) (patience : Nat) (x : CycleEnd) : Prop :=
  match x.ending with
  | .completed (result, _) =>
    x.told.result = result.mapError .cycle ∨ x.told.result = .error (.timeout name patience)
  | .aborted _ =>
    x.told.result = .error (.task crashText) ∨ x.told.result = .error (.timeout name patience)

theorem Whole.generation {trace : List Exchange} (h : x.Whole name trace) :
    x.ending.state.attempts.generation =
      x.start.before.attempts.generation + if x.succeeded then 1 else 0 := by
  obtain ⟨log, hrun⟩ := h
  have hmeets := (Procedure.Guards.runs (Context.guards_generation []) hrun).1
  unfold succeeded
  cases hending : x.ending with
  | completed r =>
    rw [hending] at hmeets
    exact hmeets
  | aborted after =>
    rw [hending] at hmeets
    exact hmeets

end CycleEnd

/-! ## What is held for the interface -/

namespace Overlap

variable {κ : Type} {answer : (c : Call) → κ → Option c.Answer × κ} {name : String}
  {o o' : Overlap κ} {said : List Exchange}

/-- How many cycles have succeeded. -/
def successes (o : Overlap κ) : Nat := o.ended.countP (·.succeeded)

/-- Either no cycle is running, or one has come as far as it has said.  What is remembered counts
the successes before. -/
inductive Held (name : String) (o : Overlap κ) : List Exchange → Prop
  | free {c : Context} (slot : o.enforcer.slot name = .idle c) (holder : o.holder = none)
      (generation : c.attempts.generation = o.successes) : Held name o []
  | taken {s : CycleStart} {rest : RunningCycle} {said : List Exchange}
      (slot : o.enforcer.slot name = .running rest) (holder : o.holder = some s)
      (comes : (s.cycle name).ComesTo said rest)
      (generation : s.before.attempts.generation = o.successes) : Held name o said

/-- Who no longer waits was told that it took too long, and the callers of cycles that have ended
were told that, or how theirs has ended. -/
structure Informed (name : String) (limit : Nat) (o : Overlap κ) : Prop where
  patience : o.enforcer.patience = limit
  pending : ∀ r ∈ o.pending, r.awaited = false → r.timeout name o.enforcer ∈ o.told
  holder : ∀ s, o.holder = some s → s.request.awaited = false →
    s.request.timeout name o.enforcer ∈ o.told
  ended : ∀ x ∈ o.ended, x.told ∈ o.told ∧ x.Reported name limit

/-- The calls of the interface so far are those of one cycle after another. -/
def Sequential (name : String) (o : Overlap κ) (said : List Exchange) : Prop :=
  ∃ (pieces : List (CycleEnd × List Exchange)) (current : List Exchange),
    pieces.map (·.1) = o.ended ∧ (∀ x trace, (x, trace) ∈ pieces → x.Whole name trace) ∧
      said = pieces.flatMap (·.2) ++ current ∧ Held name o current

/-- What is held for the interface is as it was, or no cycle is running and the same cycles are
counted. -/
theorem Held.congr (h : Held name o said) (hholder : o'.holder = o.holder)
    (hended : o'.ended = o.ended)
    (hslot : o'.enforcer.slot name = o.enforcer.slot name ∨
      ∃ c c', o.enforcer.slot name = .idle c ∧ o'.enforcer.slot name = .idle c' ∧
        c'.attempts.generation = c.attempts.generation) : Held name o' said := by
  have hsuccesses : o'.successes = o.successes := congrArg (List.countP _) hended
  cases h with
  | free slot holder generation =>
    rcases hslot with hslot | ⟨c, c', hc, hc', hgeneration⟩
    · exact .free (hslot.trans slot) (hholder.trans holder) (generation.trans hsuccesses.symm)
    · rw [slot] at hc
      cases hc
      refine .free hc' (hholder.trans holder) ?_
      rw [hgeneration, generation, hsuccesses]
  | taken slot holder comes generation =>
    rcases hslot with hslot | ⟨c, c', hc, -⟩
    · exact .taken (hslot.trans slot) (hholder.trans holder) comes
        (generation.trans hsuccesses.symm)
    · rw [slot] at hc
      cases hc

theorem Sequential.congr (h : Sequential name o said) (hholder : o'.holder = o.holder)
    (hended : o'.ended = o.ended)
    (hslot : o'.enforcer.slot name = o.enforcer.slot name ∨
      ∃ c c', o.enforcer.slot name = .idle c ∧ o'.enforcer.slot name = .idle c' ∧
        c'.attempts.generation = c.attempts.generation) : Sequential name o' said := by
  obtain ⟨pieces, current, hpieces, hwhole, hsaid, hheld⟩ := h
  exact ⟨pieces, current, hpieces.trans hended.symm, hwhole, hsaid,
    hheld.congr hholder hended hslot⟩

/-! ## Turns -/

/-- A cycle that ends leaves what it remembers, and is counted if it has succeeded. -/
theorem settle_spec (name : String) {s : CycleStart} (hholder : o.holder = some s)
    (ending : Kernel.Ending Context (Except CycleError SyncReport × Context)) :
    ∃ told, (o.settle name ending).enforcer.slot name = .idle ending.state ∧
      (o.settle name ending).holder = none ∧
      (o.settle name ending).ended = o.ended ++ [⟨s, ending, told⟩] := by
  unfold settle
  rw [hholder]
  dsimp only
  split
  · refine ⟨_, ?_, rfl, rfl⟩
    cases ending with
    | completed r => exact Enforcer.slot_putSlot_same
    | aborted after =>
      exact Enforcer.slot_noteFailure.trans Enforcer.slot_putSlot_same
  · cases ending with
    | completed r => exact ⟨_, Enforcer.slot_putSlot_same, rfl, rfl⟩
    | aborted after => exact ⟨_, Enforcer.slot_putSlot_same, rfl, rfl⟩

/-- When a cycle ends, what was called for it is the whole of it. -/
theorem Sequential.settle {pieces : List (CycleEnd × List Exchange)} {s : CycleStart}
    {current more : List Exchange} {rest : RunningCycle} {log : Log.Entries}
    {ending : Kernel.Ending Context (Except CycleError SyncReport × Context)}
    (hpieces : pieces.map (·.1) = o.ended)
    (hwhole : ∀ x trace, (x, trace) ∈ pieces → x.Whole name trace)
    (hholder : o.holder = some s) (comes : (s.cycle name).ComesTo current rest)
    (hgeneration : s.before.attempts.generation = o.successes)
    (hrun : rest.Runs ending more log) :
    Sequential name (o.settle name ending) (pieces.flatMap (·.2) ++ (current ++ more)) := by
  obtain ⟨told, hslot, hfree, hended⟩ := settle_spec name hholder ending
  have hlast : (⟨s, ending, told⟩ : CycleEnd).Whole name (current ++ more) := comes.runs hrun
  refine ⟨pieces ++ [(⟨s, ending, told⟩, current ++ more)], [], ?_, ?_, ?_, .free hslot hfree ?_⟩
  · rw [hended, List.map_append, hpieces]
    rfl
  · intro x trace hx
    rcases List.mem_append.mp hx with hx | hx
    · exact hwhole x trace hx
    · cases List.mem_singleton.mp hx
      exact hlast
  · simp
  · rw [hlast.generation, hgeneration, successes, successes, hended, List.countP_append,
      List.countP_singleton]

theorem Sequential.start (h : Sequential name o said) (index : Nat) (now : Timestamp)
    (observed : Bool) : Sequential name (o.start name index now observed) said := by
  unfold Overlap.start
  split
  case h_1 => exact h
  case h_2 r hr =>
    dsimp only
    split
    · split
      · exact h.congr rfl rfl (.inl rfl)
      · exact h.congr rfl rfl (.inl rfl)
    · split
      · exact h.congr rfl rfl (.inl rfl)
      · exact h.congr rfl rfl (.inl rfl)
    · -- The cycle starts.
      rename_i before hslot
      obtain ⟨pieces, current, hpieces, hwhole, hsaid, hheld⟩ := h
      cases hheld with
      | taken slot => rw [hslot] at slot; cases slot
      | free slot holder generation =>
        rw [hslot] at slot
        cases slot
        refine ⟨pieces, [], hpieces, hwhole, hsaid, ?_⟩
        exact .taken Enforcer.slot_putSlot_same rfl (.opened .start) generation

theorem Sequential.ask (h : Sequential name o said) (mode : SyncMode) (now : Timestamp)
    (observed : Bool) : Sequential name (o.ask name mode now observed) said := by
  unfold Overlap.ask
  split
  case h_1 cause _ =>
    refine h.congr rfl rfl ?_
    dsimp only
    split
    · exact .inl rfl
    · unfold Enforcer.refuse
      cases hslot : o.enforcer.slot name with
      | idle c => exact .inr ⟨c, _, rfl, Enforcer.slot_putSlot_same, rfl⟩
      | running rest => exact .inl hslot
  case h_2 => exact h.congr rfl rfl (.inl rfl)

theorem Sequential.giveUp (h : Sequential name o said) :
    Sequential name (o.giveUp name) said := by
  unfold Overlap.giveUp
  split
  case h_2 => exact h
  case h_1 s rest hholder hslot =>
    split
    case isFalse => exact h
    case isTrue =>
      obtain ⟨pieces, current, hpieces, hwhole, hsaid, hheld⟩ := h
      refine ⟨pieces, current, hpieces, hwhole, hsaid, ?_⟩
      cases hheld with
      | free slot => rw [hslot] at slot; cases slot
      | taken slot holder comes generation =>
        rw [hholder] at holder
        cases holder
        rw [hslot] at slot
        cases slot
        have hkept : (o.enforcer.abandon name s.request.mode s.request.wanted rest).2.slot name =
            .running rest :=
          Enforcer.slot_noteFailure.trans Enforcer.slot_putSlot_same
        exact .taken (s := { s with request := s.request.forsake }) hkept rfl comes generation

theorem Sequential.giveUpEarly (h : Sequential name o said) (index : Nat) :
    Sequential name (o.giveUpEarly name index) said := by
  unfold Overlap.giveUpEarly
  split
  · exact h
  · split
    · exact h.congr rfl rfl (.inl Enforcer.slot_noteFailure)
    · exact h

/-- What a turn has the kernel hear. -/
def heard (answer : (c : Call) → κ → Option c.Answer × κ) (name : String) (o : Overlap κ) :
    Turn κ → List Exchange
  | .call =>
    match o.enforcer.slot name with
    | .running rest =>
      match rest.afterOpening with
      | .call c _ _ => [⟨c, (answer c o.kernel).1⟩]
      | _ => []
    | .idle _ => []
  | _ => []

theorem Sequential.call (h : Sequential name o said) :
    Sequential name (o.call answer name) (said ++ o.heard answer name .call) := by
  obtain ⟨pieces, current, hpieces, hwhole, rfl, hheld⟩ := h
  cases hheld with
  | free slot holder generation =>
    simp only [Overlap.call, heard, slot, List.append_nil]
    exact ⟨pieces, [], hpieces, hwhole, by simp, .free slot holder generation⟩
  | @taken s rest _ slot holder comes generation =>
    simp only [Overlap.call, heard, slot]
    have hstays : Sequential name o (pieces.flatMap (·.2) ++ current ++ []) := by
      rw [List.append_nil]
      exact ⟨pieces, current, hpieces, hwhole, rfl, .taken slot holder comes generation⟩
    cases hrest : Procedure.afterOpening rest with
    | done r => exact hstays
    | note entry p => exact hstays
    | call c state resume =>
      dsimp only
      rw [List.append_assoc]
      cases hanswer : answer c o.kernel with
      | mk b kernel =>
        cases b with
        | none =>
          have hrun : (rest.afterOpening).Runs (.aborted state) [⟨c, none⟩] [] := by
            rw [hrest]
            exact .broughtDown
          exact Sequential.settle (o := { o with kernel }) hpieces hwhole holder (.opened comes)
            generation hrun
        | some b =>
          refine ⟨pieces, current ++ [⟨c, some b⟩], hpieces, hwhole, rfl, ?_⟩
          exact .taken Enforcer.slot_putSlot_same holder (comes.answered hrest b) generation

theorem Sequential.finish (h : Sequential name o said) :
    Sequential name (o.finish name) said := by
  obtain ⟨pieces, current, hpieces, hwhole, rfl, hheld⟩ := h
  have hstays : Sequential name o (pieces.flatMap (·.2) ++ current) :=
    ⟨pieces, current, hpieces, hwhole, rfl, hheld⟩
  cases hheld with
  | free slot =>
    simp only [Overlap.finish, slot]
    exact hstays
  | @taken s rest _ slot holder comes generation =>
    simp only [Overlap.finish, slot]
    cases hrest : Procedure.afterOpening rest with
    | call c state resume => exact hstays
    | note entry p => exact hstays
    | done r =>
      have hrun : (rest.afterOpening).Runs (.completed r) [] [] := by
        rw [hrest]
        exact .done r
      have hend := Sequential.settle hpieces hwhole holder (.opened comes) generation hrun
      rwa [List.append_nil] at hend

theorem Sequential.step (h : Sequential name o said) (turn : Turn κ) :
    Sequential name (o.step answer name turn) (said ++ o.heard answer name turn) := by
  have hquiet : ∀ {o' : Overlap κ} {more : List Exchange}, more = [] →
      Sequential name o' said → Sequential name o' (said ++ more) := by
    rintro o' _ rfl h'
    rwa [List.append_nil]
  cases turn with
  | call => exact h.call
  | adopt policy => exact hquiet rfl (h.congr rfl rfl (.inl rfl))
  | meanwhile kernel => exact hquiet rfl (h.congr rfl rfl (.inl rfl))
  | ask mode now observed => exact hquiet rfl (h.ask mode now observed)
  | start index now observed => exact hquiet rfl (h.start index now observed)
  | finish => exact hquiet rfl h.finish
  | giveUp => exact hquiet rfl h.giveUp
  | giveUpEarly index => exact hquiet rfl (h.giveUpEarly index)

/-! ## What callers are told -/

variable {limit : Nat}

@[simp] theorem patience_noteFailure (e : Enforcer) (cause : SyncError) :
    (e.noteFailure name cause).patience = e.patience := by
  unfold Enforcer.noteFailure
  split <;> rfl

@[simp] theorem patience_refuse (e : Enforcer) (mode : SyncMode) (cause : TranslateError)
    (now : Timestamp) : (e.refuse name mode cause now).2.patience = e.patience := by
  unfold Enforcer.refuse
  dsimp only
  split <;> rfl

@[simp] theorem patience_settle (e : Enforcer) (mode : SyncMode) (wanted : DenyList)
    (before : Context) (ending : Kernel.Ending Context (Except CycleError SyncReport × Context)) :
    (e.settle name mode wanted before ending).2.patience = e.patience := by
  cases ending with
  | completed r => rfl
  | aborted after => exact patience_noteFailure ..

theorem timeout_congr {e e' : Enforcer} (h : e'.patience = e.patience) (r : SyncRequest) :
    r.timeout name e' = r.timeout name e := by
  rw [SyncRequest.timeout, h, SyncRequest.timeout]

/-- Who was informed stays informed, as long as no other outcomes are owed. -/
theorem Informed.congr (h : Informed name limit o)
    (hpatience : o'.enforcer.patience = o.enforcer.patience)
    (htold : ∀ outcome ∈ o.told, outcome ∈ o'.told) (hended : o'.ended = o.ended)
    (hpending : ∀ r ∈ o'.pending, r.awaited = false →
      r ∈ o.pending ∨ r.timeout name o.enforcer ∈ o'.told)
    (hholder : ∀ s, o'.holder = some s → s.request.awaited = false →
      o.holder = some s ∨ s.request.timeout name o.enforcer ∈ o'.told) :
    Informed name limit o' where
  patience := hpatience.trans h.patience
  pending r hr hawaited := by
    rw [timeout_congr hpatience]
    rcases hpending r hr hawaited with hr | htimeout
    · exact htold _ (h.pending r hr hawaited)
    · exact htimeout
  holder s hs hawaited := by
    rw [timeout_congr hpatience]
    rcases hholder s hs hawaited with hs | htimeout
    · exact htold _ (h.holder s hs hawaited)
    · exact htimeout
  ended x hx := by
    rw [hended] at hx
    exact ⟨htold _ (h.ended x hx).1, (h.ended x hx).2⟩

theorem Informed.settle (h : Informed name limit o)
    (ending : Kernel.Ending Context (Except CycleError SyncReport × Context)) :
    Informed name limit (o.settle name ending) := by
  unfold Overlap.settle
  split
  case h_1 => exact h
  case h_2 s hs =>
    dsimp only
    split
    case isTrue =>
      have hpatience : (o.enforcer.settle name s.request.mode s.request.wanted s.before
          ending).2.patience = o.enforcer.patience := patience_settle ..
      have hreported : ∀ told, told = (o.enforcer.settle name s.request.mode s.request.wanted
          s.before ending).1 → CycleEnd.Reported name limit ⟨s, ending, told⟩ := by
        rintro _ rfl
        cases ending <;> exact .inl rfl
      generalize o.enforcer.settle name s.request.mode s.request.wanted s.before ending = settled
        at hpatience hreported
      refine ⟨hpatience.trans h.patience, fun r hr hawaited => ?_, ?_, fun x hx => ?_⟩
      · rw [timeout_congr hpatience]
        exact List.mem_append_left _ (h.pending r hr hawaited)
      · rintro s' ⟨⟩
      · rcases List.mem_append.mp hx with hx | hx
        · exact ⟨List.mem_append_left _ (h.ended x hx).1, (h.ended x hx).2⟩
        · cases List.mem_singleton.mp hx
          exact ⟨List.mem_append_right _ (List.mem_singleton.mpr rfl), hreported _ rfl⟩
    case isFalse hforsaken =>
      have hreported : ∀ x ∈ o.ended ++ [⟨s, ending, s.request.timeout name o.enforcer⟩],
          x.told ∈ o.told ∧ x.Reported name limit := by
        intro x hx
        rcases List.mem_append.mp hx with hx | hx
        · exact h.ended x hx
        · cases List.mem_singleton.mp hx
          refine ⟨h.holder s hs (Bool.eq_false_iff.mpr hforsaken), ?_⟩
          have htold : (s.request.timeout name o.enforcer).result =
              .error (.timeout name limit) := by rw [SyncRequest.timeout, h.patience]
          cases ending <;> exact .inr htold
      cases ending <;> refine ⟨h.patience, h.pending, ?_, hreported⟩ <;> rintro s' ⟨⟩

theorem Informed.ask (h : Informed name limit o) (mode : SyncMode) (now : Timestamp)
    (observed : Bool) : Informed name limit (o.ask name mode now observed) := by
  unfold Overlap.ask
  split
  case h_1 cause _ =>
    refine h.congr ?_ (fun _ => List.mem_append_left _) rfl (fun r hr _ => .inl hr)
      fun s hs _ => .inl hs
    dsimp only
    split
    · rfl
    · exact patience_refuse ..
  case h_2 wanted _ =>
    refine h.congr rfl (fun _ htold => htold) rfl (fun r hr hawaited => .inl ?_)
      fun s hs _ => .inl hs
    rcases List.mem_append.mp hr with hr | hr
    · exact hr
    · cases List.mem_singleton.mp hr
      cases hawaited

theorem Informed.start (h : Informed name limit o) (index : Nat) (now : Timestamp)
    (observed : Bool) : Informed name limit (o.start name index now observed) := by
  unfold Overlap.start
  split
  case h_1 => exact h
  case h_2 r hr =>
    have hrest : ∀ r' ∈ o.pending.eraseIdx index, r' ∈ o.pending :=
      fun r' => List.mem_of_mem_eraseIdx
    have hturnedAway : Informed name limit
        (if r.awaited then
          { o with pending := o.pending.eraseIdx index, told := o.told ++ [r.busy name] }
        else { o with pending := o.pending.eraseIdx index }) := by
      split
      · exact h.congr rfl (fun _ => List.mem_append_left _) rfl (fun r' hr' _ => .inl (hrest r' hr'))
          fun s hs _ => .inl hs
      · exact h.congr rfl (fun _ htold => htold) rfl (fun r' hr' _ => .inl (hrest r' hr'))
          fun s hs _ => .inl hs
    dsimp only
    split
    · exact hturnedAway
    · exact hturnedAway
    · refine h.congr rfl (fun _ htold => htold) rfl (fun r' hr' _ => .inl (hrest r' hr')) ?_
      -- Whether its caller still waits is as it was before the start.
      rintro s hs hawaited
      cases hs
      exact .inr (h.pending r (List.mem_of_getElem? hr) hawaited)

theorem Informed.giveUp (h : Informed name limit o) : Informed name limit (o.giveUp name) := by
  unfold Overlap.giveUp
  split
  case h_2 => exact h
  case h_1 s rest hs hslot =>
    split
    case isFalse => exact h
    case isTrue =>
      refine h.congr (patience_noteFailure ..) (fun _ => List.mem_append_left _) rfl
        (fun r hr _ => .inl hr) ?_
      rintro s' hs' -
      cases hs'
      exact .inr (List.mem_append_right _ (List.mem_singleton.mpr rfl))

theorem Informed.giveUpEarly (h : Informed name limit o) (index : Nat) :
    Informed name limit (o.giveUpEarly name index) := by
  unfold Overlap.giveUpEarly
  split
  case h_1 => exact h
  case h_2 r hr =>
    split
    case isFalse => exact h
    case isTrue =>
      refine h.congr (patience_noteFailure ..) (fun _ => List.mem_append_left _) rfl ?_
        fun s hs _ => .inl hs
      intro r' hr' hawaited
      rcases List.mem_or_eq_of_mem_set hr' with hr' | rfl
      · exact .inl hr'
      · exact .inr (List.mem_append_right _ (List.mem_singleton.mpr rfl))

theorem Informed.call (h : Informed name limit o) : Informed name limit (o.call answer name) := by
  unfold Overlap.call
  split
  case h_2 => exact h
  case h_1 rest hslot =>
    split
    case h_2 => exact h
    case h_1 c state resume hrest =>
      split
      · exact h.congr rfl (fun _ htold => htold) rfl (fun r hr _ => .inl hr) fun s hs _ => .inl hs
      · rename_i kernel _
        have hkernel : Informed name limit { o with kernel } :=
          ⟨h.patience, h.pending, h.holder, h.ended⟩
        exact hkernel.settle _

theorem Informed.step (h : Informed name limit o) (turn : Turn κ) :
    Informed name limit (o.step answer name turn) := by
  cases turn with
  | adopt policy => exact ⟨h.patience, h.pending, h.holder, h.ended⟩
  | meanwhile kernel => exact ⟨h.patience, h.pending, h.holder, h.ended⟩
  | ask mode now observed => exact h.ask mode now observed
  | start index now observed => exact h.start index now observed
  | call => exact h.call
  | giveUp => exact h.giveUp
  | giveUpEarly index => exact h.giveUpEarly index
  | finish =>
    show Informed name limit (o.finish name)
    unfold Overlap.finish
    split
    case h_2 => exact h
    case h_1 =>
      split
      · exact h.settle _
      · exact h

/-! ## Schedules -/

/-- What the kernel hears of the interface along a schedule. -/
def transcript (answer : (c : Call) → κ → Option c.Answer × κ) (name : String) :
    Overlap κ → List (Turn κ) → List Exchange
  | _, [] => []
  | o, turn :: turns =>
    o.heard answer name turn ++ transcript answer name (o.step answer name turn) turns

theorem sequential_run (turns : List (Turn κ)) (h : Sequential name o said) :
    Sequential name (o.run answer name turns) (said ++ o.transcript answer name turns) := by
  induction turns generalizing o said with
  | nil =>
    rw [transcript, List.append_nil]
    exact h
  | cons turn turns ih =>
    rw [transcript, ← List.append_assoc]
    exact ih (h.step turn)

theorem informed_run (turns : List (Turn κ)) (h : Informed name limit o) :
    Informed name limit (o.run answer name turns) := by
  induction turns generalizing o with
  | nil => exact h
  | cons turn turns ih => exact ih (h.step turn)

theorem sequential_fresh (policy : PolicySnapshot) (limit : Nat) (kernel : κ) :
    Sequential name (fresh policy limit kernel) [] := by
  refine ⟨[], [], rfl, ?_, rfl, .free (c := Context.fresh) rfl rfl rfl⟩
  rintro x trace ⟨⟩

theorem informed_fresh (policy : PolicySnapshot) (limit : Nat) (kernel : κ) :
    Informed name limit (fresh policy limit kernel) := by
  refine ⟨rfl, ?_, ?_, ?_⟩
  · rintro r ⟨⟩
  · rintro s ⟨⟩
  · rintro x ⟨⟩

/-- Where a cycle is running, or a query is looking, a sync that is to start is turned away and
changes nothing. -/
theorem start_of_taken {rest : RunningCycle} (hslot : o.enforcer.slot name = .running rest)
    {index : Nat} {r : SyncRequest} (hr : o.pending[index]? = some r) (now : Timestamp)
    (observed : Bool) :
    o.start name index now observed =
      { o with
        pending := o.pending.eraseIdx index
        told := if r.awaited then o.told ++ [r.busy name] else o.told } := by
  simp only [start, hr, hslot]
  split <;> rfl

theorem start_ask_of_taken {rest : RunningCycle} (hslot : o.enforcer.slot name = .running rest)
    {wanted : DenyList} (hwanted : o.enforcer.policy.denyList name = .ok wanted) (mode : SyncMode)
    (now now' : Timestamp) (observed observed' : Bool) :
    (o.ask name mode now observed).start name o.pending.length now' observed' =
      { o with told := o.told ++ [SyncRequest.busy name ⟨wanted, mode, true⟩] } := by
  have hask : o.ask name mode now observed =
      { o with pending := o.pending ++ [⟨wanted, mode, true⟩] } := by
    simp only [ask, hwanted]
  have hlast : (o.ask name mode now observed).pending[o.pending.length]? =
      some ⟨wanted, mode, true⟩ := by
    rw [hask]
    simp
  have htaken : (o.ask name mode now observed).enforcer.slot name = .running rest := by
    rw [hask]
    exact hslot
  have herase : ∀ r : SyncRequest,
      (o.pending ++ [r]).eraseIdx o.pending.length = o.pending := by
    intro r
    rw [List.eraseIdx_append_of_length_le (Nat.le_refl _)]
    simp
  rw [start_of_taken htaken hlast, hask]
  simp only [herase, if_true]

/-- However syncs of one interface overlap, and whatever the kernel answers: the calls of the
interface are the whole transcripts of the cycles that have ended, one after another, and of the
one that is running, if any, as far as it has come.  The caller of each was told its result, or
that it has taken too long.  While no cycle is running, the generation counts those that have
succeeded, whatever their callers were told.  And while one is running, a sync changes nothing but
that its caller, if it still waits, is told that the interface is busy. -/
theorem one_at_a_time (policy : PolicySnapshot) (limit : Nat) (kernel : κ)
    (turns : List (Turn κ)) :
    let o := (fresh policy limit kernel).run answer name turns
    (∃ (pieces : List (CycleEnd × List Exchange)) (current : List Exchange),
      pieces.map (·.1) = o.ended ∧ (∀ x trace, (x, trace) ∈ pieces → x.Whole name trace) ∧
        (fresh policy limit kernel).transcript answer name turns =
          pieces.flatMap (·.2) ++ current ∧
        match o.holder with
        | none => current = [] ∧ ∃ c, o.enforcer.slot name = .idle c
        | some s => ∃ rest, o.enforcer.slot name = .running rest ∧
          (s.cycle name).ComesTo current rest) ∧
    (∀ x ∈ o.ended, x.told ∈ o.told ∧ x.Reported name limit) ∧
    (∀ c, o.enforcer.slot name = .idle c →
      c.attempts.generation = o.ended.countP (·.succeeded)) ∧
    ∀ rest, o.enforcer.slot name = .running rest →
      (∀ index r, o.pending[index]? = some r → ∀ now observed,
        o.start name index now observed =
          { o with
            pending := o.pending.eraseIdx index
            told := if r.awaited then o.told ++ [r.busy name] else o.told }) ∧
      ∀ wanted, o.enforcer.policy.denyList name = .ok wanted → ∀ mode now now' observed observed',
        (o.ask name mode now observed).start name o.pending.length now' observed' =
          { o with told := o.told ++ [SyncRequest.busy name ⟨wanted, mode, true⟩] } := by
  intro o
  have hsequential : Sequential name o _ :=
    sequential_run turns (sequential_fresh policy limit kernel)
  have hinformed : Informed name limit o :=
    informed_run turns (informed_fresh policy limit kernel)
  rw [List.nil_append] at hsequential
  obtain ⟨pieces, current, hpieces, hwhole, hsaid, hheld⟩ := hsequential
  refine ⟨⟨pieces, current, hpieces, hwhole, hsaid, ?_⟩, hinformed.ended, ?_, ?_⟩
  · cases hheld with
    | free slot holder =>
      rw [holder]
      exact ⟨rfl, _, slot⟩
    | taken slot holder comes =>
      rw [holder]
      exact ⟨_, slot, comes⟩
  · intro c hslot
    cases hheld with
    | free slot holder generation =>
      rw [slot] at hslot
      cases hslot
      exact generation
    | taken slot =>
      rw [slot] at hslot
      cases hslot
  · intro rest hslot
    refine ⟨fun index r hr now observed => start_of_taken hslot hr now observed, ?_⟩
    exact fun wanted hwanted mode now now' observed observed' =>
      start_ask_of_taken hslot hwanted mode now now' observed observed'

/-- Why a sync did not complete, if it did not. -/
def failure? (told : SyncOutcome) : Option SyncError :=
  match told.result with
  | .error cause => some cause
  | .ok _ => none

/-- The caller of a cycle loses patience, another sync comes, and then the cycle ends. -/
def outlasted : List (Turn Host) :=
  [.ask .event ⟨0, 0⟩ false, .start 0 ⟨1, 0⟩ false, .call, .giveUp,
    .ask .resync ⟨2, 0⟩ false, .start 0 ⟨2, 0⟩ false] ++ List.replicate 40 .call ++ [.finish]

/-- The cycle that its caller was told had taken too long is counted, and the kernel has heard it
alone and to its end. -/
theorem one_at_a_time_outlasted :
    let before := fresh Tick.oneRule.policy 30 Tick.leftTable
    let o := before.run (Host.answer "eth0") "eth0" outlasted
    o.told.map failure? = [some (.timeout "eth0" 30), some (.busy "eth0")] ∧
      (∃ c, o.enforcer.slot "eth0" = .idle c ∧ c.attempts.generation = 1) ∧
      ∃ x, o.ended = [x] ∧
        x.Whole "eth0" (before.transcript (Host.answer "eth0") "eth0" outlasted) := by
  intro before o
  have htold : o.told.map failure? = [some (.timeout "eth0" 30), some (.busy "eth0")] := by
    decide +kernel
  have hfree : o.holder.isNone := by decide +kernel
  have hone : o.ended.length = 1 := by decide +kernel
  have hsucceeded : o.ended.countP (·.succeeded) = 1 := by decide +kernel
  have hall := @one_at_a_time Host (Host.answer "eth0") "eth0" Tick.oneRule.policy 30
    Tick.leftTable outlasted
  generalize hrun : before.run (Host.answer "eth0") "eth0" outlasted = o' at hall
  have ho : o = o' := hrun
  clear_value o
  subst ho
  obtain ⟨⟨pieces, current, hpieces, hwhole, hsaid, hheld⟩, -, hgeneration, -⟩ := hall
  rw [Option.isNone_iff_eq_none.mp hfree] at hheld
  obtain ⟨rfl, c, hidle⟩ := hheld
  refine ⟨htold, ⟨c, hidle, (hgeneration c hidle).trans hsucceeded⟩, ?_⟩
  obtain ⟨⟨x, trace⟩, rfl⟩ : ∃ piece, pieces = [piece] := by
    refine List.length_eq_one_iff.mp ?_
    rw [← List.length_map (·.1), hpieces]
    exact hone
  refine ⟨x, hpieces.symm, ?_⟩
  have htrace : before.transcript (Host.answer "eth0") "eth0" outlasted = trace := by
    rw [hsaid]
    simp
  rw [htrace]
  exact hwhole x trace (List.mem_singleton.mpr rfl)

/-! ## Syncs of an enforcer -/

/-- What is held for the interface while its cycle runs is forgotten at the end of the cycle. -/
theorem settle_putSlot {s : CycleStart} (hholder : o.holder = some s) (slot : Slot)
    (ending : Kernel.Ending Context (Except CycleError SyncReport × Context)) :
    ({ o with enforcer := o.enforcer.putSlot name slot } : Overlap κ).settle name ending =
      o.settle name ending := by
  unfold settle
  rw [hholder]
  dsimp only
  rw [Enforcer.settle_putSlot]
  split
  · rfl
  · cases ending <;> simp only [Enforcer.putSlot_putSlot] <;> rfl

/-- The running cycle can come to its end without any other turn in between. -/
theorem exists_run_eq_settle {s : CycleStart} (hholder : o.holder = some s) (p : RunningCycle)
    {rest : RunningCycle} (hslot : o.enforcer.slot name = .running rest)
    (hrest : rest.afterOpening = p.afterOpening) :
    ∃ turns, o.run answer name turns =
      ({ o with kernel := (p.run answer o.kernel).2.1 } : Overlap κ).settle name
        (p.run answer o.kernel).1 := by
  -- What is in the slot changes with every call, so it is only known up to its first notes.
  induction p generalizing o rest with
  | done result =>
    refine ⟨[.finish], ?_⟩
    show o.finish name = _
    unfold finish
    rw [hslot]
    dsimp only
    rw [hrest]
    rfl
  | note entry p ih => exact ih hholder hslot hrest
  | call c state resume ih =>
    have hafter : Procedure.afterOpening rest = .call c state resume := hrest
    cases hanswer : answer c o.kernel with
    | mk b kernel =>
      cases b with
      | none =>
        refine ⟨[.call], ?_⟩
        show o.call answer name = _
        simp only [call, hslot, hafter, hanswer, Procedure.run]
      | some b =>
        have hcall : o.call answer name =
            { o with enforcer := o.enforcer.putSlot name (.running (resume b)), kernel } := by
          simp only [call, hslot, hafter, hanswer]
        obtain ⟨turns, hrun⟩ := ih b
          (o := { o with enforcer := o.enforcer.putSlot name (.running (resume b)), kernel })
          hholder Enforcer.slot_putSlot_same rfl
        refine ⟨.call :: turns, ?_⟩
        show (o.call answer name).run answer name turns = _
        rw [hcall, hrun]
        simp only [Procedure.run, hanswer]
        exact settle_putSlot
          (o := { o with kernel := (Procedure.run answer (resume b) kernel).2.1 }) hholder _ _

/-- A sync of an enforcer is one order of turns, whether or not its cycle outlasts its caller. -/
theorem syncInterface_follows (o : Overlap Host) (hpending : o.pending = []) (mode : SyncMode)
    (now : Timestamp) (stalls : Bool) :
    ∃ turns, let (outcome, enforcer, kernel, _) :=
        o.enforcer.syncInterface name mode now stalls o.kernel
      let o' := o.run (Host.answer name) name turns
      o'.enforcer = enforcer ∧ o'.kernel = kernel ∧ o'.told = o.told ++ [outcome] ∧
        o'.pending = [] := by
  cases hwanted : o.enforcer.policy.denyList name with
  | error cause =>
    refine ⟨[.ask mode now false], ?_⟩
    have hrun : o.run (Host.answer name) name [.ask mode now false] =
        { o with
          enforcer := (o.enforcer.refuse name mode cause now).2
          told := o.told ++ [(o.enforcer.refuse name mode cause now).1] } := by
      show o.ask name mode now false = _
      simp only [ask, hwanted, Bool.false_eq_true, if_false]
    rw [hrun]
    simp only [Enforcer.syncInterface, hwanted]
    exact ⟨trivial, trivial, trivial, hpending⟩
  | ok wanted =>
    cases hslot : o.enforcer.slot name with
    | running rest =>
      refine ⟨[.ask mode now false, .start o.pending.length now false], ?_⟩
      have hrun : o.run (Host.answer name) name
          [.ask mode now false, .start o.pending.length now false] =
          { o with told := o.told ++ [SyncRequest.busy name ⟨wanted, mode, true⟩] } :=
        start_ask_of_taken hslot hwanted mode now now false false
      rw [hrun]
      simp only [Enforcer.syncInterface, hwanted, hslot]
      exact ⟨trivial, trivial, rfl, hpending⟩
    | idle before =>
      let started : CycleStart := ⟨⟨wanted, mode, true⟩, before, now⟩
      let begun : Overlap Host :=
        { o with
          enforcer := o.enforcer.putSlot name (.running (started.cycle name).afterOpening)
          holder := some started }
      have hbegun : o.run (Host.answer name) name [.ask mode now false, .start 0 now false] =
          begun := by
        show (o.ask name mode now false).start name 0 now false = begun
        have hask : o.ask name mode now false =
            { o with pending := [⟨wanted, mode, true⟩] } := by
          simp only [ask, hwanted, hpending, List.nil_append]
        rw [hask]
        unfold start
        simp only [List.getElem?_cons_zero, hslot, List.eraseIdx_cons_zero, begun, hpending]
        rfl
      have hrunning : begun.enforcer.slot name = .running (started.cycle name).afterOpening :=
        Enforcer.slot_putSlot_same
      simp only [Enforcer.syncInterface, hwanted, hslot]
      split
      case isTrue =>
        refine ⟨[.ask mode now false, .start 0 now false, .giveUp], ?_⟩
        have hrun : o.run (Host.answer name) name
            [.ask mode now false, .start 0 now false, .giveUp] = begun.giveUp name := by
          rw [← hbegun]
          rfl
        rw [hrun]
        simp only [giveUp, hrunning, begun, started, if_true, Enforcer.abandon,
          Enforcer.putSlot_putSlot]
        exact ⟨rfl, trivial, rfl, hpending⟩
      case isFalse =>
        obtain ⟨turns, hturns⟩ : ∃ turns, begun.run (Host.answer name) name turns = _ :=
          exists_run_eq_settle rfl (started.cycle name) hrunning
            (Procedure.afterOpening_afterOpening _)
        refine ⟨[.ask mode now false, .start 0 now false] ++ turns, ?_⟩
        have hrun : o.run (Host.answer name) name
            ([.ask mode now false, .start 0 now false] ++ turns) =
              begun.run (Host.answer name) name turns := by
          rw [← hbegun]
          exact List.foldl_append
        rw [hrun, hturns]
        simp only [settle, begun, started, if_true, Enforcer.settle_putSlot]
        exact ⟨rfl, rfl, rfl, hpending⟩

/-- A cycle that has outlasted its caller is finished by turns. -/
theorem finish_follows (o : Overlap Host) {s : CycleStart} (hholder : o.holder = some s)
    (hforsaken : s.request.awaited = false) {rest : RunningCycle}
    (hslot : o.enforcer.slot name = .running rest) :
    ∃ turns, let (enforcer, kernel, _) := o.enforcer.finish name o.kernel
      let o' := o.run (Host.answer name) name turns
      o'.enforcer = enforcer ∧ o'.kernel = kernel ∧ o'.told = o.told ∧ o'.pending = o.pending := by
  obtain ⟨turns, hturns⟩ : ∃ turns, o.run (Host.answer name) name turns = _ :=
    exists_run_eq_settle hholder rest hslot rfl
  refine ⟨turns, ?_⟩
  rw [hturns]
  simp only [Enforcer.finish, hslot, settle, hholder, hforsaken, Bool.false_eq_true, if_false]
  cases hrun : rest.run (Host.answer name) o.kernel with
  | mk ending later =>
    cases ending <;> exact ⟨rfl, rfl, rfl, rfl⟩

end Overlap

end IngressGuard
