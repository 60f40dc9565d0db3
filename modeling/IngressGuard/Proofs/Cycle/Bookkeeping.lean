import IngressGuard.Proofs.Cycle.Modes
import IngressGuard.Proofs.Kernel.Transcript

/-!
# The books of an interface

What is remembered about an interface is written at different points of a cycle: the attempt
before the first call, the tables when all of them are written, the rest at the very end, with an
attach between that may still fail.  Here it is accounted for by the history of cycles alone
(`Context.Ledger`), whatever the kernel answers.

A cycle either fails before its tables are finished, and then no table is remembered otherwise
than before, or it finishes them and can then fail only by not attaching its program
(`Context.ensures_tables`, `Context.ensures_binding`).  So a cycle enters the books as
`Context.Entered` says, and the books are what the entries add up to (`Context.Books`).
-/

namespace IngressGuard

open Kernel (Behaviour Call Model Work Procedure)

variable {κ : Type} {B : Behaviour κ} {k : κ} {name : String} {wanted : DenyList}

namespace BlockTables

open Kernel.Work

variable {t : BlockTables}

theorem still_planFamily (b : Baseline) (f : Family) :
    Still B (planFamily name wanted b f) := by
  refine still_get.bind fun t => ?_
  cases b with
  | lastApplied => exact still_pure _
  | kernel => exact (still_call _ _).bind fun _ => still_pure _

theorem still_writePlans (plans : List FamilyPlan) : Still B (writePlans name plans) := by
  have hinsert : ∀ plan : FamilyPlan,
      Still B (Work.each (insertEntry name plan.family) plan.diff.toAdd.toList) :=
    fun plan => .each (fun _ => (still_note _).bind fun _ => still_call _ _) _
  have hremove : ∀ plan : FamilyPlan,
      Still B (Work.each (removeEntry name plan.family) plan.diff.toRemove.toList) :=
    fun plan => .each (fun _ => (still_note _).bind fun _ => still_call _ _) _
  have hdestroy : ∀ plan : FamilyPlan, Still B (destroyTable name plan) := by
    intro plan
    by_cases hdestroys : plan.destroys = true
    · simp only [destroyTable, hdestroys]
      exact still_call _ _
    · simp only [destroyTable, hdestroys]
      exact still_pure _
  exact (Still.each hinsert plans).bind fun _ =>
    (Still.each hremove plans).bind fun _ => .each hdestroy plans

/-- A run over the tables is remembered if it comes to its end, and only then. -/
theorem ensures_apply_remembered (b : Baseline) :
    Work.Ensures B (apply name wanted b) (fun _ t' _ => t' = ⟨wanted, true⟩)
      (fun _ t' _ => t' = t) t k := by
  refine ensures_bind.mpr ((still_planFamily b .ipv4 t k).mono ?_ fun _ _ _ h => h)
  rintro ⟨plans4, drift4⟩ _ k₁ rfl
  refine ensures_bind.mpr ((still_planFamily b .ipv6 _ k₁).mono ?_ fun _ _ _ h => h)
  rintro ⟨plans6, drift6⟩ _ k₂ rfl
  refine ensures_bind.mpr ((still_writePlans (plans4 ++ plans6) _ k₂).mono ?_ fun _ _ _ h => h)
  rintro - _ k₃ rfl
  refine ensures_bind.mpr (ensures_modify.mpr ?_)
  dsimp only
  split
  · exact ensures_bind.mpr (ensures_note.mpr (ensures_pure.mpr rfl))
  · exact ensures_bind.mpr (ensures_pure.mpr (ensures_pure.mpr rfl))

end BlockTables

namespace Hook

open Kernel.Work

variable {h : Hook}

/-- An interface was found able to carry programs, once and for all. -/
def Able (h : Hook) : Prop := h.probed = true ∧ h.isUnsupported = false

theorem ensures_able_requireSupport :
    Work.Ensures B (requireSupport name) (fun _ h' _ => h' = h ∧ h.isUnsupported = false)
      (fun _ _ _ => True) h k := by
  refine ensures_bind.mpr (ensures_get.mpr ?_)
  split
  case isTrue => exact ensures_fail.mpr trivial
  case isFalse hsupported => exact ensures_pure.mpr ⟨rfl, Bool.eq_false_iff.mpr hsupported⟩

theorem ensures_able_ensureSupported :
    Work.Ensures B (ensureSupported name) (fun _ h' _ => h'.Able) (fun _ _ _ => True) h k := by
  -- What a probe leaves behind is able, or known not to be.
  have hprobe : Work.Ensures B (probe name)
      (fun _ h' _ => h'.isUnsupported = false → h'.probed = true) (fun _ _ _ => True) h k := by
    refine ensures_bind.mpr (ensures_get.mpr ?_)
    split
    case isTrue hknown =>
      refine ensures_pure.mpr fun hsupported => ?_
      rwa [hsupported, Bool.false_or] at hknown
    case isFalse =>
      refine ensures_bind.mpr (ensures_call.mpr fun b k' _ => ?_)
      rcases b with e | (_ | reason)
      · trivial
      · exact ensures_bind.mpr (ensures_modify.mpr (ensures_pure.mpr fun _ => rfl))
      · refine ensures_bind.mpr (ensures_note.mpr ?_)
        exact ensures_bind.mpr (ensures_modify.mpr (ensures_pure.mpr nofun))
  refine ensures_bind.mpr (hprobe.mono ?_ fun _ _ _ h => h)
  rintro - h' k' hprobed
  refine ensures_able_requireSupport.mono ?_ fun _ _ _ h => h
  rintro - _ _ ⟨rfl, hsupported⟩
  exact ⟨hprobed hsupported, hsupported⟩

theorem ensureSupported_of_able (hable : h.Able) : ensureSupported name h = .done (.ok (), h) := by
  simp only [ensureSupported, probe, requireSupport, bind, Work.bind, Work.get, Procedure.bind,
    hable.1, hable.2, Bool.or_true, if_true, Bool.false_eq_true, if_false, pure, Work.pure]

/-- To attach can fail in one way only. -/
theorem keeps_attach (foreign : Option Program) :
    FailsOnly (fun e => ∃ cause, e = .attachFailed name cause)
      (attach name foreign) := by
  have hcall : FailsOnly (fun e => ∃ cause, e = .attachFailed name cause)
      (Work.call .attach (.attachFailed name) : HookWork Program) :=
    keeps_call (fun _ _ _ => trivial) fun cause => ⟨cause, rfl⟩
  refine keeps_get.bind fun h => ?_
  dsimp only
  split
  · refine (keeps_note trivial).bind fun _ => keeps_modify.bind fun _ => ?_
    exact hcall.bind fun p => (keeps_note trivial).bind fun _ => keeps_modify.bind fun _ => keeps_pure
  · refine keeps_modify.bind fun _ => ?_
    exact hcall.bind fun p => (keeps_note trivial).bind fun _ => keeps_modify.bind fun _ => keeps_pure

theorem keeps_adopt (p : Program) (F : CycleError → Prop) :
    FailsOnly F (adopt name p) := by
  have hend : ∀ events, FailsOnly F (do
      Work.modify fun h => { h with program := some p, state := .attached }
      return events : HookWork (List HookEvent)) := fun _ => keeps_modify.bind fun _ => keeps_pure
  refine keeps_get.bind fun h => ?_
  dsimp only
  split
  · exact (keeps_note trivial).bind fun _ => keeps_pure.bind hend
  · split
    · exact (keeps_note trivial).bind fun _ => keeps_pure.bind hend
    · exact keeps_pure.bind hend

/-- Once the interface was found able, the only way to fail is not to get the program attached. -/
theorem ensures_able_ensureAttached (hable : h.Able) :
    Work.Ensures B (ensureAttached name) (fun _ _ _ => True)
      (fun e _ _ => ∃ cause, e = .attachFailed name cause) h k := by
  have hcall : ∀ c : Call, FailsOnly (fun e => ∃ cause, e = .attachFailed name cause)
      (Work.call c (.attachFailed name) : HookWork c.Value) := fun c =>
    keeps_call (fun _ _ _ => trivial) fun cause => ⟨cause, rfl⟩
  have hguards : Work.Guards (fun _ => True) (fun _ _ => True) (ensureAttached name)
      (fun _ _ _ => True) (fun e _ _ => ∃ cause, e = .attachFailed name cause) h [] := by
    refine guards_bind.mpr ?_
    unfold Work.Guards
    rw [ensureSupported_of_able hable]
    refine ((hcall .query).bind (fun found => ?_) h [] trivial).mono (fun _ _ h => h)
      (fun _ _ _ h => h) fun _ _ _ h => h.2
    cases found with
    | none => exact keeps_attach none
    | some p =>
      dsimp only
      split
      · exact keeps_adopt _ _
      · exact (keeps_note trivial).bind fun _ => (hcall _).bind fun _ => keeps_attach _
  exact hguards.ensures

end Hook

namespace Context

open Kernel.Work

variable {mode : SyncMode} {c : Context}

/-! ## What the phases of a cycle leave behind -/

/-- The table phase ends with the deny list remembered, and, if a program is to follow, with the
interface found able to carry one; or it fails and nothing changes but the hook. -/
theorem ensures_tables :
    Work.Ensures B (tablePhase name wanted mode)
      (fun _ c' _ => ∃ h : Hook, (wanted.isEmpty = false → h.Able) ∧
        c' = { c with hook := h, tables := ⟨wanted, true⟩ })
      (fun _ c' _ => ∃ h : Hook, c' = { c with hook := h }) c k := by
  have hany : ∀ {α : Type} (w : Hook.HookWork α) (h : Hook) (k : κ),
      Work.Ensures B w (fun _ _ _ => True) (fun _ _ _ => True) h k := by
    rintro α w h k ⟨r | r, h'⟩ k' - <;> trivial
  refine ensures_bind.mpr (ensures_focus.mpr ((hany _ _ _).mono ?_ fun _ h' _ _ => ⟨h', rfl⟩))
  rintro - h₁ k₁ -
  split
  case isTrue hempty =>
    refine ensures_bind.mpr (ensures_focus.mpr ((hany _ _ _).mono ?_ fun _ h' _ _ => ⟨h', rfl⟩))
    rintro events h₂ k₂ -
    refine ensures_bind.mpr (ensures_focus.mpr
      ((BlockTables.ensures_apply_remembered _).mono ?_ ?_))
    · rintro report _ k₃ rfl
      exact ensures_pure.mpr ⟨h₂, fun hne => by simp [hempty] at hne, rfl⟩
    · rintro e _ k₃ rfl
      exact ⟨h₂, rfl⟩
  case isFalse =>
    refine ensures_bind.mpr (ensures_focus.mpr
      (Hook.ensures_able_ensureSupported.mono ?_ fun _ h' _ _ => ⟨h', rfl⟩))
    rintro - h₂ k₂ hable
    refine ensures_bind.mpr (ensures_focus.mpr
      ((BlockTables.ensures_apply_remembered _).mono ?_ ?_))
    · rintro report _ k₃ rfl
      exact ensures_pure.mpr ⟨h₂, fun _ => hable, rfl⟩
    · rintro e _ k₃ rfl
      exact ⟨h₂, rfl⟩

/-- After the tables are finished, nothing changes but the hook, and only an attach can fail. -/
theorem ensures_binding (hable : wanted.isEmpty = false → c.hook.Able)
    (finished : ApplyReport × List HookEvent) :
    Work.Ensures B (bindPhase name wanted finished)
      (fun _ c' _ => ∃ h : Hook, c' = { c with hook := h })
      (fun e c' _ => (∃ cause, e = .attachFailed name cause) ∧ ∃ h : Hook, c' = { c with hook := h })
      c k := by
  unfold bindPhase
  split
  case isTrue => exact ensures_pure.mpr ⟨c.hook, rfl⟩
  case isFalse hne =>
    refine ensures_bind.mpr (ensures_focus.mpr
      ((Hook.ensures_able_ensureAttached (hable (Bool.eq_false_iff.mpr hne))).mono ?_ ?_))
    · exact fun events h' k' _ => ensures_pure.mpr ⟨h', rfl⟩
    · exact fun e h' k' hcause => ⟨hcause, h', rfl⟩

/-! ## Histories -/

/-- What is on record about a cycle. -/
structure CycleRecord where
  wanted : DenyList
  /-- The mode asked for. -/
  asked : SyncMode
  /-- The mode in which the cycle ran. -/
  mode : SyncMode
  result : Except CycleError SyncReport
  /-- Whether the table phase came to its end. -/
  finished : Bool

namespace CycleRecord

/-- Whether the cycle succeeded. -/
def succeeded (r : CycleRecord) : Bool := r.result.isOk

theorem succeeded_of_ok {r : CycleRecord} {report : SyncReport} (h : r.result = .ok report) :
    r.succeeded = true := by rw [succeeded, h]; rfl

theorem succeeded_of_error {r : CycleRecord} {e : CycleError} (h : r.result = .error e) :
    r.succeeded = false := by rw [succeeded, h]; rfl

/-- The deny list of the latest cycle of a history that finished its tables. -/
def lastFinished (past : List CycleRecord) : DenyList :=
  ((past.filter (·.finished)).getLast?.map (·.wanted)).getD .empty

theorem lastFinished_snoc (past : List CycleRecord) (r : CycleRecord) :
    lastFinished (past ++ [r]) = if r.finished then r.wanted else lastFinished past := by
  unfold lastFinished
  by_cases h : r.finished = true <;> simp [List.filter_append, h]

end CycleRecord

/-- A cycle against a kernel in some state: its record, and what is remembered after it.  It
starts with its table phase (`cycle_eq_inPhases`), so that run tells how far it came. -/
def recordCycle (answer : (c : Call) → κ → c.Answer × κ) (name : String) (wanted : DenyList)
    (asked : SyncMode) (now : Timestamp) (c : Context) (k : κ) : CycleRecord × Context :=
  let ((result, c'), _) := (c.cycle name wanted asked now).eval answer k
  let mode := c.effectiveMode asked
  let ((tables, _), _) := (tablePhase name wanted mode (c.beginAttempt now)).eval answer k
  ({ wanted, asked, mode, result, finished := tables.isOk }, c')

/-- The histories of cycles on an interface, each with what is remembered after it.  The kernel
answers by any function of its state, and it may be in any state when a cycle starts. -/
inductive Ledger (answer : (c : Call) → κ → c.Answer × κ) (name : String) :
    List CycleRecord → Context → Prop
  | opened : Ledger answer name [] fresh
  | cycle {past c} (before : Ledger answer name past c) (wanted : DenyList) (asked : SyncMode)
      (now : Timestamp) (k : κ) :
      Ledger answer name (past ++ [(c.recordCycle answer name wanted asked now k).1])
        (c.recordCycle answer name wanted asked now k).2

/-- How a cycle enters the books. -/
structure Entered (name : String) (c : Context) (r : CycleRecord) (c' : Context) : Prop where
  /-- A success is counted, in the books and in the report. -/
  ok : ∀ report, r.result = .ok report →
    c'.attempts.generation = c.attempts.generation + 1 ∧
      report.generation = c'.attempts.generation ∧ report.mode = r.mode ∧
      c'.reconciled = true ∧ c'.attempts.lastError = none ∧ r.finished = true
  /-- A failure is told, and not counted. -/
  error : ∀ e, r.result = .error e →
    c'.attempts.generation = c.attempts.generation ∧ c'.reconciled = c.reconciled ∧
      c'.attempts.lastError = some e.message
  /-- The tables are remembered as soon as they are finished, and not otherwise. -/
  tables : c'.tables = if r.finished then ⟨r.wanted, true⟩ else c.tables
  /-- With its tables finished, a cycle can fail only by not attaching its program. -/
  unattached : ∀ e, r.result = .error e → r.finished = true →
    ∃ cause, e = .attachFailed name cause

variable {answer : (c : Call) → κ → c.Answer × κ}

/-- Every cycle enters the books so, whatever the kernel answers. -/
theorem entered_recordCycle (asked : SyncMode) (now : Timestamp) (k : κ) :
    Entered name c (c.recordCycle answer name wanted asked now k).1
      (c.recordCycle answer name wanted asked now k).2 := by
  have htables : Work.Ensures (.ofAnswer answer)
      (tablePhase name wanted (c.effectiveMode asked)) _ _ (c.beginAttempt now) k := ensures_tables
  have hphase := Procedure.Ensures.eval htables
  unfold recordCycle
  rw [cycle_eq_inPhases, inPhases]
  simp only [Procedure.eval_bind]
  generalize (tablePhase name wanted (c.effectiveMode asked) (c.beginAttempt now)).eval answer k =
    ended at hphase ⊢
  obtain ⟨⟨e | finished, c₁⟩, k₁, log⟩ := ended
  · -- The tables are not finished.
    obtain ⟨h₁, rfl⟩ := hphase
    refine ⟨?_, ?_, rfl, ?_⟩
    · rintro report ⟨⟩
    · rintro _ ⟨⟩
      exact ⟨rfl, rfl, rfl⟩
    · rintro _ - ⟨⟩
  · obtain ⟨h₁, hable, rfl⟩ := hphase
    have hbind : Work.Ensures (.ofAnswer answer) (bindPhase name wanted finished) _ _
        { c.beginAttempt now with hook := h₁, tables := ⟨wanted, true⟩ } k₁ :=
      ensures_binding hable finished
    have hend := Procedure.Ensures.eval hbind
    simp only [afterTables, Procedure.eval_bind]
    generalize (bindPhase name wanted finished
      { c.beginAttempt now with hook := h₁, tables := ⟨wanted, true⟩ }).eval answer k₁ = ended
      at hend ⊢
    obtain ⟨⟨e | ⟨report, events⟩, c₂⟩, k₂, log₂⟩ := ended
    · obtain ⟨⟨cause, rfl⟩, h₂, rfl⟩ := hend
      refine ⟨?_, ?_, rfl, ?_⟩
      · rintro report ⟨⟩
      · rintro _ ⟨⟩
        exact ⟨rfl, rfl, rfl⟩
      · rintro _ ⟨⟩ -
        exact ⟨cause, rfl⟩
    · obtain ⟨h₂, rfl⟩ := hend
      refine ⟨?_, ?_, rfl, ?_⟩
      · rintro _ ⟨⟩
        exact ⟨rfl, rfl, rfl, rfl, rfl, rfl⟩
      · rintro e ⟨⟩
      · rintro e ⟨⟩

/-! ## The books -/

/-- What is remembered, as it follows from a history of cycles. -/
structure Books (past : List CycleRecord) (c : Context) : Prop where
  generation : c.attempts.generation = past.countP (·.succeeded)
  reconciled : c.reconciled = past.any (·.succeeded)
  lastError : c.attempts.lastError = none ↔ ∀ r, past.getLast? = some r → r.succeeded = true
  lastApplied : c.tables.lastApplied = CycleRecord.lastFinished past
  primed : c.tables.primed = past.any (·.finished)
  /-- Until one has succeeded, every cycle ran as a resync, and after that each as asked. -/
  modes : ∀ before r after, past = before ++ r :: after →
    r.mode = if before.any (·.succeeded) then r.asked else .resync

theorem Books.enter {past : List CycleRecord} {r : CycleRecord} {c' : Context}
    (h : Books past c) (hr : Entered name c r c')
    (hmode : r.mode = if past.any (·.succeeded) then r.asked else .resync) :
    Books (past ++ [r]) c' where
  generation := by
    rw [List.countP_append, List.countP_singleton, ← h.generation]
    cases hresult : r.result with
    | ok report => rw [(hr.ok report hresult).1, r.succeeded_of_ok hresult, if_pos rfl]
    | error e => rw [(hr.error e hresult).1, r.succeeded_of_error hresult, if_neg nofun, Nat.add_zero]
  reconciled := by
    rw [List.any_append, ← h.reconciled]
    cases hresult : r.result with
    | ok report => simp [(hr.ok report hresult).2.2.2.1, r.succeeded_of_ok hresult]
    | error e => simp [(hr.error e hresult).2.1, r.succeeded_of_error hresult]
  lastError := by
    rw [List.getLast?_concat]
    cases hresult : r.result with
    | ok report => simp [(hr.ok report hresult).2.2.2.2.1, r.succeeded_of_ok hresult]
    | error e => simp [(hr.error e hresult).2.2, r.succeeded_of_error hresult]
  lastApplied := by
    rw [CycleRecord.lastFinished_snoc, hr.tables]
    split
    · rfl
    · exact h.lastApplied
  primed := by
    rw [List.any_append, ← h.primed, hr.tables]
    split
    case isTrue hfinished => simp [hfinished]
    case isFalse hunfinished => simp [hunfinished]
  modes := by
    intro before r' after hsplit
    rcases List.eq_nil_or_concat after with rfl | ⟨rest, last, rfl⟩
    · obtain ⟨rfl, hlast⟩ := List.append_inj' hsplit rfl
      cases hlast
      exact hmode
    · rw [List.concat_eq_append, ← List.cons_append, ← List.append_assoc] at hsplit
      exact h.modes before r' rest (List.append_inj' hsplit rfl).1

theorem effectiveMode_of_books {past : List CycleRecord} (h : Books past c) (asked : SyncMode) :
    c.effectiveMode asked = if past.any (·.succeeded) then asked else .resync := by
  rw [effectiveMode, h.reconciled]

theorem Ledger.books {past : List CycleRecord} (h : Ledger answer name past c) :
    Books past c := by
  induction h with
  | opened => exact ⟨rfl, rfl, by simp [fresh], rfl, rfl, by simp⟩
  | cycle before wanted asked now k ih =>
    exact ih.enter (entered_recordCycle asked now k) (effectiveMode_of_books ih asked)

/-- Whatever the kernel answers in a history of cycles, what is remembered follows from their
records: the generation counts the successes, an error is kept exactly as long as the latest cycle
has failed, and the tables are those of the latest cycle that finished its table phase, with an
entry for each family that is not empty.  Each cycle runs in the mode asked for, but as a resync
until one has succeeded.  So a success counts one more, and a cycle that fails otherwise than at
its attach leaves what is remembered of the tables alone. -/
theorem Ledger.bookkeeping {past : List CycleRecord} (h : Ledger answer name past c) :
    Books past c ∧
    (∀ f, c.tables.counts.get f =
      let entries := (CycleRecord.lastFinished past).get f
      if entries.isEmpty then none else some entries.size) ∧
    ∀ wanted asked now k,
      let r := (c.recordCycle answer name wanted asked now k).1
      let c' := (c.recordCycle answer name wanted asked now k).2
      r.mode = (if past.any (·.succeeded) then asked else .resync) ∧
      c.cycle name wanted asked now = inPhases name wanted r.mode (c.beginAttempt now) ∧
      Entered name c r c' ∧
      ∀ e, r.result = .error e → (∀ i cause, e ≠ .attachFailed i cause) →
        c'.tables = c.tables := by
  have hbooks := h.books
  refine ⟨hbooks, fun f => ?_, fun wanted asked now k => ?_⟩
  · rw [← hbooks.lastApplied]
    cases f <;> rfl
  · intro r c'
    have hentered : Entered name c r c' := entered_recordCycle asked now k
    refine ⟨effectiveMode_of_books hbooks asked, cycle_eq_inPhases asked now, hentered, ?_⟩
    intro e hresult hother
    rw [hentered.tables, if_neg]
    intro hfinished
    obtain ⟨cause, rfl⟩ := hentered.unattached e hresult hfinished
    exact hother name cause rfl

/-- A cycle that succeeds, one that is torn, and one that finishes its tables but cannot attach
its program, which was taken away: one success, an error, and the third deny list on the books. -/
theorem bookkeeping_unattached :
    let first := fresh.recordCycle (Model.answer "eth0") "eth0" (hosts [1, 2, 3]) .event ⟨0, 0⟩
      (Model.fresh ∅ none)
    let torn := first.2.recordCycle (Model.answer "eth0") "eth0" (hosts [1]) .event ⟨1, 0⟩
      (firstCycle.2.1.failWriteAfter 1)
    let late := torn.2.recordCycle (Model.answer "eth0") "eth0" (hosts [1, 4]) .event ⟨2, 0⟩
      ((tornCycle.2.1.tamperDetach "eth0").2.failAttaches 1)
    Ledger (Model.answer "eth0") "eth0" [first.1, torn.1, late.1] late.2 ∧
      late.2.attempts.generation = 1 ∧ late.2.attempts.lastError ≠ none ∧
      torn.2.tables.lastApplied = hosts [1, 2, 3] ∧ late.2.tables.lastApplied = hosts [1, 4] := by
  intro first torn late
  have hledger : Ledger (Model.answer "eth0") "eth0" [first.1, torn.1, late.1] late.2 :=
    ((Ledger.opened.cycle _ _ _ _).cycle _ _ _ _).cycle _ _ _ _
  have htorn : Ledger (Model.answer "eth0") "eth0" [first.1, torn.1] torn.2 :=
    (Ledger.opened.cycle _ _ _ _).cycle _ _ _ _
  obtain ⟨hbooks, -, -⟩ := Ledger.bookkeeping hledger
  obtain ⟨hearlier, -, -⟩ := Ledger.bookkeeping htorn
  refine ⟨hledger, hbooks.generation.trans (by decide +kernel), fun herror => ?_,
    hearlier.lastApplied.trans (by decide +kernel), hbooks.lastApplied.trans (by decide +kernel)⟩
  have hlast := hbooks.lastError.mp herror late.1 rfl
  have hfailed : late.1.succeeded = false := by decide +kernel
  rw [hfailed] at hlast
  cases hlast

end Context

end IngressGuard
