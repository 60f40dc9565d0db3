import IngressGuard.Proofs.Cycle.Passage
import IngressGuard.Proofs.Kernel.Record

/-!
# The order of calls in a cycle

With something to block, a cycle that reads the kernel has written the tables in full before it
attaches the program, and it never takes a program of ours away.  With nothing to block, the
program is gone before any table is written, and if it cannot be detached, no table is touched
(`Context.cycle_ordered`).

Both are about the calls of a run, so they are proved of a kernel that records its calls.  Up to
the point where the tables are written and the program is as it should be, it is enough to know
which calls a step can make at all.
-/

namespace IngressGuard

open Kernel (Work InterfaceState Model Step Call)

namespace Hook

variable {name : String} {h : Hook} {P : Call → Prop}

/-- The end of most steps: something is remembered, and a result is given. -/
theorem makes_update {β : Type} {f : Hook → Hook} {b : β} :
    Work.Makes P (do Work.modify f; return b : HookWork β) :=
  Work.Makes.bind Work.makes_modify fun _ => Work.makes_pure

theorem makes_tell {level : Log.Level} {message : String} {more : List (String × String)} :
    Work.Makes P (tell level message name more) :=
  Work.makes_note

theorem makes_requireSupport : Work.Makes P (requireSupport name) := by
  refine Work.Makes.bind Work.makes_get fun h => ?_
  split
  · exact Work.makes_fail
  · exact Work.makes_pure

theorem makes_ensureSupported (hP : P .probe) : Work.Makes P (ensureSupported name) := by
  have hprobe : Work.Makes P (probe name) := by
    refine Work.Makes.bind Work.makes_get fun h => ?_
    split
    · exact Work.makes_pure
    · refine Work.Makes.bind (Work.makes_call hP) fun answer => ?_
      cases answer with
      | supported => exact makes_update
      | unsupported reason => exact Work.Makes.bind makes_tell fun _ => makes_update
  exact Work.Makes.bind hprobe fun _ => makes_requireSupport

theorem makes_adopt {p : Program} : Work.Makes P (adopt name p) := by
  refine Work.Makes.bind Work.makes_get fun h => ?_
  cases h.program with
  | none =>
    refine Work.Makes.bind makes_tell fun _ => ?_
    exact Work.Makes.bind Work.makes_pure fun _ => makes_update
  | some known =>
    dsimp only
    split
    · refine Work.Makes.bind makes_tell fun _ => ?_
      exact Work.Makes.bind Work.makes_pure fun _ => makes_update
    · exact Work.Makes.bind Work.makes_pure fun _ => makes_update

theorem makes_attach {foreign : Option Program} (hP : P .attach) :
    Work.Makes P (attach name foreign) := by
  refine Work.Makes.bind Work.makes_get fun h => ?_
  dsimp only
  split
  · refine Work.Makes.bind makes_tell fun _ => Work.Makes.bind Work.makes_modify fun _ => ?_
    refine Work.Makes.bind (Work.makes_call hP) fun current => ?_
    exact Work.Makes.bind makes_tell fun _ => makes_update
  · refine Work.Makes.bind Work.makes_modify fun _ => ?_
    refine Work.Makes.bind (Work.makes_call hP) fun current => ?_
    exact Work.Makes.bind makes_tell fun _ => makes_update

theorem makes_ensureDetached (hquery : P .query) (hdetach : ∀ p, P (.detach p)) :
    Work.Makes P (ensureDetached name) := by
  refine Work.Makes.bind Work.makes_get fun h => ?_
  split
  · exact Work.makes_pure
  refine Work.Makes.bind (Work.makes_call hquery) fun answer => ?_
  cases answer with
  | none => exact Work.Makes.bind Work.makes_pure fun _ => makes_update
  | some p =>
    dsimp only
    split
    · refine Work.Makes.bind Work.makes_modify fun _ => ?_
      refine Work.Makes.bind (Work.makes_call (hdetach p)) fun _ => ?_
      refine Work.Makes.bind makes_tell fun _ => ?_
      exact Work.Makes.bind Work.makes_pure fun _ => makes_update
    · refine Work.Makes.bind makes_tell fun _ => ?_
      exact Work.Makes.bind Work.makes_pure fun _ => makes_update

end Hook

namespace BlockTables

variable {name : String} {wanted : DenyList} {b : Baseline} {P : Call → Prop}

theorem makes_writePlans (hP : ∀ c : Call, c.isTableCall = true → P c) {l : List FamilyPlan} :
    Work.Makes P (writePlans name l) := by
  have hinsert : ∀ f p, Work.Makes P (insertEntry name f p) := fun f p =>
    Work.Makes.bind Work.makes_note fun _ => Work.makes_call (hP _ rfl)
  have hremove : ∀ f p, Work.Makes P (removeEntry name f p) := fun f p =>
    Work.Makes.bind Work.makes_note fun _ => Work.makes_call (hP _ rfl)
  have hdestroy : ∀ plan, Work.Makes P (destroyTable name plan) := by
    intro plan
    by_cases hdestroys : plan.destroys = true
    · simp only [destroyTable, hdestroys]
      exact Work.makes_call (hP _ rfl)
    · simp only [destroyTable, hdestroys]
      exact Work.makes_pure
  refine Work.Makes.bind (Work.Makes.each fun plan => Work.Makes.each (hinsert _)) fun _ => ?_
  refine Work.Makes.bind (Work.Makes.each fun plan => Work.Makes.each (hremove _)) fun _ => ?_
  exact Work.Makes.each hdestroy

/-- A run over the tables is about tables only. -/
theorem makes_apply (hP : ∀ c : Call, c.isTableCall = true → P c) :
    Work.Makes P (apply name wanted b) := by
  have hplan : ∀ f, Work.Makes P (planFamily name wanted b f) := by
    intro f
    refine Work.Makes.bind Work.makes_get fun t => ?_
    cases b with
    | lastApplied => exact Work.makes_pure
    | kernel => exact Work.Makes.bind (Work.makes_call (hP _ rfl)) fun _ => Work.makes_pure
  refine Work.Makes.bind (hplan .ipv4) fun r4 => Work.Makes.bind (hplan .ipv6) fun r6 => ?_
  refine Work.Makes.bind (makes_writePlans hP) fun _ => ?_
  refine Work.Makes.bind Work.makes_modify fun _ => ?_
  dsimp only
  split
  · exact Work.Makes.bind Work.makes_note fun _ => Work.makes_pure
  · exact Work.Makes.bind Work.makes_pure fun _ => Work.makes_pure

end BlockTables

namespace Context

variable {mayFail : Prop} {name : String} {wanted : DenyList} {mode : SyncMode} {c : Context}
  {k : InterfaceState × List (Step InterfaceState)}

/-! ## With something to block -/

/-- A call as it should be where there is something to block.  The condition says when the tables
must be finished before the program is attached. -/
structure Protects (finished : Prop) (wanted : DenyList) (step : Step InterfaceState) : Prop where
  /-- The program gets attached over finished tables. -/
  filled : finished → step.Attaches → ∀ f, step.before.tables.get f = wanted.table f
  /-- A program of ours stays. -/
  spared : step.before.carriesOurs = true → step.after.program = step.before.program
  /-- Only programs of others should be detached. -/
  foreign : ∀ p, step.call = .detach p → p.isOurs = false

variable {finished : Prop}

theorem maintains_protects {σ ε α : Type} {w : Work σ ε α} {s : σ}
    (hw : Work.Makes (fun c => c.changesProgram = false) w)
    (hk : Kernel.AllSteps (Protects finished wanted) k) :
    Work.Maintains (InterfaceState.behaviour mayFail).recorded w
      (Kernel.AllSteps (Protects finished wanted)) s k := by
  refine hw.maintains (fun c k b k' hc hk hcall => hk.snoc hcall ⟨?_, ?_, ?_⟩) hk
  · rintro - ⟨rfl, -⟩
    cases hc
  · exact fun _ => InterfaceState.program_of_behaviour hcall.1 hc
  · rintro p rfl
    cases hc

/-- Our program gets attached over the tables as they are, and only a program of others makes
room for it. -/
theorem maintains_protects_ensureAttached {h : Hook}
    (hfull : finished → ∀ f, k.1.tables.get f = wanted.table f)
    (hk : Kernel.AllSteps (Protects finished wanted) k) :
    Work.Maintains (InterfaceState.behaviour mayFail).recorded (Hook.ensureAttached name)
      (Kernel.AllSteps (Protects finished wanted)) h k := by
  -- What is kept also says that the tables stay finished.
  let I (k : InterfaceState × List (Step InterfaceState)) : Prop :=
    (finished → ∀ f, k.1.tables.get f = wanted.table f) ∧
      Kernel.AllSteps (Protects finished wanted) k
  have hkeep : ∀ (c : Call) k (b : c.Answer) k', I k →
      (InterfaceState.behaviour mayFail).recorded c k b k' → c.isTableWrite = false →
      Protects finished wanted ⟨c, k.1, b, k'.1⟩ → I k' := by
    intro c k b k' hI hcall hwrite hstep
    refine ⟨?_, hI.2.snoc hcall hstep⟩
    rw [InterfaceState.tables_of_behaviour hcall.1 hwrite]
    exact hI.1
  have hlook : ∀ (c : Call) k (b : c.Answer) k', c.changesProgram = false ∧ c.isTableWrite = false →
      I k → (InterfaceState.behaviour mayFail).recorded c k b k' → I k' := by
    rintro c k b k' ⟨hprogram, hwrite⟩ hI hcall
    refine hkeep c k b k' hI hcall hwrite ⟨?_, ?_, ?_⟩
    · rintro - ⟨rfl, -⟩
      cases hprogram
    · exact fun _ => InterfaceState.program_of_behaviour hcall.1 hprogram
    · rintro p rfl
      cases hprogram
  have hattach : ∀ foreign (h : Hook) k, I k →
      Work.Maintains (InterfaceState.behaviour mayFail).recorded (Hook.attach name foreign) I h
        k := by
    intro foreign h k hI
    refine (Hook.makes_attach (P := (· = Call.attach)) rfl).maintains ?_ hI
    rintro _ k b k' rfl hI hcall
    refine hkeep _ k b k' hI hcall rfl ⟨fun hf _ => hI.1 hf, fun hours => ?_, ?_⟩
    · cases b with
      | error e => rw [hcall.1.2]
      | ok p =>
        -- No program is attached over another one.
        have hnone : k.1.program = none := hcall.1.1
        rw [InterfaceState.carriesOurs, hnone] at hours
        cases hours
    · rintro p ⟨⟩
  refine Work.Maintains.mono (I := I) ?_ fun _ hI => hI.2
  refine Work.Maintains.bind ?_ fun _ h₁ k₁ h₁' => ?_
  · exact (Hook.makes_ensureSupported ⟨rfl, rfl⟩).maintains hlook ⟨hfull, hk⟩
  refine Work.maintains_bind.mpr ⟨?_, Work.ensures_call.mpr ?_⟩
  · exact Work.maintains_call.mpr ⟨h₁', fun b k' => hlook _ k₁ b k' ⟨rfl, rfl⟩ h₁'⟩
  rintro (e | answer) k₂ hquery
  · trivial
  have h₂ : I k₂ := hlook _ k₁ _ k₂ ⟨rfl, rfl⟩ h₁' hquery
  have hanswer : k₂.1.program = answer := by rw [hquery.1.2.2, hquery.1.2.1]
  cases answer with
  | none => exact hattach none h₁ k₂ h₂
  | some p =>
    dsimp only
    split
    case isTrue =>
      exact (Hook.makes_adopt (P := fun _ => False)).maintains (fun _ _ _ _ hc => hc.elim) h₂
    case isFalse hours =>
      rw [Bool.not_eq_true] at hours
      refine Work.maintains_bind.mpr ⟨Work.maintains_note.mpr h₂, Work.ensures_note.mpr ?_⟩
      refine Work.Maintains.bind (Work.maintains_call.mpr ⟨h₂, fun b k' hcall => ?_⟩)
        fun _ h₃ k₃ h₃' => hattach (some p) h₃ k₃ h₃'
      refine hkeep _ k₂ b k' h₂ hcall rfl ⟨?_, fun hcarries => ?_, ?_⟩
      · rintro - ⟨⟨⟩, -⟩
      · rw [InterfaceState.carriesOurs, hanswer, Option.any_some, hours] at hcarries
        cases hcarries
      · rintro _ ⟨⟩
        exact hours

theorem maintains_protects_setUp
    (hk : Kernel.AllSteps (Protects (wanted.WellFiled ∧ mode = .resync) wanted) k) :
    Work.Maintains (InterfaceState.behaviour mayFail).recorded (setUp name wanted mode)
      (Kernel.AllSteps (Protects (wanted.WellFiled ∧ mode = .resync) wanted)) c k := by
  refine Work.Maintains.bind (Work.maintains_focus.mpr ?_) fun _ c₁ k₁ h₁ => ?_
  · exact maintains_protects (Hook.makes_ensureSupported rfl) hk
  have hmakes : Work.Makes (fun c => c.changesProgram = false)
      (BlockTables.apply name wanted mode.baseline) :=
    BlockTables.makes_apply fun _ => Call.changesProgram_of_isTableCall
  have hrun : Work.Maintains (InterfaceState.behaviour mayFail).recorded
      (BlockTables.apply name wanted mode.baseline)
      (Kernel.AllSteps (Protects (wanted.WellFiled ∧ mode = .resync) wanted)) c₁.tables k₁ :=
    maintains_protects hmakes h₁
  have hfull : Work.Ensures (InterfaceState.behaviour mayFail)
      (BlockTables.apply name wanted mode.baseline)
      (fun _ _ s' => wanted.WellFiled ∧ mode = .resync → ∀ f, s'.tables.get f = wanted.table f)
      (fun _ _ _ => True) c₁.tables k₁.1 := by
    by_cases hcond : wanted.WellFiled ∧ mode = .resync
    · obtain ⟨filed, rfl⟩ := hcond
      refine (BlockTables.ensures_apply filed).mono ?_ fun _ _ _ _ => trivial
      rintro _ _ s' ⟨-, -, hexact⟩ -
      exact (hexact (.inl rfl)).mpr (.inl rfl)
    · refine BlockTables.ensures_apply_written.mono ?_ fun _ _ _ _ => trivial
      exact fun _ _ _ _ h => absurd h hcond
  refine Work.maintains_bind.mpr ⟨Work.maintains_focus.mpr hrun, Work.ensures_focus.mpr ?_⟩
  refine (hrun.ensures.and hfull.recorded).mono ?_ fun _ _ _ _ => trivial
  rintro report t₂ k₂ ⟨h₂, hfull₂⟩
  refine Work.Maintains.bind (Work.maintains_focus.mpr ?_) fun _ _ k₃ h₃ =>
    Work.maintains_pure.mpr h₃
  exact maintains_protects_ensureAttached hfull₂ h₂

/-! ## With nothing to block -/

/-- The calls as they should be where there is nothing to block: no table is written under our
program, and none is touched if looking for the program or detaching it fails. -/
def Bares (k : InterfaceState × List (Step InterfaceState)) : Prop :=
  (∀ step ∈ k.2, step.call.isTableWrite = true → step.before.carriesOurs = false) ∧
    ((∃ step ∈ k.2, step.FailsOffTables) → ∀ step ∈ k.2, step.call.isTableCall = false)

theorem bares_of_no_table_call
    (hk : Kernel.AllSteps (fun step => step.call.isTableCall = false) k) : Bares k := by
  refine ⟨fun step hstep hwrite => ?_, fun _ => hk⟩
  have htable : step.call.isTableCall = false := hk step hstep
  rw [Call.isTableCall_of_isTableWrite hwrite] at htable
  cases htable

/-- A detaching that ends well has met no failure. -/
theorem ensures_recorded_ensureDetached {h : Hook}
    (hk : Kernel.AllSteps (fun step => ¬step.FailsOffTables) k) :
    Work.Ensures (InterfaceState.behaviour mayFail).recorded (Hook.ensureDetached name)
      (fun _ _ k' => Kernel.AllSteps (fun step => ¬step.FailsOffTables) k') (fun _ _ _ => True)
      h k := by
  have hcall : ∀ (c : Call) (onError : KernelError → CycleError) (h : Hook) k,
      Kernel.AllSteps (fun step => ¬step.FailsOffTables) k →
      Work.Ensures (InterfaceState.behaviour mayFail).recorded (Work.call c onError)
        (fun _ _ k' => Kernel.AllSteps (fun step => ¬step.FailsOffTables) k')
        (fun _ _ _ => True) h k := by
    intro c onError h k hk
    refine Work.ensures_call.mpr ?_
    rintro (e | a) k' hstep
    · trivial
    · refine hk.snoc hstep ?_
      rintro ⟨-, hfails⟩
      cases hfails
  refine Work.ensures_bind.mpr (Work.ensures_get.mpr ?_)
  split
  · exact Work.ensures_pure.mpr hk
  refine Work.ensures_bind.mpr ((hcall .query _ h k hk).mono ?_ fun _ _ _ h => h)
  rintro (_ | p) h₁ k₁ h₁'
  · simp only [Work.ensures_bind, Work.ensures_modify, Work.ensures_pure]
    exact h₁'
  dsimp only
  split
  · refine Work.ensures_bind.mpr (Work.ensures_modify.mpr ?_)
    refine Work.ensures_bind.mpr ((hcall (.detach p) _ _ k₁ h₁').mono ?_ fun _ _ _ h => h)
    rintro _ h₂ k₂ h₂'
    simp only [Hook.tell, Work.ensures_bind, Work.ensures_note, Work.ensures_modify,
      Work.ensures_pure]
    exact h₂'
  · simp only [Hook.tell, Work.ensures_bind, Work.ensures_note, Work.ensures_modify,
      Work.ensures_pure]
    exact h₁'

theorem maintains_bares_tearDown (hsupported : c.hook.isUnsupported = false) (s : InterfaceState) :
    Work.Maintains (InterfaceState.behaviour mayFail).recorded (tearDown name wanted mode) Bares
      c (s, []) := by
  have hlook : Work.Maintains (InterfaceState.behaviour mayFail).recorded
      (Hook.ensureDetached name)
      (Kernel.AllSteps fun step => step.call.isTableCall = false) c.hook (s, []) := by
    refine (Hook.makes_ensureDetached (P := fun c => c.isTableCall = false) rfl
      fun _ => rfl).maintains ?_ Kernel.allSteps_nil
    exact fun c k b k' hc hk hcall => hk.snoc hcall hc
  refine Work.maintains_bind.mpr ⟨?_, Work.ensures_focus.mpr ?_⟩
  · exact Work.maintains_focus.mpr (hlook.mono fun _ h => bares_of_no_table_call h)
  have hfree : Work.Ensures (InterfaceState.behaviour mayFail) (Hook.ensureDetached name)
      (fun _ h' s' => h'.Frees s' ∧ s'.tables = s.tables)
      (fun e _ s' => Hook.Failed mayFail s e s') c.hook s :=
    Hook.ensures_ensureDetached hsupported
  have hrecorded := Work.Ensures.recorded (k := (s, [])) hfree
  refine ((hlook.ensures.and hrecorded).and
    (ensures_recorded_ensureDetached Kernel.allSteps_nil)).mono ?_ fun _ _ _ _ => trivial
  rintro events h₁ k₁ ⟨⟨hquiet, ⟨-, hgone, -⟩, -⟩, hclean₁⟩
  -- From here on our program is gone, and only tables are called for.
  let I (k : InterfaceState × List (Step InterfaceState)) : Prop :=
    k.1.carriesOurs = false ∧ Kernel.AllSteps (fun step => ¬step.FailsOffTables) k ∧
      Kernel.AllSteps
        (fun step => step.call.isTableWrite = true → step.before.carriesOurs = false) k
  have hbares : ∀ k, I k → Bares k := by
    rintro k ⟨-, hclean, hbare⟩
    exact ⟨hbare, fun ⟨step, hstep, hfails⟩ => absurd hfails (hclean step hstep)⟩
  have hstart : I k₁ := ⟨hgone, hclean₁, (bares_of_no_table_call hquiet).1⟩
  have hmakes : Work.Makes (fun c => c.isTableCall = true)
      (BlockTables.apply name wanted mode.baseline) := BlockTables.makes_apply fun _ => id
  have hrun : Work.Maintains (InterfaceState.behaviour mayFail).recorded
      (BlockTables.apply name wanted mode.baseline) I c.tables k₁ := by
    refine hmakes.maintains (fun c k b k' hc hI hcall => ?_) hstart
    obtain ⟨hgone, hclean, hbare⟩ := hI
    refine ⟨?_, hclean.snoc hcall ?_, hbare.snoc hcall fun _ => hgone⟩
    · have hprogram := Call.changesProgram_of_isTableCall hc
      rw [InterfaceState.carriesOurs, InterfaceState.program_of_behaviour hcall.1 hprogram]
      exact hgone
    · rintro ⟨htable, -⟩
      rw [hc] at htable
      cases htable
  exact Work.Maintains.bind (Work.maintains_focus.mpr (hrun.mono hbares)) fun _ _ _ h =>
    Work.maintains_pure.mpr h

/-! ## Cycles -/

theorem maintains_protects_cycle (hne : wanted.isEmpty = false) (now : Timestamp)
    (s : InterfaceState) :
    (c.cycle name wanted mode now).Maintains (InterfaceState.behaviour mayFail).recorded
      (Kernel.AllSteps (Protects (wanted.WellFiled ∧ c.effectiveMode mode = .resync) wanted))
      (s, []) := by
  refine maintains_cycle_of_work (Work.Maintains.bind (Work.maintains_focus.mpr ?_)
    fun _ c₁ k₁ h₁ => ?_)
  · exact maintains_protects Hook.makes_requireSupport Kernel.allSteps_nil
  · rw [if_neg (by simp [hne])]
    exact maintains_protects_setUp h₁

theorem maintains_bares_cycle (hempty : wanted.isEmpty = true) (now : Timestamp)
    (s : InterfaceState) :
    (c.cycle name wanted mode now).Maintains (InterfaceState.behaviour mayFail).recorded Bares
      (s, []) := by
  have hstart : Bares (s, []) := bares_of_no_table_call Kernel.allSteps_nil
  refine maintains_cycle_of_work (Work.maintains_bind.mpr
    ⟨Work.maintains_focus.mpr ?_, Work.ensures_focus.mpr ?_⟩)
  · exact (Hook.makes_requireSupport (P := fun _ => False)).maintains
      (fun _ _ _ _ hc => hc.elim) hstart
  · -- No call is made before it is known that the interface can carry programs.
    refine Work.ensures_bind.mpr (Work.ensures_get.mpr ?_)
    split
    case isTrue => exact Work.ensures_fail.mpr trivial
    case isFalse hsupported =>
      refine Work.ensures_pure.mpr ?_
      exact maintains_bares_tearDown (Bool.eq_false_iff.mpr hsupported) s

/-- The calls of a cycle, up to any point and wherever calls fail.  With something to block, a
cycle that reads the kernel finishes the tables before it attaches the program, and no cycle takes
a program of ours away or tries to.  With nothing to block, no table is written while our program
is attached, and if looking for it or detaching it fails, no table is touched. -/
theorem cycle_ordered {m m' : Model} {now : Timestamp} {steps : List (Step Model)}
    (hpass : (c.cycle name wanted mode now).Passes (Model.failing name).recorded (m, [])
      (m', steps)) :
    (wanted.isEmpty = false →
      (wanted.WellFiled → c.effectiveMode mode = .resync →
        ∀ step ∈ steps, step.Attaches → ∀ f, step.before.table name f = wanted.table f) ∧
      ∀ step ∈ steps,
        ((step.before.interface name).carriesOurs = true →
          step.after.program name = step.before.program name) ∧
        ∀ p, step.call = .detach p → p.isOurs = false) ∧
    (wanted.isEmpty = true →
      (∀ step ∈ steps, step.call.isTableWrite = true →
        (step.before.interface name).carriesOurs = false) ∧
      ((∃ step ∈ steps, step.FailsOffTables) → ∀ step ∈ steps, step.call.isTableCall = false)) := by
  let view (m : Model) : InterfaceState := m.interface name
  have hcalls : ∀ (c : Call) (k : Model × List (Step Model)) (b : c.Answer) k', True →
      (Model.failing name).recorded c k b k' →
      True ∧ (InterfaceState.behaviour True).recorded c (Kernel.mapRecord view k) b
        (Kernel.mapRecord view k') := by
    intro c k b k' _ hcall
    refine ⟨trivial, Kernel.Behaviour.recorded_map ?_ hcall⟩
    exact fun _ _ _ _ => Model.behaves_of_failing
  obtain ⟨-, hview⟩ := Kernel.Procedure.Passes.simulate hcalls trivial hpass
  have hmem : ∀ step ∈ steps, step.map view ∈ steps.map (Step.map view) :=
    fun step hstep => List.mem_map_of_mem hstep
  constructor
  · intro hne
    have hall := maintains_protects_cycle hne now _ _ hview
    refine ⟨fun filed hmode step hstep hattaches f => ?_, fun step hstep => ⟨?_, ?_⟩⟩
    · exact (hall _ (hmem step hstep)).filled ⟨filed, hmode⟩ hattaches f
    · exact (hall _ (hmem step hstep)).spared
    · exact (hall _ (hmem step hstep)).foreign
  · intro hempty
    obtain ⟨hbare, hquiet⟩ := maintains_bares_cycle hempty now _ _ hview
    refine ⟨fun step hstep => hbare _ (hmem step hstep), ?_⟩
    rintro ⟨failed, hfailed, hfails⟩ step hstep
    exact hquiet ⟨_, hmem failed hfailed, hfails⟩ _ (hmem step hstep)

/-- An interface that carries a program of others and a leftover table. -/
def leftovers : Model :=
  ((Model.fresh ∅ none).tamperAttach "eth0" "other").2.tamperInsert "eth0"
    (.host (.ofNat .ipv4 7))

/-- A first cycle takes the interface over, and a second one clears it: a program gets attached,
over finished tables, and tables are written after it is gone. -/
theorem cycle_ordered_takeover :
    let first := fresh.cycle "eth0" (hosts [9]) .event ⟨0, 0⟩
    let end₁ := first.eval (Model.answer "eth0") leftovers
    let second := end₁.1.2.cycle "eth0" .empty .event ⟨1, 0⟩
    let steps₁ := first.steps (Model.answer "eth0") leftovers
    let steps₂ := second.steps (Model.answer "eth0") end₁.2.1
    (∃ step ∈ steps₁, step.Attaches) ∧
      (∀ step ∈ steps₁, step.Attaches → ∀ f,
        step.before.table "eth0" f = (hosts [9]).table f) ∧
      (∃ step ∈ steps₂, step.call.isTableWrite = true) ∧
      ∀ step ∈ steps₂, step.call.isTableWrite = true →
        (step.before.interface "eth0").carriesOurs = false := by
  intro first end₁ second steps₁ steps₂
  have hrecorded : ∀ (c : Call) (k : Model × List (Step Model)) (b : c.Answer) k',
      (Kernel.Behaviour.ofAnswer (Model.answer "eth0")).recorded c k b k' →
      (Model.failing "eth0").recorded c k b k' :=
    fun c k b k' h => ⟨⟨k.1.faults, h.1⟩, h.2⟩
  have hfirst : first.Passes (Model.failing "eth0").recorded (leftovers, []) (end₁.2.1, steps₁) :=
    (Kernel.Procedure.passes_steps _ first leftovers []).mono hrecorded
  have hsecond : second.Passes (Model.failing "eth0").recorded (end₁.2.1, [])
      ((second.eval (Model.answer "eth0") end₁.2.1).2.1, steps₂) :=
    (Kernel.Procedure.passes_steps _ second end₁.2.1 []).mono hrecorded
  have filed : (hosts [9]).WellFiled := DenyList.wellFiled_ofList _
  have hattaches : steps₁.any (fun step => step.call == .attach && step.answer.isOk) = true := by
    decide +kernel
  have hwrites : steps₂.any (fun step => step.call.isTableWrite) = true := by decide +kernel
  refine ⟨?_, ?_, List.any_eq_true.mp hwrites, ?_⟩
  · obtain ⟨step, hstep, h⟩ := List.any_eq_true.mp hattaches
    rw [Bool.and_eq_true, beq_iff_eq] at h
    exact ⟨step, hstep, h⟩
  · exact ((cycle_ordered hfirst).1 (by decide +kernel)).1 filed rfl
  · exact ((cycle_ordered hsecond).2 (by decide +kernel)).1

end Context

end IngressGuard
