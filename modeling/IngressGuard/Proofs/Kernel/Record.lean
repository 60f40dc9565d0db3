import IngressGuard.Proofs.Kernel.Passing

/-!
# Calls on the way

Some statements are about the calls of a run: which ones are made, in which states, and what came
before them.  A kernel that keeps a record of its calls turns them into statements about states:
`Behaviour.recorded` pairs each state with the calls so far, so that the rules for `Ensures` and
`Maintains` apply to records as they are.

Much of what a record shows is already clear from the calls that a procedure can make at all
(`Procedure.Makes`), whatever it is answered.
-/

namespace IngressGuard.Kernel

/-- A call that was made, with the states before and after it. -/
structure Step (κ : Type) where
  call : Call
  before : κ
  answer : call.Answer
  after : κ

namespace Step

variable {κ κ' : Type}

/-- A step seen through a view of the states. -/
def map (view : κ → κ') (step : Step κ) : Step κ' :=
  ⟨step.call, view step.before, step.answer, view step.after⟩

/-- A program gets attached. -/
def Attaches (step : Step κ) : Prop := step.call = .attach ∧ step.answer.isOk = true

end Step

namespace Call

/-- Whether a call can change which program is attached. -/
def changesProgram : Call → Bool
  | .attach | .detach _ => true
  | _ => false

/-- Whether a call is about a block table. -/
def isTableCall : Call → Bool
  | .read _ | .insert _ | .remove _ | .destroy _ => true
  | _ => false

theorem isTableCall_of_isTableWrite {c : Call} (h : c.isTableWrite = true) :
    c.isTableCall = true := by
  cases c <;> first | rfl | cases h

theorem changesProgram_of_isTableCall {c : Call} (h : c.isTableCall = true) :
    c.changesProgram = false := by
  cases c <;> first | rfl | cases h

end Call

/-- A call fails that is not about tables. -/
def Step.FailsOffTables {κ : Type} (step : Step κ) : Prop :=
  step.call.isTableCall = false ∧ step.answer.isOk = false

/-- A kernel with a record of the calls that it has answered, the first one first. -/
def Behaviour.recorded {κ : Type} (B : Behaviour κ) : Behaviour (κ × List (Step κ)) :=
  fun c k b k' => B c k.1 b k'.1 ∧ k'.2 = k.2 ++ [⟨c, k.1, b, k'.1⟩]

variable {σ τ ε α β κ κ' : Type} {B : Behaviour κ} {B' : Behaviour κ'}

/-- All calls so far are of a kind. -/
def AllSteps (R : Step κ → Prop) (k : κ × List (Step κ)) : Prop := ∀ step ∈ k.2, R step

theorem allSteps_nil {R : Step κ → Prop} {k : κ} : AllSteps R (k, []) := by simp [AllSteps]

theorem AllSteps.snoc {R : Step κ → Prop} {k k' : κ × List (Step κ)} {c : Call} {b : c.Answer}
    (h : AllSteps R k) (hcall : B.recorded c k b k') (hR : R ⟨c, k.1, b, k'.1⟩) :
    AllSteps R k' := by
  intro step hstep
  rw [hcall.2, List.mem_append, List.mem_singleton] at hstep
  rcases hstep with hstep | rfl
  · exact h step hstep
  · exact hR

/-- A state and its record, seen through a view of the states. -/
def mapRecord (view : κ → κ') (k : κ × List (Step κ)) : κ' × List (Step κ') :=
  (view k.1, k.2.map (Step.map view))

/-- Under a view that makes a kernel like another one, so is the kernel with a record. -/
theorem Behaviour.recorded_map {view : κ → κ'}
    (hstep : ∀ c k b k', B c k b k' → B' c (view k) b (view k')) {c : Call}
    {k k' : κ × List (Step κ)} {b : c.Answer} (h : B.recorded c k b k') :
    B'.recorded c (mapRecord view k) b (mapRecord view k') := by
  obtain ⟨hcall, hrecord⟩ := h
  refine ⟨hstep _ _ _ _ hcall, ?_⟩
  rw [mapRecord, mapRecord, hrecord, List.map_append]
  rfl

namespace Procedure

/-- What holds of all ends of runs holds also where calls are recorded. -/
theorem Ensures.recorded {Q : α → κ → Prop} {p : Procedure σ α} {k : κ × List (Step κ)}
    (h : p.Ensures B Q k.1) : p.Ensures B.recorded (fun a k' => Q a k'.1) k := by
  have hruns : p.Ensures B.recorded (fun a k' => True ∧ Q a k'.1) k :=
    Ensures.simulate (fun _ _ _ _ _ step => ⟨trivial, step.1⟩) trivial h
  exact hruns.mono fun _ _ h => h.2

/-- The calls of a run against a kernel that answers by a function. -/
def steps (answer : (c : Call) → κ → c.Answer × κ) : Procedure σ α → κ → List (Step κ)
  | done _, _ => []
  | call c _ resume, k =>
    let (a, k') := answer c k
    ⟨c, k, a, k'⟩ :: (resume a).steps answer k'
  | note _ rest, k => rest.steps answer k

theorem passes_steps (answer : (c : Call) → κ → c.Answer × κ) (p : Procedure σ α) (k : κ)
    (before : List (Step κ)) :
    p.Passes (Behaviour.ofAnswer answer).recorded (k, before)
      ((p.eval answer k).2.1, before ++ p.steps answer k) := by
  induction p generalizing k before with
  | done a =>
    rw [steps, List.append_nil]
    exact .here _ _
  | call c s resume ih =>
    obtain ⟨a, k', hanswer⟩ : ∃ a k', answer c k = (a, k') := ⟨_, _, rfl⟩
    have hstep : (Behaviour.ofAnswer answer).recorded c (k, before) a
        (k', before ++ [⟨c, k, a, k'⟩]) := ⟨hanswer, rfl⟩
    simp only [steps, eval, hanswer]
    rw [List.append_cons]
    exact .call hstep (ih a k' _)
  | note entry rest ih => exact .note (ih k before)

/-! ## The calls that a procedure can make -/

/-- Every call that a procedure can make is of a kind. -/
def Makes (P : Call → Prop) : Procedure σ α → Prop
  | done _ => True
  | call c _ resume => P c ∧ ∀ b, (resume b).Makes P
  | note _ next => next.Makes P

variable {P : Call → Prop}

theorem Makes.bind {p : Procedure σ α} {next : α → Procedure σ β} (h : p.Makes P)
    (hnext : ∀ a, (next a).Makes P) : (p.bind next).Makes P := by
  induction p with
  | done a => exact hnext a
  | call c s resume ih => exact ⟨h.1, fun b => ih b (h.2 b)⟩
  | note entry next ih => exact ih h

theorem makes_mapState {f : σ → τ} {p : Procedure σ α} : (p.mapState f).Makes P ↔ p.Makes P := by
  induction p with
  | done a => exact Iff.rfl
  | call c s resume ih => simp only [mapState, Makes, ih]
  | note entry next ih => simp only [mapState, Makes, ih]

/-- What every call of a kind keeps is kept by a procedure that makes only such calls. -/
theorem Makes.maintains {I : κ → Prop} {p : Procedure σ α} {k : κ} (h : p.Makes P)
    (hstep : ∀ c k b k', P c → I k → B c k b k' → I k') (hk : I k) : p.Maintains B I k := by
  induction p generalizing k with
  | done a => exact maintains_done.mpr hk
  | call c s resume ih =>
    refine maintains_call.mpr ⟨hk, fun b k' step => ?_⟩
    exact ih b (h.2 b) (hstep c k b k' h.1 hk step)
  | note entry next ih => exact maintains_note.mpr (ih h hk)

end Procedure

namespace Work

variable {P : Call → Prop} {Q : α → σ → κ → Prop} {E : ε → σ → κ → Prop} {s : σ}

/-- Every call that a work can make is of a kind. -/
def Makes (P : Call → Prop) (w : Work σ ε α) : Prop := ∀ s, (w s).Makes P

theorem makes_pure {a : α} : Makes P (pure a : Work σ ε α) := fun _ => trivial

theorem makes_get : Makes P (Work.get : Work σ ε σ) := fun _ => trivial

theorem makes_modify {f : σ → σ} : Makes P (Work.modify f : Work σ ε Unit) := fun _ => trivial

theorem makes_fail {e : ε} : Makes P (Work.fail e : Work σ ε α) := fun _ => trivial

theorem makes_note {entry : Log.Entry} : Makes P (Work.note entry : Work σ ε Unit) :=
  fun _ => trivial

theorem makes_call {c : Call} {onError : KernelError → ε} (h : P c) :
    Makes P (Work.call c onError : Work σ ε c.Value) := by
  refine fun s => ⟨h, fun b => ?_⟩
  cases b <;> trivial

theorem Makes.bind {w : Work σ ε β} {next : β → Work σ ε α} (h : Makes P w)
    (hnext : ∀ b, Makes P (next b)) : Makes P (w >>= next) := by
  refine fun s => Procedure.Makes.bind (h s) ?_
  rintro ⟨e | b, s'⟩
  · trivial
  · exact hnext b s'

theorem Makes.focus {part : τ → σ} {put : σ → τ → τ} {w : Work σ ε α} (h : Makes P w) :
    Makes P (Work.focus part put w) :=
  fun s => (Procedure.makes_mapState.mpr (h (part s))).bind fun _ => trivial

theorem Makes.each {w : β → Work σ ε Unit} {l : List β} (h : ∀ b, Makes P (w b)) :
    Makes P (Work.each w l) := by
  induction l with
  | nil => exact makes_pure
  | cons b rest ih => exact (h b).bind fun _ => ih

theorem Makes.maintains {I : κ → Prop} {w : Work σ ε α} {k : κ} (h : Makes P w)
    (hstep : ∀ c k b k', P c → I k → B c k b k' → I k') (hk : I k) : Work.Maintains B w I s k :=
  Procedure.Makes.maintains (h s) hstep hk

theorem Ensures.and {R : α → σ → κ → Prop} {F : ε → σ → κ → Prop} {w : Work σ ε α} {k : κ}
    (h : Work.Ensures B w Q E s k) (h' : Work.Ensures B w R F s k) :
    Work.Ensures B w (fun a s' k' => Q a s' k' ∧ R a s' k') (fun e s' k' => E e s' k' ∧ F e s' k')
      s k := by
  rintro ⟨r | r, s'⟩ k' hrun
  · exact ⟨h _ _ hrun, h' _ _ hrun⟩
  · exact ⟨h _ _ hrun, h' _ _ hrun⟩

theorem Ensures.recorded {w : Work σ ε α} {k : κ × List (Step κ)}
    (h : Work.Ensures B w Q E s k.1) :
    Work.Ensures B.recorded w (fun a s' k' => Q a s' k'.1) (fun e s' k' => E e s' k'.1) s k := by
  refine (Procedure.Ensures.recorded h).mono ?_
  rintro ⟨r | r, s'⟩ k' hr <;> exact hr

end Work

namespace InterfaceState

variable {mayFail : Prop} {c : Call} {s s' : InterfaceState} {b : c.Answer}

theorem program_of_behaviour (h : behaviour mayFail c s b s') (hc : c.changesProgram = false) :
    s'.program = s.program := by
  cases b with
  | error e => rw [h.2]
  | ok a =>
    have heffect := h.2
    cases c with
    | attach | detach p => cases hc
    | probe | query | read f => rw [heffect.2]
    | insert p | remove p | destroy f => rw [show s' = _ from heffect]; rfl

theorem tables_of_behaviour (h : behaviour mayFail c s b s') (hc : c.isTableWrite = false) :
    s'.tables = s.tables := by
  cases b with
  | error e => rw [h.2]
  | ok a =>
    have heffect := h.2
    cases c with
    | insert p | remove p | destroy f => cases hc
    | probe | query | read f => rw [heffect.2]
    | attach => rw [heffect.2, tables_withProgram]
    | detach p => rw [show s' = _ from heffect, tables_withProgram]

end InterfaceState

end IngressGuard.Kernel
