import IngressGuard.Proofs.Kernel.Model

/-!
# Kernels that differ in what they were asked

Reading a table leaves an entry in the log of the modelled kernel and changes nothing else, so two
procedures that differ in what they read may still end alike: with the same result, in kernels
that agree on everything but their logs.  `Procedure.Agree` is that relation between two
procedures and the kernels they start from.  Two works agree if they start with the same work and
agree from there on (`Work.agree_bind_left`), or if they agree up to some point and go on with the
same work (`Work.Agree.bind_right`).

Where an interface does not exist, every call about it fails, and a procedure changes nothing.
-/

namespace IngressGuard.Kernel

namespace Model

variable {m m' : Model} {name : String}

/-! ## Answers -/

/-- Two kernels agree on everything but their logs. -/
def Alike (m m' : Model) : Prop := m.clearLog = m'.clearLog

theorem Alike.refl (m : Model) : m.Alike m := rfl

theorem alike_record (m : Model) (op : Operation) : m.Alike (m.record op) := rfl

theorem Alike.symm (h : m.Alike m') : m'.Alike m := Eq.symm h

theorem Alike.trans {m'' : Model} (h : m.Alike m') (h' : m'.Alike m'') : m.Alike m'' :=
  Eq.trans h h'

theorem Alike.interface_eq (h : m.Alike m') (name : String) :
    m.interface name = m'.interface name := by
  have hclear : m.clearLog.interface name = m'.clearLog.interface name := by
    rw [show m.clearLog = m'.clearLog from h]
  exact hclear

theorem write_clearLog (f : InterfaceState → InterfaceState) (op : Operation) :
    (m.clearLog.write name f op).1 = (m.write name f op).1 ∧
      Alike (m.clearLog.write name f op).2 (m.write name f op).2 := by
  have hexists : m.clearLog.exists? name = m.exists? name := rfl
  have hfaults : m.clearLog.faults = m.faults := rfl
  simp only [write, hexists, hfaults]
  cases m.exists? name with
  | false => exact ⟨rfl, rfl⟩
  | true => cases m.faults.write.1 <;> exact ⟨rfl, rfl⟩

/-- A kernel answers as if nothing had been logged. -/
theorem answer_clearLog (m : Model) (name : String) (c : Call) :
    (m.clearLog.answer name c).1 = (m.answer name c).1 ∧
      Alike (m.clearLog.answer name c).2 (m.answer name c).2 := by
  have hexists : m.clearLog.exists? name = m.exists? name := rfl
  have hfaults : m.clearLog.faults = m.faults := rfl
  have hprogram : m.clearLog.program name = m.program name := rfl
  cases c with
  | probe =>
    have hunsupported : m.clearLog.unsupported = m.unsupported := rfl
    simp only [answer, probe, hexists, hunsupported]
    cases m.exists? name with
    | false => exact ⟨rfl, rfl⟩
    | true => cases m.unsupported[name]? <;> exact ⟨rfl, rfl⟩
  | query =>
    simp only [answer, query, hexists]
    cases m.exists? name <;> exact ⟨rfl, rfl⟩
  | attach =>
    simp only [answer, attach, hexists, hfaults, hprogram]
    cases m.exists? name with
    | false => exact ⟨rfl, rfl⟩
    | true =>
      by_cases hfails : m.faults.attaches > 0
      · simp only [hfails, if_true]
        exact ⟨rfl, rfl⟩
      · simp only [hfails, if_false]
        cases m.program name <;> exact ⟨rfl, rfl⟩
  | detach p =>
    simp only [answer, detach, hexists, hfaults, hprogram]
    cases m.exists? name with
    | false => exact ⟨rfl, rfl⟩
    | true =>
      by_cases hfails : m.faults.detaches > 0
      · simp only [hfails, if_true]
        exact ⟨rfl, rfl⟩
      · simp only [hfails, if_false]
        cases m.program name with
        | none => exact ⟨rfl, rfl⟩
        | some other =>
          by_cases hid : other.id = p.id
          · simp only [hid, if_true]
            exact ⟨rfl, rfl⟩
          · simp only [hid, if_false]
            exact ⟨rfl, rfl⟩
  | read f =>
    simp only [answer, read, hexists, hfaults]
    cases m.exists? name with
    | false => exact ⟨rfl, rfl⟩
    | true =>
      by_cases hfails : m.faults.reads > 0
      · simp only [hfails, if_true]
        exact ⟨rfl, rfl⟩
      · simp only [hfails, if_false]
        exact ⟨rfl, rfl⟩
  | insert p => exact write_clearLog _ _
  | remove p => exact write_clearLog _ _
  | destroy f => exact write_clearLog _ _

theorem Alike.answer (h : m.Alike m') (name : String) (c : Call) :
    (m.answer name c).1 = (m'.answer name c).1 ∧ (m.answer name c).2.Alike (m'.answer name c).2 := by
  obtain ⟨hvalue, hafter⟩ := answer_clearLog m name c
  obtain ⟨hvalue', hafter'⟩ := answer_clearLog m' name c
  rw [show m.clearLog = m'.clearLog from h] at hvalue hafter
  exact ⟨hvalue.symm.trans hvalue', hafter.symm.trans hafter'⟩

/-! ## Reads that succeed -/

/-- An interface exists, and no failure of a read is due. -/
structure Readable (m : Model) (name : String) : Prop where
  present : m.exists? name = true
  reads : m.faults.reads = 0

theorem Readable.read (h : m.Readable name) (f : Family) :
    m.read name f = (.ok (m.table name f), m.record (.read name f)) := by
  unfold Model.read
  rw [h.present, h.reads]
  rfl

theorem reads_write {faults : Faults} (h : faults.reads = 0) : faults.write.2.reads = 0 := by
  unfold Faults.write
  rcases hdue : faults.writesBeforeFailure with _ | _ | n <;> simp only <;> split <;> exact h

/-- No call arms a failure of a read. -/
theorem reads_answer (h : m.faults.reads = 0) (c : Call) :
    (m.answer name c).2.faults.reads = 0 := by
  have hwrite : ∀ f op, (m.write name f op).2.faults.reads = 0 := by
    intro f op
    unfold write
    split
    · exact h
    · dsimp only
      split <;> exact reads_write h
  cases c with
  | probe =>
    simp only [answer, probe]
    split
    · exact h
    · split <;> exact h
  | query =>
    simp only [answer, query]
    split <;> exact h
  | attach =>
    simp only [answer, attach]
    split
    · exact h
    · split
      · exact h
      · split <;> exact h
  | detach p =>
    simp only [answer, detach]
    split
    · exact h
    · split
      · exact h
      · split
        · split <;> exact h
        · exact h
  | read f =>
    simp only [answer, Model.read]
    split
    · exact h
    · split
      · rw [h]
      · exact h
  | insert p => exact hwrite _ _
  | remove p => exact hwrite _ _
  | destroy f => exact hwrite _ _

theorem Readable.answer (h : m.Readable name) (c : Call) : (m.answer name c).2.Readable name := by
  refine ⟨?_, reads_answer h.reads c⟩
  unfold exists?
  rw [(agreesBesides_answer name m c).known]
  exact h.present

/-- What holds of all runs of a procedure on one interface holds of its run against the modelled
kernel, and after it reads still succeed. -/
theorem Readable.ensures {σ α : Type} {p : Procedure σ α} {Q : α → InterfaceState → Prop}
    (h : m.Readable name) (hp : p.Ensures (InterfaceState.behaviour True) Q (m.interface name)) :
    p.Ensures (.ofAnswer (Model.answer name))
      (fun a m' => m'.Readable name ∧ Q a (m'.interface name)) m := by
  refine Procedure.Ensures.simulate ?_ h hp
  intro c k b k' hk hstep
  have hbehaves : InterfaceState.behaviour True c (k.interface name) (k.answer name c).1
      ((k.answer name c).2.interface name) := answer_behaves (.inl trivial) c
  have hreadable := hk.answer c
  rw [show k.answer name c = (b, k') from hstep] at hbehaves hreadable
  exact ⟨hreadable, hbehaves⟩

/-! ## Interfaces that do not exist -/

/-- A kernel that refuses every call. -/
def refusing : Behaviour Model := fun _ m b m' => m' = m ∧ b.isOk = false

theorem answer_missing (h : m.exists? name = false) (c : Call) :
    (m.answer name c).1 = .error (.noSuchInterface name) ∧ m.Alike (m.answer name c).2 := by
  cases c <;>
    simp only [answer, probe, query, attach, detach, read, insert, remove, destroy, write, h] <;>
    exact ⟨rfl, rfl⟩

/-- What holds of all runs of a procedure against a kernel that refuses every call holds of its
run on an interface that does not exist, which changes nothing. -/
theorem ensures_missing {σ α : Type} {p : Procedure σ α} {Q : α → Model → Prop}
    (h : m.exists? name = false) (hp : p.Ensures refusing Q m.clearLog) :
    p.Ensures (.ofAnswer (Model.answer name)) (fun a m' => m.Alike m' ∧ Q a m'.clearLog) m := by
  have hcalls : ∀ (c : Call) (k : Model) (b : c.Answer) k', m.Alike k →
      Behaviour.ofAnswer (Model.answer name) c k b k' →
      m.Alike k' ∧ refusing c k.clearLog b k'.clearLog := by
    intro c k b k' hk hstep
    have hmissing : k.exists? name = false := by
      have hclear : k.clearLog.exists? name = m.clearLog.exists? name := by
        rw [show m.clearLog = k.clearLog from hk]
      exact hclear.trans h
    obtain ⟨herror, halike⟩ := answer_missing hmissing c
    rw [show k.answer name c = (b, k') from hstep] at herror halike
    exact ⟨hk.trans halike, halike.symm, by rw [show b = _ from herror]; rfl⟩
  exact Procedure.Ensures.simulate hcalls (.refl m) hp

end Model

/-! ## Agreement -/

namespace Procedure

variable {σ τ α β κ : Type} {answer : (c : Call) → κ → c.Answer × κ}

theorem eval_bind (p : Procedure σ α) (next : α → Procedure σ β) (k : κ) :
    (p.bind next).eval answer k =
      (((next (p.eval answer k).1).eval answer (p.eval answer k).2.1).1,
        ((next (p.eval answer k).1).eval answer (p.eval answer k).2.1).2.1,
        (p.eval answer k).2.2 ++
          ((next (p.eval answer k).1).eval answer (p.eval answer k).2.1).2.2) := by
  induction p generalizing k with
  | done a => rfl
  | call c s resume ih => exact ih _ _
  | note entry rest ih =>
    simp only [Procedure.bind, eval, ih, List.cons_append]

theorem eval_mapState (f : σ → τ) (p : Procedure σ α) (k : κ) :
    (p.mapState f).eval answer k = p.eval answer k := by
  induction p generalizing k with
  | done a => rfl
  | call c s resume ih => exact ih _ _
  | note entry rest ih => simp only [mapState, eval, ih]

/-- Two procedures end alike: with the same result, in kernels that agree on everything but their
logs. -/
structure Agree (name : String) (p p' : Procedure σ α) (m m' : Model) : Prop where
  result : (p.eval (Model.answer name) m).1 = (p'.eval (Model.answer name) m').1
  kernel : (p.eval (Model.answer name) m).2.1.Alike (p'.eval (Model.answer name) m').2.1

variable {name : String} {m m' : Model}

theorem agree_same (h : m.Alike m') (p : Procedure σ α) : Agree name p p m m' := by
  induction p generalizing m m' with
  | done a => exact ⟨rfl, h⟩
  | call c s resume ih =>
    obtain ⟨hvalue, hafter⟩ := h.answer name c
    obtain ⟨hresult, hkernel⟩ := ih (m.answer name c).1 hafter
    refine ⟨?_, ?_⟩ <;> simp only [eval]
    · rw [hresult, hvalue]
    · rwa [← hvalue]
  | note entry rest ih => exact ⟨(ih h).result, (ih h).kernel⟩

theorem Agree.bind_right {p p' : Procedure σ α} (h : Agree name p p' m m')
    (next : α → Procedure σ β) : Agree name (p.bind next) (p'.bind next) m m' := by
  obtain ⟨hresult, hkernel⟩ : Agree name _ _ _ _ :=
    agree_same h.kernel (next (p.eval (Model.answer name) m).1)
  refine ⟨?_, ?_⟩ <;> simp only [eval_bind]
  · rw [hresult, h.result]
  · rwa [← h.result]

theorem agree_bind_left {p : Procedure σ α} {next next' : α → Procedure σ β}
    (h : p.Ensures (.ofAnswer (Model.answer name))
      (fun a m' => Agree name (next a) (next' a) m' m') m) :
    Agree name (p.bind next) (p.bind next') m m := by
  obtain ⟨hresult, hkernel⟩ := h.eval
  refine ⟨?_, ?_⟩ <;> simp only [eval_bind]
  · exact hresult
  · exact hkernel

theorem Agree.mapState {p p' : Procedure σ α} (h : Agree name p p' m m') (f : σ → τ) :
    Agree name (p.mapState f) (p'.mapState f) m m' := by
  refine ⟨?_, ?_⟩ <;> simp only [eval_mapState]
  · exact h.result
  · exact h.kernel

end Procedure

namespace Work

variable {σ τ ε α β : Type} {name : String} {m m' : Model} {s : σ}

/-- Two works from the same state end alike. -/
def Agree (name : String) (w w' : Work σ ε α) (s : σ) (m m' : Model) : Prop :=
  Procedure.Agree name (w s) (w' s) m m'

theorem Agree.bind_right {w w' : Work σ ε β} (h : Work.Agree name w w' s m m')
    (next : β → Work σ ε α) : Work.Agree name (w >>= next) (w' >>= next) s m m' :=
  Procedure.Agree.bind_right h _

/-- After the same first work, two works agree if they agree wherever it has ended well. -/
theorem agree_bind_left {w : Work σ ε β} {next next' : β → Work σ ε α}
    (h : Work.Ensures (.ofAnswer (Model.answer name)) w
      (fun b s' m' => Work.Agree name (next b) (next' b) s' m' m') (fun _ _ _ => True) s m) :
    Work.Agree name (w >>= next) (w >>= next') s m m := by
  refine Procedure.agree_bind_left (Procedure.Ensures.mono h ?_)
  rintro ⟨e | b, s'⟩ k hk
  · exact Procedure.agree_same (.refl k) _
  · exact hk

/-- A work agrees with one that first finds something out, if it agrees with what that goes on
with. -/
theorem agree_bind_of_eval {w : Work σ ε α} {first : Work σ ε β} {next : β → Work σ ε α} {b : β}
    {m'' : Model} {log : Log.Entries}
    (hfirst : (first s).eval (Model.answer name) m' = ((.ok b, s), m'', log))
    (h : Work.Agree name w (next b) s m m'') :
    Work.Agree name w (first >>= next) s m m' := by
  obtain ⟨hresult, hkernel⟩ := h
  refine ⟨?_, ?_⟩ <;> simp only [bind, Work.bind, Procedure.eval_bind, hfirst]
  · exact hresult
  · exact hkernel

/-- A kernel that refuses every call refuses this one. -/
theorem ensures_call_refused {c : Call} {onError : KernelError → ε} {Q : c.Value → σ → Model → Prop}
    {E : ε → σ → Model → Prop} (h : ∀ e, E (onError e) s m) :
    Work.Ensures Model.refusing (Work.call c onError) Q E s m := by
  refine Work.ensures_call.mpr ?_
  rintro (e | a) _ ⟨rfl, hrefused⟩
  · exact h e
  · cases hrefused

theorem Agree.focus {w w' : Work σ ε α} {t : τ} {part : τ → σ} {put : σ → τ → τ}
    (h : Work.Agree name w w' (part t) m m') :
    Work.Agree name (Work.focus part put w) (Work.focus part put w') t m m' :=
  (Procedure.Agree.mapState h _).bind_right _

end Work

end IngressGuard.Kernel
