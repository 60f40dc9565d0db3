import IngressGuard.Proofs.Kernel.Alike
import IngressGuard.Proofs.Kernel.Record

/-!
# Procedures that only look

A procedure may make calls that change the kernel and still, on an interface that is as it should
be, come to its end by queries and reads alone.  `Procedure.Looks` follows such a run through the
procedure: it depends on nothing but what the interface holds.  Against the modelled kernel the run
is just that, and it leaves nothing behind but entries in the kernel's log
(`Procedure.Looks.eval`).
-/

namespace IngressGuard.Kernel

/-- Whether a call asks for what the interface holds. -/
def Call.looks : Call → Bool
  | .query | .read _ => true
  | _ => false

variable {σ τ ε α β : Type} {s : InterfaceState} {m : Model} {name : String}

theorem Model.Readable.query (h : m.Readable name) :
    m.query name = (.ok (m.program name), m.record (.query name)) := by
  simp [Model.query, h.present]

namespace Procedure

/-- A procedure that is told what an interface holds ends with a result, having made no calls but
queries and reads. -/
inductive Looks (s : InterfaceState) : Procedure σ α → α → Prop
  | done (a : α) : Looks s (.done a) a
  | query {state : σ} {resume : Call.query.Answer → Procedure σ α} {a : α}
      (rest : Looks s (resume (.ok s.program)) a) : Looks s (.call .query state resume) a
  | read {f : Family} {state : σ} {resume : (Call.read f).Answer → Procedure σ α} {a : α}
      (rest : Looks s (resume (.ok (s.tables.get f))) a) : Looks s (.call (.read f) state resume) a
  | note {entry : Log.Entry} {next : Procedure σ α} {a : α} (rest : Looks s next a) :
      Looks s (.note entry next) a

theorem Looks.bind {p : Procedure σ α} {next : α → Procedure σ β} {a : α} {b : β}
    (h : p.Looks s a) (hnext : (next a).Looks s b) : (p.bind next).Looks s b := by
  induction h with
  | done a => exact hnext
  | query rest ih => exact .query (ih hnext)
  | read rest ih => exact .read (ih hnext)
  | note rest ih => exact .note (ih hnext)

theorem Looks.mapState {p : Procedure σ α} {a : α} (h : p.Looks s a) (f : σ → τ) :
    (p.mapState f).Looks s a := by
  induction h with
  | done a => exact .done a
  | query rest ih => exact .query ih
  | read rest ih => exact .read ih
  | note rest ih => exact .note ih

/-- Against the modelled kernel, as long as reads succeed, a procedure that only looks comes to
its end, and nothing changes but the log. -/
theorem Looks.eval {p : Procedure σ α} {a : α} (h : p.Looks (m.interface name) a)
    (hread : m.Readable name) :
    (p.eval (Model.answer name) m).1 = a ∧ m.Alike (p.eval (Model.answer name) m).2.1 ∧
      ∀ step ∈ p.steps (Model.answer name) m, step.call.looks = true := by
  generalize hs : m.interface name = s at h
  induction h generalizing m with
  | done a => exact ⟨rfl, .refl m, by simp [steps]⟩
  | query rest ih =>
    have hanswer : m.answer name .query = (.ok s.program, m.record (.query name)) := by
      rw [← hs]
      exact hread.query
    have hread' : (m.record (.query name)).Readable name := ⟨hread.present, hread.reads⟩
    obtain ⟨hresult, hkernel, hsteps⟩ := ih hread' hs
    simp only [Procedure.eval, steps, hanswer]
    exact ⟨hresult, (Model.alike_record m _).trans hkernel, by simpa [Call.looks] using hsteps⟩
  | @read f _ _ _ rest ih =>
    have hanswer : m.answer name (.read f) = (.ok (s.tables.get f), m.record (.read name f)) := by
      rw [← hs]
      exact hread.read f
    have hread' : (m.record (.read name f)).Readable name := ⟨hread.present, hread.reads⟩
    obtain ⟨hresult, hkernel, hsteps⟩ := ih hread' hs
    simp only [Procedure.eval, steps, hanswer]
    exact ⟨hresult, (Model.alike_record m _).trans hkernel, by simpa [Call.looks] using hsteps⟩
  | note rest ih => exact ih hread hs

end Procedure

namespace Work

variable {t t' t'' : σ}

/-- A work only looks, and it ends well with a result and a local state. -/
def Looks (s : InterfaceState) (w : Work σ ε α) (t : σ) (a : α) (t' : σ) : Prop :=
  (w t).Looks s (.ok a, t')

theorem looks_pure (a : α) : Looks s (pure a : Work σ ε α) t a t := .done _

theorem looks_get : Looks s (Work.get : Work σ ε σ) t t t := .done _

theorem looks_modify (f : σ → σ) : Looks s (Work.modify f : Work σ ε Unit) t () (f t) := .done _

theorem looks_note (entry : Log.Entry) : Looks s (Work.note entry : Work σ ε Unit) t () t :=
  .note (.done _)

theorem looks_query (onError : KernelError → ε) :
    Looks s (Work.call .query onError : Work σ ε Call.query.Value) t s.program t :=
  .query (.done _)

theorem looks_read (f : Family) (onError : KernelError → ε) :
    Looks s (Work.call (.read f) onError : Work σ ε (Call.read f).Value) t (s.tables.get f) t :=
  .read (.done _)

theorem Looks.bind {w : Work σ ε β} {next : β → Work σ ε α} {a : α} {b : β}
    (h : Looks s w t b t') (hnext : Looks s (next b) t' a t'') : Looks s (w >>= next) t a t'' :=
  Procedure.Looks.bind h hnext

theorem Looks.focus {part : τ → σ} {put : σ → τ → τ} {w : Work σ ε α} {u : τ} {a : α}
    (h : Looks s w (part u) a t') : Looks s (Work.focus part put w) u a (put t' u) :=
  (Procedure.Looks.mapState h _).bind (.done _)

end Work

end IngressGuard.Kernel
