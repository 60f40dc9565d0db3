import IngressGuard.Proofs.Kernel.Interface

/-!
# States on the way

`Procedure.Ensures` speaks of the ends of runs only.  A run may stop at any call, and others look
at the kernel while it goes on, so some statements are about every state that a run passes
through: the first one, and the one after each call, whether the call has failed or not.
`Procedure.Passes` is that relation, and `Procedure.Maintains` says that all those states are as
required.

Where one work follows another, the states of the second one start from the ends of the first one
(`Work.maintains_bind`), so the rules for `Maintains` stand on those for `Ensures`.
-/

namespace IngressGuard.Kernel

namespace Procedure

variable {σ τ α β κ κ' : Type} {B : Behaviour κ} {B' : Behaviour κ'} {I J : κ → Prop}

/-- Some run of a procedure against a kernel, to its end or not, passes through a state. -/
inductive Passes (B : Behaviour κ) : Procedure σ α → κ → κ → Prop
  | here (p : Procedure σ α) (k : κ) : Passes B p k k
  | call {c : Call} {s : σ} {resume : c.Answer → Procedure σ α} {k k' k'' : κ} {b : c.Answer}
      (step : B c k b k') (rest : Passes B (resume b) k' k'') : Passes B (.call c s resume) k k''
  | note {entry : Log.Entry} {next : Procedure σ α} {k k' : κ} (rest : Passes B next k k') :
      Passes B (.note entry next) k k'

/-- Every state that a run of a procedure against a kernel passes through is as required. -/
def Maintains (B : Behaviour κ) (p : Procedure σ α) (I : κ → Prop) (k : κ) : Prop :=
  ∀ k', p.Passes B k k' → I k'

/-! ## Rules for procedures -/

theorem maintains_done {a : α} {k : κ} :
    (done a : Procedure σ α).Maintains B I k ↔ I k := by
  constructor
  · exact fun h => h k (.here _ k)
  · intro h k' hpass
    cases hpass
    exact h

theorem maintains_call {c : Call} {s : σ} {resume : c.Answer → Procedure σ α} {k : κ} :
    (call c s resume).Maintains B I k ↔
      I k ∧ ∀ b k', B c k b k' → (resume b).Maintains B I k' := by
  constructor
  · intro h
    exact ⟨h k (.here _ k), fun b k' step k'' rest => h k'' (.call step rest)⟩
  · rintro ⟨hk, hrest⟩ k'' hpass
    cases hpass with
    | here => exact hk
    | call step rest => exact hrest _ _ step k'' rest

theorem maintains_note {entry : Log.Entry} {next : Procedure σ α} {k : κ} :
    (note entry next).Maintains B I k ↔ next.Maintains B I k := by
  constructor
  · exact fun h k' rest => h k' (.note rest)
  · intro h k' hpass
    cases hpass with
    | here => exact h k (.here _ k)
    | note rest => exact h k' rest

/-- The start of a run is one of the states that it passes through, and so is its end. -/
theorem Maintains.start {p : Procedure σ α} {k : κ} (h : p.Maintains B I k) : I k :=
  h k (.here p k)

theorem Maintains.ensures {p : Procedure σ α} {k : κ} (h : p.Maintains B I k) :
    p.Ensures B (fun _ k' => I k') k := by
  induction p generalizing k with
  | done a => exact ensures_done.mpr (maintains_done.mp h)
  | call c s resume ih =>
    exact ensures_call.mpr fun b k' step => ih b ((maintains_call.mp h).2 b k' step)
  | note entry next ih => exact ensures_note.mpr (ih (maintains_note.mp h))

theorem maintains_bind {p : Procedure σ α} {next : α → Procedure σ β} {k : κ} :
    (p.bind next).Maintains B I k ↔
      p.Maintains B I k ∧ p.Ensures B (fun a k' => (next a).Maintains B I k') k := by
  induction p generalizing k with
  | done a =>
    simp only [Procedure.bind, maintains_done, ensures_done]
    exact ⟨fun h => ⟨h.start, h⟩, fun h => h.2⟩
  | call c s resume ih =>
    simp only [Procedure.bind, maintains_call, ensures_call, ih, forall_and, and_assoc]
  | note entry next ih => simp only [Procedure.bind, maintains_note, ensures_note, ih]

theorem maintains_mapState {f : σ → τ} {p : Procedure σ α} {k : κ} :
    (p.mapState f).Maintains B I k ↔ p.Maintains B I k := by
  induction p generalizing k with
  | done a => simp only [mapState, maintains_done]
  | call c s resume ih => simp only [mapState, maintains_call, ih]
  | note entry next ih => simp only [mapState, maintains_note, ih]

theorem Maintains.mono {p : Procedure σ α} {k : κ} (h : p.Maintains B I k)
    (hIJ : ∀ k', I k' → J k') : p.Maintains B J k :=
  fun k' hpass => hIJ k' (h k' hpass)

/-- What holds on the way against another kernel, whose steps are like those of this one seen
through a view, holds through the view. -/
theorem Passes.simulate {view : κ → κ'} {R : κ → Prop}
    (hstep : ∀ c k b k', R k → B c k b k' → R k' ∧ B' c (view k) b (view k'))
    {p : Procedure σ α} {k k' : κ} (hR : R k) (h : p.Passes B k k') :
    R k' ∧ p.Passes B' (view k) (view k') := by
  induction h with
  | here p k => exact ⟨hR, .here p _⟩
  | call step rest ih =>
    obtain ⟨hR', hstep'⟩ := hstep _ _ _ _ hR step
    obtain ⟨hR'', hrest⟩ := ih hR'
    exact ⟨hR'', .call hstep' hrest⟩
  | note rest ih =>
    obtain ⟨hR', hrest⟩ := ih hR
    exact ⟨hR', .note hrest⟩

/-- The log entries before the first call do not change the kernel. -/
theorem passes_of_afterOpening {p : Procedure σ α} {k k' : κ}
    (h : p.afterOpening.Passes B k k') : p.Passes B k k' := by
  induction p with
  | done a => exact h
  | call c s resume => exact h
  | note entry rest ih => exact .note (ih h)

theorem Passes.mono {C : Behaviour κ} {p : Procedure σ α} {k k' : κ} (h : p.Passes B k k')
    (hBC : ∀ c k b k', B c k b k' → C c k b k') : p.Passes C k k' := by
  induction h with
  | here p k => exact .here p k
  | call step rest ih => exact .call (hBC _ _ _ _ step) ih
  | note rest ih => exact .note ih

/-- A run against a kernel that answers by a function passes through the states of its trace. -/
theorem passes_of_mem_trace {answer : (c : Call) → κ → c.Answer × κ} {p : Procedure σ α}
    {k k' : κ} (h : k' ∈ p.trace answer k) : p.Passes (.ofAnswer answer) k k' := by
  induction p generalizing k with
  | done a => cases h
  | call c s resume ih =>
    have hstep : Behaviour.ofAnswer answer c k (answer c k).1 (answer c k).2 := rfl
    rcases List.mem_cons.mp h with rfl | h
    · exact .call hstep (.here _ _)
    · exact .call hstep (ih _ h)
  | note entry next ih => exact .note (ih h)

end Procedure

namespace Work

variable {σ τ ε α β κ : Type} {B : Behaviour κ} {I J : κ → Prop} {s : σ} {k : κ}

/-- Every state that a run of a work passes through is as required. -/
def Maintains (B : Behaviour κ) (w : Work σ ε α) (I : κ → Prop) (s : σ) (k : κ) : Prop :=
  (w s).Maintains B I k

/-! ## Rules for works -/

theorem maintains_pure {a : α} : Work.Maintains B (pure a : Work σ ε α) I s k ↔ I k :=
  Procedure.maintains_done

theorem maintains_get : Work.Maintains B (Work.get : Work σ ε σ) I s k ↔ I k :=
  Procedure.maintains_done

theorem maintains_modify {f : σ → σ} :
    Work.Maintains B (Work.modify f : Work σ ε Unit) I s k ↔ I k :=
  Procedure.maintains_done

theorem maintains_fail {e : ε} : Work.Maintains B (Work.fail e : Work σ ε α) I s k ↔ I k :=
  Procedure.maintains_done

theorem maintains_note {entry : Log.Entry} :
    Work.Maintains B (Work.note entry : Work σ ε Unit) I s k ↔ I k :=
  Procedure.maintains_note.trans Procedure.maintains_done

theorem maintains_call {c : Call} {onError : KernelError → ε} :
    Work.Maintains B (Work.call c onError) I s k ↔ I k ∧ ∀ b k', B c k b k' → I k' := by
  refine Procedure.maintains_call.trans (and_congr_right fun _ => ?_)
  refine forall_congr' fun b => forall_congr' fun k' => forall_congr' fun _ => ?_
  cases b <;> exact Procedure.maintains_done

theorem Maintains.ensures {w : Work σ ε α} (h : Work.Maintains B w I s k) :
    Work.Ensures B w (fun _ _ k' => I k') (fun _ _ k' => I k') s k := by
  refine (Procedure.Maintains.ensures h).mono ?_
  rintro ⟨r | r, s'⟩ k' hI <;> exact hI

/-- A second work starts where the first one has ended well. -/
theorem maintains_bind {w : Work σ ε β} {next : β → Work σ ε α} :
    Work.Maintains B (w >>= next) I s k ↔
      Work.Maintains B w I s k ∧
        Work.Ensures B w (fun b s' k' => Work.Maintains B (next b) I s' k') (fun _ _ _ => True)
          s k := by
  refine Procedure.maintains_bind.trans ⟨?_, ?_⟩
  · rintro ⟨hfirst, hnext⟩
    refine ⟨hfirst, hnext.mono ?_⟩
    rintro ⟨r | r, s'⟩ k' h
    · trivial
    · exact h
  · rintro ⟨hfirst, hnext⟩
    refine ⟨hfirst, fun r k' hrun => ?_⟩
    obtain ⟨e | b, s'⟩ := r
    -- A failure ends the run in a state of the first work.
    · exact Procedure.maintains_done.mpr (hfirst.ensures _ _ hrun)
    · exact hnext _ _ hrun

theorem maintains_focus {t : τ} {part : τ → σ} {put : σ → τ → τ} {w : Work σ ε α} :
    Work.Maintains B (Work.focus part put w) I t k ↔ Work.Maintains B w I (part t) k := by
  refine Procedure.maintains_bind.trans ?_
  simp only [Procedure.maintains_mapState, Procedure.ensures_mapState, Procedure.maintains_done]
  exact ⟨fun h => h.1, fun h => ⟨h, Procedure.Maintains.ensures h⟩⟩

theorem Maintains.mono {w : Work σ ε α} (h : Work.Maintains B w I s k)
    (hIJ : ∀ k', I k' → J k') : Work.Maintains B w J s k :=
  Procedure.Maintains.mono h hIJ

/-- A work that keeps what is required may go on with any works that do. -/
theorem Maintains.bind {w : Work σ ε β} {next : β → Work σ ε α} (h : Work.Maintains B w I s k)
    (hnext : ∀ b s' k', I k' → Work.Maintains B (next b) I s' k') :
    Work.Maintains B (w >>= next) I s k := by
  refine maintains_bind.mpr ⟨h, h.ensures.mono ?_ fun _ _ _ _ => trivial⟩
  exact fun b s' k' hI => hnext b s' k' hI

/-- A loop keeps what each of its rounds keeps. -/
theorem Maintains.each {w : β → Work σ ε Unit} {l : List β}
    (hround : ∀ b ∈ l, ∀ s k, I k → Work.Maintains B (w b) I s k) (hk : I k) :
    Work.Maintains B (Work.each w l) I s k := by
  induction l generalizing s k with
  | nil => exact maintains_pure.mpr hk
  | cons b rest ih =>
    refine (hround b List.mem_cons_self s k hk).bind fun _ s' k' hk' => ?_
    exact ih (fun b' hb' => hround b' (List.mem_cons_of_mem b hb')) hk'

end Work

namespace InterfaceState

variable {σ ε : Type} {mayFail : Prop} {c : Call} {onError : KernelError → ε}
  {I : InterfaceState → Prop} {t : σ} {s : InterfaceState}

/-- A call passes through the state before it, which is also the state after it if it fails, and
through what its effect may be. -/
theorem maintains_call (hs : I s)
    (heffect : ∀ a s', s.Accepts c → s.Effect mayFail c a s' → I s') :
    Work.Maintains (behaviour mayFail) (Work.call c onError) I t s := by
  refine Work.maintains_call.mpr ⟨hs, ?_⟩
  rintro (e | a) s' hstep
  · obtain ⟨-, rfl⟩ := hstep
    exact hs
  · exact heffect a s' hstep.1 hstep.2

end InterfaceState

end IngressGuard.Kernel
