import IngressGuard.Kernel.Procedure

/-!
# Runs of procedures

A `Behaviour` says what a kernel may do with a call: which answers it may give in a state, and
which state it may be in afterwards.  `Procedure.Yields` is the relation between the start and the
end of a run against such a kernel, and `Procedure.Ensures` says that every run ends as required.

The rules for `Ensures` follow the constructors of procedures and the combinators of works, so a
statement about a cycle comes down to statements about its calls.  `Ensures.simulate` carries a
statement over to a kernel of which only a part is looked at; that is how facts about a single
interface become facts about the whole kernel.
-/

namespace IngressGuard.Kernel

/-- The answers that a kernel may give to a call in a state, each with the state after it. -/
abbrev Behaviour (κ : Type) := (c : Call) → κ → c.Answer → κ → Prop

/-- The behaviour of a kernel that answers by a function. -/
def Behaviour.ofAnswer {κ : Type} (answer : (c : Call) → κ → c.Answer × κ) : Behaviour κ :=
  fun c k a k' => answer c k = (a, k')

namespace Procedure

variable {σ τ α β κ κ' : Type} {B : Behaviour κ} {B' : Behaviour κ'}

/-! ## Laws -/

theorem bind_done (p : Procedure σ α) : p.bind done = p := by
  induction p with
  | done a => rfl
  | call c s resume ih => simp only [Procedure.bind, ih]
  | note entry next ih => simp only [Procedure.bind, ih]

theorem bind_assoc {γ : Type} (p : Procedure σ α) (f : α → Procedure σ β) (g : β → Procedure σ γ) :
    (p.bind f).bind g = p.bind fun a => (f a).bind g := by
  induction p with
  | done a => rfl
  | call c s resume ih => simp only [Procedure.bind, ih]
  | note entry next ih => simp only [Procedure.bind, ih]

/-! ## Runs -/

/-- Some run of a procedure against a kernel ends with a given result in a given state. -/
inductive Yields (B : Behaviour κ) : Procedure σ α → κ → α → κ → Prop
  | done (a : α) (k : κ) : Yields B (.done a) k a k
  | call {c : Call} {s : σ} {resume : c.Answer → Procedure σ α} {k k' k'' : κ} {b : c.Answer}
      {a : α} (step : B c k b k') (rest : Yields B (resume b) k' a k'') :
      Yields B (.call c s resume) k a k''
  | note {entry : Log.Entry} {next : Procedure σ α} {k k' : κ} {a : α}
      (rest : Yields B next k a k') : Yields B (.note entry next) k a k'

/-- Every run of a procedure against a kernel ends in a result and a state as required. -/
def Ensures (B : Behaviour κ) (p : Procedure σ α) (Q : α → κ → Prop) (k : κ) : Prop :=
  ∀ a k', p.Yields B k a k' → Q a k'

/-! ## Rules for procedures -/

theorem ensures_done {Q : α → κ → Prop} {a : α} {k : κ} :
    (done a : Procedure σ α).Ensures B Q k ↔ Q a k := by
  constructor
  · exact fun h => h a k (.done a k)
  · intro h b k' hrun
    cases hrun
    exact h

theorem ensures_call {Q : α → κ → Prop} {c : Call} {s : σ} {resume : c.Answer → Procedure σ α}
    {k : κ} :
    (call c s resume).Ensures B Q k ↔ ∀ b k', B c k b k' → (resume b).Ensures B Q k' := by
  constructor
  · exact fun h b k' step a k'' rest => h a k'' (.call step rest)
  · intro h a k'' hrun
    cases hrun with
    | call step rest => exact h _ _ step a k'' rest

theorem ensures_note {Q : α → κ → Prop} {entry : Log.Entry} {next : Procedure σ α} {k : κ} :
    (note entry next).Ensures B Q k ↔ next.Ensures B Q k := by
  constructor
  · exact fun h a k' rest => h a k' (.note rest)
  · intro h a k' hrun
    cases hrun with
    | note rest => exact h a k' rest

theorem ensures_bind {Q : β → κ → Prop} {p : Procedure σ α} {next : α → Procedure σ β} {k : κ} :
    (p.bind next).Ensures B Q k ↔ p.Ensures B (fun a k' => (next a).Ensures B Q k') k := by
  induction p generalizing k with
  | done a => simp only [Procedure.bind, ensures_done]
  | call c s resume ih => simp only [Procedure.bind, ensures_call, ih]
  | note entry rest ih => simp only [Procedure.bind, ensures_note, ih]

theorem ensures_mapState {Q : α → κ → Prop} {f : σ → τ} {p : Procedure σ α} {k : κ} :
    (p.mapState f).Ensures B Q k ↔ p.Ensures B Q k := by
  induction p generalizing k with
  | done a => simp only [mapState, ensures_done]
  | call c s resume ih => simp only [mapState, ensures_call, ih]
  | note entry rest ih => simp only [mapState, ensures_note, ih]

theorem ensures_afterOpening {Q : α → κ → Prop} {p : Procedure σ α} {k : κ} :
    p.afterOpening.Ensures B Q k ↔ p.Ensures B Q k := by
  induction p with
  | done a => rfl
  | call c s resume => rfl
  | note entry rest ih => rw [afterOpening, ensures_note, ih]

theorem Ensures.mono {Q R : α → κ → Prop} {p : Procedure σ α} {k : κ} (h : p.Ensures B Q k)
    (hQR : ∀ a k', Q a k' → R a k') : p.Ensures B R k :=
  fun a k' hrun => hQR a k' (h a k' hrun)

/-- If every step of a kernel keeps an invariant and looks, through a view of its states, like a
step of another one, then what holds of all runs against the other one holds through the view. -/
theorem Ensures.simulate {Q : α → κ' → Prop} {view : κ → κ'} {I : κ → Prop}
    (hstep : ∀ c k b k', I k → B c k b k' → I k' ∧ B' c (view k) b (view k'))
    {p : Procedure σ α} {k : κ} (hI : I k) (h : p.Ensures B' Q (view k)) :
    p.Ensures B (fun a k' => I k' ∧ Q a (view k')) k := by
  intro a k' hrun
  induction hrun with
  | done a k => exact ⟨hI, ensures_done.mp h⟩
  | call step rest ih =>
    obtain ⟨hI', hstep'⟩ := hstep _ _ _ _ hI step
    exact ih hI' (ensures_call.mp h _ _ hstep')
  | note rest ih => exact ih hI (ensures_note.mp h)

/-- A run is one against every kernel that may do what shows of it in a view. -/
theorem Yields.map {p : Procedure σ α} {k k' : κ} {a : α} (view : κ → κ') (h : p.Yields B k a k')
    (hB : ∀ c k b k', B c k b k' → B' c (view k) b (view k')) :
    p.Yields B' (view k) a (view k') := by
  induction h with
  | done a k => exact .done a (view k)
  | call step rest ih => exact .call (hB _ _ _ _ step) ih
  | note rest ih => exact .note ih

/-- A kernel that may do more has more runs. -/
theorem Yields.mono {C : Behaviour κ} {p : Procedure σ α} {k k' : κ} {a : α}
    (h : p.Yields B k a k') (hBC : ∀ c k b k', B c k b k' → C c k b k') : p.Yields C k a k' :=
  h.map id hBC

/-- A kernel that answers by a function has one run of each procedure, which `eval` computes. -/
theorem yields_eval (answer : (c : Call) → κ → c.Answer × κ) (p : Procedure σ α) (k : κ) :
    p.Yields (.ofAnswer answer) k (p.eval answer k).1 (p.eval answer k).2.1 := by
  induction p generalizing k with
  | done a => exact .done a k
  | call c s resume ih =>
    have hstep : Behaviour.ofAnswer answer c k (answer c k).1 (answer c k).2 := rfl
    exact .call hstep (ih _ _)
  | note entry rest ih => exact .note (ih k)

theorem Ensures.eval {Q : α → κ → Prop} {answer : (c : Call) → κ → c.Answer × κ}
    {p : Procedure σ α} {k : κ} (h : p.Ensures (.ofAnswer answer) Q k) :
    Q (p.eval answer k).1 (p.eval answer k).2.1 :=
  h _ _ (yields_eval answer p k)

end Procedure

namespace Work

variable {σ τ ε α β κ : Type} {B : Behaviour κ} {Q : α → σ → κ → Prop} {E : ε → σ → κ → Prop}
  {s : σ} {k : κ}

instance : LawfulMonad (Work σ ε) := by
  refine LawfulMonad.mk' _ ?id_map ?pure_bind ?bind_assoc
  case id_map =>
    intro α w
    funext s
    refine Eq.trans (congrArg (w s).bind ?_) (Procedure.bind_done (w s))
    funext ⟨r, s'⟩
    cases r <;> rfl
  case pure_bind => exact fun _ _ => rfl
  case bind_assoc =>
    intro α β γ w f g
    funext s
    refine (Procedure.bind_assoc _ _ _).trans (congrArg (w s).bind ?_)
    funext ⟨r, s'⟩
    cases r <;> rfl

/-- Every run of a work ends well as the first condition requires, or fails as the second one
requires. -/
def Ensures (B : Behaviour κ) (w : Work σ ε α) (Q : α → σ → κ → Prop) (E : ε → σ → κ → Prop)
    (s : σ) (k : κ) : Prop :=
  (w s).Ensures B
    (fun
      | (.ok a, s'), k' => Q a s' k'
      | (.error e, s'), k' => E e s' k') k

/-! ## Rules for works -/

theorem ensures_pure {a : α} : Work.Ensures B (pure a : Work σ ε α) Q E s k ↔ Q a s k :=
  Procedure.ensures_done

theorem ensures_bind {w : Work σ ε β} {next : β → Work σ ε α} :
    Work.Ensures B (w >>= next) Q E s k ↔
      Work.Ensures B w (fun b s' k' => Work.Ensures B (next b) Q E s' k') E s k := by
  refine Procedure.ensures_bind.trans (iff_of_eq ?_)
  unfold Work.Ensures
  congr 1
  funext r k'
  obtain ⟨r | r, s'⟩ := r
  · exact propext Procedure.ensures_done
  · rfl

theorem ensures_get {Q : σ → σ → κ → Prop} :
    Work.Ensures B (Work.get : Work σ ε σ) Q E s k ↔ Q s s k :=
  Procedure.ensures_done

theorem ensures_modify {Q : Unit → σ → κ → Prop} {f : σ → σ} :
    Work.Ensures B (Work.modify f : Work σ ε Unit) Q E s k ↔ Q () (f s) k :=
  Procedure.ensures_done

theorem ensures_fail {e : ε} : Work.Ensures B (Work.fail e : Work σ ε α) Q E s k ↔ E e s k :=
  Procedure.ensures_done

theorem ensures_note {Q : Unit → σ → κ → Prop} {entry : Log.Entry} :
    Work.Ensures B (Work.note entry : Work σ ε Unit) Q E s k ↔ Q () s k :=
  Procedure.ensures_note.trans Procedure.ensures_done

theorem ensures_call {c : Call} {onError : KernelError → ε} {Q : c.Value → σ → κ → Prop} :
    Work.Ensures B (Work.call c onError) Q E s k ↔
      ∀ b k', B c k b k' →
        match b with
        | .ok a => Q a s k'
        | .error e => E (onError e) s k' := by
  refine Procedure.ensures_call.trans ?_
  refine forall_congr' fun b => forall_congr' fun k' => forall_congr' fun _ => ?_
  cases b <;> exact Procedure.ensures_done

theorem ensures_focus {Q : α → τ → κ → Prop} {E : ε → τ → κ → Prop} {t : τ} {part : τ → σ}
    {put : σ → τ → τ} {w : Work σ ε α} :
    Work.Ensures B (Work.focus part put w) Q E t k ↔
      Work.Ensures B w (fun a s' k' => Q a (put s' t) k') (fun e s' k' => E e (put s' t) k')
        (part t) k := by
  refine Procedure.ensures_bind.trans (Procedure.ensures_mapState.trans (iff_of_eq ?_))
  unfold Work.Ensures
  congr 1
  funext r k'
  obtain ⟨r | r, s'⟩ := r <;> exact propext Procedure.ensures_done

theorem Ensures.mono {R : α → σ → κ → Prop} {F : ε → σ → κ → Prop} {w : Work σ ε α}
    (h : Work.Ensures B w Q E s k) (hQR : ∀ a s' k', Q a s' k' → R a s' k')
    (hEF : ∀ e s' k', E e s' k' → F e s' k') : Work.Ensures B w R F s k := by
  refine Procedure.Ensures.mono h ?_
  rintro ⟨r | r, s'⟩ k' hr
  · exact hEF r s' k' hr
  · exact hQR r s' k' hr

/-- A loop that keeps an invariant: it speaks of the members that have been dealt with, and each
round carries it from them to one more. -/
theorem ensures_each {w : β → Work σ ε Unit} {I : List β → κ → Prop} {l : List β}
    (hround : ∀ before b after, l = before ++ b :: after → ∀ k, I before k →
      Work.Ensures B (w b) (fun _ s' k' => s' = s ∧ I (before ++ [b]) k') E s k)
    (hstart : I [] k) :
    Work.Ensures B (Work.each w l) (fun _ s' k' => s' = s ∧ I l k') E s k := by
  -- The induction is on the members to come, with those dealt with as a parameter.
  suffices h : ∀ after before k, l = before ++ after → I before k →
      Work.Ensures B (Work.each w after) (fun _ s' k' => s' = s ∧ I l k') E s k from
    h l [] k rfl hstart
  intro after
  induction after with
  | nil =>
    intro before k hl hI
    rw [List.append_nil] at hl
    subst hl
    exact ensures_pure.mpr ⟨rfl, hI⟩
  | cons b after ih =>
    intro before k hl hI
    refine ensures_bind.mpr ((hround before b after hl k hI).mono ?_ fun _ _ _ h => h)
    rintro _ s' k' ⟨rfl, hI'⟩
    exact ih (before ++ [b]) k' (by rw [hl, List.append_assoc, List.singleton_append]) hI'

/-! ## Works that leave the local state alone -/

/-- A work leaves the local state as it is, whether it fails or not. -/
def Still (B : Behaviour κ) (w : Work σ ε α) : Prop :=
  ∀ s k, Work.Ensures B w (fun _ s' _ => s' = s) (fun _ s' _ => s' = s) s k

theorem still_pure (a : α) : Still B (pure a : Work σ ε α) := fun _ _ => ensures_pure.mpr rfl

theorem still_note (entry : Log.Entry) : Still B (Work.note entry : Work σ ε Unit) :=
  fun _ _ => ensures_note.mpr rfl

theorem still_call (c : Call) (onError : KernelError → ε) :
    Still B (Work.call c onError : Work σ ε c.Value) := by
  refine fun _ _ => ensures_call.mpr fun b _ _ => ?_
  cases b <;> rfl

theorem still_get : Still B (Work.get : Work σ ε σ) := fun _ _ => ensures_get.mpr rfl

theorem Still.bind {w : Work σ ε β} {next : β → Work σ ε α} (h : Still B w)
    (hnext : ∀ b, Still B (next b)) : Still B (w >>= next) := by
  refine fun s k => ensures_bind.mpr ((h s k).mono ?_ fun _ _ _ h => h)
  rintro b _ k' rfl
  exact hnext b _ k'

theorem Still.each {w : β → Work σ ε Unit} (h : ∀ b, Still B (w b)) (l : List β) :
    Still B (Work.each w l) := by
  induction l with
  | nil => exact still_pure ()
  | cons b rest ih => exact (h b).bind fun _ => ih

/-! ## Works that keep a condition on the local state -/

/-- A work keeps a condition on the local state, whether it fails or not. -/
def Preserves (B : Behaviour κ) (J : σ → Prop) (w : Work σ ε α) : Prop :=
  ∀ s k, J s → Work.Ensures B w (fun _ s' _ => J s') (fun _ s' _ => J s') s k

variable {J : σ → Prop}

theorem preserves_pure (a : α) : Preserves B J (pure a : Work σ ε α) :=
  fun _ _ h => ensures_pure.mpr h

theorem preserves_get : Preserves B J (Work.get : Work σ ε σ) := fun _ _ h => ensures_get.mpr h

theorem preserves_modify {f : σ → σ} (hf : ∀ s, J s → J (f s)) :
    Preserves B J (Work.modify f : Work σ ε Unit) := fun s _ h => ensures_modify.mpr (hf s h)

theorem preserves_fail (e : ε) : Preserves B J (Work.fail e : Work σ ε α) :=
  fun _ _ h => ensures_fail.mpr h

theorem preserves_note (entry : Log.Entry) : Preserves B J (Work.note entry : Work σ ε Unit) :=
  fun _ _ h => ensures_note.mpr h

theorem preserves_call (c : Call) (onError : KernelError → ε) :
    Preserves B J (Work.call c onError : Work σ ε c.Value) := by
  refine fun _ _ h => ensures_call.mpr fun b _ _ => ?_
  cases b <;> exact h

theorem Preserves.bind {w : Work σ ε β} {next : β → Work σ ε α} (h : Preserves B J w)
    (hnext : ∀ b, Preserves B J (next b)) : Preserves B J (w >>= next) :=
  fun s k hs => ensures_bind.mpr
    ((h s k hs).mono (fun b s' k' hs' => hnext b s' k' hs') fun _ _ _ hs' => hs')

/-- A work on one part keeps a condition on it. -/
theorem Preserves.focus {J : τ → Prop} {part : τ → σ} {put : σ → τ → τ} {I : σ → Prop}
    {w : Work σ ε α} (h : Preserves B I w) (hpart : ∀ t, J t → I (part t))
    (hput : ∀ t s, J t → I s → J (put s t)) : Preserves B J (Work.focus part put w) :=
  fun t k ht => ensures_focus.mpr ((h (part t) k (hpart t ht)).mono
    (fun _ s' _ hs' => hput t s' ht hs') fun _ s' _ hs' => hput t s' ht hs')

/-- Nothing is asked of the local state. -/
theorem preserves_true (w : Work σ ε α) : Preserves B (fun _ => True) w := by
  rintro s k - ⟨r | r, s'⟩ k' - <;> trivial

end Work

end IngressGuard.Kernel
