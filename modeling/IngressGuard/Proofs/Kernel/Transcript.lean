import IngressGuard.Proofs.Kernel.Runs

/-!
# Transcripts

Some statements hold whatever the kernel answers, and even if a call brings down what makes it.
A run is then no more than its transcript: the calls with their answers (`Procedure.Runs`).
`Procedure.Guards` says of all runs how they end, what they leave behind if a call does not
return, and what they log, each seen together with the transcript up to there.

The rules for `Guards` follow the constructors of procedures and the combinators of works, and
every run against a kernel that answers by a function is one of those runs
(`Procedure.runs_run`).
-/

namespace IngressGuard.Kernel

/-- A call with its answer.  There is none if the call brought down what made it. -/
structure Exchange where
  call : Call
  answer : Option call.Answer

namespace Exchange

/-- A probe has found an interface able to carry programs. -/
def findsSupport : Exchange → Bool
  | ⟨.probe, some (.ok (answer : Probe))⟩ => answer = .supported
  | _ => false

/-- A program that was attached on request carries our name. -/
def isGenuine : Exchange → Bool
  | ⟨.attach, some (.ok (p : Program))⟩ => p.isOurs
  | _ => true

end Exchange

variable {σ τ ε α β κ : Type}

/-- A run has ended as required, or has left behind what is required. -/
def Ending.Meets (Q : α → List Exchange → Prop) (A : σ → List Exchange → Prop) :
    Ending σ α → List Exchange → Prop
  | .completed a => Q a
  | .aborted s => A s

/-- What is left of the local state of a work, whether or not it has come to its end. -/
def Ending.state : Ending σ (Except ε α × σ) → σ
  | .completed (_, s) | .aborted s => s

namespace Procedure

/-- The runs of a procedure: how they end, what is called and answered, and what is logged. -/
inductive Runs : Procedure σ α → Ending σ α → List Exchange → Log.Entries → Prop
  | done (a : α) : Runs (.done a) (.completed a) [] []
  | answered {c : Call} {s : σ} {resume : c.Answer → Procedure σ α} {b : c.Answer}
      {ending : Ending σ α} {said : List Exchange} {log : Log.Entries}
      (rest : Runs (resume b) ending said log) :
      Runs (.call c s resume) ending (⟨c, some b⟩ :: said) log
  | broughtDown {c : Call} {s : σ} {resume : c.Answer → Procedure σ α} :
      Runs (.call c s resume) (.aborted s) [⟨c, none⟩] []
  | note {entry : Log.Entry} {next : Procedure σ α} {ending : Ending σ α} {said : List Exchange}
      {log : Log.Entries} (rest : Runs next ending said log) :
      Runs (.note entry next) ending said (entry :: log)

/-- Every run of a procedure that starts after a transcript ends as required, leaves behind what
is required if a call does not return, and logs only entries of a kind. -/
def Guards (N : Log.Entry → Prop) (A : σ → List Exchange → Prop)
    (Q : α → List Exchange → Prop) : Procedure σ α → List Exchange → Prop
  | done a, past => Q a past
  | call c s resume, past =>
    A s (past ++ [⟨c, none⟩]) ∧ ∀ b, (resume b).Guards N A Q (past ++ [⟨c, some b⟩])
  | note entry next, past => N entry ∧ next.Guards N A Q past

variable {N : Log.Entry → Prop} {A : σ → List Exchange → Prop} {Q R : α → List Exchange → Prop}
  {past : List Exchange}

/-! ## Rules for procedures -/

theorem guards_bind {Q : β → List Exchange → Prop} {p : Procedure σ α}
    {next : α → Procedure σ β} :
    (p.bind next).Guards N A Q past ↔
      p.Guards N A (fun a past => (next a).Guards N A Q past) past := by
  induction p generalizing past with
  | done a => exact Iff.rfl
  | call c s resume ih => simp only [Procedure.bind, Guards, ih]
  | note entry next ih => simp only [Procedure.bind, Guards, ih]

theorem guards_mapState {A : τ → List Exchange → Prop} {f : σ → τ} {p : Procedure σ α} :
    (p.mapState f).Guards N A Q past ↔ p.Guards N (fun s past => A (f s) past) Q past := by
  induction p generalizing past with
  | done a => exact Iff.rfl
  | call c s resume ih => simp only [mapState, Guards, ih]
  | note entry next ih => simp only [mapState, Guards, ih]

theorem Guards.mono {A' : σ → List Exchange → Prop} {p : Procedure σ α}
    (h : p.Guards N A Q past) (hA : ∀ s past, A s past → A' s past)
    (hQ : ∀ a past, Q a past → R a past) : p.Guards N A' R past := by
  induction p generalizing past with
  | done a => exact hQ a past h
  | call c s resume ih => exact ⟨hA s _ h.1, fun b => ih b (h.2 b)⟩
  | note entry next ih => exact ⟨h.1, ih h.2⟩

/-! ## Runs -/

theorem Guards.runs {p : Procedure σ α} {ending : Ending σ α} {said : List Exchange}
    {log : Log.Entries} (h : p.Guards N A Q past) (hrun : p.Runs ending said log) :
    ending.Meets Q A (past ++ said) ∧ ∀ entry ∈ log, N entry := by
  induction hrun generalizing past with
  | done a =>
    rw [List.append_nil]
    exact ⟨h, nofun⟩
  | answered rest ih =>
    rw [List.append_cons]
    exact ih (h.2 _)
  | broughtDown => exact ⟨h.1, nofun⟩
  | note rest ih =>
    obtain ⟨hend, hlog⟩ := ih h.2
    exact ⟨hend, List.forall_mem_cons.mpr ⟨h.1, hlog⟩⟩

/-- What holds at the end of every run, whatever is answered, holds against every kernel. -/
theorem Guards.ensures {B : Behaviour κ} {Q : α → Prop} {p : Procedure σ α} {k : κ}
    (h : p.Guards N A (fun a _ => Q a) past) : p.Ensures B (fun a _ => Q a) k := by
  induction p generalizing past k with
  | done a => exact ensures_done.mpr h
  | call c s resume ih => exact ensures_call.mpr fun b k' _ => ih b (h.2 b)
  | note entry next ih => exact ensures_note.mpr (ih h.2)

/-- The transcript of a run against a kernel that answers by a function. -/
def transcript (answer : (c : Call) → κ → Option c.Answer × κ) :
    Procedure σ α → κ → List Exchange
  | done _, _ => []
  | call c _ resume, k =>
    match answer c k with
    | (some b, k) => ⟨c, some b⟩ :: (resume b).transcript answer k
    | (none, _) => [⟨c, none⟩]
  | note _ rest, k => rest.transcript answer k

theorem runs_run (answer : (c : Call) → κ → Option c.Answer × κ) (p : Procedure σ α) (k : κ) :
    p.Runs (p.run answer k).1 (p.transcript answer k) (p.run answer k).2.2 := by
  induction p generalizing k with
  | done a => exact .done a
  | call c s resume ih =>
    obtain ⟨answer', k', hanswer⟩ : ∃ b k', answer c k = (b, k') := ⟨_, _, rfl⟩
    simp only [run, transcript, hanswer]
    cases answer' with
    | none => exact .broughtDown
    | some b => exact .answered (ih b k')
  | note entry rest ih => exact .note (ih k)

/-- What is left of a procedure after some exchanges, with or without the log entries before its
next call. -/
inductive ComesTo (p : Procedure σ α) : List Exchange → Procedure σ α → Prop
  | start : ComesTo p [] p
  | opened {said : List Exchange} {rest : Procedure σ α} (comes : ComesTo p said rest) :
      ComesTo p said rest.afterOpening
  | answered {said : List Exchange} {rest : Procedure σ α} {c : Call} {s : σ}
      {resume : c.Answer → Procedure σ α} (comes : ComesTo p said rest)
      (hrest : rest.afterOpening = .call c s resume) (b : c.Answer) :
      ComesTo p (said ++ [⟨c, some b⟩]) (resume b)

theorem Guards.afterOpening {p : Procedure σ α} (h : p.Guards N A Q past) :
    p.afterOpening.Guards N A Q past := by
  induction p with
  | done a => exact h
  | call c s resume => exact h
  | note entry rest ih => exact ih h.2

theorem Guards.comesTo {p rest : Procedure σ α} {said : List Exchange}
    (h : p.Guards N A Q past) (comes : p.ComesTo said rest) :
    rest.Guards N A Q (past ++ said) := by
  induction comes with
  | start =>
    rw [List.append_nil]
    exact h
  | opened comes ih => exact ih.afterOpening
  | answered comes hrest b ih =>
    have hcall := ih.afterOpening
    rw [hrest] at hcall
    rw [← List.append_assoc]
    exact hcall.2 b

theorem afterOpening_afterOpening (p : Procedure σ α) :
    p.afterOpening.afterOpening = p.afterOpening := by
  induction p with
  | done a => rfl
  | call c s resume => rfl
  | note entry p ih => exact ih

/-- What is left of a procedure takes its runs to their ends. -/
theorem ComesTo.runs {p rest : Procedure σ α} {said more : List Exchange} {ending : Ending σ α}
    {log : Log.Entries} (comes : p.ComesTo said rest) (hrun : rest.Runs ending more log) :
    ∃ log', p.Runs ending (said ++ more) log' := by
  have hopening : ∀ {q : Procedure σ α} {more log}, q.afterOpening.Runs ending more log →
      ∃ log', q.Runs ending more log' := by
    intro q
    induction q with
    | done a => exact fun h => ⟨_, h⟩
    | call c s resume => exact fun h => ⟨_, h⟩
    | note entry q ih =>
      intro more log h
      obtain ⟨log', h'⟩ := ih h
      exact ⟨_, .note h'⟩
  induction comes generalizing more log with
  | start => exact ⟨log, hrun⟩
  | opened comes ih =>
    obtain ⟨log', hrun'⟩ := hopening hrun
    exact ih hrun'
  | @answered said rest c s resume comes hrest b ih =>
    have hcall : (call c s resume).Runs ending (⟨c, some b⟩ :: more) log := .answered hrun
    rw [← hrest] at hcall
    obtain ⟨log', hrun'⟩ := hopening hcall
    rw [List.append_assoc]
    exact ih hrun'

theorem Yields.runs {B : Behaviour κ} {p : Procedure σ α} {k k' : κ} {a : α}
    (h : p.Yields B k a k') : ∃ said log, p.Runs (.completed a) said log := by
  induction h with
  | done a k => exact ⟨[], [], .done a⟩
  | call step rest ih =>
    obtain ⟨said, log, hrun⟩ := ih
    exact ⟨_, log, .answered hrun⟩
  | note rest ih =>
    obtain ⟨said, log, hrun⟩ := ih
    exact ⟨said, _, .note hrun⟩

end Procedure

namespace Work

variable {N : Log.Entry → Prop} {A : σ → List Exchange → Prop}
  {Q : α → σ → List Exchange → Prop} {E : ε → σ → List Exchange → Prop} {s : σ}
  {past : List Exchange}

/-- Every run of a work that starts after a transcript ends well as the first condition requires or
fails as the second one requires, leaves behind what is required if a call does not return, and
logs only entries of a kind. -/
def Guards (N : Log.Entry → Prop) (A : σ → List Exchange → Prop) (w : Work σ ε α)
    (Q : α → σ → List Exchange → Prop) (E : ε → σ → List Exchange → Prop) (s : σ)
    (past : List Exchange) : Prop :=
  (w s).Guards N A
    (fun r past' =>
      match r with
      | (.ok a, s') => Q a s' past'
      | (.error e, s') => E e s' past') past

/-! ## Rules for works -/

theorem guards_pure {a : α} :
    Work.Guards N A (pure a : Work σ ε α) Q E s past ↔ Q a s past := Iff.rfl

theorem guards_bind {w : Work σ ε β} {next : β → Work σ ε α} :
    Work.Guards N A (w >>= next) Q E s past ↔
      Work.Guards N A w (fun b s' past' => Work.Guards N A (next b) Q E s' past') E s past := by
  refine Procedure.guards_bind.trans (iff_of_eq ?_)
  unfold Work.Guards
  congr 1
  funext r past'
  obtain ⟨r | r, s'⟩ := r <;> rfl

theorem guards_get {Q : σ → σ → List Exchange → Prop} :
    Work.Guards N A (Work.get : Work σ ε σ) Q E s past ↔ Q s s past := Iff.rfl

theorem guards_modify {Q : Unit → σ → List Exchange → Prop} {f : σ → σ} :
    Work.Guards N A (Work.modify f : Work σ ε Unit) Q E s past ↔ Q () (f s) past := Iff.rfl

theorem guards_call {c : Call} {onError : KernelError → ε}
    {Q : c.Value → σ → List Exchange → Prop} :
    Work.Guards N A (Work.call c onError) Q E s past ↔
      A s (past ++ [⟨c, none⟩]) ∧ (∀ a, Q a s (past ++ [⟨c, some (.ok a)⟩])) ∧
        ∀ e, E (onError e) s (past ++ [⟨c, some (.error e)⟩]) := by
  refine and_congr_right fun _ => ⟨fun h => ⟨fun a => h (.ok a), fun e => h (.error e)⟩, ?_⟩
  rintro ⟨hok, herror⟩ (e | a)
  · exact herror e
  · exact hok a

theorem guards_focus {A : τ → List Exchange → Prop} {Q : α → τ → List Exchange → Prop}
    {E : ε → τ → List Exchange → Prop} {t : τ} {part : τ → σ} {put : σ → τ → τ}
    {w : Work σ ε α} :
    Work.Guards N A (Work.focus part put w) Q E t past ↔
      Work.Guards N (fun s' past' => A (put s' t) past') w
        (fun a s' past' => Q a (put s' t) past') (fun e s' past' => E e (put s' t) past')
        (part t) past := by
  refine Procedure.guards_bind.trans (Procedure.guards_mapState.trans (iff_of_eq ?_))
  unfold Work.Guards
  congr 1
  funext r past'
  obtain ⟨r | r, s'⟩ := r <;> rfl

theorem Guards.mono {A' : σ → List Exchange → Prop} {R : α → σ → List Exchange → Prop}
    {F : ε → σ → List Exchange → Prop} {w : Work σ ε α} (h : Work.Guards N A w Q E s past)
    (hA : ∀ s' past', A s' past' → A' s' past')
    (hQ : ∀ a s' past', Q a s' past' → R a s' past')
    (hE : ∀ e s' past', E e s' past' → F e s' past') : Work.Guards N A' w R F s past := by
  refine Procedure.Guards.mono h hA ?_
  rintro ⟨r | r, s'⟩ past' hr
  · exact hE r s' past' hr
  · exact hQ r s' past' hr

/-! ## What every call keeps -/

variable {I : List Exchange → Prop} {F : ε → Prop}

/-- Whatever is remembered, a work keeps what is required of the transcript, logs only entries of a
kind, and fails only with errors of a kind. -/
def Keeps (N : Log.Entry → Prop) (I : List Exchange → Prop) (F : ε → Prop)
    (w : Work σ ε α) : Prop :=
  ∀ s past, I past →
    Work.Guards N (fun _ => I) w (fun _ _ => I) (fun e _ past' => I past' ∧ F e) s past

theorem keeps_pure {a : α} : Keeps N I F (pure a : Work σ ε α) := fun _ _ h => h

theorem keeps_get : Keeps N I F (Work.get : Work σ ε σ) := fun _ _ h => h

theorem keeps_modify {f : σ → σ} : Keeps N I F (Work.modify f : Work σ ε Unit) := fun _ _ h => h

theorem keeps_note {entry : Log.Entry} (h : N entry) :
    Keeps N I F (Work.note entry : Work σ ε Unit) := fun _ _ hpast => ⟨h, hpast⟩

theorem keeps_call {c : Call} {onError : KernelError → ε}
    (hI : ∀ past answer, I past → I (past ++ [⟨c, answer⟩])) (hF : ∀ cause, F (onError cause)) :
    Keeps N I F (Work.call c onError : Work σ ε c.Value) :=
  fun _ past hpast => guards_call.mpr ⟨hI past _ hpast, fun _ => hI past _ hpast,
    fun cause => ⟨hI past _ hpast, hF cause⟩⟩

theorem Keeps.bind {w : Work σ ε β} {next : β → Work σ ε α} (h : Keeps N I F w)
    (hnext : ∀ b, Keeps N I F (next b)) : Keeps N I F (w >>= next) :=
  fun s past hpast => guards_bind.mpr ((h s past hpast).mono (fun _ _ h => h)
    (fun b s' past' hpast' => hnext b s' past' hpast') fun _ _ _ h => h)

theorem Keeps.focus {part : τ → σ} {put : σ → τ → τ} {w : Work σ ε α} (h : Keeps N I F w) :
    Keeps N I F (Work.focus part put w) :=
  fun t past hpast => guards_focus.mpr (h (part t) past hpast)

theorem Keeps.each {w : β → Work σ ε Unit} {l : List β} (h : ∀ b, Keeps N I F (w b)) :
    Keeps N I F (Work.each w l) := by
  induction l with
  | nil => exact keeps_pure
  | cons b rest ih => exact (h b).bind fun _ => ih

/-- A work fails only with errors of a kind. -/
abbrev FailsOnly (F : ε → Prop) (w : Work σ ε α) : Prop :=
  Keeps (fun _ => True) (fun _ => True) F w

/-- What holds at the end of every run, whatever is answered, holds against every kernel. -/
theorem Guards.ensures {B : Behaviour κ} {Q : α → σ → Prop} {E : ε → σ → Prop}
    {w : Work σ ε α} {k : κ}
    (h : Work.Guards N A w (fun a s' _ => Q a s') (fun e s' _ => E e s') s past) :
    Work.Ensures B w (fun a s' _ => Q a s') (fun e s' _ => E e s') s k := by
  refine Procedure.Ensures.mono (Procedure.Guards.ensures h) ?_
  rintro ⟨r | r, s'⟩ - hr <;> exact hr

/-! ## What is left as it is -/

variable {γ : Type}

/-- Whatever the kernel answers, and even if a call does not return, a work leaves a part of the
local state as it is. -/
def Retains (part : σ → γ) (w : Work σ ε α) : Prop :=
  ∀ s past, Work.Guards (fun _ => True) (fun s' _ => part s' = part s) w
    (fun _ s' _ => part s' = part s) (fun _ s' _ => part s' = part s) s past

variable {part : σ → γ}

theorem retains_pure (a : α) : Retains part (pure a : Work σ ε α) := fun _ _ => rfl

theorem Retains.bind {w : Work σ ε β} {next : β → Work σ ε α} (h : Retains part w)
    (hnext : ∀ b, Retains part (next b)) : Retains part (w >>= next) := by
  refine fun s past => guards_bind.mpr ((h s past).mono (fun _ _ h => h) ?_ fun _ _ _ h => h)
  intro b s' past' hs'
  refine (hnext b s' past').mono ?_ ?_ ?_
  · exact fun _ _ h => h.trans hs'
  · exact fun _ _ _ h => h.trans hs'
  · exact fun _ _ _ h => h.trans hs'

/-- A work on one part retains the others. -/
theorem retains_focus {own : σ → τ} {put : τ → σ → σ} {w : Work τ ε α}
    (h : ∀ t s, part (put t s) = part s) : Retains part (Work.focus own put w) := by
  have hall : ∀ {p : Procedure τ (Except ε α × τ)} {past : List Exchange},
      p.Guards (fun _ => True) (fun _ _ => True) (fun _ _ => True) past := by
    intro p
    induction p with
    | done a => exact trivial
    | call c s resume ih => exact ⟨trivial, fun b => ih b⟩
    | note entry p ih => exact ⟨trivial, ih⟩
  intro s past
  refine guards_focus.mpr (Procedure.Guards.mono hall (fun t _ _ => h t s) ?_)
  rintro ⟨r | r, t⟩ past' - <;> exact h t s

end Work

end IngressGuard.Kernel
