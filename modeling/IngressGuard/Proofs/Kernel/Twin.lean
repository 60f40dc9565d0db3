import IngressGuard.Proofs.Kernel.Alike
import IngressGuard.Proofs.Kernel.Record

/-!
# Twin runs

Two runs of the same procedure, each on an interface of its own, take the same course if the
interfaces are alike: they carry the same tables, and programs that differ in their ids only.
While no failure is due, what a call answers depends on the interface and its circumstances
(`InterfaceState.calm`), so alike interfaces answer alike and stay alike.

`Procedure.Twin` says of all pairs of runs how they end.  Its rules deal with the two procedures at
once where they do the same, and with one of them where only that one adds to the log.
-/

namespace IngressGuard

/-- Two programs differ in their ids only. -/
def Program.Alike (p q : Program) : Prop := p.name = q.name

theorem Program.Alike.isOurs_eq {p q : Program} (h : p.Alike q) : p.isOurs = q.isOurs := by
  unfold isOurs
  rw [show p.name = q.name from h]

theorem Program.alike_of_isOurs {p q : Program} (hp : p.isOurs = true) (hq : q.isOurs = true) :
    p.Alike q :=
  (beq_iff_eq.mp hp).trans (beq_iff_eq.mp hq).symm

namespace Kernel

/-! ## Interfaces while no failure is due -/

/-- What calls about an interface meet while no failure is due. -/
structure Circumstances where
  missing : Bool
  /-- What a probe finds. -/
  support : Probe

/-- What calls about an interface meet. -/
def Model.circumstances (m : Model) (name : String) : Circumstances where
  missing := !m.exists? name
  support :=
    match m.unsupported[name]? with
    | some reason => .unsupported reason
    | none => .supported

namespace InterfaceState

variable {s t s' t' : InterfaceState} {name : String} {z : Circumstances}

/-- What calls do to their interface while no failure is due. -/
def calm (name : String) (z : Circumstances) : Behaviour InterfaceState := fun c s b s' =>
  if z.missing then b = .error (.noSuchInterface name) ∧ s' = s
  else
    match c, b with
    | .probe, b => b = .ok z.support ∧ s' = s
    | c, b => behaviour False c s b s'

theorem calm_of_missing {c : Call} {b : c.Answer} (hmissing : z.missing = true) :
    calm name z c s b s' ↔ b = .error (.noSuchInterface name) ∧ s' = s := by
  unfold calm
  rw [if_pos hmissing]

theorem calm_probe {b : Call.probe.Answer} (hpresent : z.missing = false) :
    calm name z .probe s b s' ↔ b = .ok z.support ∧ s' = s := by
  unfold calm
  rw [hpresent, if_neg Bool.false_ne_true]

theorem calm_of_ne_probe {c : Call} {b : c.Answer} (hpresent : z.missing = false)
    (hc : c ≠ .probe) : calm name z c s b s' ↔ behaviour False c s b s' := by
  unfold calm
  rw [hpresent, if_neg Bool.false_ne_true]
  cases c with
  | probe => exact (hc rfl).elim
  | _ => rfl

/-- Two interfaces carry the same tables, and programs that differ in their ids only. -/
structure Alike (s t : InterfaceState) : Prop where
  tables : s.tables = t.tables
  program : Option.Rel Program.Alike s.program t.program

theorem Alike.withProgram (h : s.Alike t) {p q : Option Program}
    (hprogram : Option.Rel Program.Alike p q) : (s.withProgram p).Alike (t.withProgram q) :=
  ⟨h.tables, hprogram⟩

theorem Alike.carriesOurs_eq (h : s.Alike t) : s.carriesOurs = t.carriesOurs := by
  have hprogram := h.program
  unfold carriesOurs
  generalize s.program = p, t.program = q at hprogram ⊢
  cases hprogram with
  | some hp => exact hp.isOurs_eq
  | none => rfl

/-- Alike interfaces answer calls about tables in the same way, and stay alike. -/
theorem Alike.tableCall (h : s.Alike t) {c : Call} (hc : c.isTableCall = true)
    {b b' : c.Answer} (hs : calm name z c s b s') (ht : calm name z c t b' t') :
    b = b' ∧ s'.Alike t' := by
  cases hmissing : z.missing with
  | true =>
    obtain ⟨rfl, rfl⟩ := (calm_of_missing hmissing).mp hs
    obtain ⟨rfl, rfl⟩ := (calm_of_missing hmissing).mp ht
    exact ⟨rfl, h⟩
  | false =>
    have hne : c ≠ .probe := by
      rintro rfl
      cases hc
    rw [calm_of_ne_probe hmissing hne] at hs ht
    have haccepts : ∀ u : InterfaceState, u.Accepts c := by
      intro u
      cases c <;> trivial
    rcases b with e | a
    · exact (hs.1.elim id fun hn => hn (haccepts s)).elim
    rcases b' with e | a'
    · exact (ht.1.elim id fun hn => hn (haccepts t)).elim
    have heffect := hs.2
    have heffect' := ht.2
    cases c with
    | probe | query | attach | detach p => cases hc
    | read f =>
      obtain ⟨rfl, rfl⟩ := heffect
      obtain ⟨rfl, rfl⟩ := heffect'
      rw [h.tables]
      exact ⟨rfl, h⟩
    | insert p =>
      obtain rfl : s' = s.insert p := heffect
      obtain rfl : t' = t.insert p := heffect'
      refine ⟨rfl, ?_, h.program⟩
      show s.tables.set _ _ = t.tables.set _ _
      rw [h.tables]
    | remove p =>
      obtain rfl : s' = s.remove p := heffect
      obtain rfl : t' = t.remove p := heffect'
      refine ⟨rfl, ?_, h.program⟩
      show s.tables.set _ _ = t.tables.set _ _
      rw [h.tables]
    | destroy f =>
      obtain rfl : s' = s.destroy f := heffect
      obtain rfl : t' = t.destroy f := heffect'
      refine ⟨rfl, ?_, h.program⟩
      show s.tables.set _ _ = t.tables.set _ _
      rw [h.tables]

end InterfaceState

/-! ## Twins -/

namespace Procedure

variable {σ τ α β γ δ κ : Type} {B : Behaviour κ} {k k' : κ}

/-- Every run of a procedure and every run of another one end as required. -/
def Twin (B : Behaviour κ) (p : Procedure σ α) (p' : Procedure τ β)
    (Q : α → κ → β → κ → Prop) (k k' : κ) : Prop :=
  p.Ensures B (fun a l => p'.Ensures B (Q a l) k') k

theorem twin_done {a : α} {b : β} {Q : α → κ → β → κ → Prop} :
    Twin B (done a : Procedure σ α) (done b : Procedure τ β) Q k k' ↔ Q a k b k' :=
  ensures_done.trans ensures_done

theorem twin_bind {p : Procedure σ α} {p' : Procedure τ β} {next : α → Procedure σ γ}
    {next' : β → Procedure τ δ} {Q : γ → κ → δ → κ → Prop}
    (h : Twin B p p' (fun a l b l' => Twin B (next a) (next' b) Q l l') k k') :
    Twin B (p.bind next) (p'.bind next') Q k k' := by
  refine ensures_bind.mpr fun a l hrun c m hnext => ?_
  exact ensures_bind.mpr fun b l' hrun' => h a l hrun b l' hrun' c m hnext

theorem twin_mapState {p p' : Procedure σ α} {f g : σ → τ} {Q : α → κ → α → κ → Prop} :
    Twin B (p.mapState f) (p'.mapState g) Q k k' ↔ Twin B p p' Q k k' := by
  simp only [Twin, ensures_mapState]

theorem Twin.mono {p : Procedure σ α} {p' : Procedure τ β} {Q R : α → κ → β → κ → Prop}
    (h : Twin B p p' Q k k') (hQR : ∀ a l b l', Q a l b l' → R a l b l') :
    Twin B p p' R k k' :=
  fun a l hrun b l' hrun' => hQR a l b l' (h a l hrun b l' hrun')

theorem twin_note_left {entry : Log.Entry} {p : Procedure σ α} {p' : Procedure τ β}
    {Q : α → κ → β → κ → Prop} : Twin B (note entry p) p' Q k k' ↔ Twin B p p' Q k k' :=
  ensures_note

theorem twin_note_right {entry : Log.Entry} {p : Procedure σ α} {p' : Procedure τ β}
    {Q : α → κ → β → κ → Prop} : Twin B p (note entry p') Q k k' ↔ Twin B p p' Q k k' := by
  simp only [Twin, ensures_note]

theorem twin_call {c c' : Call} {s : σ} {t : τ} {resume : c.Answer → Procedure σ α}
    {resume' : c'.Answer → Procedure τ β} {Q : α → κ → β → κ → Prop}
    (h : ∀ b l b' l', B c k b l → B c' k' b' l' → Twin B (resume b) (resume' b') Q l l') :
    Twin B (call c s resume) (call c' t resume') Q k k' := by
  refine ensures_call.mpr fun b l step a m hrun => ensures_call.mpr fun b' l' step' => ?_
  exact h b l b' l' step step' a m hrun

/-- A procedure that makes calls about tables only ends in the same way on alike interfaces. -/
theorem twin_of_tables {name : String} {z : Circumstances} {s t : InterfaceState}
    {p : Procedure σ α} (hmakes : p.Makes fun c => c.isTableCall = true) (h : s.Alike t) :
    Twin (InterfaceState.calm name z) p p (fun a s' a' t' => a = a' ∧ s'.Alike t') s t := by
  induction p generalizing s t with
  | done a => exact twin_done.mpr ⟨rfl, h⟩
  | note entry next ih => exact twin_note_left.mpr (twin_note_right.mpr (ih hmakes h))
  | call c state resume ih =>
    refine twin_call fun b s' b' t' hs ht => ?_
    obtain ⟨rfl, h'⟩ := h.tableCall hmakes.1 hs ht
    exact ih b (hmakes.2 b) h'

end Procedure

namespace Work

variable {σ τ ε α β κ : Type} {B : Behaviour κ} {F : σ → κ → σ → κ → Prop}
  {Q : α → σ → κ → α → σ → κ → Prop} {s s' : σ} {k k' : κ}

/-- Every run of a work and every run of another one end well together, as the first condition
requires, or fail together with the same error, as the second one requires. -/
def Twin (B : Behaviour κ) (w w' : Work σ ε α) (Q : α → σ → κ → α → σ → κ → Prop)
    (F : σ → κ → σ → κ → Prop) (s : σ) (k : κ) (s' : σ) (k' : κ) : Prop :=
  Procedure.Twin B (w s) (w' s')
    (fun r l r' l' =>
      match r, r' with
      | (.ok a, t), (.ok a', t') => Q a t l a' t' l'
      | (.error e, t), (.error e', t') => e = e' ∧ F t l t' l'
      | _, _ => False) k k'

theorem twin_pure {a a' : α} (h : Q a s k a' s' k') :
    Work.Twin B (pure a : Work σ ε α) (pure a') Q F s k s' k' :=
  Procedure.twin_done.mpr h

theorem twin_get {Q : σ → σ → κ → σ → σ → κ → Prop} (h : Q s s k s' s' k') :
    Work.Twin B (Work.get : Work σ ε σ) Work.get Q F s k s' k' :=
  Procedure.twin_done.mpr h

theorem twin_modify {Q : Unit → σ → κ → Unit → σ → κ → Prop} {f f' : σ → σ}
    (h : Q () (f s) k () (f' s') k') :
    Work.Twin B (Work.modify f : Work σ ε Unit) (Work.modify f') Q F s k s' k' :=
  Procedure.twin_done.mpr h

theorem twin_fail {e e' : ε} (he : e = e') (h : F s k s' k') :
    Work.Twin B (Work.fail e : Work σ ε α) (Work.fail e') Q F s k s' k' :=
  Procedure.twin_done.mpr ⟨he, h⟩

theorem twin_bind {w w' : Work σ ε β} {next next' : β → Work σ ε α}
    (h : Work.Twin B w w'
      (fun b t l b' t' l' => Work.Twin B (next b) (next' b') Q F t l t' l') F s k s' k') :
    Work.Twin B (w >>= next) (w' >>= next') Q F s k s' k' := by
  refine Procedure.twin_bind (Procedure.Twin.mono h ?_)
  rintro ⟨e | b, t⟩ l ⟨e' | b', t'⟩ l' hends
  · exact Procedure.twin_done.mpr hends
  · exact hends.elim
  · exact hends.elim
  · exact hends

/-- A note on one side only makes no difference. -/
theorem twin_note_left {entry : Log.Entry} {next : Unit → Work σ ε α} {w' : Work σ ε α}
    (h : Work.Twin B (next ()) w' Q F s k s' k') :
    Work.Twin B (Work.note entry >>= next) w' Q F s k s' k' :=
  Procedure.twin_note_left.mpr h

theorem twin_note_right {entry : Log.Entry} {w : Work σ ε α} {next' : Unit → Work σ ε α}
    (h : Work.Twin B w (next' ()) Q F s k s' k') :
    Work.Twin B w (Work.note entry >>= next') Q F s k s' k' :=
  Procedure.twin_note_right.mpr h

theorem Twin.mono {w w' : Work σ ε α} {R : α → σ → κ → α → σ → κ → Prop}
    {G : σ → κ → σ → κ → Prop} (h : Work.Twin B w w' Q F s k s' k')
    (hQR : ∀ a t l a' t' l', Q a t l a' t' l' → R a t l a' t' l')
    (hFG : ∀ t l t' l', F t l t' l' → G t l t' l') : Work.Twin B w w' R G s k s' k' := by
  refine Procedure.Twin.mono h ?_
  rintro ⟨e | a, t⟩ l ⟨e' | a', t'⟩ l' hends
  · exact ⟨hends.1, hFG t l t' l' hends.2⟩
  · exact hends
  · exact hends
  · exact hQR a t l a' t' l' hends

theorem twin_focus {Q : α → τ → κ → α → τ → κ → Prop} {F : τ → κ → τ → κ → Prop} {t t' : τ}
    {part : τ → σ} {put : σ → τ → τ} {w w' : Work σ ε α}
    (h : Work.Twin B w w' (fun a s l a' s' l' => Q a (put s t) l a' (put s' t') l')
      (fun s l s' l' => F (put s t) l (put s' t') l') (part t) k (part t') k') :
    Work.Twin B (Work.focus part put w) (Work.focus part put w') Q F t k t' k' := by
  refine Procedure.twin_bind (Procedure.Twin.mono (Procedure.twin_mapState.mpr h) ?_)
  rintro ⟨e | a, s⟩ l ⟨e' | a', s'⟩ l' hends
  · exact Procedure.twin_done.mpr hends
  · exact hends.elim
  · exact hends.elim
  · exact Procedure.twin_done.mpr hends

theorem twin_call {c c' : Call} {onError : KernelError → ε}
    {next : c.Value → Work σ ε α} {next' : c'.Value → Work σ ε α}
    (h : ∀ b l b' l', B c k b l → B c' k' b' l' →
      match b, b' with
      | .ok a, .ok a' => Work.Twin B (next a) (next' a') Q F s l s' l'
      | .error e, .error e' => e = e' ∧ F s l s' l'
      | _, _ => False) :
    Work.Twin B (Work.call c onError >>= next) (Work.call c' onError >>= next') Q F s k s' k' := by
  refine Procedure.twin_call fun b l b' l' step step' => ?_
  have hends := h b l b' l' step step'
  rcases b with e | a <;> rcases b' with e' | a'
  · exact Procedure.twin_done.mpr ⟨congrArg onError hends.1, hends.2⟩
  · exact hends.elim
  · exact hends.elim
  · exact hends

end Work

/-! ## Twin calls -/

namespace InterfaceState

variable {σ ε α : Type} {name : String} {z : Circumstances} {onError : KernelError → ε}
  {F : σ → InterfaceState → σ → InterfaceState → Prop}
  {Q : α → σ → InterfaceState → α → σ → InterfaceState → Prop} {t t' : σ}
  {s s' : InterfaceState}

/-- While no failure is due, a call fails on both interfaces because they do not exist, or on
neither. -/
theorem twin_call {c c' : Call} {next : c.Value → Work σ ε α} {next' : c'.Value → Work σ ε α}
    (hfails : F t s t' s')
    (hpresent : z.missing = false → ∀ b u b' u', calm name z c s b u → calm name z c' s' b' u' →
      ∃ a a', b = .ok a ∧ b' = .ok a' ∧
        Work.Twin (calm name z) (next a) (next' a') Q F t u t' u') :
    Work.Twin (calm name z) (Work.call c onError >>= next) (Work.call c' onError >>= next') Q F
      t s t' s' := by
  refine Work.twin_call fun b u b' u' hs hs' => ?_
  cases hmissing : z.missing with
  | true =>
    obtain ⟨rfl, rfl⟩ := (calm_of_missing hmissing).mp hs
    obtain ⟨rfl, rfl⟩ := (calm_of_missing hmissing).mp hs'
    exact ⟨rfl, hfails⟩
  | false =>
    obtain ⟨a, a', rfl, rfl, htwin⟩ := hpresent hmissing b u b' u' hs hs'
    exact htwin

theorem twin_probe {next next' : Probe → Work σ ε α} (hfails : F t s t' s')
    (hanswer : Work.Twin (calm name z) (next z.support) (next' z.support) Q F t s t' s') :
    Work.Twin (calm name z) (Work.call .probe onError >>= next)
      (Work.call .probe onError >>= next') Q F t s t' s' := by
  refine twin_call hfails fun hpresent b u b' u' hs hs' => ?_
  obtain ⟨rfl, rfl⟩ := (calm_probe hpresent).mp hs
  obtain ⟨rfl, rfl⟩ := (calm_probe hpresent).mp hs'
  exact ⟨_, _, rfl, rfl, hanswer⟩

theorem twin_query {next next' : Option Program → Work σ ε α} (hfails : F t s t' s')
    (hanswer : Work.Twin (calm name z) (next s.program) (next' s'.program) Q F t s t' s') :
    Work.Twin (calm name z) (Work.call .query onError >>= next)
      (Work.call .query onError >>= next') Q F t s t' s' := by
  refine twin_call hfails fun hpresent b u b' u' hs hs' => ?_
  replace hs := (calm_of_ne_probe hpresent (c := .query) nofun).mp hs
  replace hs' := (calm_of_ne_probe hpresent (c := .query) nofun).mp hs'
  rcases b with e | a
  · exact (hs.1.elim id fun hn => hn trivial).elim
  rcases b' with e | a'
  · exact (hs'.1.elim id fun hn => hn trivial).elim
  obtain ⟨-, rfl, rfl⟩ := hs
  obtain ⟨-, rfl, rfl⟩ := hs'
  exact ⟨_, _, rfl, rfl, hanswer⟩

theorem twin_attach {next next' : Program → Work σ ε α} (hnone : s.program = none)
    (hnone' : s'.program = none) (hfails : F t s t' s')
    (hanswer : ∀ p p' : Program, p.isOurs = true → p'.isOurs = true →
      Work.Twin (calm name z) (next p) (next' p') Q F t (s.withProgram (some p)) t'
        (s'.withProgram (some p'))) :
    Work.Twin (calm name z) (Work.call .attach onError >>= next)
      (Work.call .attach onError >>= next') Q F t s t' s' := by
  refine twin_call hfails fun hpresent b u b' u' hs hs' => ?_
  replace hs := (calm_of_ne_probe hpresent (c := .attach) nofun).mp hs
  replace hs' := (calm_of_ne_probe hpresent (c := .attach) nofun).mp hs'
  rcases b with e | a
  · exact (hs.1.elim id fun hn => hn hnone).elim
  rcases b' with e | a'
  · exact (hs'.1.elim id fun hn => hn hnone').elim
  obtain ⟨-, hours, rfl⟩ := hs
  obtain ⟨-, hours', rfl⟩ := hs'
  exact ⟨a, a', rfl, rfl, hanswer a a' hours hours'⟩

theorem twin_detach {p p' : Program} {next next' : Unit → Work σ ε α}
    (hp : s.program = some p) (hp' : s'.program = some p') (hfails : F t s t' s')
    (hanswer : Work.Twin (calm name z) (next ()) (next' ()) Q F t (s.withProgram none) t'
      (s'.withProgram none)) :
    Work.Twin (calm name z) (Work.call (.detach p) onError >>= next)
      (Work.call (.detach p') onError >>= next') Q F t s t' s' := by
  refine twin_call hfails fun hpresent b u b' u' hs hs' => ?_
  replace hs := (calm_of_ne_probe hpresent (c := .detach p) nofun).mp hs
  replace hs' := (calm_of_ne_probe hpresent (c := .detach p') nofun).mp hs'
  rcases b with e | a
  · exact (hs.1.elim id fun hn => hn (accepts_detach hp)).elim
  rcases b' with e | a'
  · exact (hs'.1.elim id fun hn => hn (accepts_detach hp')).elim
  obtain ⟨-, rfl⟩ := hs
  obtain ⟨-, rfl⟩ := hs'
  exact ⟨(), (), rfl, rfl, hanswer⟩

theorem twin_of_tables {w : Work σ ε α} (hmakes : Work.Makes (fun c => c.isTableCall = true) w)
    (h : s.Alike s') (hQ : ∀ a t u u', u.Alike u' → Q a t u a t u')
    (hF : ∀ t u u', u.Alike u' → F t u t u') :
    Work.Twin (calm name z) w w Q F t s t s' := by
  refine Procedure.Twin.mono (Procedure.twin_of_tables (hmakes t) h) ?_
  rintro ⟨e | a, t'⟩ u _ u' ⟨rfl, h'⟩
  · exact ⟨rfl, hF t' u u' h'⟩
  · exact hQ a t' u u' h'

end InterfaceState

/-! ## The modelled kernel -/

namespace Model

variable {m : Model} {name : String}

/-- Where no failure is due, a call on an interface that exists succeeds if it makes sense. -/
theorem isOk_answer {c : Call} (hfaults : m.faults = Faults.none) (hexists : m.exists? name = true)
    (hc : c ≠ .probe) (haccepts : (m.interface name).Accepts c) :
    (m.answer name c).1.isOk = true := by
  have hwrite : ∀ f op, (m.write name f op).1.isOk = true := by
    intro f op
    simp only [write, hexists, hfaults]
    rfl
  cases c with
  | probe => exact (hc rfl).elim
  | query =>
    simp only [answer, query, hexists]
    rfl
  | read f =>
    simp only [answer, read, hexists, hfaults]
    rfl
  | attach =>
    have hnone : m.program name = none := haccepts
    simp only [answer, attach, hexists, hfaults, hnone]
    rfl
  | detach p =>
    simp only [answer, detach, hexists, hfaults]
    cases hprogram : m.program name with
    | none => rfl
    | some other =>
      have hid : other.id = p.id := haccepts other hprogram
      simp only [hid]
      rfl
  | insert p => exact hwrite _ _
  | remove p => exact hwrite _ _
  | destroy f => exact hwrite _ _

/-- While no failure is due, the modelled kernel does what the circumstances of an interface say. -/
theorem answer_calm (hfaults : m.faults = Faults.none) (c : Call) :
    InterfaceState.calm name (m.circumstances name) c (m.interface name) (m.answer name c).1
      ((m.answer name c).2.interface name) := by
  cases hexists : m.exists? name with
  | false =>
    obtain ⟨herror, halike⟩ := answer_missing hexists c
    have hmissing : (m.circumstances name).missing = true := by rw [circumstances, hexists]; rfl
    exact (InterfaceState.calm_of_missing hmissing).mpr ⟨herror, (halike.interface_eq name).symm⟩
  | true =>
    have hpresent : (m.circumstances name).missing = false := by rw [circumstances, hexists]; rfl
    by_cases hc : c = .probe
    · subst hc
      refine (InterfaceState.calm_probe hpresent).mpr ?_
      simp only [answer, probe, hexists, circumstances]
      cases m.unsupported[name]? <;> exact ⟨rfl, rfl⟩
    · refine (InterfaceState.calm_of_ne_probe hpresent hc).mpr ?_
      have hbehaves : InterfaceState.behaviour True c (m.interface name) (m.answer name c).1
          ((m.answer name c).2.interface name) := answer_behaves (.inl trivial) c
      have hok := isOk_answer hfaults hexists hc
      generalize (m.answer name c).1 = b at hbehaves hok ⊢
      rcases b with e | a
      · refine ⟨.inr fun haccepts => ?_, hbehaves.2⟩
        cases hok haccepts
      · refine ⟨hbehaves.1, ?_⟩
        cases c with
        | probe => exact (hc rfl).elim
        | _ => exact hbehaves.2

end Model

end Kernel

end IngressGuard
