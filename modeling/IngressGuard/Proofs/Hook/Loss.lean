import IngressGuard.Proofs.Hook.Lifecycle

/-!
# A lost program is reported once

A program of ours that was attached is gone, taken away or replaced by one of others.  The next
call to attach should say so, but it may fail: when it asks what is attached, when it detaches the
program of others, or when it attaches ours.  Then what the kernel holds may have changed, and the
program that was remembered may be forgotten.  That there was one is kept by the state of the hook
alone (`Hook.Lost`), over any number of failed calls, until one succeeds; and after that there is
nothing more to say (`Hook.Settled`).
-/

namespace IngressGuard

open Kernel (Work InterfaceState Exchange Model)

/-- An event that tells of a repair which has left a program attached. -/
inductive HookEvent.Restores (p : Program) : HookEvent → Prop
  | reattached (previous : Option Program) : Restores p (.reattached previous p)
  | foreignReplaced (foreign : Program) : Restores p (.foreignReplaced foreign p)

theorem HookEvent.Restores.isDrift {p : Program} {e : HookEvent} (h : e.Restores p) :
    e.isDrift = true := by
  cases h <;> rfl

namespace Hook

variable {mayFail : Prop} {name : String} {h h' : Hook} {s s' : InterfaceState} {p : Program}

/-- Our program was attached and is gone, and no call has succeeded since. -/
structure Lost (h : Hook) (s : InterfaceState) : Prop where
  probed : h.probed = true
  state : h.state = .attached ∨ h.state = .reattaching
  gone : s.carriesOurs = false

/-- A program of ours is attached, and it is the one that is remembered. -/
structure Settled (p : Program) (h : Hook) (s : InterfaceState) : Prop where
  probed : h.probed = true
  state : h.state = .attached
  ours : p.isOurs = true
  attached : s.program = some p
  known : h.program = some p

/-! ## One call -/

theorem ensures_ensureSupported_of_probed {Q : Unit → Hook → InterfaceState → Prop}
    {E : CycleError → Hook → InterfaceState → Prop} (hprobed : h.probed = true)
    (hstate : h.state = .attached ∨ h.state = .reattaching) (hQ : Q () h s) :
    Work.Ensures (InterfaceState.behaviour mayFail) (ensureSupported name) Q E h s := by
  have hable : h.isUnsupported = false := by
    rcases hstate with hstate | hstate <;> rw [isUnsupported, hstate] <;> rfl
  refine Work.ensures_bind.mpr (Work.ensures_bind.mpr (Work.ensures_get.mpr ?_))
  rw [if_pos (by simp [hprobed])]
  refine Work.ensures_pure.mpr (Work.ensures_bind.mpr (Work.ensures_get.mpr ?_))
  rw [if_neg (by simp [hable])]
  exact Work.ensures_pure.mpr hQ

/-- Attaching the lost program anew either fails, and it is still lost, or it is told of. -/
theorem Lost.ensures_attach (hlost : h.Lost s) (foreign : Option Program) :
    Work.Ensures (InterfaceState.behaviour mayFail) (attach name foreign)
      (fun events h' s' => ∃ p e, events = [e] ∧ e.Restores p ∧ h'.Settled p s')
      (fun _ h' s' => h'.Lost s') h s := by
  have hdrift : (h.state == .attached || h.state == .reattaching) = true := by
    simpa using hlost.state
  have hgone : Lost { h with program := none, state := .reattaching } s :=
    ⟨hlost.probed, .inr rfl, hlost.gone⟩
  -- What is logged and told depends on whether a program of others was there.
  have hrest : ∀ event : Program → HookEvent, (∀ p, (event p).Restores p) →
      Work.Ensures (InterfaceState.behaviour mayFail) (do
          Work.modify fun h => { h with program := none, state := .reattaching }
          let current : Program ← Work.call .attach (.attachFailed name)
          tell .info "Program attached" name [idField current]
          Work.modify fun h => { h with program := some current, state := .attached }
          return [event current] : HookWork (List HookEvent))
        (fun events h' s' => ∃ p e, events = [e] ∧ e.Restores p ∧ h'.Settled p s')
        (fun _ h' s' => h'.Lost s') h s := by
    intro event hevent
    refine Work.ensures_bind.mpr (Work.ensures_modify.mpr (Work.ensures_bind.mpr ?_))
    refine InterfaceState.ensures_attach.mpr ⟨fun _ p hours => ?_, fun _ _ => hgone⟩
    refine Work.ensures_bind.mpr (Work.ensures_note.mpr (Work.ensures_bind.mpr
      (Work.ensures_modify.mpr (Work.ensures_pure.mpr ?_))))
    exact ⟨p, _, rfl, hevent p, hlost.probed, rfl, hours, rfl, rfl⟩
  refine Work.ensures_bind.mpr (Work.ensures_get.mpr ?_)
  simp only [hdrift, Bool.and_true]
  cases foreign with
  | none => exact Work.ensures_bind.mpr (Work.ensures_note.mpr (hrest _ fun _ => .reattached _))
  | some foreign => exact hrest _ fun _ => .foreignReplaced foreign

/-- A call that fails leaves the program lost, and one that succeeds tells of it. -/
theorem Lost.ensures_ensureAttached (hlost : h.Lost s) :
    Work.Ensures (InterfaceState.behaviour mayFail) (ensureAttached name)
      (fun events h' s' => ∃ p e, events = [e] ∧ e.Restores p ∧ h'.Settled p s')
      (fun _ h' s' => h'.Lost s') h s := by
  refine Work.ensures_bind.mpr (ensures_ensureSupported_of_probed hlost.probed hlost.state ?_)
  refine Work.ensures_bind.mpr (InterfaceState.ensures_query.mpr ⟨?_, fun _ _ => hlost⟩)
  cases hp : s.program with
  | none => exact hlost.ensures_attach none
  | some foreign =>
    have hforeign : foreign.isOurs = false := by
      have hgone := hlost.gone
      rwa [InterfaceState.carriesOurs, hp] at hgone
    dsimp only
    rw [if_neg (by simp [hforeign])]
    refine Work.ensures_bind.mpr (Work.ensures_note.mpr (Work.ensures_bind.mpr
      (InterfaceState.ensures_detach.mpr ⟨fun _ => ?_, fun _ _ => hlost⟩)))
    have hfreed : h.Lost (s.withProgram none) := ⟨hlost.probed, hlost.state, rfl⟩
    exact hfreed.ensures_attach (some foreign)

/-- Where our program is attached and known, a call has nothing to tell, and changes nothing. -/
theorem Settled.ensures_ensureAttached (hsettled : h.Settled p s) :
    Work.Ensures (InterfaceState.behaviour mayFail) (ensureAttached name)
      (fun events h' s' => events = [] ∧ h'.Settled p s') (fun _ h' s' => h'.Settled p s')
      h s := by
  have hstate := hsettled.state
  refine Work.ensures_bind.mpr
    (ensures_ensureSupported_of_probed hsettled.probed (.inl hstate) ?_)
  refine Work.ensures_bind.mpr (InterfaceState.ensures_query.mpr ⟨?_, fun _ _ => hsettled⟩)
  rw [hsettled.attached]
  dsimp only
  rw [if_pos hsettled.ours]
  refine Work.ensures_bind.mpr (Work.ensures_get.mpr ?_)
  rw [hsettled.known]
  dsimp only
  rw [if_neg (by simp)]
  refine Work.ensures_bind.mpr (Work.ensures_pure.mpr ?_)
  refine Work.ensures_bind.mpr (Work.ensures_modify.mpr (Work.ensures_pure.mpr ⟨rfl, ?_⟩))
  exact ⟨hsettled.probed, rfl, hsettled.ours, hsettled.attached, rfl⟩

/-! ## Any number of calls -/

/-- The result of a call to attach. -/
abbrev AttachResult := Except CycleError (List HookEvent)

/-- Calls to attach, one after the other, while nobody else touches the interface.  Each of them may
fail anywhere. -/
inductive Retries (name : String) (h : Hook) (s : InterfaceState) :
    List AttachResult → Hook → InterfaceState → Prop
  | none : Retries name h s [] h s
  | call {results h₁ s₁ result h' s'} (before : Retries name h s results h₁ s₁)
      (run : (ensureAttached name h₁).Yields (InterfaceState.behaviour True) s₁ (result, h') s') :
      Retries name h s (results ++ [result]) h' s'

/-- What a series of calls has told: nothing, while all of them have failed and the program is still
lost; or first that the program was restored, and then nothing more. -/
inductive Told (h : Hook) (s : InterfaceState) (results : List AttachResult) : Prop
  | nothing (failed : ∀ r ∈ results, ∃ e, r = .error e) (lost : h.Lost s)
  | once {failed later : List AttachResult} {event : HookEvent} {p : Program}
      (split : results = failed ++ .ok [event] :: later)
      (failed : ∀ r ∈ failed, ∃ e, r = .error e) (restores : event.Restores p)
      (silent : ∀ events, .ok events ∈ later → events = []) (settled : h.Settled p s)

theorem Told.call {results : List AttachResult} {result : AttachResult}
    (htold : Told h s results)
    (run : (ensureAttached name h).Yields (InterfaceState.behaviour True) s (result, h') s') :
    Told h' s' (results ++ [result]) := by
  cases htold with
  | nothing failed lost =>
    have hcall := lost.ensures_ensureAttached _ _ run
    cases result with
    | error e =>
      refine .nothing (fun r hr => ?_) hcall
      rcases List.mem_append.mp hr with hr | hr
      · exact failed r hr
      · exact ⟨e, List.mem_singleton.mp hr⟩
    | ok events =>
      obtain ⟨p, event, rfl, hrestores, hsettled⟩ := hcall
      exact .once rfl failed hrestores nofun hsettled
  | once split failed restores silent settled =>
    have hcall := settled.ensures_ensureAttached _ _ run
    subst split
    cases result with
    | error e =>
      refine .once (List.append_assoc ..) failed restores (fun events hmem => ?_) hcall
      rcases List.mem_append.mp hmem with hmem | hmem
      · exact silent events hmem
      · cases List.mem_singleton.mp hmem
    | ok events =>
      obtain ⟨rfl, hsettled⟩ := hcall
      refine .once (List.append_assoc ..) failed restores (fun events hmem => ?_) hsettled
      rcases List.mem_append.mp hmem with hmem | hmem
      · exact silent events hmem
      · cases List.mem_singleton.mp hmem
        rfl

theorem Retries.told {results : List AttachResult} (hlost : h.Lost s)
    (retries : Retries name h s results h' s') : Told h' s' results := by
  induction retries with
  | none => exact .nothing nofun hlost
  | call before run ih => exact ih.call run

/-- Our program was attached and is gone, taken away or replaced by one of others.  Whatever may
fail of the calls to attach that follow, the first that succeeds tells of one event, which is a
repair of what others have done and names the program that is attached from then on.  Those that
succeed after it tell of none. -/
theorem loss_told_once {past : List Exchange} {results : List AttachResult}
    (life : Life name h past) (hattached : h.state = .attached) (hgone : s.carriesOurs = false)
    (retries : Retries name h s results h' s') :
    (∀ r ∈ results, ∃ e, r = .error e) ∨
      ∃ failed event p later, results = failed ++ .ok [event] :: later ∧
        (∀ r ∈ failed, ∃ e, r = .error e) ∧ event.isDrift = true ∧ event.Restores p ∧
        s'.program = some p ∧ p.isOurs = true ∧ ∀ events, .ok events ∈ later → events = [] := by
  have hprobed : h.probed = true := life.sound.able (.inr (.inl hattached))
  cases retries.told ⟨hprobed, .inl hattached, hgone⟩ with
  | nothing failed => exact .inl failed
  | once split failed restores silent settled =>
    exact .inr ⟨_, _, _, _, split, failed, restores.isDrift, restores, settled.attached,
      settled.ours, silent⟩

/-! ## Two failed repairs -/

/-- Calls to attach, one after the other, against the modelled kernel. -/
def attempts (name : String) (h : Hook) (m : Model) : Nat → List AttachResult × Hook × Model
  | 0 => ([], h, m)
  | n + 1 =>
    let (results, h, m) := attempts name h m n
    let ((result, h), m, _) := (ensureAttached name h).eval (Model.answer name) m
    (results ++ [result], h, m)

theorem retries_attempts (name : String) (h : Hook) (m : Model) (n : Nat) :
    Retries name h (m.interface name) (attempts name h m n).1 (attempts name h m n).2.1
      ((attempts name h m n).2.2.interface name) := by
  induction n with
  | zero => exact .none
  | succ n ih => exact ih.call (Model.yields_interface name _ _)

/-- Our program was attached and then replaced.  The program of others cannot be detached at first,
and when it is, ours cannot be attached; the third call tells of the repair, and the fourth of
nothing. -/
theorem loss_told_once_replaced :
    let name := "eth0"
    let start := Host.ofKernel (Model.fresh ∅ none) .logging
    let first := (ensureAttached name fresh).run (Host.answer name) start
    let h := first.1.state
    let m := ((first.2.1.kernel.tamperAttach name "xdp_other").2.failDetaches 1).failAttaches 1
    let m' := (attempts name h m 4).2.2
    ∃ past results, Life name h past ∧ h.state = .attached ∧
      (m.interface name).carriesOurs = false ∧
      Retries name h (m.interface name) results (attempts name h m 4).2.1 (m'.interface name) ∧
      results.map Except.toOption =
        [none, none, some [.reattached none ⟨102, Program.ownName⟩], some []] ∧
      ∃ failed event p later, results = failed ++ .ok [event] :: later ∧ event.Restores p ∧
        m'.program name = some p := by
  intro name start first h m m'
  have life : Life name h _ := Life.fresh.attach_host start
  have hattached : h.state = .attached := by decide +kernel
  have hgone : (m.interface name).carriesOurs = false := by decide +kernel
  have hresults : (attempts name h m 4).1.map Except.toOption =
      [none, none, some [.reattached none ⟨102, Program.ownName⟩], some []] := by decide +kernel
  have retries := retries_attempts name h m 4
  refine ⟨_, _, life, hattached, hgone, retries, hresults, ?_⟩
  obtain hfailed | ⟨failed, event, p, later, hsplit, -, -, hrestores, hprogram, -⟩ :=
    loss_told_once life hattached hgone retries
  · have hmem : some [] ∈ (attempts name h m 4).1.map Except.toOption := by simp [hresults]
    obtain ⟨r, hr, hok⟩ := List.mem_map.mp hmem
    obtain ⟨e, rfl⟩ := hfailed r hr
    cases hok
  · exact ⟨failed, event, p, later, hsplit, hrestores, hprogram⟩

end Hook

end IngressGuard
