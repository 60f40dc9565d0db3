import IngressGuard.Enforcer.Outcome
import IngressGuard.Proofs.Hook
import IngressGuard.Proofs.Kernel.Model
import IngressGuard.Proofs.Kernel.Transcript

/-!
# The life of a hook

A hook goes through calls to attach and to detach.  Each of them can stop at several places and
leave something half-done behind, and others change the interface as they like.  Whatever happens,
state, program, probe and reason fit together, and they fit what the kernel has said
(`Hook.Sound`).  Each call keeps this wherever it stops (`guards_ensureAttached`,
`guards_ensureDetached`), so it holds in every life of a hook (`Hook.lifecycle`).
-/

namespace IngressGuard

open Kernel (Work InterfaceState Exchange Ending Model)

/-- An entry of the log that is no enforcement event. -/
def Log.Entry.IsRoutine (entry : Log.Entry) : Prop :=
  entry.message ≠ (enforcementEvent []).message

/-- Our program was attached on request. -/
def Kernel.Exchange.attached (p : Program) : Exchange := ⟨.attach, some (.ok p)⟩

namespace Hook

variable {name : String} {h h' : Hook} {past : List Exchange} {e : CycleError}

/-- What is remembered fits together, and it fits what the kernel has said. -/
structure Sound (h : Hook) (past : List Exchange) : Prop where
  /-- In the end our program is attached. -/
  present : h.state = .attached →
    ∃ p, h.program = some p ∧ (p.isOurs = true ∨ Exchange.attached p ∈ past)
  absent : h.state ≠ .attached → h.state ≠ .detaching → h.program = none
  reason : h.isUnsupported = h.unsupportedReason.isSome
  probed : h.probed = true ↔ ∃ x ∈ past, x.findsSupport = true
  /-- Only an interface that was found able to carry programs gets one. -/
  able : h.state = .attaching ∨ h.state = .attached ∨ h.state = .reattaching → h.probed = true
  disabled : h.isUnsupported = true → h.probed = false
  /-- After support was found, there are no more probes. -/
  once : past.Pairwise fun x y => x.findsSupport = true → y.call ≠ .probe

/-- What the state of a hook may become: an interface that has carried our program is not started
anew, and it does not turn out to be unable to carry one. -/
def Moves (h h' : Hook) : Prop :=
  h.state = .attached ∨ h.state = .reattaching →
    h'.state ≠ .attaching ∧ h'.state ≠ .unsupported

/-- An error says that the interface cannot carry programs if and only if a reason for that is
remembered, and then it gives that reason. -/
def Accounts (name : String) (h : Hook) (e : CycleError) : Prop :=
  match h.unsupportedReason with
  | some reason => e = .featureUnsupported name reason
  | none => ∀ i reason, e ≠ .featureUnsupported i reason

theorem Accounts.eq_of_reason {reason : String} (ha : Accounts name h e)
    (hreason : h.unsupportedReason = some reason) : e = .featureUnsupported name reason := by
  unfold Accounts at ha
  rwa [hreason] at ha

theorem Accounts.reason_of_eq {i reason : String}
    (ha : Accounts name h (.featureUnsupported i reason)) :
    i = name ∧ h.unsupportedReason = some reason := by
  unfold Accounts at ha
  split at ha
  case h_1 reason' hreason =>
    cases ha
    exact ⟨rfl, hreason⟩
  case h_2 => exact (ha i reason rfl).elim

/-- What a call that has got past the probe leaves behind. -/
structure Leaves (h h' : Hook) (past : List Exchange) : Prop where
  sound : h'.Sound past
  able : h'.isUnsupported = false
  moves : h.Moves h'

theorem isUnsupported_iff : h.isUnsupported = true ↔ h.state = .unsupported := by
  unfold isUnsupported
  rw [beq_iff_eq]

theorem sound_fresh : fresh.Sound [] where
  present := nofun
  absent _ _ := rfl
  reason := rfl
  probed := by simp [fresh]
  able := by simp [fresh]
  disabled := nofun
  once := .nil

theorem Sound.isUnsupported_of_probed (hs : h.Sound past) (hprobed : h.probed = true) :
    h.isUnsupported = false := by
  refine Bool.eq_false_iff.mpr fun hunsupported => ?_
  rw [hs.disabled hunsupported] at hprobed
  cases hprobed

theorem Sound.unsupportedReason_eq_none (hs : h.Sound past) (hable : h.isUnsupported = false) :
    h.unsupportedReason = none := by
  rw [hs.reason, Option.isSome_eq_false_iff] at hable
  exact Option.isNone_iff_eq_none.mp hable

theorem Sound.moves_of_not_probed (hs : h.Sound past) (hprobed : h.probed = false) :
    h.Moves h' := by
  intro hstate
  have hfound := hs.able (.inr hstate)
  rw [hprobed] at hfound
  cases hfound

/-- A failure that is not about support accounts for an interface that can carry programs. -/
theorem Leaves.accounts (hl : h.Leaves h' past)
    (he : ∀ i reason, e ≠ .featureUnsupported i reason) : Accounts name h' e := by
  unfold Accounts
  rw [hl.sound.unsupportedReason_eq_none hl.able]
  exact he

theorem mem_snoc_findsSupport {x : Exchange} :
    (∃ y ∈ past ++ [x], y.findsSupport = true) ↔
      (∃ y ∈ past, y.findsSupport = true) ∨ x.findsSupport = true := by
  simp [or_and_right, exists_or]

/-- A transcript stays in order if nothing is said after support was found that should not be. -/
theorem Sound.once_snoc (hs : h.Sound past) {x : Exchange}
    (hprobe : x.call = .probe → h.probed = false) :
    (past ++ [x]).Pairwise fun x y => x.findsSupport = true → y.call ≠ .probe := by
  refine List.pairwise_append.mpr ⟨hs.once, List.pairwise_singleton _ _, ?_⟩
  intro y hy z hz hfound hcall
  obtain rfl := List.mem_singleton.mp hz
  have hprobed := hs.probed.mpr ⟨y, hy, hfound⟩
  rw [hprobe hcall] at hprobed
  cases hprobed

/-- What is remembered fits a longer transcript too, unless that is about support. -/
theorem Sound.snoc (hs : h.Sound past) {x : Exchange} (hx : x.findsSupport = false)
    (hprobe : x.call = .probe → h.probed = false) : h.Sound (past ++ [x]) where
  present hattached := by
    obtain ⟨p, hp, hours⟩ := hs.present hattached
    exact ⟨p, hp, hours.imp_right fun hmem => List.mem_append_left _ hmem⟩
  absent := hs.absent
  reason := hs.reason
  probed := by
    rw [mem_snoc_findsSupport, hs.probed, hx]
    simp
  able := hs.able
  disabled := hs.disabled
  once := hs.once_snoc hprobe

/-- A probe finds that an interface can carry programs. -/
theorem Sound.found (hs : h.Sound past) (hable : h.isUnsupported = false)
    (hprobed : h.probed = false) :
    Sound { h with probed := true } (past ++ [⟨.probe, some (.ok Probe.supported)⟩]) where
  present hattached := by
    have hfound := hs.able (.inr (.inl hattached))
    rw [hprobed] at hfound
    cases hfound
  absent := hs.absent
  reason := hs.reason
  probed := iff_of_true rfl (mem_snoc_findsSupport.mpr (.inr rfl))
  able _ := rfl
  disabled hunsupported := by
    rw [show h.isUnsupported = true from hunsupported] at hable
    cases hable
  once := hs.once_snoc fun _ => hprobed

/-- A probe finds that an interface cannot carry programs. -/
theorem Sound.latch (hs : h.Sound past) (hprobed : h.probed = false) (reason : String) :
    Sound { h with state := .unsupported, program := none, unsupportedReason := some reason }
      (past ++ [⟨.probe, some (.ok (Probe.unsupported reason))⟩]) where
  present := nofun
  absent _ _ := rfl
  reason := rfl
  probed := by
    rw [mem_snoc_findsSupport, ← hs.probed]
    simp [Exchange.findsSupport]
  able := by simp
  disabled _ := hprobed
  once := hs.once_snoc fun _ => hprobed

/-! ## Support -/

theorem guards_tell {A : Hook → List Exchange → Prop} {Q : Unit → Hook → List Exchange → Prop}
    {E : CycleError → Hook → List Exchange → Prop} {level : Log.Level} {message : String}
    {more : List (String × String)} (hmessage : message ≠ "Enforcement event") :
    Work.Guards Log.Entry.IsRoutine A (tell level message name more) Q E h past ↔ Q () h past :=
  and_iff_right hmessage

theorem guards_ensureSupported (hs : h.Sound past) (hable : h.isUnsupported = false) :
    Work.Guards Log.Entry.IsRoutine (fun h' past' => h' = h ∧ h.Sound past')
      (ensureSupported name)
      (fun _ h' past' => h' = { h with probed := true } ∧ h'.Sound past')
      (fun e h' past' => h'.Sound past' ∧ Accounts name h' e ∧ h.Moves h') h past := by
  simp only [ensureSupported, probe, requireSupport, Work.guards_bind, Work.guards_get]
  cases hprobed : h.probed with
  | true =>
    rw [if_pos (by simp)]
    simp only [Work.guards_pure]
    rw [if_neg (by simp [hable])]
    exact ⟨by rw [← hprobed], hs⟩
  | false =>
    rw [if_neg (by simp [hable])]
    simp only [Work.guards_bind, Work.guards_call]
    refine ⟨⟨trivial, hs.snoc rfl fun _ => hprobed⟩, ?_, fun k => ?_⟩
    · rintro (_ | reason)
      · simp only [Work.guards_bind, Work.guards_modify, Work.guards_pure]
        rw [if_neg (by simpa [isUnsupported] using hable)]
        exact ⟨rfl, hs.found hable hprobed⟩
      · refine Work.guards_bind.mpr ((guards_tell (by decide)).mpr ?_)
        simp only [Work.guards_bind, Work.guards_modify, Work.guards_pure, isUnsupported,
          beq_self_eq_true, if_true]
        exact ⟨hs.latch hprobed reason, rfl, hs.moves_of_not_probed hprobed⟩
    · -- The probe itself failed, so nothing is known.
      have hleaves : h.Leaves h (past ++ [⟨.probe, some (.error k)⟩]) :=
        ⟨hs.snoc rfl fun _ => hprobed, hable, hs.moves_of_not_probed hprobed⟩
      exact ⟨hleaves.sound, hleaves.accounts nofun, hleaves.moves⟩

/-! ## Attaching -/

theorem guards_adopt (hs : h.Sound past) (hprobed : h.probed = true) {p : Program}
    (hours : p.isOurs = true) :
    Work.Guards Log.Entry.IsRoutine (fun _ _ => False) (adopt name p)
      (fun _ h' past' => h'.Sound past' ∧ h'.state = .attached) (fun _ _ _ => False) h past := by
  have hend : Sound { h with program := some p, state := .attached } past :=
    { present := fun _ => ⟨p, rfl, .inl hours⟩
      absent := fun hne => (hne rfl).elim
      reason := (hs.isUnsupported_of_probed hprobed).symm.trans hs.reason
      probed := hs.probed
      able := fun _ => hprobed
      disabled := nofun
      once := hs.once }
  -- The cases differ in what is logged.
  simp only [adopt, Work.guards_bind, Work.guards_get]
  cases h.program with
  | none =>
    refine Work.guards_bind.mpr ((guards_tell (by decide)).mpr ?_)
    exact ⟨hend, rfl⟩
  | some known =>
    dsimp only
    split
    · refine Work.guards_bind.mpr ((guards_tell (by decide)).mpr ?_)
      exact ⟨hend, rfl⟩
    · exact ⟨hend, rfl⟩

theorem Leaves.refl (hs : h.Sound past) (hable : h.isUnsupported = false) : h.Leaves h past := by
  refine ⟨hs, hable, fun hstate => ?_⟩
  rcases hstate with hstate | hstate <;> rw [hstate] <;> exact ⟨nofun, nofun⟩

theorem Leaves.snoc (hl : h.Leaves h' past) {x : Exchange} (hx : x.findsSupport = false)
    (hprobe : x.call ≠ .probe) : h.Leaves h' (past ++ [x]) :=
  ⟨hl.sound.snoc hx fun h => (hprobe h).elim, hl.able, hl.moves⟩

/-- Our program is about to be attached, for the first time or again. -/
theorem Sound.attempt (hs : h.Sound past) (hprobed : h.probed = true) {next : BindingState}
    (hnext : next = .reattaching ∨
      next = .attaching ∧ h.state ≠ .attached ∧ h.state ≠ .reattaching) :
    h.Leaves { h with program := none, state := next } past where
  sound :=
    { present := by
        rintro (rfl : next = .attached)
        simp at hnext
      absent := fun _ _ => rfl
      reason := by
        rw [hs.unsupportedReason_eq_none (hs.isUnsupported_of_probed hprobed)]
        rcases hnext with rfl | ⟨rfl, -⟩ <;> rfl
      probed := hs.probed
      able := fun _ => hprobed
      disabled := by rcases hnext with rfl | ⟨rfl, -⟩ <;> nofun
      once := hs.once }
  able := by rcases hnext with rfl | ⟨rfl, -⟩ <;> rfl
  moves := by
    rintro hstate
    rcases hnext with rfl | ⟨rfl, hattached, hreattaching⟩
    · exact ⟨nofun, nofun⟩
    · exact (hstate.elim hattached hreattaching).elim

/-- Our program was attached on request. -/
theorem Sound.bind (hs : h.Sound past) (hprobed : h.probed = true) (p : Program) :
    Sound { h with program := some p, state := .attached } (past ++ [Exchange.attached p]) where
  present _ := ⟨p, rfl, .inr (List.mem_append_right _ List.mem_cons_self)⟩
  absent hne := (hne rfl).elim
  reason := (hs.isUnsupported_of_probed hprobed).symm.trans hs.reason
  probed := by
    rw [mem_snoc_findsSupport, hs.probed]
    simp [Exchange.findsSupport, Exchange.attached]
  able _ := hprobed
  disabled := nofun
  once := hs.once_snoc nofun

theorem guards_attach (hs : h.Sound past) (hprobed : h.probed = true)
    {foreign : Option Program} :
    Work.Guards Log.Entry.IsRoutine h.Leaves (attach name foreign)
      (fun _ h' past' => h'.Sound past' ∧ h'.state = .attached)
      (fun e h' past' => h.Leaves h' past' ∧ ∀ i reason, e ≠ .featureUnsupported i reason)
      h past := by
  -- What is remembered during the call depends on whether the program had vanished.
  have hrest : ∀ (next : BindingState) (event : Program → HookEvent),
      (next = .reattaching ∨ next = .attaching ∧ h.state ≠ .attached ∧ h.state ≠ .reattaching) →
      Work.Guards Log.Entry.IsRoutine h.Leaves (do
          Work.modify fun h => { h with program := none, state := next }
          let current : Program ← Work.call .attach (.attachFailed name)
          tell .info "Program attached" name [idField current]
          Work.modify fun h => { h with program := some current, state := .attached }
          return [event current])
        (fun _ h' past' => h'.Sound past' ∧ h'.state = .attached)
        (fun e h' past' => h.Leaves h' past' ∧ ∀ i reason, e ≠ .featureUnsupported i reason)
        h past := by
    intro next event hnext
    have hattempt := hs.attempt hprobed hnext
    refine Work.guards_bind.mpr (Work.guards_modify.mpr (Work.guards_bind.mpr ?_))
    refine Work.guards_call.mpr ⟨hattempt.snoc rfl nofun, fun current => ?_, fun k => ?_⟩
    · refine Work.guards_bind.mpr ((guards_tell (by decide)).mpr ?_)
      exact ⟨hattempt.sound.bind hprobed current, rfl⟩
    · exact ⟨hattempt.snoc rfl nofun, nofun⟩
  refine Work.guards_bind.mpr (Work.guards_get.mpr ?_)
  dsimp only
  split
  case isTrue hdrifted =>
    refine Work.guards_bind.mpr ((guards_tell (by decide)).mpr ?_)
    exact hrest _ _ (by simp [hdrifted])
  case isFalse hdrifted =>
    refine hrest _ _ ?_
    cases foreign with
    | none =>
      have hneither : h.state ≠ .attached ∧ h.state ≠ .reattaching := by simpa using hdrifted
      simp [hneither]
    | some p => simp

theorem Leaves.of_probed (hl : Leaves { h with probed := true } h' past) : h.Leaves h' past :=
  ⟨hl.sound, hl.able, hl.moves⟩

theorem guards_ensureAttached (hs : h.Sound past) (hable : h.isUnsupported = false) :
    Work.Guards Log.Entry.IsRoutine h.Leaves (ensureAttached name)
      (fun _ h' past' => h'.Sound past' ∧ h'.state = .attached)
      (fun e h' past' => h'.Sound past' ∧ Accounts name h' e ∧ h.Moves h') h past := by
  refine Work.guards_bind.mpr ((guards_ensureSupported hs hable).mono ?_ ?_ fun _ _ _ h => h)
  · rintro _ past' ⟨rfl, hs'⟩
    exact .refl hs' hable
  rintro _ _ past' ⟨rfl, hs'⟩
  -- From here on the interface is known to be able to carry programs.
  have hfailed : ∀ {e h' past'}, Leaves { h with probed := true } h' past' →
      (∀ i reason, e ≠ .featureUnsupported i reason) →
      h'.Sound past' ∧ Accounts name h' e ∧ h.Moves h' :=
    fun hl he => ⟨hl.sound, hl.accounts he, hl.moves⟩
  have hcause : ∀ k i reason, CycleError.attachFailed name k ≠ .featureUnsupported i reason :=
    nofun
  have hattach : ∀ {past'} (foreign : Option Program),
      Leaves { h with probed := true } { h with probed := true } past' →
      Work.Guards Log.Entry.IsRoutine h.Leaves (attach name foreign)
        (fun _ h' past' => h'.Sound past' ∧ h'.state = .attached)
        (fun e h' past' => h'.Sound past' ∧ Accounts name h' e ∧ h.Moves h')
        { h with probed := true } past' := by
    intro past' foreign hl
    refine (guards_attach hl.sound rfl).mono ?_ (fun _ _ _ h => h) ?_
    · exact fun _ _ hl => hl.of_probed
    · exact fun _ _ _ hl => hfailed hl.1 hl.2
  have hleaves := Leaves.refl hs' hable
  refine Work.guards_bind.mpr (Work.guards_call.mpr ⟨?_, fun answer => ?_, fun k => ?_⟩)
  · exact (hleaves.snoc (x := ⟨.query, none⟩) rfl nofun).of_probed
  · have hqueried := hleaves.snoc (x := ⟨.query, some (.ok answer)⟩) rfl nofun
    cases answer with
    | none => exact hattach none hqueried
    | some p =>
      dsimp only
      split
      case isTrue hours =>
        exact (guards_adopt hqueried.sound rfl hours).mono (fun _ _ h => h.elim)
          (fun _ _ _ h => h) fun _ _ _ h => h.elim
      case isFalse =>
        refine Work.guards_bind.mpr ((guards_tell (by decide)).mpr ?_)
        refine Work.guards_bind.mpr (Work.guards_call.mpr ⟨?_, fun _ => ?_, fun k => ?_⟩)
        · exact (hqueried.snoc (x := ⟨.detach p, none⟩) rfl nofun).of_probed
        · exact hattach (some p) (hqueried.snoc rfl nofun)
        · exact hfailed (hqueried.snoc rfl nofun) (hcause k)
  · exact hfailed (hleaves.snoc rfl nofun) (hcause k)

/-- Where an interface was found unable to carry programs, that is all there is to say. -/
theorem ensureAttached_of_isUnsupported (hunsupported : h.isUnsupported = true) :
    ensureAttached name h = .done (.error (unsupportedError name h), h) := by
  simp [ensureAttached, ensureSupported, probe, requireSupport, hunsupported, bind, Work.bind,
    Work.get, pure, Work.pure, Work.fail, Kernel.Procedure.bind]

/-! ## Detaching -/

/-- Our program is about to be detached. -/
theorem Sound.release (hs : h.Sound past) (hable : h.isUnsupported = false) :
    h.Leaves { h with state := .detaching } past where
  sound :=
    { present := nofun
      absent := fun _ hne => (hne rfl).elim
      reason := hable.symm.trans hs.reason
      probed := hs.probed
      able := by simp
      disabled := nofun
      once := hs.once }
  able := rfl
  moves _ := ⟨nofun, nofun⟩

/-- None of our programs is attached. -/
theorem Sound.free (hs : h.Sound past) (hable : h.isUnsupported = false) :
    Sound { h with program := none, state := .noProgram } past where
  present := nofun
  absent _ _ := rfl
  reason := hable.symm.trans hs.reason
  probed := hs.probed
  able := by simp
  disabled := nofun
  once := hs.once

theorem guards_ensureDetached (hs : h.Sound past) (hable : h.isUnsupported = false) :
    Work.Guards Log.Entry.IsRoutine h.Leaves (ensureDetached name)
      (fun _ h' past' => h'.Sound past' ∧ h'.state = .noProgram)
      (fun e h' past' => h'.Sound past' ∧ Accounts name h' e ∧ h.Moves h') h past := by
  have hfailed : ∀ {e h' past'}, h.Leaves h' past' →
      (∀ i reason, e ≠ .featureUnsupported i reason) →
      h'.Sound past' ∧ Accounts name h' e ∧ h.Moves h' :=
    fun hl he => ⟨hl.sound, hl.accounts he, hl.moves⟩
  have hcause : ∀ k i reason, CycleError.detachFailed name k ≠ .featureUnsupported i reason :=
    nofun
  have hleaves := Leaves.refl hs hable
  refine Work.guards_bind.mpr (Work.guards_get.mpr ?_)
  rw [if_neg (by simp [hable])]
  refine Work.guards_bind.mpr (Work.guards_call.mpr ⟨?_, fun answer => ?_, fun k => ?_⟩)
  · exact hleaves.snoc rfl nofun
  · have hqueried := hleaves.snoc (x := ⟨.query, some (.ok answer)⟩) rfl nofun
    cases answer with
    | none => exact ⟨hqueried.sound.free hable, rfl⟩
    | some p =>
      dsimp only
      split
      case isTrue =>
        have hreleased := hqueried.sound.release hable
        refine Work.guards_bind.mpr (Work.guards_modify.mpr ?_)
        refine Work.guards_bind.mpr (Work.guards_call.mpr ⟨?_, fun _ => ?_, fun k => ?_⟩)
        · exact hreleased.snoc rfl nofun
        · refine Work.guards_bind.mpr ((guards_tell (by decide)).mpr ?_)
          have hdetached := hreleased.snoc (x := ⟨.detach p, some (.ok ())⟩) rfl nofun
          exact ⟨hdetached.sound.free rfl, rfl⟩
        · exact hfailed (hreleased.snoc rfl nofun) (hcause k)
      case isFalse =>
        refine Work.guards_bind.mpr ((guards_tell (by decide)).mpr ?_)
        exact ⟨hqueried.sound.free hable, rfl⟩
  · exact hfailed (hleaves.snoc rfl nofun) (hcause k)

/-- Where an interface was found unable to carry programs, nothing is attached that would have to
be detached. -/
theorem ensureDetached_of_isUnsupported (hunsupported : h.isUnsupported = true) :
    ensureDetached name h = .done (.ok [], h) := by
  simp [ensureDetached, hunsupported, bind, Work.bind, Work.get, pure, Work.pure,
    Kernel.Procedure.bind]

/-! ## Calls -/

section Calls

variable {ending : Ending Hook (Except CycleError (List HookEvent) × Hook)}
  {said : List Exchange} {log : Log.Entries}

/-- What is left of a hook after a call that started where the interface could still carry
programs. -/
theorem runs_of_guards {w : HookWork (List HookEvent)} {target : BindingState}
    (htarget : target ≠ .attaching ∧ target ≠ .unsupported)
    (hguards : Work.Guards Log.Entry.IsRoutine h.Leaves w
      (fun _ h' past' => h'.Sound past' ∧ h'.state = target)
      (fun e h' past' => h'.Sound past' ∧ Accounts name h' e ∧ h.Moves h') h past)
    (hrun : (w h).Runs ending said log) :
    ending.state.Sound (past ++ said) ∧ h.Moves ending.state ∧
      ∀ events h', ending = .completed (.ok events, h') → h'.state = target := by
  obtain ⟨hend, -⟩ := hguards.runs hrun
  rcases ending with ⟨e | events, h'⟩ | h'
  · exact ⟨hend.1, hend.2.2, nofun⟩
  · obtain ⟨hs, rfl⟩ : h'.Sound (past ++ said) ∧ h'.state = target := hend
    refine ⟨hs, fun _ => htarget, ?_⟩
    rintro _ _ ⟨⟩
    rfl
  · exact ⟨hend.sound, hend.moves, nofun⟩

theorem moves_of_isUnsupported (hunsupported : h.isUnsupported = true) : h.Moves h' := by
  intro hstate
  rw [isUnsupported_iff.mp hunsupported] at hstate
  simp at hstate

theorem Sound.runs_ensureAttached (hs : h.Sound past)
    (hrun : (ensureAttached name h).Runs ending said log) :
    ending.state.Sound (past ++ said) ∧ h.Moves ending.state ∧
      ∀ events h', ending = .completed (.ok events, h') → h'.state = .attached := by
  cases hable : h.isUnsupported with
  | true =>
    rw [ensureAttached_of_isUnsupported hable] at hrun
    cases hrun
    rw [List.append_nil]
    exact ⟨hs, moves_of_isUnsupported hable, nofun⟩
  | false => exact runs_of_guards ⟨nofun, nofun⟩ (guards_ensureAttached hs hable) hrun

theorem Sound.runs_ensureDetached (hs : h.Sound past)
    (hrun : (ensureDetached name h).Runs ending said log) :
    ending.state.Sound (past ++ said) ∧ h.Moves ending.state ∧
      ∀ events h', h.isUnsupported = false → ending = .completed (.ok events, h') →
        h'.state = .noProgram := by
  cases hable : h.isUnsupported with
  | true =>
    rw [ensureDetached_of_isUnsupported hable] at hrun
    cases hrun
    rw [List.append_nil]
    exact ⟨hs, moves_of_isUnsupported hable, nofun⟩
  | false =>
    have htarget : BindingState.noProgram ≠ .attaching ∧ BindingState.noProgram ≠ .unsupported :=
      ⟨nofun, nofun⟩
    obtain ⟨hleft, hmoves, hok⟩ := runs_of_guards htarget (guards_ensureDetached hs hable) hrun
    exact ⟨hleft, hmoves, fun events h' _ => hok events h'⟩

end Calls

/-! ## Lives -/

/-- The life of a hook with all that the kernel has said in it: calls to attach and to detach one
after another, from the start at which nothing is remembered.  The kernel may answer anything,
whatever others have done to the interface before or during a call, only that what it attaches for
us carries our name; and a call may not return at all. -/
inductive Life (name : String) : Hook → List Exchange → Prop
  | fresh : Life name fresh []
  | attach {h : Hook} {past said : List Exchange} {log : Log.Entries}
      {ending : Ending Hook (Except CycleError (List HookEvent) × Hook)} (life : Life name h past)
      (run : (ensureAttached name h).Runs ending said log)
      (genuine : ∀ x ∈ said, x.isGenuine = true) : Life name ending.state (past ++ said)
  | detach {h : Hook} {past said : List Exchange} {log : Log.Entries}
      {ending : Ending Hook (Except CycleError (List HookEvent) × Hook)} (life : Life name h past)
      (run : (ensureDetached name h).Runs ending said log)
      (genuine : ∀ x ∈ said, x.isGenuine = true) : Life name ending.state (past ++ said)

theorem Life.sound (life : Life name h past) : h.Sound past := by
  induction life with
  | fresh => exact sound_fresh
  | attach life run genuine ih => exact (ih.runs_ensureAttached run).1
  | detach life run genuine ih => exact (ih.runs_ensureDetached run).1

theorem Life.genuine (life : Life name h past) : ∀ x ∈ past, x.isGenuine = true := by
  induction life with
  | fresh => nofun
  | attach life run genuine ih | detach life run genuine ih =>
    exact fun x hx => (List.mem_append.mp hx).elim (ih x) (genuine x)

/-- In every life of a hook, its state tells what is remembered and what the kernel has said; the
next call does not start an interface anew that has carried our program; and a call that succeeds
leaves our program attached and remembered as it is, or not attached. -/
theorem lifecycle (life : Life name h past) :
    (h.state = .attached → ∃ p, h.program = some p ∧ p.isOurs = true) ∧
    (h.state = .noProgram ∨ h.state = .attaching ∨ h.state = .reattaching ∨
      h.state = .unsupported → h.program = none) ∧
    (h.state = .unsupported ↔ ∃ reason, h.unsupportedReason = some reason) ∧
    (h.state = .unsupported → ∀ x ∈ past, x.findsSupport = false) ∧
    (h.state = .attaching ∨ h.state = .attached ∨ h.state = .reattaching →
      ∃ x ∈ past, x.findsSupport = true) ∧
    (∀ ending said log, (ensureAttached name h).Runs ending said log ∨
        (ensureDetached name h).Runs ending said log →
      h.state = .attached ∨ h.state = .reattaching →
        ending.state.state ≠ .attaching ∧ ending.state.state ≠ .unsupported) ∧
    (∀ (m m' : Model) events h' log,
      (ensureAttached name h).eval (Model.answer name) m = ((.ok events, h'), m', log) →
        h'.state = .attached ∧ ∃ p, h'.program = some p ∧ m'.program name = some p) ∧
    (∀ (m m' : Model) events h' log,
      (ensureDetached name h).eval (Model.answer name) m = ((.ok events, h'), m', log) →
        h.state ≠ .unsupported →
          h'.state = .noProgram ∧ (m'.interface name).carriesOurs = false) := by
  have hs := life.sound
  refine ⟨?_, ?_, ?_, ?_, ?_, ?_, ?_, ?_⟩
  · intro hattached
    obtain ⟨p, hp, hours | hmem⟩ := hs.present hattached
    · exact ⟨p, hp, hours⟩
    · exact ⟨p, hp, life.genuine _ hmem⟩
  · intro hstate
    refine hs.absent ?_ ?_ <;> rintro heq <;> simp [heq] at hstate
  · rw [← isUnsupported_iff, hs.reason, Option.isSome_iff_exists]
  · intro hunsupported x hx
    have hprobed := hs.disabled (isUnsupported_iff.mpr hunsupported)
    refine Bool.eq_false_iff.mpr fun hfound => ?_
    rw [hs.probed.mpr ⟨x, hx, hfound⟩] at hprobed
    cases hprobed
  · exact fun hstate => hs.probed.mp (hs.able hstate)
  · rintro ending said log (hrun | hrun)
    · exact (hs.runs_ensureAttached hrun).2.1
    · exact (hs.runs_ensureDetached hrun).2.1
  · intro m m' events h' log heval
    obtain ⟨said, log', hrun⟩ :=
      (Kernel.Procedure.yields_eval (Model.answer name) (ensureAttached name h) m).runs
    have hensures : Work.Ensures (Kernel.InterfaceState.behaviour True) (ensureAttached name) _ _ h
        (m.interface name) := ensures_ensureAttached
    have hkernel := (Model.ensures_answer (.inl trivial) hensures).eval
    rw [heval] at hrun hkernel
    obtain ⟨-, ⟨p, -, hattached, hremembered, -⟩, -⟩ := hkernel
    exact ⟨(hs.runs_ensureAttached hrun).2.2 events h' rfl, p, hremembered, hattached⟩
  · intro m m' events h' log heval hsupported
    have hable : h.isUnsupported = false :=
      Bool.eq_false_iff.mpr fun h => hsupported (isUnsupported_iff.mp h)
    obtain ⟨said, log', hrun⟩ :=
      (Kernel.Procedure.yields_eval (Model.answer name) (ensureDetached name h) m).runs
    have hensures : Work.Ensures (Kernel.InterfaceState.behaviour True) (ensureDetached name) _ _ h
        (m.interface name) := ensures_ensureDetached hable
    have hkernel := (Model.ensures_answer (.inl trivial) hensures).eval
    rw [heval] at hrun hkernel
    obtain ⟨-, ⟨-, hours, -⟩, -⟩ := hkernel
    exact ⟨(hs.runs_ensureDetached hrun).2.2 events h' hable rfl, hours⟩

/-- What the modelled kernel attaches for us carries our name. -/
theorem isGenuine_answer (m : Model) (c : Kernel.Call) :
    (Exchange.mk c (some (m.answer name c).1)).isGenuine = true := by
  cases c with
  | attach =>
    have hbehaves := Model.attach_behaves (.inl trivial : True ∨ m.Healthy name)
    show (Exchange.mk .attach (some (m.attach name).1)).isGenuine = true
    revert hbehaves
    cases (m.attach name).1 with
    | error e => exact fun _ => rfl
    | ok p => exact fun h => h.2.1
  | _ => rfl

theorem isGenuine_transcript {σ α : Type} (p : Kernel.Procedure σ α) (k : Host) :
    ∀ x ∈ p.transcript (Host.answer name) k, x.isGenuine = true := by
  induction p generalizing k with
  | done a => nofun
  | note entry rest ih => exact ih k
  | call c s resume ih =>
    unfold Kernel.Procedure.transcript Host.answer
    by_cases hcrashing : k.crashing.contains name = true
    · rw [if_pos hcrashing]
      cases c <;> simp [Exchange.isGenuine]
    · rw [if_neg hcrashing]
      exact List.forall_mem_cons.mpr ⟨isGenuine_answer k.kernel c, ih _ _⟩

/-- A call to attach against the modelled kernel belongs to a life. -/
theorem Life.attach_host (life : Life name h past) (k : Host) :
    Life name ((ensureAttached name h).run (Host.answer name) k).1.state
      (past ++ (ensureAttached name h).transcript (Host.answer name) k) :=
  life.attach (Kernel.Procedure.runs_run _ _ _) (isGenuine_transcript _ k)

/-- The program has vanished, and it could not be attached again. -/
theorem lifecycle_vanished :
    let name := "eth0"
    let start := Host.ofKernel (Model.fresh ∅ none) .logging
    let first := (ensureAttached name fresh).run (Host.answer name) start
    let vanished := { first.2.1 with
      kernel := (first.2.1.kernel.tamperDetach name).2.failAttaches 1 }
    let second := (ensureAttached name first.1.state).run (Host.answer name) vanished
    let past := (ensureAttached name fresh).transcript (Host.answer name) start ++
      (ensureAttached name first.1.state).transcript (Host.answer name) vanished
    Life name second.1.state past ∧ second.1.state.state = .reattaching ∧
      second.1.state.program = none ∧ ∃ x ∈ past, x.findsSupport = true := by
  intro name start first vanished second past
  have life : Life name second.1.state past := (Life.fresh.attach_host start).attach_host vanished
  have hstate : second.1.state.state = .reattaching := by decide +kernel
  obtain ⟨-, habsent, -, -, hfound, -⟩ := lifecycle life
  exact ⟨life, hstate, habsent (.inr (.inr (.inl hstate))), hfound (.inr (.inr hstate))⟩

end Hook

end IngressGuard
