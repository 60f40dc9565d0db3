import IngressGuard.Proofs.Cycle
import IngressGuard.Proofs.Kernel.Model

/-!
# Cycles heal

What is remembered about an interface may be wrong about the kernel in any way, and the kernel may
hold any tables and any program for it.  A cycle that reads the kernel and succeeds leaves exactly
what the deny list asks for, one that nothing stands in the way of succeeds, and no cycle touches
another interface (`Context.cycle_heals`).
-/

namespace IngressGuard

open Kernel (Model InterfaceState)

namespace Context

variable {mayFail : Prop} {name : String} {wanted : DenyList} {mode : SyncMode} {c : Context}
  {m : Model}

theorem BoundTo.carriesOurs_iff {h : Hook} {s : InterfaceState} (hb : BoundTo wanted h s) :
    s.carriesOurs = true ↔ wanted.isEmpty = false := by
  unfold BoundTo at hb
  split at hb
  case isTrue hempty => simp [hb.2.1, hempty]
  case isFalse hne =>
    obtain ⟨p, hours, hp, -⟩ := hb
    refine iff_of_true ?_ (Bool.eq_false_iff.mpr hne)
    rw [InterfaceState.carriesOurs, hp]
    exact hours

theorem BoundTo.program_eq {h : Hook} {s : InterfaceState} (hb : BoundTo wanted h s) :
    h.program = if wanted.isEmpty then none else s.program := by
  unfold BoundTo at hb
  split at hb
  case isTrue hempty => rw [if_pos hempty, hb.1]
  case isFalse hne =>
    obtain ⟨p, -, hp, hremembered, -⟩ := hb
    rw [if_neg hne, hp, hremembered]

theorem BoundTo.isUnsupported_eq {h : Hook} {s : InterfaceState} (hb : BoundTo wanted h s) :
    h.isUnsupported = false := by
  unfold BoundTo at hb
  split at hb
  case isTrue => exact hb.2.2
  case isFalse =>
    obtain ⟨p, -, -, -, hable⟩ := hb
    exact hable

/-- What a cycle ensures on its interface holds of its run against the modelled kernel. -/
theorem ensures_cycle_answer (c : Context) (mode : SyncMode) (filed : wanted.WellFiled)
    (now : Timestamp) (h : mayFail ∨ m.Healthy name) :
    (c.cycle name wanted mode now).Ensures (.ofAnswer (Model.answer name))
      (fun r m' => Model.AgreesBesides name m m' ∧
        match r with
        | (.ok _, c') => c'.reconciled = true ∧
          Applied wanted (c.effectiveMode mode).baseline c.tables (m.interface name) c'.tables
            (m'.interface name) ∧
          BoundTo wanted c'.hook (m'.interface name)
        | (.error e, c') => c'.reconciled = c.reconciled ∧
          (mayFail ∨ c.hook.isUnsupported = true) ∧
          Stuck wanted (c.effectiveMode mode).baseline c.tables (m.interface name) e c'.tables
            (m'.interface name)) m :=
  Model.ensures_answer h (ensures_cycle filed now)

/-- A cycle from any state of what is remembered and of the kernel: if it succeeds, the program is
attached and remembered if and only if there is something to block, and if it has read the
kernel, the tables are those that enforce the deny list; if nothing stands in its way, it
succeeds; in any case the other interfaces stay as they were. -/
theorem cycle_heals (c : Context) (m : Model) (name : String) (wanted : DenyList)
    (filed : wanted.WellFiled) (mode : SyncMode) (now : Timestamp) :
    let run := (c.cycle name wanted mode now).eval (Model.answer name) m
    let result := run.1.1
    let c' := run.1.2
    let m' := run.2.1
    (∀ report, result = .ok report →
      (c.effectiveMode mode = .resync → ∀ f, m'.table name f = wanted.table f) ∧
      ((m'.interface name).carriesOurs = true ↔ wanted.isEmpty = false) ∧
      c'.hook.program = if wanted.isEmpty then none else m'.program name) ∧
    (m.Healthy name → c.hook.isUnsupported = false → ∃ report, result = .ok report) ∧
    ∀ other, other ≠ name → m'.interface other = m.interface other := by
  have hany := (ensures_cycle_answer c mode filed now (.inl trivial : True ∨ m.Healthy name)).eval
  have hsound := fun h : m.Healthy name =>
    (ensures_cycle_answer c mode filed now (.inr h : False ∨ m.Healthy name)).eval
  generalize (c.cycle name wanted mode now).eval (Model.answer name) m = run at hany hsound
  obtain ⟨⟨result, c'⟩, m', log⟩ := run
  refine ⟨?_, ?_, hany.1.others⟩
  · rintro report rfl
    obtain ⟨-, -, happlied, hbound⟩ := hany
    refine ⟨fun hmode => ?_, hbound.carriesOurs_iff, hbound.program_eq⟩
    rw [hmode] at happlied
    exact happlied.tables_eq
  · intro hhealthy hsupported
    have h := hsound hhealthy
    cases result with
    | ok report => exact ⟨report, rfl⟩
    | error e =>
      rcases h.2.2.1 with hf | hunsupported
      · exact hf.elim
      · rw [hsupported] at hunsupported
        cases hunsupported

/-- A first cycle on an interface that carries a program of others and a leftover table. -/
theorem cycle_heals_leftovers :
    let m := ((Model.fresh ∅ none).tamperAttach "eth0" "other").2.tamperInsert "eth0"
      (.host (.ofNat .ipv4 7))
    let wanted := DenyList.ofList [.host (.ofNat .ipv4 9)]
    let run := (fresh.cycle "eth0" wanted .resync ⟨0, 0⟩).eval (Model.answer "eth0") m
    wanted.WellFiled ∧ m.Healthy "eth0" ∧
      ∃ report, run.1.1 = .ok report ∧ ∀ f, run.2.1.table "eth0" f = wanted.table f := by
  intro m wanted
  dsimp only
  have filed : wanted.WellFiled := DenyList.wellFiled_ofList _
  have hable : (∅ : NameMap String)["eth0"]? = none := by simp
  have hhealthy : m.Healthy "eth0" := ⟨rfl, rfl, hable⟩
  obtain ⟨hend, hok, -⟩ := cycle_heals fresh m "eth0" wanted filed .resync ⟨0, 0⟩
  obtain ⟨report, hreport⟩ := hok hhealthy rfl
  have htables := (hend report hreport).1 (effectiveMode_resync fresh)
  exact ⟨filed, hhealthy, report, hreport, htables⟩

end Context

end IngressGuard
