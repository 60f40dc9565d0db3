import IngressGuard.Proofs.Kernel.Interface
import IngressGuard.Proofs.Policy

/-!
# The modelled kernel, interface by interface

A call to the modelled kernel treats its own interface as `InterfaceState.behaviour` says
(`Model.answer_behaves`) and leaves everything else alone (`Model.agreesBesides_answer`).  So what
holds of all runs of a procedure on one interface holds of the kernel that runs it, whatever is
on other interfaces.
-/

namespace IngressGuard.Kernel

namespace Model

variable {m : Model} {name other : String}

/-- Nothing stands in the way of calls about an interface: no failure is due, and the interface
exists and can carry programs. -/
structure Healthy (m : Model) (name : String) : Prop where
  noFaults : m.faults = Faults.none
  present : m.exists? name = true
  able : m.unsupported[name]? = none

@[simp] theorem interface_record (op : Operation) :
    (m.record op).interface other = m.interface other := rfl

@[simp] theorem interface_change_self (f : InterfaceState → InterfaceState) :
    (m.change name f).interface name = f (m.interface name) := by
  unfold change interface
  rw [NameMap.getElem?_insert_same, Option.getD_some]

theorem interface_change_of_ne {f : InterfaceState → InterfaceState} (hne : other ≠ name) :
    (m.change name f).interface other = m.interface other := by
  unfold change interface
  rw [NameMap.getElem?_insert_other hne]

theorem not_healthy_of_missing (h : (!m.exists? name) = true) : ¬m.Healthy name := by
  intro hhealthy
  rw [hhealthy.present] at h
  cases h

/-- A write carries out its change, or it fails and changes no interface. -/
theorem write_induction {f : InterfaceState → InterfaceState} {op : Operation}
    {motive : Except KernelError Unit → Model → Prop}
    (done : ∀ faults, motive (.ok ()) (({ m with faults }.change name f).record op))
    (failed : ∀ e faults, ¬m.Healthy name → motive (.error e) { m with faults }) :
    motive (m.write name f op).1 (m.write name f op).2 := by
  unfold write
  split
  case isTrue hmissing => exact failed _ m.faults (not_healthy_of_missing hmissing)
  case isFalse =>
    by_cases hfails : m.faults.write.1 = true
    · simp only [hfails, if_true]
      refine failed _ _ fun hhealthy => ?_
      rw [hhealthy.noFaults] at hfails
      cases hfails
    · simp only [hfails]
      exact done _

section Behaviour

variable {mayFail : Prop}

theorem probe_behaves (h : mayFail ∨ m.Healthy name) :
    InterfaceState.behaviour mayFail .probe (m.interface name) (m.probe name).1
      ((m.probe name).2.interface name) := by
  unfold probe
  split
  case isTrue hmissing =>
    exact ⟨.inl (h.resolve_right (not_healthy_of_missing hmissing)), rfl⟩
  case isFalse =>
    split
    case h_1 reason hreason =>
      exact ⟨trivial, .inl (h.resolve_right fun hh => by simp [hh.able] at hreason), rfl⟩
    case h_2 => exact ⟨trivial, .inr rfl, rfl⟩

theorem query_behaves (h : mayFail ∨ m.Healthy name) :
    InterfaceState.behaviour mayFail .query (m.interface name) (m.query name).1
      ((m.query name).2.interface name) := by
  unfold query
  split
  case isTrue hmissing =>
    exact ⟨.inl (h.resolve_right (not_healthy_of_missing hmissing)), rfl⟩
  case isFalse => exact ⟨trivial, rfl, rfl⟩

theorem attach_behaves (h : mayFail ∨ m.Healthy name) :
    InterfaceState.behaviour mayFail .attach (m.interface name) (m.attach name).1
      ((m.attach name).2.interface name) := by
  unfold attach
  split
  case isTrue hmissing =>
    exact ⟨.inl (h.resolve_right (not_healthy_of_missing hmissing)), rfl⟩
  case isFalse =>
    split
    case isTrue hfault =>
      exact ⟨.inl (h.resolve_right fun hh => by simp [hh.noFaults, Faults.none] at hfault), rfl⟩
    case isFalse =>
      split
      case h_1 program hprogram =>
        refine ⟨.inr fun hnone => ?_, rfl⟩
        rw [show m.program name = none from hnone] at hprogram
        cases hprogram
      case h_2 hnone =>
        have hours : Program.isOurs ⟨m.nextId, Program.ownName⟩ = true := beq_self_eq_true _
        exact ⟨hnone, hours, interface_change_self (m := m.takeId.2) (·.withProgram _)⟩

theorem detach_behaves (h : mayFail ∨ m.Healthy name) (p : Program) :
    InterfaceState.behaviour mayFail (.detach p) (m.interface name) (m.detach name p).1
      ((m.detach name p).2.interface name) := by
  unfold detach
  split
  case isTrue hmissing =>
    exact ⟨.inl (h.resolve_right (not_healthy_of_missing hmissing)), rfl⟩
  case isFalse =>
    split
    case isTrue hfault =>
      exact ⟨.inl (h.resolve_right fun hh => by simp [hh.noFaults, Faults.none] at hfault), rfl⟩
    case isFalse =>
      split
      case h_1 program hprogram =>
        split
        case isTrue hid =>
          refine ⟨fun q hq => ?_, interface_change_self (·.withProgram none)⟩
          rw [show m.program name = some q from hq] at hprogram
          cases hprogram
          exact hid
        case isFalse hid => exact ⟨.inr fun haccepts => hid (haccepts program hprogram), rfl⟩
      case h_2 hnone =>
        refine ⟨fun q hq => ?_, InterfaceState.ext hnone rfl⟩
        rw [show m.program name = some q from hq] at hnone
        cases hnone

theorem read_behaves (h : mayFail ∨ m.Healthy name) (f : Family) :
    InterfaceState.behaviour mayFail (.read f) (m.interface name) (m.read name f).1
      ((m.read name f).2.interface name) := by
  unfold read
  split
  case isTrue hmissing =>
    exact ⟨.inl (h.resolve_right (not_healthy_of_missing hmissing)), rfl⟩
  case isFalse =>
    split
    case isTrue hfault =>
      exact ⟨.inl (h.resolve_right fun hh => by simp [hh.noFaults, Faults.none] at hfault), rfl⟩
    case isFalse => exact ⟨trivial, rfl, rfl⟩

/-- The modelled kernel treats the interface of a call as it should.  On a healthy interface no
call fails that makes sense. -/
theorem answer_behaves (h : mayFail ∨ m.Healthy name) (c : Call) :
    InterfaceState.behaviour mayFail c (m.interface name) (m.answer name c).1
      ((m.answer name c).2.interface name) := by
  -- The three writes differ in what they do to the state, not in how they fail.
  have hwrite (f : InterfaceState → InterfaceState) (op : Operation)
      {P : Except KernelError Unit → InterfaceState → Prop}
      (hdone : P (.ok ()) (f (m.interface name)))
      (hfailed : ∀ e, mayFail → P (.error e) (m.interface name)) :
      P (m.write name f op).1 ((m.write name f op).2.interface name) := by
    refine write_induction (motive := fun a m' => P a (m'.interface name)) (fun faults => ?_)
      fun e faults hsick => hfailed e (h.resolve_right hsick)
    have hself : ((({ m with faults } : Model).change name f).record op).interface name =
        f (m.interface name) := interface_change_self f
    rwa [hself]
  cases c with
  | probe => exact probe_behaves h
  | query => exact query_behaves h
  | attach => exact attach_behaves h
  | detach p => exact detach_behaves h p
  | read f => exact read_behaves h f
  | insert p => exact hwrite _ _ ⟨trivial, rfl⟩ fun _ hf => ⟨.inl hf, rfl⟩
  | remove p => exact hwrite _ _ ⟨trivial, rfl⟩ fun _ hf => ⟨.inl hf, rfl⟩
  | destroy f => exact hwrite _ _ ⟨trivial, rfl⟩ fun _ hf => ⟨.inl hf, rfl⟩

end Behaviour

/-! ## Views -/

/-- A packet is dropped if our program is attached, no failsafe rule permits the packet, and the
table of its family has a prefix that contains its source. -/
theorem evaluate_eq_drop_iff {p : Packet} :
    m.evaluate name p = .drop ↔
      (m.interface name).carriesOurs = true ∧ m.failsafe.permits p = false ∧
        ∃ q ∈ (m.table name p.source.family).getD ∅, q.contains p.source = true := by
  have hlookup := InterfaceState.isSome_lookup (s := m.interface name) (a := p.source)
  unfold evaluate table
  rw [← hlookup]
  dsimp only
  cases (m.interface name).carriesOurs <;> cases m.failsafe.permits p <;>
    cases ((m.interface name).lookup p.source).isSome <;> decide

/-- The managed interfaces are those that carry a table or a program of ours. -/
theorem mem_managed :
    name ∈ m.managed ↔
      (m.interface name).hasTable = true ∨ (m.interface name).carriesOurs = true := by
  unfold managed interface
  rw [TextSet.mem_ofList, List.mem_map]
  constructor
  · rintro ⟨⟨i, s⟩, hmem, rfl⟩
    obtain ⟨hget, hshown⟩ := List.mem_filter.mp hmem
    rw [Std.ExtTreeMap.mem_toList_iff_getElem?_eq_some.mp hget]
    exact Bool.or_eq_true_iff.mp hshown
  · intro h
    cases hget : m.interfaces[name]? with
    | none =>
      rw [hget] at h
      cases h <;> contradiction
    | some s =>
      rw [hget] at h
      have hmem := Std.ExtTreeMap.mem_toList_iff_getElem?_eq_some.mpr hget
      exact ⟨(name, s), List.mem_filter.mpr ⟨hmem, Bool.or_eq_true_iff.mpr h⟩, rfl⟩

/-! ## Frame -/

/-- What calls about an interface leave alone: the other interfaces, what can exist and carry
programs, the failsafe rules, and that no failure is due. -/
structure AgreesBesides (name : String) (m m' : Model) : Prop where
  others : ∀ other, other ≠ name → m'.interface other = m.interface other
  known : m'.known = m.known
  unsupported : m'.unsupported = m.unsupported
  failsafe : m'.failsafe = m.failsafe
  noFaults : m.faults = Faults.none → m'.faults = Faults.none

theorem AgreesBesides.refl (name : String) (m : Model) : AgreesBesides name m m :=
  ⟨fun _ _ => rfl, rfl, rfl, rfl, id⟩

theorem AgreesBesides.trans {m₁ m₂ m₃ : Model} (h : AgreesBesides name m₁ m₂)
    (h' : AgreesBesides name m₂ m₃) : AgreesBesides name m₁ m₃ where
  others other hne := (h'.others other hne).trans (h.others other hne)
  known := h'.known.trans h.known
  unsupported := h'.unsupported.trans h.unsupported
  failsafe := h'.failsafe.trans h.failsafe
  noFaults hnone := h'.noFaults (h.noFaults hnone)

theorem AgreesBesides.healthy {m' : Model} (h : AgreesBesides name m m')
    (hm : m.Healthy other) : m'.Healthy other where
  noFaults := h.noFaults hm.noFaults
  present := by
    unfold exists?
    rw [h.known]
    exact hm.present
  able := by rw [h.unsupported, hm.able]

theorem agreesBesides_change (f : InterfaceState → InterfaceState) :
    AgreesBesides name m (m.change name f) :=
  ⟨fun _ hne => interface_change_of_ne hne, rfl, rfl, rfl, id⟩

theorem AgreesBesides.record {m' : Model} (h : AgreesBesides name m m') (op : Operation) :
    AgreesBesides name m (m'.record op) :=
  h.trans ⟨fun _ _ => rfl, rfl, rfl, rfl, id⟩

/-- Failures are taken off as they come due, but none are added. -/
theorem agreesBesides_faults {faults : Faults}
    (h : m.faults = Faults.none → faults = Faults.none) :
    AgreesBesides name m { m with faults } :=
  ⟨fun _ _ => rfl, rfl, rfl, rfl, h⟩

theorem agreesBesides_write (f : InterfaceState → InterfaceState) (op : Operation) :
    AgreesBesides name m (m.write name f op).2 := by
  unfold write
  split
  case isTrue => exact .refl name m
  case isFalse =>
    have hfaults : AgreesBesides name m { m with faults := m.faults.write.2 } :=
      agreesBesides_faults fun hnone => by rw [hnone]; rfl
    by_cases hfails : m.faults.write.1 = true
    · simp only [hfails, if_true]
      exact hfaults
    · simp only [hfails]
      exact (hfaults.trans (agreesBesides_change f)).record op

theorem agreesBesides_attach : AgreesBesides name m (m.attach name).2 := by
  unfold attach
  split
  · exact .refl name m
  · split
    case isTrue hfault =>
      exact agreesBesides_faults fun hnone => by simp [hnone, Faults.none] at hfault
    case isFalse =>
      split
      · exact .refl name m
      · have htake : AgreesBesides name m m.takeId.2 := ⟨fun _ _ => rfl, rfl, rfl, rfl, id⟩
        exact (htake.trans (agreesBesides_change (·.withProgram _))).record _

theorem agreesBesides_detach (p : Program) : AgreesBesides name m (m.detach name p).2 := by
  unfold detach
  split
  · exact .refl name m
  · split
    case isTrue hfault =>
      exact agreesBesides_faults fun hnone => by simp [hnone, Faults.none] at hfault
    case isFalse =>
      split
      · split
        · exact (agreesBesides_change (·.withProgram none)).record _
        · exact .refl name m
      · exact (AgreesBesides.refl name m).record _

/-- A call about an interface leaves everything else alone. -/
theorem agreesBesides_answer (name : String) (m : Model) (c : Call) :
    AgreesBesides name m (m.answer name c).2 := by
  have hrecord : ∀ op, AgreesBesides name m (m.record op) := (AgreesBesides.refl name m).record
  cases c with
  | probe =>
    show AgreesBesides name m (m.probe name).2
    unfold probe
    split
    · exact hrecord _
    · split <;> exact hrecord _
  | query =>
    show AgreesBesides name m (m.query name).2
    unfold query
    split <;> exact hrecord _
  | attach => exact agreesBesides_attach
  | detach p => exact agreesBesides_detach p
  | read f =>
    show AgreesBesides name m (m.read name f).2
    unfold read
    split
    · exact hrecord _
    · split
      case isTrue hfault =>
        refine (hrecord _).trans (agreesBesides_faults fun hnone => ?_)
        have hfaults : m.faults = .none := hnone
        simp [hfaults, Faults.none] at hfault
      case isFalse => exact hrecord _
  | insert p => exact agreesBesides_write _ _
  | remove p => exact agreesBesides_write _ _
  | destroy f => exact agreesBesides_write _ _

/-! ## Runs -/

/-- What holds of all runs of a procedure on one interface holds of its run against the modelled
kernel, which leaves everything but that interface alone. -/
theorem ensures_answer {σ α : Type} {mayFail : Prop} {p : Procedure σ α}
    {Q : α → InterfaceState → Prop} (h : mayFail ∨ m.Healthy name)
    (hp : p.Ensures (InterfaceState.behaviour mayFail) Q (m.interface name)) :
    p.Ensures (.ofAnswer (Model.answer name))
      (fun a m' => AgreesBesides name m m' ∧ Q a (m'.interface name)) m := by
  refine Procedure.Ensures.simulate ?_ (AgreesBesides.refl name m) hp
  intro c k b k' hk hstep
  have hhealthy : mayFail ∨ k.Healthy name := h.imp_right hk.healthy
  have hagrees := agreesBesides_answer name k c
  have hbehaves := answer_behaves hhealthy c
  rw [show k.answer name c = (b, k') from hstep] at hagrees hbehaves
  exact ⟨hk.trans hagrees, hbehaves⟩

/-- A run against the modelled kernel is one on the interface it is about, where any call may
fail. -/
theorem yields_interface {σ α : Type} (name : String) (p : Procedure σ α) (m : Model) :
    p.Yields (InterfaceState.behaviour True) (m.interface name)
      (p.eval (Model.answer name) m).1 ((p.eval (Model.answer name) m).2.1.interface name) := by
  refine (Procedure.yields_eval (Model.answer name) p m).map (interface · name) ?_
  intro c k b k' hstep
  have hbehaves := answer_behaves (.inl trivial : True ∨ k.Healthy name) c
  rwa [show k.answer name c = (b, k') from hstep] at hbehaves

end Model

end IngressGuard.Kernel
