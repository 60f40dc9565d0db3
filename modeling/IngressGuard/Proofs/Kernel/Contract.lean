import IngressGuard.Proofs.Kernel.Model
import IngressGuard.Proofs.Kernel.Record

/-!
# The contract of kernel calls

Everything that is proved about cycles rests on what a call to the modelled kernel may do.  A call
that fails leaves every interface as it was, and one that succeeds changes no more than one table
or the program of its own interface (`InterfaceState.Outcome`).

Programs are told apart by their ids.  The ids count up, whatever happens to the kernel
(`Model.Issued`), so until they wrap around, a program that was queried can be detached by its id
without any other one being in danger (`Model.calls_atomic`).
-/

namespace IngressGuard.Kernel

namespace InterfaceState

variable {s s' : InterfaceState} {f : Family} {p q : Prefix}

/-! ## Outcomes -/

/-- Two states of an interface differ at most in the table of one family. -/
structure SameBesidesTable (f : Family) (s s' : InterfaceState) : Prop where
  program : s'.program = s.program
  others : ∀ g, g ≠ f → s'.tables.get g = s.tables.get g

/-- What a call that succeeds answers, and what it leaves of the program and the contents of the
tables. -/
def Outcome (s : InterfaceState) : (c : Call) → c.Value → InterfaceState → Prop
  | .probe, _, s' => s' = s
  | .query, answer, s' => answer = s.program ∧ s' = s
  | .attach, (p : Program), s' =>
    p.isOurs = true ∧ s.program = none ∧ s'.program = some p ∧ s'.tables = s.tables
  | .detach p, _, s' =>
    (∀ other, s.program = some other → other.id = p.id) ∧ s'.program = none ∧
      s'.tables = s.tables
  | .read f, answer, s' => answer = s.tables.get f ∧ s' = s
  | .insert p, _, s' =>
    s.SameBesidesTable p.family s' ∧ (s'.tables.get p.family).isSome = true ∧
      ∀ q, q ∈ (s'.tables.get p.family).getD ∅ ↔ q = p ∨ q ∈ (s.tables.get p.family).getD ∅
  | .remove p, _, s' =>
    s.SameBesidesTable p.family s' ∧
      (s'.tables.get p.family).isSome = (s.tables.get p.family).isSome ∧
      ∀ q, q ∈ (s'.tables.get p.family).getD ∅ ↔ q ≠ p ∧ q ∈ (s.tables.get p.family).getD ∅
  | .destroy f, _, s' => s.SameBesidesTable f s' ∧ s'.tables.get f = none

/-- Nothing but the table of one family is set. -/
theorem sameBesidesTable_set {t : Option PrefixSet} (hprogram : s'.program = s.program)
    (htables : s'.tables = s.tables.set f t) : s.SameBesidesTable f s' := by
  refine ⟨hprogram, fun g hg => ?_⟩
  rw [htables, PerFamily.get_set, if_neg hg]

theorem outcome_insert : s.Outcome (.insert p) () (s.insert p) := by
  refine ⟨sameBesidesTable_set rfl rfl, ?_, fun q => ?_⟩
  · simp [InterfaceState.insert]
  · simp only [InterfaceState.insert, PerFamily.get_set_self, Option.getD_some,
      PrefixSet.mem_insert]

theorem outcome_remove : s.Outcome (.remove p) () (s.remove p) := by
  refine ⟨sameBesidesTable_set rfl rfl, ?_, fun q => ?_⟩
  · simp [InterfaceState.remove]
  · cases htable : s.tables.get p.family with
    | none => simp [InterfaceState.remove, htable]
    | some t =>
      simp only [InterfaceState.remove, PerFamily.get_set_self, htable, Option.map_some,
        Option.getD_some, PrefixSet.mem_erase]

theorem outcome_destroy : s.Outcome (.destroy f) () (s.destroy f) := by
  refine ⟨sameBesidesTable_set rfl rfl, ?_⟩
  simp [InterfaceState.destroy]

theorem outcome_of_behaviour {mayFail : Prop} {c : Call} {a : c.Value}
    (h : behaviour mayFail c s (.ok a) s') : s.Outcome c a s' := by
  obtain ⟨haccepts, heffect⟩ := h
  cases c with
  | probe => exact heffect.2
  | query => exact heffect
  | attach =>
    obtain ⟨hours, rfl⟩ := heffect
    exact ⟨hours, haccepts, rfl, rfl⟩
  | detach p =>
    obtain rfl : s' = s.withProgram none := heffect
    exact ⟨haccepts, rfl, rfl⟩
  | read f => exact heffect
  | insert p =>
    obtain rfl : s' = s.insert p := heffect
    exact outcome_insert
  | remove p =>
    obtain rfl : s' = s.remove p := heffect
    exact outcome_remove
  | destroy f =>
    obtain rfl : s' = s.destroy f := heffect
    exact outcome_destroy

end InterfaceState

namespace Model

variable {m m' : Model} {name other : String} {p q : Program}
  {l l' : List (String × Program)}

/-! ## Everything that can happen to a kernel -/

/-- Something that happens to a kernel: a call, an edit by others, or a change of what can carry
programs, of what is due to fail, or of the log. -/
inductive Act where
  | call (name : String) (c : Call)
  | tamperDelete (name : String) (entry : Prefix)
  | tamperInsert (name : String) (entry : Prefix)
  | tamperDestroy (name : String) (family : Family)
  | tamperDetach (name : String)
  | tamperAttach (name programName : String)
  | markUnsupported (name reason : String)
  | arm (faults : Faults)
  | clearLog

/-- The kernel after an act. -/
def Act.run (m : Model) : Act → Model
  | .call name c => (m.answer name c).2
  | .tamperDelete name entry => (m.tamperDelete name entry).2
  | .tamperInsert name entry => m.tamperInsert name entry
  | .tamperDestroy name family => (m.tamperDestroy name family).2
  | .tamperDetach name => (m.tamperDetach name).2
  | .tamperAttach name programName => (m.tamperAttach name programName).2
  | .markUnsupported name reason => m.markUnsupported name reason
  | .arm faults => { m with faults }
  | .clearLog => m.clearLog

/-- The program that an act attaches, if any, with its interface. -/
def Act.attached (m : Model) : Act → List (String × Program)
  | .call name .attach => (m.attach name).1.toOption.toList.map (name, ·)
  | .tamperAttach name programName => [(name, (m.tamperAttach name programName).1)]
  | _ => []

/-- The kernel after some acts. -/
def after (m : Model) (acts : List Act) : Model := acts.foldl Act.run m

/-- The programs that are attached in some acts, the first one first. -/
def attachedIn (m : Model) : List Act → List (String × Program)
  | [] => []
  | act :: rest => act.attached m ++ (act.run m).attachedIn rest

theorem attachedIn_append (m : Model) (acts more : List Act) :
    m.attachedIn (acts ++ more) = m.attachedIn acts ++ (m.after acts).attachedIn more := by
  induction acts generalizing m with
  | nil => rfl
  | cons act rest ih => simp [attachedIn, after, ih]

/-! ## Ids -/

/-- From one state of the kernel to the next, at most one program is attached, under the next id.
No other program appears anywhere. -/
structure Issues (m m' : Model) (l : List (String × Program)) : Prop where
  ids : (l = [] ∧ m'.nextId = m.nextId) ∨
    ∃ name p, l = [(name, p)] ∧ p.id = m.nextId ∧ m'.nextId = m.nextId + 1
  held : ∀ name q, m'.program name = some q → (name, q) ∈ l ∨ m.program name = some q

theorem issues_none (hnext : m'.nextId = m.nextId)
    (hheld : ∀ name q, m'.program name = some q → m.program name = some q) : Issues m m' [] :=
  ⟨.inl ⟨rfl, hnext⟩, fun name q h => .inr (hheld name q h)⟩

theorem program_change (f : InterfaceState → InterfaceState) :
    (m.change name f).program other =
      if other = name then (f (m.interface name)).program else m.program other := by
  by_cases h : other = name
  · subst h
    simp [Model.program]
  · simp [Model.program, interface_change_of_ne h, h]

/-- A change of an interface that leaves it its program, or takes it away. -/
theorem issues_change {f : InterfaceState → InterfaceState}
    (hf : ∀ s q, (f s).program = some q → s.program = some q) : Issues m (m.change name f) [] := by
  refine issues_none rfl fun other q h => ?_
  rw [program_change] at h
  by_cases hname : other = name
  · subst hname
    rw [if_pos rfl] at h
    exact hf _ q h
  · rwa [if_neg hname] at h

/-- The next program is attached to an interface. -/
theorem issues_takeId (name programName : String) :
    Issues m (m.takeId.2.putProgram name (some ⟨m.nextId, programName⟩))
      [(name, ⟨m.nextId, programName⟩)] := by
  refine ⟨.inr ⟨name, ⟨m.nextId, programName⟩, rfl, rfl, rfl⟩, fun other q h => ?_⟩
  rw [putProgram, program_change] at h
  by_cases hname : other = name
  · subst hname
    simp only [if_true, InterfaceState.program_withProgram, Option.some.injEq] at h
    simp [h]
  · rw [if_neg hname] at h
    exact .inr h

theorem issues_attach (name : String) :
    Issues m (m.attach name).2 ((m.attach name).1.toOption.toList.map (name, ·)) := by
  unfold attach
  by_cases hpresent : m.exists? name = true
  · by_cases hfails : m.faults.attaches > 0
    · simp only [hpresent, hfails, if_true, Bool.not_true, Bool.false_eq_true, if_false]
      exact issues_none rfl fun _ _ h => h
    · cases hprogram : m.program name with
      | some q =>
        simp only [hpresent, hfails, Bool.not_true, Bool.false_eq_true, if_false]
        exact issues_none rfl fun _ _ h => h
      | none =>
        simp only [hpresent, hfails, Bool.not_true, Bool.false_eq_true, if_false]
        obtain ⟨hids, hheld⟩ := issues_takeId (m := m) name Program.ownName
        exact ⟨hids, hheld⟩
  · simp only [hpresent, Bool.not_false, if_true]
    exact issues_none rfl fun _ _ h => h

theorem nextId_write (f : InterfaceState → InterfaceState) (op : Operation) :
    (m.write name f op).2.nextId = m.nextId := by
  refine write_induction (motive := fun _ m' => m'.nextId = m.nextId) (fun _ => rfl) fun _ _ _ => rfl

theorem nextId_answer {c : Call} (hc : c ≠ .attach) : (m.answer name c).2.nextId = m.nextId := by
  cases c with
  | attach => exact absurd rfl hc
  | probe =>
    simp only [answer, probe]
    split
    · rfl
    · split <;> rfl
  | query =>
    simp only [answer, query]
    split <;> rfl
  | detach p =>
    simp only [answer, detach]
    split
    · rfl
    · split
      · rfl
      · split
        · split <;> rfl
        · rfl
  | read f =>
    simp only [answer, Model.read]
    split
    · rfl
    · split <;> rfl
  | insert p => exact nextId_write _ _
  | remove p => exact nextId_write _ _
  | destroy f => exact nextId_write _ _

theorem issues_answer {c : Call} (hc : c ≠ .attach) : Issues m (m.answer name c).2 [] := by
  refine issues_none (nextId_answer hc) fun other q h => ?_
  by_cases hname : other = name
  · subst hname
    have hbehaves := answer_behaves (.inl trivial : True ∨ m.Healthy other) c
    by_cases hchanges : c.changesProgram = true
    · cases c with
      | detach p =>
        generalize (m.answer other (.detach p)).1 = answer at hbehaves
        cases answer with
        | error e =>
          rw [Model.program, hbehaves.2] at h
          exact h
        | ok a =>
          have heffect : (m.answer other (.detach p)).2.interface other = _ := hbehaves.2
          rw [Model.program, heffect] at h
          cases h
      | attach => exact absurd rfl hc
      | _ => simp [Call.changesProgram] at hchanges
    · have hkept := InterfaceState.program_of_behaviour hbehaves (by simpa using hchanges)
      rw [Model.program, hkept] at h
      exact h
  · rw [Model.program, (agreesBesides_answer name m c).others other hname] at h
    exact h

/-- Every act attaches at most the one program that it says, under the next id. -/
theorem issues_run (m : Model) (act : Act) : Issues m (act.run m) (act.attached m) := by
  have hsame : Issues m m [] := issues_none rfl fun _ _ h => h
  cases act with
  | call name c =>
    by_cases hc : c = .attach
    · subst hc
      exact issues_attach name
    · have hnone : (Act.call name c).attached m = [] := by
        cases c <;> first | rfl | exact absurd rfl hc
      rw [hnone]
      exact issues_answer hc
  | tamperDelete name entry =>
    have hchange : Issues m (m.change name (·.remove entry)) [] := issues_change fun _ _ h => h
    simp only [Act.run, Act.attached, tamperDelete]
    cases m.table name entry.family with
    | none => exact hsame
    | some t => exact hchange
  | tamperInsert name entry => exact issues_change (f := (·.insert entry)) fun _ _ h => h
  | tamperDestroy name family => exact issues_change (f := (·.destroy family)) fun _ _ h => h
  | tamperDetach name => exact issues_change (f := (·.withProgram none)) fun _ _ h => by simp at h
  | tamperAttach name programName => exact issues_takeId name programName
  | markUnsupported name reason => exact issues_none rfl fun _ _ h => h
  | arm faults => exact issues_none rfl fun _ _ h => h
  | clearLog => exact issues_none rfl fun _ _ h => h

/-- The id of a program that is attached after a number of others. -/
def idAfter (n : Nat) : UInt32 := firstId + .ofNat n

/-- How many programs can be attached before the ids wrap around. -/
def idCount : Nat := Nat.pow 2 32 - 100

theorem idAfter_lt {i j : Nat} (hij : i < j) (hj : j < idCount) : idAfter i < idAfter j := by
  have hto : ∀ n, n < idCount → (idAfter n).toNat = 100 + n := by
    intro n hn
    have hcount : idCount = 4294967196 := rfl
    rw [hcount] at hn
    simp only [idAfter, firstId, UInt32.toNat_add, UInt32.toNat_ofNat']
    have hfirst : (100 : UInt32).toNat = 100 := rfl
    rw [hfirst]
    omega
  rw [UInt32.lt_iff_toNat_lt, hto i (by omega), hto j hj]
  omega

/-- The programs that were attached so far have got the ids from the first one on, and whatever is
attached now is one of them, where it was attached. -/
structure Issued (l : List (String × Program)) (m : Model) : Prop where
  next : m.nextId = idAfter l.length
  ids : l.map (·.2.id) = (List.range l.length).map idAfter
  held : ∀ name q, m.program name = some q → (name, q) ∈ l

theorem issued_fresh (failsafe : Failsafe) (known : Option TextSet) :
    Issued [] (fresh failsafe known) := by
  refine ⟨rfl, rfl, fun name q h => ?_⟩
  simp [fresh, Model.program, interface, InterfaceState.blank] at h

theorem Issued.step (h : Issued l m) (hstep : Issues m m' l') : Issued (l ++ l') m' := by
  have hheld : ∀ name q, m'.program name = some q → (name, q) ∈ l ++ l' := by
    intro name q hq
    rcases hstep.held name q hq with hnew | hold
    · exact List.mem_append_right l hnew
    · exact List.mem_append_left l' (h.held name q hold)
  rcases hstep.ids with ⟨rfl, hnext⟩ | ⟨name, p, rfl, hid, hnext⟩
  · rw [List.append_nil] at hheld ⊢
    exact ⟨hnext.trans h.next, h.ids, hheld⟩
  · have hsucc : idAfter (l.length + 1) = idAfter l.length + 1 := by
      simp [idAfter, UInt32.ofNat_add, UInt32.add_assoc]
    refine ⟨?_, ?_, hheld⟩
    · rw [hnext, h.next, List.length_append, List.length_singleton, hsucc]
    · simp only [List.map_append, h.ids, List.map_cons, List.map_nil, List.length_append,
        List.length_singleton, List.range_succ, hid, h.next]

/-- Whatever happens, the programs that get attached are counted on. -/
theorem Issued.after (h : Issued l m) (acts : List Act) :
    Issued (l ++ m.attachedIn acts) (m.after acts) := by
  induction acts generalizing l m with
  | nil => simpa [attachedIn, Model.after] using h
  | cons act rest ih =>
    have hrest := ih (h.step (issues_run m act))
    rwa [List.append_assoc] at hrest

theorem Issued.increasing (h : Issued l m) (hcount : l.length ≤ idCount) :
    l.Pairwise fun a b => a.2.id < b.2.id := by
  have hrange : ((List.range l.length).map idAfter).Pairwise (· < ·) := by
    refine List.pairwise_map.mpr ?_
    refine List.pairwise_lt_range.imp_of_mem fun hi hj hij => ?_
    exact idAfter_lt hij (by rw [List.mem_range] at hj; omega)
  rw [← h.ids] at hrange
  exact List.pairwise_map.mp hrange

/-- Before the ids wrap around, a program is told by its id. -/
theorem Issued.eq_of_id (h : Issued l m) (hcount : l.length ≤ idCount) {a b : String × Program}
    (ha : a ∈ l) (hb : b ∈ l) (hid : a.2.id = b.2.id) : a = b := by
  obtain ⟨i, hi, rfl⟩ := List.getElem_of_mem ha
  obtain ⟨j, hj, rfl⟩ := List.getElem_of_mem hb
  have hpairwise := List.pairwise_iff_getElem.mp (h.increasing hcount)
  rcases Nat.lt_trichotomy i j with hlt | rfl | hlt
  · have hne := hpairwise i j hi hj hlt
    rw [hid] at hne
    exact absurd hne (UInt32.lt_irrefl _)
  · rfl
  · have hne := hpairwise j i hj hi hlt
    rw [hid] at hne
    exact absurd hne (UInt32.lt_irrefl _)

/-! ## The contract -/

/-- To detach a program leaves an interface its program, or takes away one with the same id. -/
theorem program_detach (m : Model) (name other : String) (p : Program) :
    (m.detach name p).2.program other = m.program other ∨
      other = name ∧ ∃ q, m.program name = some q ∧ q.id = p.id := by
  by_cases hname : other = name
  · subst hname
    have hbehaves := answer_behaves (.inl trivial : True ∨ m.Healthy other) (.detach p)
    generalize hanswer : (m.answer other (.detach p)).1 = answer at hbehaves
    cases answer with
    | error e => exact .inl (congrArg InterfaceState.program hbehaves.2)
    | ok a =>
      obtain ⟨haccepts, heffect⟩ := hbehaves
      cases hprogram : m.program other with
      | none => exact .inl (congrArg InterfaceState.program heffect)
      | some q => exact .inr ⟨rfl, q, rfl, haccepts q hprogram⟩
  · have hframe := (agreesBesides_answer name m (.detach p)).others other hname
    exact .inl (congrArg InterfaceState.program hframe)

/-- Calls to the modelled kernel, in any state, are atomic and framed: one that fails leaves every
interface as it was, and one that succeeds changes nothing but the program or one table of its own
interface, in just the way that it says.  The managed interfaces are those with a table or a
program of ours.  Until the ids wrap around, each program that gets attached has a higher id than
all before, whatever else happens; so to detach a program that was queried never takes away
another one. -/
theorem calls_atomic :
    (∀ (m : Model) (name : String) (c : Call),
      (∀ other, other ≠ name → (m.answer name c).2.interface other = m.interface other) ∧
      match (m.answer name c).1 with
      | .ok a => (m.interface name).Outcome c a ((m.answer name c).2.interface name)
      | .error _ => (m.answer name c).2.interface name = m.interface name) ∧
    (∀ (m : Model) (name : String), name ∈ m.managed ↔
      (∃ f, m.table name f ≠ none) ∨ ∃ p, m.program name = some p ∧ p.isOurs = true) ∧
    ∀ (failsafe : Failsafe) (known : Option TextSet), let start := fresh failsafe known
      (∀ acts, (start.attachedIn acts).length ≤ idCount →
        (start.attachedIn acts).Pairwise fun a b => a.2.id < b.2.id) ∧
      ∀ before name p between, ((start.after before).query name).1 = .ok (some p) →
        (start.attachedIn (before ++ .call name .query :: between)).length ≤ idCount →
        ∀ target other, let m := start.after (before ++ .call name .query :: between)
          (m.detach target p).2.program other = m.program other ∨
            target = name ∧ other = name ∧ m.program name = some p := by
  refine ⟨fun m name c => ⟨(agreesBesides_answer name m c).others, ?_⟩, fun m name => ?_, ?_⟩
  · have hbehaves := answer_behaves (.inl trivial : True ∨ m.Healthy name) c
    generalize (m.answer name c).1 = answer at hbehaves ⊢
    cases answer with
    | error e => exact hbehaves.2
    | ok a => exact InterfaceState.outcome_of_behaviour hbehaves
  · have htable : (m.interface name).hasTable = true ↔ ∃ f, m.table name f ≠ none := by
      rw [← Bool.not_eq_false, InterfaceState.hasTable_eq_false_iff, Classical.not_forall]
      rfl
    rw [mem_managed, htable, InterfaceState.carriesOurs, Option.any_eq_true]
    rfl
  · intro failsafe known start
    have hissued : ∀ acts, Issued (start.attachedIn acts) (start.after acts) := fun acts =>
      (issued_fresh failsafe known).after acts
    refine ⟨fun acts hcount => (hissued acts).increasing hcount, ?_⟩
    intro before name p between hquery hcount target other m
    have hqueried : (name, p) ∈ start.attachedIn (before ++ .call name .query :: between) := by
      rw [attachedIn_append]
      refine List.mem_append_left _ ((hissued before).held name p ?_)
      unfold query at hquery
      by_cases hpresent : (start.after before).exists? name = true
      · simpa [hpresent] using hquery
      · simp [hpresent, missing] at hquery
    rcases program_detach m target other p with hkept | ⟨rfl, q, hq, hid⟩
    · exact .inl hkept
    · have hheld := (hissued _).held other q hq
      obtain ⟨rfl, rfl⟩ := Prod.mk.inj ((hissued _).eq_of_id hcount hheld hqueried hid)
      exact .inr ⟨rfl, rfl, hq⟩

/-- Our program is attached and queried, and then others put one of theirs in its place. -/
def replacement : List Act :=
  [.call "eth0" .attach, .call "eth0" .query, .tamperDetach "eth0", .tamperAttach "eth0" "other"]

/-- To detach our program, by what was queried, leaves that of the others. -/
theorem calls_atomic_replacement :
    let start := fresh ∅ none
    let ours : Program := ⟨100, Program.ownName⟩
    let m := start.after replacement
    ((start.attachedIn replacement).Pairwise fun a b => a.2.id < b.2.id) ∧
      start.attachedIn replacement = [("eth0", ours), ("eth0", ⟨101, "other"⟩)] ∧
      m.program "eth0" = some ⟨101, "other"⟩ ∧
      (m.detach "eth0" ours).2.program "eth0" = m.program "eth0" := by
  intro start ours m
  have hcount : (start.attachedIn replacement).length ≤ idCount := by decide +kernel
  have hours : (start.after [.call "eth0" .attach]).program "eth0" = some ours := by decide +kernel
  have hquery : ((start.after [.call "eth0" .attach]).query "eth0").1 = .ok (some ours) :=
    congrArg Except.ok hours
  have hprogram : m.program "eth0" = some ⟨101, "other"⟩ := by decide +kernel
  obtain ⟨hids, hdetach⟩ := calls_atomic.2.2 ∅ none
  refine ⟨hids replacement hcount, by decide +kernel, hprogram, ?_⟩
  rcases hdetach [.call "eth0" .attach] "eth0" ours _ hquery hcount "eth0" "eth0" with
    hkept | ⟨-, -, hsame⟩
  · exact hkept
  · exact absurd (hprogram.symm.trans hsame) (by decide +kernel)

end Model

end IngressGuard.Kernel
