import IngressGuard.Kernel.Model
import IngressGuard.Proofs.Kernel.Runs
import IngressGuard.Proofs.Net.DenyList
import IngressGuard.Proofs.Net.Trie

/-!
# One interface of the kernel

A cycle makes all its calls about one interface, so what it can rely on is what a call does to
that interface.  `InterfaceState.behaviour` says this for every call, with failures at any point
if any may come, and the rules reduce statements about calls to their effects.

The contents of tables are seen through `Holds` and `HasTable`.  A prefix can only be in the table
of its own family, so these two views and the program determine the state.
-/

namespace IngressGuard

namespace Kernel

namespace InterfaceState

variable {s : InterfaceState} {p q : Prefix} {f g : Family}

/-! ## Contents -/

/-- A table holds a prefix. -/
def Holds (s : InterfaceState) (p : Prefix) : Prop := p ∈ (s.tables.get p.family).getD ∅

/-- A family has a table. -/
def HasTable (s : InterfaceState) (f : Family) : Prop := (s.tables.get f).isSome = true

theorem mem_getD_iff : p ∈ (s.tables.get f).getD ∅ ↔ p.family = f ∧ s.Holds p := by
  constructor
  · intro hp
    cases htable : s.tables.get f with
    | none => simp [htable] at hp
    | some t =>
      have hf : p.family = f := s.filed f t p htable (by simpa [htable] using hp)
      exact ⟨hf, by rwa [Holds, hf]⟩
  · rintro ⟨rfl, hp⟩
    exact hp

@[simp] theorem program_withProgram (o : Option Program) : (s.withProgram o).program = o := rfl

@[simp] theorem tables_withProgram (o : Option Program) :
    (s.withProgram o).tables = s.tables := rfl

@[simp] theorem holds_withProgram (o : Option Program) :
    (s.withProgram o).Holds p ↔ s.Holds p := Iff.rfl

@[simp] theorem hasTable_withProgram (o : Option Program) :
    (s.withProgram o).HasTable f ↔ s.HasTable f := Iff.rfl

@[simp] theorem program_insert : (s.insert p).program = s.program := rfl

@[simp] theorem holds_insert : (s.insert p).Holds q ↔ q = p ∨ s.Holds q := by
  unfold Holds insert
  rw [PerFamily.get_set]
  split
  case isTrue h =>
    rw [Option.getD_some, Std.ExtTreeSet.mem_insert, Std.LawfulEqCmp.compare_eq_iff_eq, h,
      eq_comm]
  case isFalse h =>
    have hne : q ≠ p := fun e => h (congrArg Prefix.family e)
    simp [hne]

@[simp] theorem hasTable_insert : (s.insert p).HasTable f ↔ f = p.family ∨ s.HasTable f := by
  unfold HasTable insert
  rw [PerFamily.get_set]
  split <;> simp_all

@[simp] theorem program_remove : (s.remove p).program = s.program := rfl

@[simp] theorem holds_remove : (s.remove p).Holds q ↔ q ≠ p ∧ s.Holds q := by
  unfold Holds remove
  rw [PerFamily.get_set]
  split
  case isTrue h =>
    rw [h]
    cases s.tables.get p.family with
    | none => simp
    | some t =>
      rw [Option.map_some, Option.getD_some, Option.getD_some, Std.ExtTreeSet.mem_erase, ne_eq,
        Std.LawfulEqCmp.compare_eq_iff_eq, eq_comm]
  case isFalse h =>
    have hne : q ≠ p := fun e => h (congrArg Prefix.family e)
    simp [hne]

@[simp] theorem hasTable_remove : (s.remove p).HasTable f ↔ s.HasTable f := by
  unfold HasTable remove
  rw [PerFamily.get_set]
  split <;> simp_all

@[simp] theorem program_destroy : (s.destroy f).program = s.program := rfl

@[simp] theorem holds_destroy : (s.destroy f).Holds q ↔ q.family ≠ f ∧ s.Holds q := by
  unfold Holds destroy
  rw [PerFamily.get_set]
  split <;> simp_all

@[simp] theorem hasTable_destroy : (s.destroy f).HasTable g ↔ g ≠ f ∧ s.HasTable g := by
  unfold HasTable destroy
  rw [PerFamily.get_set]
  split <;> simp_all

theorem Holds.hasTable (h : s.Holds p) : s.HasTable p.family := by
  unfold Holds at h
  unfold HasTable
  cases htable : s.tables.get p.family with
  | none => simp [htable] at h
  | some t => rfl

/-- Tables enforce a deny list if they hold its prefixes and exist where there are any. -/
theorem tables_eq_table_iff {d : DenyList} (filed : d.WellFiled) :
    (∀ f, s.tables.get f = d.table f) ↔
      (∀ p, s.Holds p ↔ p ∈ d.get p.family) ∧
        ∀ f, s.HasTable f ↔ (d.get f).isEmpty = false := by
  constructor
  · intro h
    refine ⟨fun p => ?_, fun f => ?_⟩
    · rw [Holds, h, DenyList.getD_table]
    · rw [HasTable, h, DenyList.isSome_table]
  · rintro ⟨hholds, htable⟩ f
    have hmem : ∀ p, p ∈ (s.tables.get f).getD ∅ ↔ p ∈ d.get f := by
      intro p
      rw [mem_getD_iff, hholds]
      constructor
      · rintro ⟨rfl, hp⟩
        exact hp
      · intro hp
        have hpf := filed f p hp
        exact ⟨hpf, by rwa [hpf]⟩
    have hf := htable f
    unfold HasTable at hf
    unfold DenyList.table
    cases hs : s.tables.get f with
    | none =>
      rw [hs] at hf
      simpa using hf
    | some t =>
      rw [hs] at hf hmem
      have ht : t = d.get f := Std.ExtTreeSet.ext_mem hmem
      rw [if_neg (by simpa using hf), ht]

/-- A look-up finds something if and only if the table of the address's family has a prefix that
contains the address. -/
theorem isSome_lookup {a : Address} :
    (s.lookup a).isSome = true ↔
      ∃ p ∈ (s.tables.get a.family).getD ∅, p.contains a = true := by
  unfold lookup
  cases s.tables.get a.family with
  | none => simp
  | some t => exact PrefixSet.isSome_lookup

/-- A look-up finds something if and only if the tables hold some prefix that contains the
address. -/
theorem isSome_lookup_iff_holds {a : Address} :
    (s.lookup a).isSome = true ↔ ∃ p, s.Holds p ∧ p.family = a.family ∧ p.contains a = true := by
  rw [isSome_lookup]
  refine exists_congr fun p => ?_
  rw [mem_getD_iff, and_assoc, and_left_comm]

theorem hasTable_eq_false_iff : s.hasTable = false ↔ ∀ f, s.tables.get f = none := by
  unfold hasTable
  rw [Bool.or_eq_false_iff, Option.isSome_eq_false_iff, Option.isSome_eq_false_iff,
    Option.isNone_iff_eq_none, Option.isNone_iff_eq_none]
  constructor
  · rintro ⟨h4, h6⟩ (_ | _)
    · exact h4
    · exact h6
  · exact fun h => ⟨h .ipv4, h .ipv6⟩

/-! ## Calls -/

/-- The interface is in a state in which a call makes sense: no program is attached over another
one, and none is detached in place of another one. -/
def Accepts (s : InterfaceState) : Call → Prop
  | .attach => s.program = none
  | .detach p => ∀ other, s.program = some other → other.id = p.id
  | _ => True

theorem accepts_detach {p : Program} (hp : s.program = some p) : s.Accepts (.detach p) := by
  intro other hother
  rw [hp] at hother
  cases hother
  rfl

/-- What a call that succeeds may answer, and the state it leaves behind. -/
def Effect (mayFail : Prop) (s : InterfaceState) :
    (c : Call) → c.Value → InterfaceState → Prop
  | .probe, answer, s' => (mayFail ∨ answer = Probe.supported) ∧ s' = s
  | .query, answer, s' => answer = s.program ∧ s' = s
  | .attach, (p : Program), s' => p.isOurs = true ∧ s' = s.withProgram (some p)
  | .detach _, _, s' => s' = s.withProgram none
  | .read f, answer, s' => answer = s.tables.get f ∧ s' = s
  | .insert p, _, s' => s' = s.insert p
  | .remove p, _, s' => s' = s.remove p
  | .destroy f, _, s' => s' = s.destroy f

/-- What a call may do to its interface.  A call that fails changes nothing.  Calls fail where
they make no sense; if any may fail, they fail anywhere, and the interface may turn out not to
carry programs. -/
def behaviour (mayFail : Prop) : Behaviour InterfaceState := fun c s answer s' =>
  match answer with
  | .ok a => s.Accepts c ∧ s.Effect mayFail c a s'
  | .error _ => (mayFail ∨ ¬s.Accepts c) ∧ s' = s

/-! ## Rules for calls -/

section Rules

variable {mayFail : Prop} {σ ε : Type} {onError : KernelError → ε}
  {E : ε → σ → InterfaceState → Prop}
  {t : σ}

theorem ensures_probe {Q : Probe → σ → InterfaceState → Prop} :
    Work.Ensures (behaviour mayFail) (Work.call .probe onError) Q E t s ↔
      Q .supported t s ∧
        (mayFail → (∀ reason, Q (.unsupported reason) t s) ∧ ∀ e, E (onError e) t s) := by
  refine Work.ensures_call.trans ⟨?_, ?_⟩
  · intro h
    refine ⟨h (.ok .supported) s ⟨trivial, .inr rfl, rfl⟩, fun hf => ?_⟩
    refine ⟨fun reason => ?_, fun e => ?_⟩
    · exact h (.ok (.unsupported reason)) s ⟨trivial, .inl hf, rfl⟩
    · exact h (.error e) s ⟨.inl hf, rfl⟩
  · rintro ⟨hok, hfail⟩ (e | a) s' hstep
    · obtain ⟨hf | hf, rfl⟩ := hstep
      · exact (hfail hf).2 e
      · exact absurd trivial hf
    · obtain ⟨-, ha, rfl⟩ := hstep
      cases a with
      | supported => exact hok
      | unsupported reason =>
        rcases ha with hf | ha
        · exact (hfail hf).1 reason
        · cases ha

theorem ensures_query {Q : Option Program → σ → InterfaceState → Prop} :
    Work.Ensures (behaviour mayFail) (Work.call .query onError) Q E t s ↔
      Q s.program t s ∧ (mayFail → ∀ e, E (onError e) t s) := by
  refine Work.ensures_call.trans ⟨?_, ?_⟩
  · intro h
    exact ⟨h (.ok s.program) s ⟨trivial, rfl, rfl⟩, fun hf e => h (.error e) s ⟨.inl hf, rfl⟩⟩
  · rintro ⟨hok, hfail⟩ (e | a) s' hstep
    · obtain ⟨hf | hf, rfl⟩ := hstep
      · exact hfail hf e
      · exact absurd trivial hf
    · obtain ⟨-, rfl, rfl⟩ := hstep
      exact hok

theorem ensures_attach {Q : Program → σ → InterfaceState → Prop} :
    Work.Ensures (behaviour mayFail) (Work.call .attach onError) Q E t s ↔
      (s.program = none → ∀ p : Program, p.isOurs = true → Q p t (s.withProgram (some p))) ∧
        (mayFail ∨ s.program ≠ none → ∀ e, E (onError e) t s) := by
  refine Work.ensures_call.trans ⟨?_, ?_⟩
  · intro h
    exact ⟨fun hnone p hp => h (.ok p) _ ⟨hnone, hp, rfl⟩, fun hf e => h (.error e) s ⟨hf, rfl⟩⟩
  · rintro ⟨hok, hfail⟩ (e | a) s' hstep
    · obtain ⟨hf, rfl⟩ := hstep
      exact hfail hf e
    · obtain ⟨hnone, hp, rfl⟩ := hstep
      exact hok hnone a hp

theorem ensures_detach {p : Program} {Q : Unit → σ → InterfaceState → Prop} :
    Work.Ensures (behaviour mayFail) (Work.call (.detach p) onError) Q E t s ↔
      (s.Accepts (.detach p) → Q () t (s.withProgram none)) ∧
        (mayFail ∨ ¬s.Accepts (.detach p) → ∀ e, E (onError e) t s) := by
  refine Work.ensures_call.trans ⟨?_, ?_⟩
  · intro h
    exact ⟨fun ha => h (.ok ()) _ ⟨ha, rfl⟩, fun hf e => h (.error e) s ⟨hf, rfl⟩⟩
  · rintro ⟨hok, hfail⟩ (e | a) s' hstep
    · obtain ⟨hf, rfl⟩ := hstep
      exact hfail hf e
    · obtain ⟨ha, rfl⟩ := hstep
      exact hok ha

theorem ensures_read {Q : Option PrefixSet → σ → InterfaceState → Prop} :
    Work.Ensures (behaviour mayFail) (Work.call (.read f) onError) Q E t s ↔
      Q (s.tables.get f) t s ∧ (mayFail → ∀ e, E (onError e) t s) := by
  refine Work.ensures_call.trans ⟨?_, ?_⟩
  · intro h
    exact ⟨h (.ok (s.tables.get f)) s ⟨trivial, rfl, rfl⟩,
      fun hf e => h (.error e) s ⟨.inl hf, rfl⟩⟩
  · rintro ⟨hok, hfail⟩ (e | a) s' hstep
    · obtain ⟨hf | hf, rfl⟩ := hstep
      · exact hfail hf e
      · exact absurd trivial hf
    · obtain ⟨-, rfl, rfl⟩ := hstep
      exact hok

/-- The rule for calls that always make sense and replace the state. -/
theorem ensures_write {c : Call} {f : InterfaceState → InterfaceState}
    {Q : c.Value → σ → InterfaceState → Prop} (haccepts : s.Accepts c)
    (heffect : ∀ a s', s.Effect mayFail c a s' ↔ s' = f s) :
    Work.Ensures (behaviour mayFail) (Work.call c onError) Q E t s ↔
      (∀ a, Q a t (f s)) ∧ (mayFail → ∀ e, E (onError e) t s) := by
  refine Work.ensures_call.trans ⟨?_, ?_⟩
  · intro h
    exact ⟨fun a => h (.ok a) (f s) ⟨haccepts, (heffect a _).mpr rfl⟩,
      fun hf e => h (.error e) s ⟨.inl hf, rfl⟩⟩
  · rintro ⟨hok, hfail⟩ (e | a) s' hstep
    · obtain ⟨hf | hf, rfl⟩ := hstep
      · exact hfail hf e
      · exact absurd haccepts hf
    · rw [(heffect a s').mp hstep.2]
      exact hok a

theorem ensures_insert {Q : Unit → σ → InterfaceState → Prop} :
    Work.Ensures (behaviour mayFail) (Work.call (.insert p) onError) Q E t s ↔
      Q () t (s.insert p) ∧ (mayFail → ∀ e, E (onError e) t s) := by
  refine (ensures_write (c := .insert p) (f := (·.insert p)) trivial fun _ _ => Iff.rfl).trans ?_
  exact and_congr_left fun _ => ⟨fun h => h (), fun h _ => h⟩

theorem ensures_remove {Q : Unit → σ → InterfaceState → Prop} :
    Work.Ensures (behaviour mayFail) (Work.call (.remove p) onError) Q E t s ↔
      Q () t (s.remove p) ∧ (mayFail → ∀ e, E (onError e) t s) := by
  refine (ensures_write (c := .remove p) (f := (·.remove p)) trivial fun _ _ => Iff.rfl).trans ?_
  exact and_congr_left fun _ => ⟨fun h => h (), fun h _ => h⟩

theorem ensures_destroy {Q : Unit → σ → InterfaceState → Prop} :
    Work.Ensures (behaviour mayFail) (Work.call (.destroy f) onError) Q E t s ↔
      Q () t (s.destroy f) ∧ (mayFail → ∀ e, E (onError e) t s) := by
  refine (ensures_write (c := .destroy f) (f := (·.destroy f)) trivial fun _ _ => Iff.rfl).trans ?_
  exact and_congr_left fun _ => ⟨fun h => h (), fun h _ => h⟩

end Rules

end InterfaceState

end Kernel

end IngressGuard
