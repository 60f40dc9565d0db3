import IngressGuard.Proofs.Cycle.Drift

/-!
# What drift says about tables

A run that reads the kernel compares what each table holds with what was applied last.  The list of
drift it reports is that comparison and nothing else (`BlockTables.drift_exact`): every entry names
one difference, none is named twice, and undoing the entries one after the other turns the contents
that were read into what was applied last (`BlockTables.foldl_undo_found`).  What the run is meant
to write does not matter.
-/

namespace IngressGuard

open Kernel (Model InterfaceState)

namespace TableDrift

variable {applied tables : DenyList} {d : TableDrift} {f g : Family}

/-- The family whose table differs. -/
def family : TableDrift → Family
  | entryMissing f _ | entryUnexpected f _ | tableMissing f => f

/-- Undoes a drift: a missing prefix comes back, an unexpected one goes, and a missing table gets
what was applied last. -/
def undo (applied tables : DenyList) : TableDrift → DenyList
  | entryMissing f p => tables.set f ((tables.get f).insert p)
  | entryUnexpected f p => tables.set f ((tables.get f).erase p)
  | tableMissing f => tables.set f (applied.get f)

theorem get_undo_of_ne (h : d.family ≠ g) : (undo applied tables d).get g = tables.get g := by
  cases d <;> exact PerFamily.get_set_of_ne _ _ h.symm

/-- Undoing drift of other families leaves a family alone. -/
theorem get_foldl_undo_of_ne {ds : List TableDrift} (h : ∀ d ∈ ds, d.family ≠ g) :
    (ds.foldl (undo applied) tables).get g = tables.get g := by
  induction ds generalizing tables with
  | nil => rfl
  | cons d ds ih =>
    rw [List.foldl_cons, ih fun d hd => h d (List.mem_cons_of_mem _ hd),
      get_undo_of_ne (h d List.mem_cons_self)]

theorem mem_foldl_undo_missing {ps : List Prefix} {q : Prefix} :
    q ∈ ((ps.map (entryMissing f)).foldl (undo applied) tables).get f ↔
      q ∈ ps ∨ q ∈ tables.get f := by
  have hstep : ∀ (p : Prefix) (tables : DenyList),
      q ∈ (undo applied tables (entryMissing f p)).get f ↔ q = p ∨ q ∈ tables.get f := by
    intro p tables
    rw [undo, PerFamily.get_set_self, PrefixSet.mem_insert]
  have hgains := BlockTables.foldl_gains (P := fun tables : DenyList => q ∈ tables.get f)
    (l := ps) (s := tables) hstep
  rw [List.foldl_map, hgains]
  simp

theorem mem_foldl_undo_unexpected {ps : List Prefix} {q : Prefix} :
    q ∈ ((ps.map (entryUnexpected f)).foldl (undo applied) tables).get f ↔
      q ∉ ps ∧ q ∈ tables.get f := by
  have hstep : ∀ (p : Prefix) (tables : DenyList),
      q ∈ (undo applied tables (entryUnexpected f p)).get f ↔ ¬q = p ∧ q ∈ tables.get f := by
    intro p tables
    rw [undo, PerFamily.get_set_self, PrefixSet.mem_erase]
  have hloses := BlockTables.foldl_loses (P := fun tables : DenyList => q ∈ tables.get f)
    (l := ps) (s := tables) hstep
  rw [List.foldl_map, hloses]
  simp

end TableDrift

namespace BlockTables

open TableDrift (undo)

variable {applied tables wanted : DenyList} {actual : Option PrefixSet} {f g : Family}
  {d : TableDrift} {t : BlockTables} {s : InterfaceState}

/-! ## One family -/

theorem family_of_mem_drift {entries : PrefixSet} (h : d ∈ drift f entries actual) :
    d.family = f := by
  cases actual with
  | none =>
    rw [drift] at h
    split at h
    · cases h
    · rw [List.mem_singleton.mp h]
      rfl
  | some actual =>
    rcases List.mem_append.mp h with h | h
    all_goals
      obtain ⟨p, -, rfl⟩ := List.mem_map.mp h
      rfl

/-- Unless a table is missing that should hold something, drift is made of the single prefixes in
which the table differs. -/
theorem mem_drift_iff {entries : PrefixSet} (h : ¬(actual = none ∧ ∃ p, p ∈ entries)) :
    d ∈ drift f entries actual ↔
      (∃ p ∈ entries, p ∉ actual.getD ∅ ∧ d = .entryMissing f p) ∨
        ∃ p ∈ actual.getD ∅, p ∉ entries ∧ d = .entryUnexpected f p := by
  cases actual with
  | none =>
    have hnone : ∀ p, p ∉ entries := fun p hp => h ⟨rfl, p, hp⟩
    rw [drift, if_pos (PrefixSet.isEmpty_iff.mpr hnone)]
    simp [hnone]
  | some actual =>
    simp only [drift, List.mem_append, List.mem_map, Std.ExtTreeSet.mem_toList,
      Std.ExtTreeSet.mem_diff_iff, Option.getD_some, and_assoc, eq_comm]

/-- The drift is that a table is missing exactly if there is none and it should hold something. -/
theorem drift_eq_tableMissing_iff {entries : PrefixSet} :
    drift f entries actual = [.tableMissing f] ↔ actual = none ∧ ∃ p, p ∈ entries := by
  constructor
  · intro hdrift
    refine Classical.byContradiction fun h => ?_
    have hmem : TableDrift.tableMissing f ∈ drift f entries actual := by
      rw [hdrift]
      exact List.mem_singleton_self _
    rcases (mem_drift_iff h).mp hmem with ⟨_, _, _, h⟩ | ⟨_, _, _, h⟩ <;> cases h
  · rintro ⟨rfl, p, hp⟩
    rw [drift, PrefixSet.isEmpty_eq_false_of_mem hp]
    rfl

theorem nodup_drift (f : Family) (entries : PrefixSet) (actual : Option PrefixSet) :
    (drift f entries actual).Nodup := by
  cases actual with
  | none =>
    rw [drift]
    split
    · exact List.nodup_nil
    · simp
  | some actual =>
    refine List.nodup_append.mpr ⟨?_, ?_, ?_⟩
    · exact List.pairwise_map.mpr ((PrefixSet.nodup_toList _).imp fun hne h => hne (by injection h))
    · exact List.pairwise_map.mpr ((PrefixSet.nodup_toList _).imp fun hne h => hne (by injection h))
    · intro d hmissing e hunexpected
      obtain ⟨p, -, rfl⟩ := List.mem_map.mp hmissing
      obtain ⟨q, -, rfl⟩ := List.mem_map.mp hunexpected
      intro heq
      cases heq

/-- Undoing the drift of a family gives what was applied last, whether the table is missing or
differs in single prefixes. -/
theorem get_foldl_undo_drift (h : tables.get f = actual.getD ∅) :
    ((drift f (applied.get f) actual).foldl (undo applied) tables).get f = applied.get f := by
  cases actual with
  | none =>
    rw [drift]
    split
    case isTrue hempty =>
      rw [List.foldl_nil, h, Std.ExtTreeSet.isEmpty_iff.mp hempty, Option.getD_none]
    case isFalse => rw [List.foldl_cons, List.foldl_nil, undo, PerFamily.get_set_self]
  | some actual =>
    refine Std.ExtTreeSet.ext_mem fun p => ?_
    rw [drift, List.foldl_append, TableDrift.mem_foldl_undo_unexpected,
      TableDrift.mem_foldl_undo_missing, h]
    simp only [Std.ExtTreeSet.mem_toList, Std.ExtTreeSet.mem_diff_iff, Option.getD_some]
    by_cases hp : p ∈ applied.get f <;> by_cases hq : p ∈ actual <;> simp [hp, hq]

/-! ## Both families -/

/-- The prefixes in the tables of an interface; a table that is missing has none. -/
def contents (s : InterfaceState) : DenyList :=
  PerFamily.ofFn fun f => (s.tables.get f).getD ∅

/-- The drift that a run over both tables finds. -/
def allFound (b : Baseline) (t : BlockTables) (s : InterfaceState) : List TableDrift :=
  found b t s .ipv4 ++ found b t s .ipv6

theorem found_kernel (h : t.primed = true) (f : Family) :
    found .kernel t s f = drift f (t.lastApplied.get f) (s.tables.get f) := by
  rw [found, if_pos h]

theorem family_of_mem_found (h : t.primed = true) (hd : d ∈ found .kernel t s f) :
    d.family = f := by
  rw [found_kernel h] at hd
  exact family_of_mem_drift hd

/-- What is found about a family is what its table shows. -/
theorem filter_allFound (h : t.primed = true) (f : Family) :
    (allFound .kernel t s).filter (·.family == f) = found .kernel t s f := by
  have hown : ∀ f, (found .kernel t s f).filter (·.family == f) = found .kernel t s f :=
    fun f => List.filter_eq_self.mpr fun d hd => beq_iff_eq.mpr (family_of_mem_found h hd)
  have hother : ∀ f g, g ≠ f → (found .kernel t s g).filter (·.family == f) = [] := by
    intro f g hne
    refine List.filter_eq_nil_iff.mpr fun d hd heq => hne ?_
    rw [← family_of_mem_found h hd, eq_of_beq heq]
  rw [allFound, List.filter_append]
  cases f with
  | ipv4 => rw [hown, hother _ _ (by decide), List.append_nil]
  | ipv6 => rw [hown, hother _ _ (by decide), List.nil_append]

theorem nodup_allFound (h : t.primed = true) : (allFound .kernel t s).Nodup := by
  refine List.nodup_append.mpr ⟨?_, ?_, ?_⟩
  · rw [found_kernel h]
    exact nodup_drift ..
  · rw [found_kernel h]
    exact nodup_drift ..
  · rintro d h4 e h6 rfl
    have hfamily := (family_of_mem_found h h4).symm.trans (family_of_mem_found h h6)
    cases hfamily

theorem get_foldl_undo_found (h : t.primed = true) (f : Family)
    (hread : tables.get f = (contents s).get f) :
    ((found .kernel t s f).foldl (undo t.lastApplied) tables).get f = t.lastApplied.get f := by
  rw [contents, PerFamily.get_ofFn] at hread
  rw [found_kernel h]
  exact get_foldl_undo_drift hread

theorem get_foldl_undo_found_of_ne (h : t.primed = true) (hne : f ≠ g) :
    ((found .kernel t s f).foldl (undo t.lastApplied) tables).get g = tables.get g :=
  TableDrift.get_foldl_undo_of_ne fun _ hd => family_of_mem_found h hd ▸ hne

/-- Undoing what was found gives what was applied last. -/
theorem foldl_undo_found (h : t.primed = true) :
    (allFound .kernel t s).foldl (undo t.lastApplied) (contents s) = t.lastApplied := by
  refine PerFamily.ext fun f => ?_
  rw [allFound, List.foldl_append]
  cases f with
  | ipv4 => rw [get_foldl_undo_found_of_ne h (by decide), get_foldl_undo_found h .ipv4 rfl]
  | ipv6 =>
    refine get_foldl_undo_found h .ipv6 ?_
    rw [get_foldl_undo_found_of_ne h (by decide)]

/-- Nothing is found exactly if the tables hold what was applied last. -/
theorem allFound_eq_nil_iff (h : t.primed = true) :
    allFound .kernel t s = [] ↔ contents s = t.lastApplied := by
  constructor
  · intro hnil
    have hundone := foldl_undo_found (s := s) h
    rwa [hnil] at hundone
  · intro hsame
    have hfound : ∀ f, found .kernel t s f = [] := by
      intro f
      refine found_eq_nil_iff.mpr (.inr (.inr ?_))
      rw [← hsame, contents, PerFamily.get_ofFn]
    rw [allFound, hfound, hfound, List.append_nil]

/-! ## Reports -/

variable {name : String} {t' : BlockTables} {m m' : Model} {report : ApplyReport}

theorem drift_of_yields
    (run : (apply name wanted .kernel t).Yields (Model.failing name) m (.ok report, t') m') :
    report.drift = allFound .kernel t (m.interface name) :=
  Model.ensures_failing ensures_apply_found _ _ run

/-- A run that reads the kernel and succeeds reports no drift if no run has succeeded before.
Otherwise it reports about each family that its table is missing, if there is none and it should
hold something, and nothing else; or else every prefix that the table lacks and every one it should
not hold.  Nothing is reported twice, and undoing all of it gives what was applied last, so nothing
is reported exactly if that is what the tables hold.  What the run is to write does not matter. -/
theorem drift_exact
    (run : (apply name wanted .kernel t).Yields (Model.failing name) m (.ok report, t') m') :
    (t.primed = false → report.drift = []) ∧
    (t.primed = true →
      (∀ f, (report.drift.filter (·.family == f) = [.tableMissing f] ↔
          m.table name f = none ∧ ∃ p, p ∈ t.lastApplied.get f) ∧
        (¬(m.table name f = none ∧ ∃ p, p ∈ t.lastApplied.get f) →
          ∀ d, d ∈ report.drift.filter (·.family == f) ↔
            (∃ p ∈ t.lastApplied.get f, p ∉ (m.table name f).getD ∅ ∧ d = .entryMissing f p) ∨
              ∃ p ∈ (m.table name f).getD ∅, p ∉ t.lastApplied.get f ∧
                d = .entryUnexpected f p)) ∧
      report.drift.Nodup ∧
      report.drift.foldl (undo t.lastApplied) (contents (m.interface name)) = t.lastApplied ∧
      (report.drift = [] ↔ contents (m.interface name) = t.lastApplied)) ∧
    ∀ wanted' report' t'' m'',
      (apply name wanted' .kernel t).Yields (Model.failing name) m (.ok report', t'') m'' →
      report'.drift = report.drift := by
  have hdrift := drift_of_yields run
  refine ⟨fun hprimed => ?_, fun hprimed => ?_, ?_⟩
  · have hnone : ∀ f, found .kernel t (m.interface name) f = [] :=
      fun f => found_eq_nil_iff.mpr (.inr (.inl hprimed))
    rw [hdrift, allFound, hnone, hnone, List.append_nil]
  · rw [hdrift]
    refine ⟨fun f => ?_, nodup_allFound hprimed, foldl_undo_found hprimed,
      allFound_eq_nil_iff hprimed⟩
    rw [filter_allFound hprimed, found_kernel hprimed]
    exact ⟨drift_eq_tableMissing_iff, fun h d => mem_drift_iff h⟩
  · intro wanted' report' t'' m'' run'
    rw [hdrift, drift_of_yields run']

/-- The kernel after a first cycle, when others have taken an address from the table and made a
table for the other family. -/
def tampered : Model :=
  (Context.firstCycle.2.1.tamperDelete "eth0" (.host (.ofNat .ipv4 2))).2.tamperInsert "eth0"
    (.host (.ofNat .ipv6 7))

/-- A run that reads the kernel, and is not to keep the address that was taken. -/
def mending : (Except CycleError ApplyReport × BlockTables) × Model × Log.Entries :=
  (apply "eth0" (Context.hosts [1]) .kernel Context.firstCycle.1.2.tables).eval
    (Model.answer "eth0") tampered

/-- The run reports both changes, and undoing them gives what the first cycle applied. -/
theorem drift_exact_mending : ∃ report t' m',
    (apply "eth0" (Context.hosts [1]) .kernel Context.firstCycle.1.2.tables).Yields
      (Model.failing "eth0") tampered (.ok report, t') m' ∧
    Context.firstCycle.1.2.tables.primed = true ∧
    report.drift = [.entryMissing .ipv4 (.host (.ofNat .ipv4 2)),
      .entryUnexpected .ipv6 (.host (.ofNat .ipv6 7))] ∧
    report.drift.foldl (undo Context.firstCycle.1.2.tables.lastApplied)
      (contents (tampered.interface "eth0")) = Context.firstCycle.1.2.tables.lastApplied := by
  have run : (apply "eth0" (Context.hosts [1]) .kernel Context.firstCycle.1.2.tables).Yields
      (Model.failing "eth0") tampered (mending.1.1, mending.1.2) mending.2.1 :=
    Model.yields_failing ..
  have hprimed : Context.firstCycle.1.2.tables.primed = true := by decide +kernel
  have hreport : mending.1.1.toOption.map (·.drift) =
      some [.entryMissing .ipv4 (.host (.ofNat .ipv4 2)),
        .entryUnexpected .ipv6 (.host (.ofNat .ipv6 7))] := by decide +kernel
  cases hresult : mending.1.1 with
  | error e =>
    rw [hresult] at hreport
    cases hreport
  | ok report =>
    rw [hresult] at run hreport
    obtain ⟨-, hdrift, -⟩ := drift_exact run
    exact ⟨report, _, _, run, hprimed, Option.some.inj hreport, (hdrift hprimed).2.2.1⟩

end BlockTables

end IngressGuard
