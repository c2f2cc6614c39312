import LiveSchema.Proofs.Index.Stages
import Mathlib.Data.Finset.SymmDiff

/-!
# LiveSchema.Proofs.Index.Convergence

One sweep brings the indexes in line with a generation, exactly and whatever fails. The record names
some indexes (`ledgered`), the generation wants some (`Generation.wantedIndexes`), and the sweep
issues one statement for each index on which they differ, and none for any other. What becomes of
the record, the catalog, the other settings and the counts is then fixed (`Converged`,
`sweep_converges`).

The units of a sweep are the indexes that the generation declares or that are recorded, each once,
so every count of units is the size of a set of indexes (`countP_eq_card`).
-/

namespace LiveSchema

/-- The indexes whose statements fail. -/
def Catalog.rejected (c : Catalog) : Finset IndexKey := c.failing.keys.toFinset

/-- What one sweep for a generation does to a database whose record names the indexes
`ledgered`. -/
structure Converged (g : Generation) (ledgered : Finset IndexKey) (before : Database)
    (stats : SweepStats) (after : Database) : Prop where
  /-- One statement for each index on which the record and the generation differ. -/
  calls : ∃ issued, after.catalog.calls = before.catalog.calls ++ issued ∧ ∀ k,
    issued.count (.create k) = (if k ∈ g.wantedIndexes \ ledgered then 1 else 0) ∧
      issued.count (.drop k) = (if k ∈ ledgered \ g.wantedIndexes then 1 else 0)
  /-- Then the record names what is wanted, and of a rejected index what it named before. -/
  record : ∃ entries, Ledger.entries after.settings = .ok entries ∧ ∀ k,
    k ∈ entries ↔ if k ∈ before.catalog.rejected then k ∈ ledgered else k ∈ g.wantedIndexes
  /-- The catalog has followed where a statement was carried out, and is unchanged elsewhere. -/
  catalog : ∀ k, after.catalog.has k =
    if k ∈ symmDiff g.wantedIndexes ledgered \ before.catalog.rejected then
      decide (k ∈ g.wantedIndexes)
    else before.catalog.has k
  /-- No other setting has changed. -/
  settings : ∀ key,
    (∀ k, k ∈ symmDiff g.wantedIndexes ledgered \ before.catalog.rejected → key ≠ Ledger.key k) →
      after.settings.get key = before.settings.get key
  sequence : stats.sequence = g.sequence ∧ stats.cancelled = false
  created : stats.created = ((g.wantedIndexes \ ledgered) \ before.catalog.rejected).card
  dropped : stats.dropped = ((ledgered \ g.wantedIndexes) \ before.catalog.rejected).card
  failed : stats.failed = (symmDiff g.wantedIndexes ledgered ∩ before.catalog.rejected).card
  unchanged : stats.unchanged =
    (g.declaredIndexes.filter fun k => k ∈ g.wantedIndexes ↔ k ∈ ledgered).card

/-! ### Counting units -/

theorem Catalog.mem_rejected {c : Catalog} {k : IndexKey} :
    k ∈ c.rejected ↔ c.failing.contains k = true := by
  rw [rejected, List.mem_toFinset, SortedMap.mem_keys_iff, SortedMap.contains_iff]

/-- Units about different indexes are as many as their indexes. -/
theorem countP_eq_card {units : List SweepUnit} (hn : (units.map SweepUnit.key).Nodup)
    {f : SweepUnit → Bool} {indexes : Finset IndexKey}
    (h : ∀ k, k ∈ indexes ↔ ∃ u ∈ units, u.key = k ∧ f u = true) :
    units.countP f = indexes.card := by
  have hkeys : ((units.filter f).map SweepUnit.key).Nodup :=
    hn.sublist (List.filter_sublist.map _)
  have hset : indexes = ((units.filter f).map SweepUnit.key).toFinset := by
    ext k
    simp only [h, List.mem_toFinset, List.mem_map, List.mem_filter, and_assoc]
    exact exists_congr fun u => and_congr_right fun _ => and_comm
  rw [hset, List.toFinset_card_of_nodup hkeys, List.length_map, List.countP_eq_length_filter]

/-- Units about different indexes ask for different statements. -/
theorem nodup_statements {units : List SweepUnit} (hn : (units.map SweepUnit.key).Nodup)
    (s : Settings) : (units.filterMap (·.statement? s)).Nodup := by
  refine List.Nodup.filterMap ?_ (List.Nodup.of_map _ hn)
  rintro ⟨k, w⟩ ⟨k', w'⟩ statement h h'
  obtain ⟨hkey, hcreate⟩ := SweepUnit.key_of_statement? h
  obtain ⟨hkey', hcreate'⟩ := SweepUnit.key_of_statement? h'
  exact SweepUnit.mk.injEq .. ▸ ⟨hkey.symm.trans hkey', hcreate.symm.trans hcreate'⟩

/-! ### The units of a sweep, as sets of indexes -/

/-- Units that are the declared and the recorded indexes, each once. -/
structure UnitsOf (g : Generation) (s : Settings) (ledgered : Finset IndexKey)
    (units : List SweepUnit) : Prop where
  nodup : (units.map SweepUnit.key).Nodup
  dotless : ∀ u ∈ units, u.key.Dotless
  recorded : ∀ k, k ∈ ledgered ↔ Ledger.Recorded s k
  wanted : ∀ u ∈ units, (u.wanted = true ↔ u.key ∈ g.wantedIndexes)
  known : ∀ k, (∃ u ∈ units, u.key = k) ↔ k ∈ g.declaredIndexes ∨ k ∈ ledgered

namespace UnitsOf

variable {g : Generation} {s : Settings} {ledgered : Finset IndexKey} {units : List SweepUnit}

/-- A statement is asked for where the record and the generation differ. -/
theorem isSome_statement?_iff (h : UnitsOf g s ledgered units) {u : SweepUnit} (hu : u ∈ units) :
    (u.statement? s).isSome = true ↔ u.key ∈ symmDiff g.wantedIndexes ledgered := by
  rw [← Option.ne_none_iff_isSome, ne_eq, SweepUnit.statement?_eq_none_iff (h.dotless u hu),
    h.wanted u hu, ← h.recorded, Finset.mem_symmDiff]
  tauto

/-- There is a unit for each index on which the record and the generation differ. -/
theorem exists_of_mem_symmDiff (h : UnitsOf g s ledgered units) (hg : g.Named) {k : IndexKey}
    (hk : k ∈ symmDiff g.wantedIndexes ledgered) : ∃ u ∈ units, u.key = k := by
  rw [h.known]
  rcases Finset.mem_symmDiff.mp hk with ⟨hw, -⟩ | ⟨hl, -⟩
  · exact Or.inl (hg.wanted_subset_declared hw)
  · exact Or.inr hl

/-- Counting the units of some indexes counts the indexes. -/
theorem countP_eq (h : UnitsOf g s ledgered units) {f : SweepUnit → Bool}
    {indexes : Finset IndexKey} (hf : ∀ u ∈ units, (f u = true ↔ u.key ∈ indexes))
    (hknown : ∀ k ∈ indexes, ∃ u ∈ units, u.key = k) : units.countP f = indexes.card := by
  refine countP_eq_card h.nodup fun k => ?_
  constructor
  · intro hk
    obtain ⟨u, hu, rfl⟩ := hknown k hk
    exact ⟨u, hu, rfl, (hf u hu).mpr hk⟩
  · rintro ⟨u, hu, rfl, hfu⟩
    exact (hf u hu).mp hfu

theorem create_mem_iff (h : UnitsOf g s ledgered units) (hg : g.Named) {k : IndexKey} :
    IndexStatement.create k ∈ units.filterMap (·.statement? s) ↔
      k ∈ g.wantedIndexes \ ledgered := by
  rw [List.mem_filterMap, Finset.mem_sdiff, h.recorded]
  constructor
  · rintro ⟨u, hu, hcreate⟩
    obtain ⟨rfl, hw, hrec⟩ := (SweepUnit.statement?_eq_create_iff (h.dotless u hu)).mp hcreate
    exact ⟨(h.wanted u hu).mp hw, hrec⟩
  · rintro ⟨hw, hrec⟩
    obtain ⟨u, hu, rfl⟩ := (h.known k).mpr (Or.inl (hg.wanted_subset_declared hw))
    exact ⟨u, hu, (SweepUnit.statement?_eq_create_iff (h.dotless u hu)).mpr
      ⟨rfl, (h.wanted u hu).mpr hw, hrec⟩⟩

theorem drop_mem_iff (h : UnitsOf g s ledgered units) {k : IndexKey} :
    IndexStatement.drop k ∈ units.filterMap (·.statement? s) ↔ k ∈ ledgered \ g.wantedIndexes := by
  rw [List.mem_filterMap, Finset.mem_sdiff, h.recorded]
  constructor
  · rintro ⟨u, hu, hdrop⟩
    obtain ⟨rfl, hw, hrec⟩ := (SweepUnit.statement?_eq_drop_iff (h.dotless u hu)).mp hdrop
    exact ⟨hrec, fun hmem => by rw [(h.wanted u hu).mpr hmem] at hw; cases hw⟩
  · rintro ⟨hrec, hw⟩
    obtain ⟨u, hu, rfl⟩ := (h.known k).mpr (Or.inr ((h.recorded k).mpr hrec))
    refine ⟨u, hu, (SweepUnit.statement?_eq_drop_iff (h.dotless u hu)).mpr ⟨rfl, ?_, hrec⟩⟩
    exact Bool.eq_false_iff.mpr fun hmem => hw ((h.wanted u hu).mp hmem)

/-! ### What became of them -/

section Outcome

variable {p p' : Progress} {c : Catalog}

/-- The record names what is wanted, and of a rejected index what it named before. -/
theorem recorded_iff (h : UnitsOf g p.settings ledgered units) (hg : g.Named)
    (hswept : Swept units p p') (k : IndexKey) :
    Ledger.Recorded p'.settings k ↔
      if k ∈ p.catalog.rejected then k ∈ ledgered else k ∈ g.wantedIndexes := by
  by_cases hk : ∃ u ∈ units, u.key = k
  · obtain ⟨u, hu, rfl⟩ := hk
    have hrecorded := hswept.recorded u hu
    simp only [← Catalog.mem_rejected, ← h.recorded, h.wanted u hu] at hrecorded
    exact hrecorded
  · -- an index of no unit is neither recorded nor wanted
    have hnot := mt (h.known k).mpr hk
    rw [not_or] at hnot
    have hother := hswept.recorded_other h.dotless fun u hu e => hk ⟨u, hu, e⟩
    have hw : k ∉ g.wantedIndexes := fun hw => hnot.1 (hg.wanted_subset_declared hw)
    rw [hother, ← h.recorded]
    simp [hnot.2, hw]

/-- The catalog has followed the statements that were carried out. -/
theorem has_eq (h : UnitsOf g p.settings ledgered units) (hg : g.Named) (hswept : Swept units p p')
    (k : IndexKey) :
    p'.catalog.has k =
      if k ∈ symmDiff g.wantedIndexes ledgered \ p.catalog.rejected then
        decide (k ∈ g.wantedIndexes)
      else p.catalog.has k := by
  by_cases hk : ∃ u ∈ units, u.key = k
  · obtain ⟨u, hu, rfl⟩ := hk
    have hhas := hswept.has u hu
    have hwanted : u.wanted = decide (u.key ∈ g.wantedIndexes) := by
      rw [Bool.eq_iff_iff, h.wanted u hu, decide_eq_true_eq]
    simp only [Bool.and_eq_true, Bool.not_eq_true', h.isSome_statement?_iff hu,
      Bool.eq_false_iff, ne_eq, ← Catalog.mem_rejected, hwanted] at hhas
    simpa only [Finset.mem_sdiff] using hhas
  · have hnot : k ∉ symmDiff g.wantedIndexes ledgered \ p.catalog.rejected := fun hmem =>
      hk (h.exists_of_mem_symmDiff hg (Finset.mem_sdiff.mp hmem).1)
    rw [if_neg hnot]
    refine hswept.has_other k fun hmem => hk ?_
    obtain ⟨u, hu, e⟩ := List.mem_map.mp hmem
    exact ⟨u, hu, e⟩

/-- Only the settings under the keys of those statements have changed. -/
theorem value?_eq (h : UnitsOf g p.settings ledgered units) (hswept : Swept units p p')
    {text : String} (htext : ∀ k,
      k ∈ symmDiff g.wantedIndexes ledgered \ p.catalog.rejected → text ≠ Ledger.key k) :
    p'.settings.value? text = p.settings.value? text := by
  refine hswept.value text fun u hu e => ?_
  by_contra hacts
  rw [not_or, ← ne_eq, Option.ne_none_iff_isSome, h.isSome_statement?_iff hu,
    ← Catalog.mem_rejected] at hacts
  exact htext u.key (Finset.mem_sdiff.mpr hacts) e

theorem countP_created (h : UnitsOf g s ledgered units) (hg : g.Named) :
    (units.countP fun u =>
        u.wanted && (u.statement? s).isSome && !c.failing.contains u.key) =
      ((g.wantedIndexes \ ledgered) \ c.rejected).card := by
  refine h.countP_eq (fun u hu => ?_) fun k hk => ?_
  · simp only [Bool.and_eq_true, Bool.not_eq_true', Bool.eq_false_iff, ne_eq,
      ← Catalog.mem_rejected, h.isSome_statement?_iff hu, h.wanted u hu, Finset.mem_symmDiff,
      Finset.mem_sdiff]
    tauto
  · refine h.exists_of_mem_symmDiff hg (Finset.mem_symmDiff.mpr (Or.inl ?_))
    exact Finset.mem_sdiff.mp (Finset.mem_sdiff.mp hk).1

theorem countP_dropped (h : UnitsOf g s ledgered units) (hg : g.Named) :
    (units.countP fun u =>
        !u.wanted && (u.statement? s).isSome && !c.failing.contains u.key) =
      ((ledgered \ g.wantedIndexes) \ c.rejected).card := by
  refine h.countP_eq (fun u hu => ?_) fun k hk => ?_
  · have hw : (!u.wanted) = true ↔ u.key ∉ g.wantedIndexes := by
      rw [← h.wanted u hu]
      simp
    simp only [Bool.and_eq_true, hw, Bool.not_eq_true', Bool.eq_false_iff, ne_eq,
      ← Catalog.mem_rejected, h.isSome_statement?_iff hu, Finset.mem_symmDiff, Finset.mem_sdiff]
    tauto
  · refine h.exists_of_mem_symmDiff hg (Finset.mem_symmDiff.mpr (Or.inr ?_))
    exact Finset.mem_sdiff.mp (Finset.mem_sdiff.mp hk).1

theorem countP_failed (h : UnitsOf g s ledgered units) (hg : g.Named) :
    (units.countP fun u => (u.statement? s).isSome && c.failing.contains u.key) =
      (symmDiff g.wantedIndexes ledgered ∩ c.rejected).card := by
  refine h.countP_eq (fun u hu => ?_) fun k hk => ?_
  · simp only [Bool.and_eq_true, ← Catalog.mem_rejected, h.isSome_statement?_iff hu,
      Finset.mem_inter]
  · exact h.exists_of_mem_symmDiff hg (Finset.mem_inter.mp hk).1

theorem countP_unchanged (h : UnitsOf g s ledgered units) (hg : g.Named) :
    (units.countP fun u => (u.statement? s).isNone) =
      (g.declaredIndexes.filter fun k => k ∈ g.wantedIndexes ↔ k ∈ ledgered).card := by
  refine h.countP_eq (fun u hu => ?_) fun k hk => ?_
  · -- a recorded index that is not declared is dropped, never left
    have hdeclared := (h.known u.key).mp ⟨u, hu, rfl⟩
    have hsubset : u.key ∈ g.wantedIndexes → u.key ∈ g.declaredIndexes := fun hw =>
      hg.wanted_subset_declared hw
    rw [Option.isNone_iff_eq_none, SweepUnit.statement?_eq_none_iff (h.dotless u hu),
      h.wanted u hu, ← h.recorded, Finset.mem_filter]
    tauto
  · exact (h.known k).mpr (Or.inl (Finset.mem_filter.mp hk).1)

end Outcome

end UnitsOf

/-- The units of a sweep for a generation of definitions. -/
theorem exists_unitsOf {g : Generation} (hg : g.Named) (removed : NameSet) {db : Database}
    (h : db.settings.Readable) {ledgered : Finset IndexKey}
    (hl : ∀ k, k ∈ ledgered ↔ Ledger.Recorded db.settings k) :
    ∃ units, UnitsOf g db.settings ledgered units ∧
      Swept units ⟨db.settings, db.catalog, { sequence := g.sequence }⟩
        ((Sweep.start ⟨g, removed⟩).outcome db) := by
  obtain ⟨units, hswept, hn, hmem⟩ := exists_swept_start hg removed h
  refine ⟨units, ?_, hswept⟩
  exact
    { nodup := hn
      recorded := hl
      dotless := fun u hu => by
        rcases ((hmem u).mp hu).1 with hdeclared | hrec
        · obtain ⟨t, ht, -⟩ := hg.mem_declaredIndexes.mp hdeclared
          exact hg.dotless ht
        · exact hrec.1
      wanted := fun u hu => ((hmem u).mp hu).2
      known := fun k => by
        rw [hl]
        constructor
        · rintro ⟨u, hu, rfl⟩
          exact ((hmem u).mp hu).1
        · exact fun hk => ⟨⟨k, decide (k ∈ g.wantedIndexes)⟩, (hmem _).mpr ⟨hk, by simp⟩, rfl⟩ }

/-- What became of the units is what the generation and the record say. -/
theorem UnitsOf.converged {g : Generation} (hg : g.Named) {before after : Database}
    {stats : SweepStats} {ledgered : Finset IndexKey} {units : List SweepUnit}
    (hs : before.settings.Readable) (h : UnitsOf g before.settings ledgered units)
    (hswept : Swept units ⟨before.settings, before.catalog, { sequence := g.sequence }⟩
      ⟨after.settings, after.catalog, stats⟩) :
    Converged g ledgered before stats after := by
  obtain ⟨entries, hentries, -, hmem⟩ := Ledger.exists_entries hswept.readable
  exact
    { calls := by
        refine ⟨_, hswept.calls, fun k => ?_⟩
        rw [(nodup_statements h.nodup before.settings).count,
          (nodup_statements h.nodup before.settings).count]
        simp only [h.create_mem_iff hg, h.drop_mem_iff, and_self]
      record := ⟨entries, hentries, fun k => (hmem k).trans (h.recorded_iff hg hswept k)⟩
      catalog := h.has_eq hg hswept
      settings := fun key hkey => by
        rw [Settings.get_eq hswept.readable, Settings.get_eq hs, h.value?_eq hswept hkey]
      sequence := hswept.sequence
      created := by rw [hswept.created, Nat.zero_add, h.countP_created hg]
      dropped := by rw [hswept.dropped, Nat.zero_add, h.countP_dropped hg]
      failed := by rw [hswept.failed, Nat.zero_add, h.countP_failed hg]
      unchanged := by rw [hswept.unchanged, Nat.zero_add, h.countP_unchanged hg] }

/-- The statements of a sweep, each issued once. -/
theorem Converged.exists_issued {g : Generation} {ledgered : Finset IndexKey}
    {before after : Database} {stats : SweepStats}
    (h : Converged g ledgered before stats after) :
    ∃ issued, after.catalog.calls = before.catalog.calls ++ issued ∧ issued.Nodup ∧
      ∀ k, (.create k ∈ issued ↔ k ∈ g.wantedIndexes \ ledgered) ∧
        (.drop k ∈ issued ↔ k ∈ ledgered \ g.wantedIndexes) := by
  obtain ⟨issued, hissued, hcount⟩ := h.calls
  have hmem : ∀ {statement : IndexStatement} {indexes : Finset IndexKey} {k : IndexKey},
      issued.count statement = (if k ∈ indexes then 1 else 0) →
        (statement ∈ issued ↔ k ∈ indexes) := by
    intro statement indexes k hk
    rw [← List.count_pos_iff, hk]
    split <;> simp [*]
  refine ⟨issued, hissued, List.nodup_iff_count_le_one.mpr fun statement => ?_, fun k =>
    ⟨hmem (hcount k).1, hmem (hcount k).2⟩⟩
  cases statement with
  | create k =>
      rw [(hcount k).1]
      split <;> decide
  | drop k =>
      rw [(hcount k).2]
      split <;> decide

/-- **One sweep converges.** For a generation of definitions and settings that are text, a sweep
runs to its end unless the gate is closed, and whenever it has finished without being cancelled,
it has converged. -/
theorem sweep_converges {c : Compiler} {sequence : Nat} {ds : List Definition} {g : Generation}
    (hg : Generation.ofDefinitions c sequence ds = .ok g) (removed : NameSet) {db : Database}
    (hs : db.settings.Readable) :
    ∃ ledgered, Ledger.entries db.settings = .ok ledgered ∧
      (db.gate.closed = false → ∃ stats db', (Sweep.start ⟨g, removed⟩).run false db =
        .finished stats db' ∧ Converged g ledgered.toFinset db stats db') ∧
      ∀ stats db', (Sweep.start ⟨g, removed⟩).Finishes db stats db' →
        Converged g ledgered.toFinset db stats db' := by
  have hnamed := Generation.named_of_ofDefinitions hg
  obtain ⟨ledgered, hledgered, -, hmem⟩ := Ledger.exists_entries hs
  have hrecorded : ∀ k, k ∈ ledgered.toFinset ↔ Ledger.Recorded db.settings k := fun k => by
    rw [List.mem_toFinset, hmem]
  have hfinishes : ∀ stats db', (Sweep.start ⟨g, removed⟩).Finishes db stats db' →
      Converged g ledgered.toFinset db stats db' := by
    intro stats db' hfin
    obtain ⟨units, hunits, hswept⟩ := exists_unitsOf hnamed removed hs hrecorded
    rw [Sweep.outcome_finishes hfin] at hswept
    exact hunits.converged hnamed hs hswept
  refine ⟨ledgered, hledgered, fun hopen => ?_, hfinishes⟩
  obtain ⟨stats, db', hrun⟩ := Sweep.exists_run_eq_finished hopen
  exact ⟨stats, db', hrun, hfinishes stats db' (Sweep.finishes_of_run hrun)⟩

/-- A type with two indexed properties over a record that names one of them, one that the type no
longer has and one of a type that is gone. -/
theorem sweep_converges_person :
    let person := ((Definition.node "Person").withProperty
      { name := "name", declaredType := "String", indexed := true }).withProperty
        { name := "age", declaredType := "Integer", indexed := true }
    let record : MemorySettings := SortedMap.ofList [("index.Person.name", "true"),
      ("index.Person.nick", "true"), ("index.Ship.mass", "true"), ("theme", "dark")]
    let db : Database :=
      { settings := .inMemory record
        catalog := { failing := SortedMap.ofList [(⟨"Ship", "mass"⟩, ())] } }
    ∃ g stats db', Generation.ofDefinitions {} 1 [person] = .ok g ∧
      (Sweep.start ⟨g, .empty⟩).run false db = .finished stats db' ∧
        stats.created = 1 ∧ stats.dropped = 1 ∧ stats.failed = 1 ∧ stats.unchanged = 1 := by
  intro person record db
  have hs : db.settings.Readable := ⟨fun _ _ => List.not_mem_nil, trivial⟩
  have hgeneration : (Generation.ofDefinitions {} 1 [person]).map
      (fun g => (g.wantedIndexes, g.declaredIndexes)) =
        .ok ({⟨"Person", "name"⟩, ⟨"Person", "age"⟩}, {⟨"Person", "name"⟩, ⟨"Person", "age"⟩}) := by
    decide
  obtain ⟨g, hok⟩ : ∃ g, Generation.ofDefinitions {} 1 [person] = .ok g := by
    cases hok : Generation.ofDefinitions {} 1 [person] with
    | error e => rw [hok] at hgeneration; cases hgeneration
    | ok g => exact ⟨g, rfl⟩
  rw [hok] at hgeneration
  obtain ⟨hwanted, hdeclared⟩ := Prod.mk.inj (Except.ok.inj hgeneration)
  obtain ⟨ledgered, hledgered, hopen, -⟩ := sweep_converges hok .empty hs
  obtain ⟨stats, db', hrun, hconverged⟩ := hopen rfl
  have hrecord : ledgered = [⟨"Person", "name"⟩, ⟨"Person", "nick"⟩, ⟨"Ship", "mass"⟩] := by
    rw [← Except.ok.injEq, ← hledgered]
    decide
  refine ⟨g, stats, db', hok, hrun, ?_, ?_, ?_, ?_⟩
  · rw [hconverged.created, hrecord, hwanted]
    decide
  · rw [hconverged.dropped, hrecord, hwanted]
    decide
  · rw [hconverged.failed, hrecord, hwanted]
    decide
  · rw [hconverged.unchanged, hrecord, hwanted, hdeclared]
    decide

end LiveSchema
