import LiveSchema.Proofs.Index.Unreadable

/-!
# LiveSchema.Proofs.Index.Agenda

What a sweep has still to do, and how it changes while the sweep does it. A stage has units for what
its type declares and for what it finds in the record (`SweepStage.unitsOf`), and a unit asks for a
statement by what the record answers (`SweepUnit.asks`). Nothing is assumed here of the record but
that it can be written: where it cannot be read, a unit asks for nothing and a stage finds nothing.

A statement that was carried out is entered in the record, and changes what the record says of its
own index only: what is found of others stays (`SweepStage.filter_unitsOf_record`), and so does what
they ask for. Its own index is in line from then on. So recording a statement strikes it off what
the stages of a sweep ask for, and nothing else (`asked_record`). This holds of the stages that are
still to come, and of a sweep that begins again.
-/

namespace LiveSchema

/-! ### Rewriting a setting -/

namespace Settings

variable {s : Settings} {key : String} {old : Option String}

/-- What was written over a setting that can be read is read. -/
theorem get_put_self (h : s.get key = .ok old) (value : Option String) :
    ({ s with contents := s.contents.put key value } : Settings).get key = .ok value := by
  obtain ⟨hallowed, hlegible, -⟩ := get_eq_ok_iff.mp h
  refine get_eq_ok_iff.mpr ⟨hallowed, fun m' hm' => ?_, ?_⟩
  · cases hc : s.contents with
    | memory m =>
        rw [hc] at hm'
        cases value <;> cases hm'
    | persistent m =>
        obtain ⟨m'', hput, hsame⟩ := PersistentSettings.exists_put (hlegible m hc) value
        rw [hc, hput] at hm'
        obtain rfl := SettingsContents.persistent.inj hm'
        exact (hsame.legible_iff key).mp (hlegible m hc)
  · rw [value?, SettingsContents.value?_put, if_pos rfl]

/-- Writing one setting makes no difference to reading another. -/
theorem get_put_of_ne {other : String} (hne : other ≠ key) (value : Option String) :
    ({ s with contents := s.contents.put key value } : Settings).get other = s.get other := by
  have hbytes : Text.toBytes key ≠ Text.toBytes other := fun heq =>
    hne (Text.toBytes_injective heq).symm
  unfold get checkAllowed
  dsimp only
  cases s.contents with
  | memory m =>
      cases value with
      | some v => simp only [SettingsContents.put, SortedMap.get?_insert_ne m v hne.symm]
      | none => simp only [SettingsContents.put, SortedMap.get?_erase, if_neg hne.symm]
  | persistent m =>
      cases value with
      | some v => simp only [SettingsContents.put, SortedMap.get?_insert_ne m _ hbytes]
      | none => simp only [SettingsContents.put, SortedMap.get?_erase, if_neg hbytes]

/-- Writing over a setting that can be read makes no difference to which scans answer. -/
theorem scans_put_iff (h : s.get key = .ok old) (value : Option String) (start : String) :
    ({ s with contents := s.contents.put key value } : Settings).Scans start ↔ s.Scans start := by
  obtain ⟨-, hlegible, -⟩ := get_eq_ok_iff.mp h
  rw [scans_iff, scans_iff]
  refine and_congr_right fun _ => ?_
  cases hc : s.contents with
  | memory m => cases value <;> simp [SettingsContents.put]
  | persistent m =>
      obtain ⟨m', hput, hsame⟩ := PersistentSettings.exists_put (hlegible m hc) value
      simp only [hput, SettingsContents.persistent.injEq, forall_eq']
      exact not_congr (hsame.marred_iff start).symm

end Settings

/-! ### What the record answers -/

namespace Ledger

variable {s : Settings} {k : IndexKey} {recorded? : Bool}

theorem exists_get_of_exists? (h : exists? s k = .ok recorded?) :
    ∃ old, s.get (key k) = .ok old ∧ recorded? = decide (old = some created) := by
  rw [exists?] at h
  cases hget : s.get (key k) with
  | error error =>
      rw [hget] at h
      cases h
  | ok old =>
      rw [hget] at h
      exact ⟨old, rfl, (Except.ok.inj h).symm⟩

end Ledger

/-! ### Recording a statement -/

section Record

variable {s : Settings} {statement : IndexStatement} {k : IndexKey} {recorded? : Bool}

theorem refused_record (hset : .set ∉ s.refused) :
    (Sweep.record s statement).refused = s.refused := by
  rw [Progress.record_eq hset]

theorem refused_foldl_record (hset : .set ∉ s.refused) (issued : List IndexStatement) :
    (issued.foldl Sweep.record s).refused = s.refused := by
  induction issued generalizing s with
  | nil => rfl
  | cons statement issued ih =>
      rw [List.foldl_cons, ih (by rwa [refused_record hset]), refused_record hset]

theorem exists?_record_self (hset : .set ∉ s.refused)
    (h : Ledger.exists? s statement.key = .ok recorded?) :
    Ledger.exists? (Sweep.record s statement) statement.key = .ok statement.isCreate := by
  obtain ⟨old, hget, -⟩ := Ledger.exists_get_of_exists? h
  rw [Progress.record_eq hset, Ledger.exists?, Settings.get_put_self hget]
  cases statement <;> rfl

theorem exists?_record_of_ne (hset : .set ∉ s.refused) (hst : statement.key.Dotless)
    (hk : k.Dotless) (hne : k ≠ statement.key) :
    Ledger.exists? (Sweep.record s statement) k = Ledger.exists? s k := by
  have hkeys : Ledger.key k ≠ Ledger.key statement.key := fun heq =>
    hne (Ledger.key_injective hk hst heq)
  rw [Progress.record_eq hset, Ledger.exists?, Settings.get_put_of_ne hkeys, Ledger.exists?]

theorem recorded_record_iff (hset : .set ∉ s.refused) (hst : statement.key.Dotless) :
    Ledger.Recorded (Sweep.record s statement) k ↔
      if k = statement.key then statement.isCreate = true else Ledger.Recorded s k := by
  rw [Progress.record_eq hset, Ledger.recorded_put_iff hst]
  cases statement <;> simp [IndexStatement.isCreate]

theorem scans_record_iff (hset : .set ∉ s.refused)
    (h : Ledger.exists? s statement.key = .ok recorded?) {start : String} :
    (Sweep.record s statement).Scans start ↔ s.Scans start := by
  obtain ⟨old, hget, -⟩ := Ledger.exists_get_of_exists? h
  rw [Progress.record_eq hset]
  exact Settings.scans_put_iff hget _ start

end Record

/-! ### Units -/

/-- A unit is about an index that can be told from its key, and wants what a generation wants. -/
structure SweepUnit.Fits (g : Generation) (u : SweepUnit) : Prop where
  dotless : u.key.Dotless
  wanted : u.wanted = true ↔ u.key ∈ g.wantedIndexes

/-- A statement would bring the record of its index in line with a generation. -/
structure IndexStatement.Due (g : Generation) (s : Settings) (statement : IndexStatement) :
    Prop where
  dotless : statement.key.Dotless
  wanted : statement.isCreate = true ↔ statement.key ∈ g.wantedIndexes
  unrecorded : Ledger.exists? s statement.key = .ok (!statement.isCreate)

namespace SweepUnit

variable {g : Generation} {s : Settings} {u : SweepUnit} {statement : IndexStatement}

theorem asks_eq_some_iff :
    u.asks s = some statement ↔ statement.key = u.key ∧ statement.isCreate = u.wanted ∧
      Ledger.exists? s u.key = .ok (!u.wanted) := by
  have hstatement : (if u.wanted then .create u.key else .drop u.key) = statement ↔
      statement.key = u.key ∧ statement.isCreate = u.wanted := by
    cases statement <;> cases u.wanted <;>
      simp [IndexStatement.key, IndexStatement.isCreate, eq_comm]
  rw [asks]
  cases hread : Ledger.exists? s u.key with
  | error error => simp
  | ok recorded =>
      by_cases hsame : recorded = u.wanted
      · simp [hsame]
      · obtain rfl : recorded = !u.wanted := Bool.eq_not.mpr hsame
        dsimp only
        rw [if_neg hsame, Option.some.injEq, hstatement, eq_self, and_true]

theorem key_of_asks (h : u.asks s = some statement) : statement.key = u.key :=
  (asks_eq_some_iff.mp h).1

theorem Fits.due (hu : u.Fits g) (h : u.asks s = some statement) : statement.Due g s := by
  obtain ⟨hkey, hcreate, hread⟩ := asks_eq_some_iff.mp h
  refine ⟨hkey ▸ hu.dotless, ?_, ?_⟩
  · rw [hcreate, hkey, hu.wanted]
  · rw [hcreate, hkey, hread]

/-- A unit about another index asks for what it asked for. -/
theorem asks_record_of_ne (hset : .set ∉ s.refused) (hst : statement.Due g s) (hu : u.Fits g)
    (hne : u.key ≠ statement.key) : u.asks (Sweep.record s statement) = u.asks s := by
  rw [asks, exists?_record_of_ne hset hst.dotless hu.dotless hne, asks]

/-- A unit about the index of a statement that was recorded asks for nothing. -/
theorem asks_record_self (hset : .set ∉ s.refused) (hst : statement.Due g s) (hu : u.Fits g)
    (hkey : u.key = statement.key) : u.asks (Sweep.record s statement) = none := by
  have hwanted : statement.isCreate = u.wanted := by
    rw [Bool.eq_iff_iff, hst.wanted, hu.wanted, hkey]
  rw [asks, hkey, exists?_record_self hset hst.unrecorded]
  dsimp only
  rw [if_pos hwanted]

/-- Units about different indexes ask for statements about different ones. -/
theorem nodup_asked {units : List SweepUnit} (h : (units.map SweepUnit.key).Nodup) :
    ((units.filterMap (·.asks s)).map IndexStatement.key).Nodup := by
  refine List.pairwise_map.mpr ((List.pairwise_map.mp h).filterMap _ ?_)
  intro u v hne a ha b hb
  rwa [key_of_asks ha, key_of_asks hb]

/-- What units ask for is about the indexes that they are about. -/
theorem filter_filterMap_asks (units : List SweepUnit) (k : IndexKey) :
    (units.filterMap (·.asks s)).filter (·.key ≠ k) =
      (units.filter (·.key ≠ k)).filterMap (·.asks s) := by
  rw [List.filter_filterMap, List.filterMap_filter]
  refine List.filterMap_congr fun u _ => ?_
  cases hasked : u.asks s with
  | none => simp
  | some statement =>
      rw [Option.filter_some, key_of_asks hasked]

/-- Recording a statement strikes it off what units ask for, if the units about other indexes are
the same. -/
theorem filterMap_asks_record (hset : .set ∉ s.refused) (hst : statement.Due g s)
    {units units' : List SweepUnit} (hunits' : ∀ u ∈ units', u.Fits g)
    (hsame : units'.filter (·.key ≠ statement.key) = units.filter (·.key ≠ statement.key)) :
    units'.filterMap (·.asks (Sweep.record s statement)) =
      (units.filterMap (·.asks s)).filter (·.key ≠ statement.key) := by
  rw [filter_filterMap_asks, ← hsame, List.filterMap_filter]
  refine List.filterMap_congr fun u hu => ?_
  by_cases hkey : u.key = statement.key
  · simp [hkey, asks_record_self hset hst (hunits' u hu) hkey]
  · simp [hkey, asks_record_of_ne hset hst (hunits' u hu) hkey]

end SweepUnit

/-! ### Stages -/

/-- The stages of a sweep for a generation. -/
def Generation.stages (g : Generation) : List SweepStage := (Sweep.start ⟨g, .empty⟩).stages

namespace SweepStage

variable {g : Generation} {s : Settings} {stage : SweepStage} {k : IndexKey} {u : SweepUnit}
  {statement : IndexStatement}

theorem fits_of_mem (hg : g.Named) (hstage : stage ∈ g.stages) (hu : u ∈ stage.unitsOf g s) :
    u.Fits g := by
  have hsound := sound_stages hg .empty stage hstage
  have hunit := hasUnit_of_mem hsound hu
  exact ⟨hunit.dotless hsound, (hunit.declared_or_recorded hg hstage).2⟩

/-- Recording a statement makes no difference to what is found of other indexes. -/
theorem filter_found_record (hset : .set ∉ s.refused) (hs : stage.Sound)
    (hst : statement.Due g s) :
    (stage.found g (Sweep.record s statement)).filter (· ≠ statement.key) =
      (stage.found g s).filter (· ≠ statement.key) := by
  have hsorted (s : Settings) :
      (((stage.found g s).filter (· ≠ statement.key)).map stage.order).Pairwise (· < ·) :=
    (pairwise_found g s stage).sublist (List.filter_sublist.map _)
  refine SortedMap.eq_of_names_sorted (hsorted _) (hsorted s) fun k => ?_
  rw [List.mem_filter, List.mem_filter, decide_eq_true_eq]
  refine and_congr_left fun hne => ?_
  rw [mem_found_iff hs, mem_found_iff hs, scans_record_iff hset hst.unrecorded,
    recorded_record_iff hset hst.dotless, if_neg hne]

theorem filter_unitsOf_record (hset : .set ∉ s.refused) (hs : stage.Sound)
    (hst : statement.Due g s) :
    (stage.unitsOf g (Sweep.record s statement)).filter (·.key ≠ statement.key) =
      (stage.unitsOf g s).filter (·.key ≠ statement.key) := by
  rw [unitsOf, unitsOf, List.filter_append, List.filter_append, List.filter_map, List.filter_map]
  exact congrArg (_ ++ List.map _ ·) (filter_found_record hset hs hst)

/-- Recording a statement about an index that a stage is not to look at makes no difference to the
stage. -/
theorem unitsOf_record (hg : g.Named) (hset : .set ∉ s.refused) (hstage : stage ∈ g.stages)
    (hst : statement.Due g s) (hnot : statement.key ∉ (stage.unitsOf g s).map SweepUnit.key) :
    stage.unitsOf g (Sweep.record s statement) = stage.unitsOf g s := by
  have hs := sound_stages hg .empty stage hstage
  have hbefore : ∀ u ∈ stage.unitsOf g s, u.key ≠ statement.key := by
    intro u hu hkey
    exact hnot (List.mem_map.mpr ⟨u, hu, hkey⟩)
  have hafter : ∀ u ∈ stage.unitsOf g (Sweep.record s statement), u.key ≠ statement.key := by
    intro u hu hkey
    rcases List.mem_append.mp hu with hdeclared | hfound
    · exact hbefore u (List.mem_append_left _ hdeclared) hkey
    · -- what was recorded now is wanted, and no stage has to find it
      have hfits := fits_of_mem hg hstage hu
      obtain ⟨k, hk, rfl⟩ := List.mem_map.mp hfound
      obtain ⟨-, hrec, -⟩ := (mem_found_iff hs).mp hk
      rw [recorded_record_iff hset hst.dotless, if_pos hkey, hst.wanted, ← hkey] at hrec
      exact absurd (hfits.wanted.mpr hrec) Bool.false_ne_true
  have hkept := filter_unitsOf_record hset hs hst
  rwa [List.filter_eq_self.mpr fun u hu => decide_eq_true (hafter u hu),
    List.filter_eq_self.mpr fun u hu => decide_eq_true (hbefore u hu)] at hkept

end SweepStage

/-! ### Whole sweeps -/

/-- Everything that a sweep for a generation is to look at. -/
def Generation.agenda (g : Generation) (s : Settings) : List SweepUnit :=
  g.stages.flatMap (·.unitsOf g s)

namespace Generation.Named

variable {g : Generation} {s : Settings} {statement : IndexStatement}

theorem fits_of_mem_agenda (hg : g.Named) {u : SweepUnit} (hu : u ∈ g.agenda s) : u.Fits g := by
  obtain ⟨stage, hstage, hu⟩ := List.mem_flatMap.mp hu
  exact SweepStage.fits_of_mem hg hstage hu

/-- A sweep looks at each index once. -/
theorem nodup_agenda (hg : g.Named) (s : Settings) : ((g.agenda s).map SweepUnit.key).Nodup := by
  have hsound := sound_stages hg .empty
  rw [agenda, List.map_flatMap, List.nodup_flatMap]
  refine ⟨fun stage hstage => SweepStage.nodup_unitsOf (hsound stage hstage) g s, ?_⟩
  refine (stages_disjoint hg .empty).imp_of_mem fun {a b} ha hb hdisjoint k hka hkb => ?_
  obtain ⟨u, hu, rfl⟩ := List.mem_map.mp hka
  obtain ⟨v, hv, heq⟩ := List.mem_map.mp hkb
  refine hdisjoint u.key (SweepStage.hasUnit_of_mem (hsound a ha) hu).covers ?_
  exact heq ▸ (SweepStage.hasUnit_of_mem (hsound b hb) hv).covers

/-- Recording a statement strikes it off what a sweep asks for. -/
theorem asked_record (hg : g.Named) (hset : .set ∉ s.refused) (hst : statement.Due g s) :
    (g.agenda (Sweep.record s statement)).filterMap (·.asks (Sweep.record s statement)) =
      ((g.agenda s).filterMap (·.asks s)).filter (·.key ≠ statement.key) := by
  refine SweepUnit.filterMap_asks_record hset hst (fun u hu => hg.fits_of_mem_agenda hu) ?_
  rw [agenda, agenda, List.filter_flatMap, List.filter_flatMap]
  exact List.flatMap_congr fun stage hstage =>
    SweepStage.filter_unitsOf_record hset (sound_stages hg .empty stage hstage) hst

/-- A sweep over a record in which the first statements of another one were entered asks for the
rest of them. -/
theorem asked_foldl_record (hg : g.Named) (hset : .set ∉ s.refused)
    {issued rest : List IndexStatement}
    (h : (g.agenda s).filterMap (·.asks s) = issued ++ rest) :
    (g.agenda (issued.foldl Sweep.record s)).filterMap (·.asks (issued.foldl Sweep.record s)) =
      rest := by
  induction issued generalizing s with
  | nil => exact h
  | cons statement issued ih =>
      rw [List.cons_append] at h
      have hasked : statement ∈ (g.agenda s).filterMap (·.asks s) := h ▸ List.mem_cons_self
      obtain ⟨u, hu, hasks⟩ := List.mem_filterMap.mp hasked
      have hst := (hg.fits_of_mem_agenda hu).due hasks
      have hkeys := SweepUnit.nodup_asked (s := s) (hg.nodup_agenda s)
      rw [h, List.map_cons, List.nodup_cons] at hkeys
      refine ih (by rwa [refused_record hset]) ?_
      -- no other statement is about the index of the first
      rw [hg.asked_record hset hst, h, List.filter_cons_of_neg (by simp)]
      exact List.filter_eq_self.mpr fun other hother =>
        decide_eq_true fun hkey => hkeys.1 (List.mem_map.mpr ⟨other, hother, hkey⟩)

end Generation.Named

end LiveSchema
