import LiveSchema.Proofs.Generation
import LiveSchema.Proofs.Index.Units
import Mathlib.Data.Finset.Card

/-!
# LiveSchema.Proofs.Index.Stages

The stages of a sweep. A sweep has one stage for each type and one for the types that are gone, and
finds the units of a stage when it gets there, in the record as it is by then:
`SweepStage.unitsOf` says which and in what order, `mem_found_iff` what is found and what it takes.

Over readable settings everything is found. Each stage is about indexes of its own
(`SweepStage.Covers`), so what it finds is what stood in the record at the beginning
(`exists_swept_stages`), and the stages together are one list of units: each index that the
generation declares or that is recorded, once (`exists_swept_start`).
-/

namespace LiveSchema

/-! ### What a stage is about -/

namespace SweepStage

/-- The units of a stage, by what settings record. -/
def HasUnit (g : Generation) (s : Settings) : SweepStage → SweepUnit → Prop
  | .type t, u => (∃ p ∈ t.properties, u = ⟨⟨t.name, p.name⟩, t.shouldIndex p⟩) ∨
      (Ledger.Recorded s u.key ∧ u.key.typeName = t.name ∧
        u.key.property ∉ t.properties.map (·.name) ∧ u.wanted = false)
  | .orphans, u => Ledger.Recorded s u.key ∧ g.contains u.key.typeName = false ∧ u.wanted = false

/-- The indexes that a stage is about. -/
def Covers (g : Generation) : SweepStage → IndexKey → Prop
  | .type t, k => k.typeName = t.name
  | .orphans, k => g.contains k.typeName = false

/-- The type of a stage has a name without a dot, and no property twice. -/
def Sound : SweepStage → Prop
  | .type t => '.' ∉ t.name.toList ∧ (t.properties.map (·.name)).Nodup
  | .orphans => True

variable {g : Generation} {s s' : Settings} {stage : SweepStage} {u : SweepUnit}

theorem HasUnit.covers (h : stage.HasUnit g s u) : stage.Covers g u.key := by
  cases stage with
  | type t =>
      rcases h with ⟨p, -, rfl⟩ | ⟨-, hname, -, -⟩
      · rfl
      · exact hname
  | orphans => exact h.2.1

theorem HasUnit.dotless (hs : stage.Sound) (h : stage.HasUnit g s u) : u.key.Dotless := by
  cases stage with
  | type t =>
      rcases h with ⟨p, -, rfl⟩ | ⟨hrec, -⟩
      · exact hs.1
      · exact hrec.1
  | orphans => exact h.1.1

/-- Only the record of the indexes that a stage is about counts. -/
theorem hasUnit_congr
    (h : ∀ k, stage.Covers g k → (Ledger.Recorded s k ↔ Ledger.Recorded s' k)) :
    stage.HasUnit g s u ↔ stage.HasUnit g s' u := by
  cases stage with
  | type t =>
      refine or_congr_right ?_
      constructor
      · exact fun ⟨hrec, hname, hrest⟩ => ⟨(h u.key hname).mp hrec, hname, hrest⟩
      · exact fun ⟨hrec, hname, hrest⟩ => ⟨(h u.key hname).mpr hrec, hname, hrest⟩
  | orphans =>
      constructor
      · exact fun ⟨hrec, hgone, hrest⟩ => ⟨(h u.key hgone).mp hrec, hgone, hrest⟩
      · exact fun ⟨hrec, hgone, hrest⟩ => ⟨(h u.key hgone).mpr hrec, hgone, hrest⟩

end SweepStage

/-! ### What a stage finds -/

namespace SweepStage

/-- The units of a stage that do not depend on the record. -/
def declared : SweepStage → List SweepUnit
  | .type t => t.properties.map fun p => ⟨⟨t.name, p.name⟩, t.shouldIndex p⟩
  | .orphans => []

/-- What the keys that a stage scans begin with. -/
def scanStart : SweepStage → String
  | .type t => Ledger.keyStart ++ t.name ++ "."
  | .orphans => Ledger.keyStart

/-- The indexes that a stage is about only if they are recorded. -/
def Finds (g : Generation) : SweepStage → IndexKey → Prop
  | .type t, k => k.typeName = t.name ∧ k.property ∉ t.properties.map (·.name)
  | .orphans, k => g.contains k.typeName = false

/-- What a stage finds in the record. -/
def found (g : Generation) (s : Settings) : SweepStage → List IndexKey
  | .type t =>
    ((NameSet.ofNames ((Ledger.listed s (scanStart (.type t))).map IndexKey.property)).keys.filter
      fun p => !t.properties.any (·.name = p)).map (IndexKey.mk t.name)
  | .orphans => (Ledger.listed s (scanStart .orphans)).filter fun k => !g.contains k.typeName

/-- The units of a stage, by what it finds in the record. -/
def unitsOf (g : Generation) (s : Settings) (stage : SweepStage) : List SweepUnit :=
  stage.declared ++ (stage.found g s).map (⟨·, false⟩)

/-- What stands at the same place in every record. -/
def order : SweepStage → IndexKey → String
  | .type _ => IndexKey.property
  | .orphans => Ledger.key

variable {g : Generation} {s : Settings} {stage : SweepStage} {k : IndexKey} {u : SweepUnit}

/-- The order in which a stage finds recorded indexes does not depend on the record. -/
theorem pairwise_found (g : Generation) (s : Settings) (stage : SweepStage) :
    ((stage.found g s).map stage.order).Pairwise (· < ·) := by
  cases stage with
  | type t =>
      have hnames := (SortedMap.keys_sorted (NameSet.ofNames
        ((Ledger.listed s (scanStart (.type t))).map IndexKey.property))).sublist
          (List.filter_sublist (p := fun p => !t.properties.any (·.name = p)))
      rw [found, List.map_map]
      exact (List.map_id _).symm ▸ hnames
  | orphans => exact (Ledger.pairwise_listed s _).sublist (List.filter_sublist.map _)

/-- A stage finds what is recorded if its scan answers, and nothing otherwise. -/
theorem mem_found_iff (hs : stage.Sound) :
    k ∈ stage.found g s ↔ s.Scans stage.scanStart ∧ Ledger.Recorded s k ∧ stage.Finds g k := by
  cases stage with
  | type t =>
      have hlisted (k : IndexKey) : k ∈ Ledger.listed s (scanStart (.type t)) ↔
          s.Scans (scanStart (.type t)) ∧ Ledger.Recorded s k ∧ k.typeName = t.name := by
        rw [Ledger.mem_listed_iff]
        exact and_congr_right fun _ => and_congr_right fun hrec =>
          Ledger.prefix_key_iff hs.1 hrec.1
      rw [found, List.mem_map, Finds]
      simp only [List.mem_filter, NameSet.mem_keys_ofNames, List.mem_map]
      constructor
      · rintro ⟨_, ⟨⟨k', hk', rfl⟩, hlacks⟩, rfl⟩
        obtain ⟨hscans, hrec, hname⟩ := (hlisted k').mp hk'
        refine ⟨hscans, ?_, rfl, by simpa using hlacks⟩
        rwa [← hname]
      · rintro ⟨hscans, hrec, hname, hlacks⟩
        have hk := (hlisted k).mpr ⟨hscans, hrec, hname⟩
        refine ⟨k.property, ⟨⟨k, hk, rfl⟩, by simpa using hlacks⟩, ?_⟩
        rw [← hname]
  | orphans =>
      have hlisted : k ∈ Ledger.listed s (scanStart .orphans) ↔
          s.Scans (scanStart .orphans) ∧ Ledger.Recorded s k := by
        rw [Ledger.mem_listed_iff]
        exact and_congr_right fun _ => and_iff_left (Ledger.keyStart_prefix_key k)
      rw [found, List.mem_filter, hlisted, and_assoc, Finds]
      simp

theorem hasUnit_of_mem (hs : stage.Sound) (hu : u ∈ stage.unitsOf g s) : stage.HasUnit g s u := by
  rcases List.mem_append.mp hu with hdeclared | hfound
  · cases stage with
    | type t =>
        obtain ⟨p, hp, rfl⟩ := List.mem_map.mp hdeclared
        exact Or.inl ⟨p, hp, rfl⟩
    | orphans => cases hdeclared
  · obtain ⟨k, hk, rfl⟩ := List.mem_map.mp hfound
    obtain ⟨-, hrec, hfinds⟩ := (mem_found_iff hs).mp hk
    cases stage with
    | type t => exact Or.inr ⟨hrec, hfinds.1, hfinds.2, rfl⟩
    | orphans => exact ⟨hrec, hfinds, rfl⟩

/-- If the record answers, a stage has all its units. -/
theorem mem_unitsOf_iff (hs : stage.Sound) (hscans : s.Scans stage.scanStart) :
    u ∈ stage.unitsOf g s ↔ stage.HasUnit g s u := by
  refine ⟨hasUnit_of_mem hs, fun hunit => ?_⟩
  have hfound (hrec : Ledger.Recorded s u.key) (hfinds : stage.Finds g u.key)
      (hwanted : u.wanted = false) : u ∈ stage.unitsOf g s := by
    refine List.mem_append_right _ (List.mem_map.mpr ⟨u.key, ?_, by rw [← hwanted]⟩)
    exact (mem_found_iff hs).mpr ⟨hscans, hrec, hfinds⟩
  cases stage with
  | type t =>
      rcases hunit with ⟨p, hp, rfl⟩ | ⟨hrec, hname, hlacks, hwanted⟩
      · exact List.mem_append_left _ (List.mem_map.mpr ⟨p, hp, rfl⟩)
      · exact hfound hrec ⟨hname, hlacks⟩ hwanted
  | orphans =>
      obtain ⟨hrec, hgone, hwanted⟩ := hunit
      exact hfound hrec hgone hwanted

/-- If the record does not answer, a stage has only what is declared. -/
theorem unitsOf_of_not_scans (hs : stage.Sound) (hscans : ¬ s.Scans stage.scanStart) :
    stage.unitsOf g s = stage.declared := by
  have hfound : stage.found g s = [] :=
    List.eq_nil_iff_forall_not_mem.mpr fun k hk => hscans ((mem_found_iff hs).mp hk).1
  rw [unitsOf, hfound, List.map_nil, List.append_nil]

/-- A stage looks at each index once. -/
theorem nodup_unitsOf (hs : stage.Sound) (g : Generation) (s : Settings) :
    ((stage.unitsOf g s).map SweepUnit.key).Nodup := by
  have hfound : (stage.found g s).Nodup :=
    List.Nodup.of_map _ ((pairwise_found g s stage).imp LT.lt.ne)
  rw [unitsOf, List.map_append, List.map_map,
    show SweepUnit.key ∘ (⟨·, false⟩) = id from rfl, List.map_id]
  cases stage with
  | type t =>
      have hdeclared : (declared (.type t)).map SweepUnit.key =
          (t.properties.map (·.name)).map (IndexKey.mk t.name) := by
        rw [declared, List.map_map, List.map_map]
        rfl
      rw [hdeclared]
      refine List.nodup_append.mpr ⟨hs.2.map fun a b e => (IndexKey.mk.inj e).2, hfound, ?_⟩
      -- a recorded property is found only if the type lacks it
      rintro a ha b hb rfl
      obtain ⟨p, hp, rfl⟩ := List.mem_map.mp ha
      exact ((mem_found_iff hs).mp hb).2.2.2 hp
  | orphans => exact hfound

end SweepStage

section Units

variable {g : Generation} {s : Settings}

theorem typeUnits_eq (g : Generation) (s : Settings) (t : CompiledType) :
    Sweep.typeUnits s t = (SweepStage.type t).unitsOf g s := by
  rw [Sweep.typeUnits, Ledger.entriesForType, SweepStage.unitsOf, SweepStage.found, Ledger.listed,
    SweepStage.scanStart, List.map_map]
  cases (s.scan (Ledger.keyStart ++ t.name ++ ".")).map Ledger.recorded <;> rfl

theorem orphanUnits_eq (g : Generation) (h : s.Scans Ledger.keyStart) :
    Sweep.orphanUnits g s = .ok (SweepStage.orphans.unitsOf g s) := by
  rw [Sweep.orphanUnits, Ledger.entries, Ledger.map_scan_eq_listed h]
  rfl

theorem exists_error_orphanUnits (g : Generation) (h : ¬ s.Scans Ledger.keyStart) :
    ∃ error, Sweep.orphanUnits g s = .error error := by
  obtain ⟨⟨error, herror⟩, -⟩ := Ledger.exists_error_of_not_scans h
  exact ⟨error, by rw [Sweep.orphanUnits, Ledger.entries, herror]; rfl⟩

end Units

/-- Entering a stage finds its units, and does nothing else but count a failure. -/
theorem Sweep.enter_spec (s : Sweep) (settings : Settings) (stage : SweepStage)
    (hunits : s.units = []) :
    (s.enter settings stage).units = stage.unitsOf s.request.generation settings ∧
      (s.enter settings stage).request = s.request ∧
      (s.enter settings stage).stages = s.stages ∧
      (s.enter settings stage).statement = s.statement := by
  cases stage with
  | type t => exact ⟨typeUnits_eq _ settings t, rfl, rfl, rfl⟩
  | orphans =>
      by_cases hscans : settings.Scans Ledger.keyStart
      · rw [enter, orphanUnits_eq _ hscans]
        exact ⟨rfl, rfl, rfl, rfl⟩
      · obtain ⟨error, herror⟩ := exists_error_orphanUnits s.request.generation hscans
        have hsound : SweepStage.orphans.Sound := trivial
        rw [enter, herror, SweepStage.unitsOf_of_not_scans hsound hscans]
        exact ⟨hunits, rfl, rfl, rfl⟩

/-! ### Stages one after the other -/

theorem Progress.finishStage_type (g : Generation) (p : Progress) (t : CompiledType) :
    p.finishStage g (.type t) =
      ((SweepStage.type t).unitsOf g p.settings).foldl Progress.converge p := by
  rw [finishStage, typeUnits_eq g]

/-- A stage brings its units in line. -/
theorem Progress.finishStage_eq {g : Generation} {p : Progress} {stage : SweepStage}
    (h : p.settings.Scans stage.scanStart) :
    p.finishStage g stage = (stage.unitsOf g p.settings).foldl Progress.converge p := by
  cases stage with
  | type t => exact p.finishStage_type g t
  | orphans => rw [finishStage, orphanUnits_eq g h]

theorem exists_finishStage {g : Generation} {p : Progress} (h : p.settings.Readable)
    {stage : SweepStage} (hs : stage.Sound) :
    ∃ units, Swept units p (p.finishStage g stage) ∧ (units.map SweepUnit.key).Nodup ∧
      ∀ u, u ∈ units ↔ stage.HasUnit g p.settings u := by
  have hscans := h.scans stage.scanStart
  have hn := SweepStage.nodup_unitsOf hs g p.settings
  rw [Progress.finishStage_eq hscans]
  refine ⟨_, swept_foldl h hn fun u hu => ?_, hn, fun u => SweepStage.mem_unitsOf_iff hs hscans⟩
  exact (SweepStage.hasUnit_of_mem hs hu).dotless hs

/-- Stages about different indexes find what stood in the record before the first of them. -/
theorem exists_swept_stages {g : Generation} {stages : List SweepStage} {p : Progress}
    (h : p.settings.Readable) (hs : ∀ stage ∈ stages, stage.Sound)
    (hne : stages.Pairwise fun a b => ∀ k, a.Covers g k → ¬ b.Covers g k) :
    ∃ units, Swept units p (stages.foldl (Progress.finishStage g) p) ∧
      (units.map SweepUnit.key).Nodup ∧
        ∀ u, u ∈ units ↔ ∃ stage ∈ stages, stage.HasUnit g p.settings u := by
  induction stages generalizing p with
  | nil => exact ⟨[], Swept.nil h, List.nodup_nil, by simp⟩
  | cons stage rest ih =>
      obtain ⟨hfirst, hrest⟩ := List.pairwise_cons.mp hne
      obtain ⟨units, hswept, hn, hmem⟩ :=
        exists_finishStage (g := g) h (hs stage List.mem_cons_self)
      have hd : ∀ u ∈ units, u.key.Dotless := fun u hu =>
        ((hmem u).mp hu).dotless (hs stage List.mem_cons_self)
      obtain ⟨more, hswept', hn', hmem'⟩ := ih hswept.readable
        (fun stage' hstage' => hs stage' (List.mem_cons_of_mem stage hstage')) hrest
      -- the first stage left the records alone that the others look for
      have hmore : ∀ v, v ∈ more ↔ ∃ stage' ∈ rest, stage'.HasUnit g p.settings v := by
        intro v
        rw [hmem']
        refine exists_congr fun stage' => and_congr_right fun hstage' => ?_
        refine SweepStage.hasUnit_congr fun k hk => hswept.recorded_other hd fun u hu e => ?_
        exact hfirst stage' hstage' k (e ▸ ((hmem u).mp hu).covers) hk
      have hdisjoint : ∀ u ∈ units, ∀ v ∈ more, u.key ≠ v.key := by
        intro u hu v hv e
        obtain ⟨stage', hstage', hunit⟩ := (hmore v).mp hv
        exact hfirst stage' hstage' v.key (e ▸ ((hmem u).mp hu).covers) hunit.covers
      have hd' : ∀ v ∈ more, v.key.Dotless := by
        intro v hv
        obtain ⟨stage', hstage', hunit⟩ := (hmore v).mp hv
        exact hunit.dotless (hs stage' (List.mem_cons_of_mem stage hstage'))
      refine ⟨units ++ more, hswept.append hswept' hd hd' hdisjoint, ?_, fun u => ?_⟩
      · rw [List.map_append]
        refine List.nodup_append.mpr ⟨hn, hn', fun a ha b hb e => ?_⟩
        obtain ⟨u, hu, rfl⟩ := List.mem_map.mp ha
        obtain ⟨v, hv, rfl⟩ := List.mem_map.mp hb
        exact hdisjoint u hu v hv e
      · rw [List.mem_append, hmem, hmore]
        simp

/-! ### The whole sweep -/

namespace Generation

/-- The indexes that a generation could have: one for each property of a type. -/
def declaredIndexes (g : Generation) : Finset IndexKey :=
  (g.types.values.flatMap fun t => t.properties.map fun p => ⟨t.name, p.name⟩).toFinset

/-- The indexes that a generation wants. -/
def wantedIndexes (g : Generation) : Finset IndexKey :=
  (g.types.values.flatMap fun t =>
    (t.properties.filter t.shouldIndex).map fun p => ⟨t.name, p.name⟩).toFinset

variable {g : Generation}

theorem Named.mem_values_iff (hg : g.Named) {t : CompiledType} :
    t ∈ g.types.values ↔ g.types.get? t.name = some t := by
  rw [SortedMap.mem_values_iff]
  constructor
  · rintro ⟨name, ht⟩
    rwa [hg.name ht]
  · exact fun ht => ⟨t.name, ht⟩

theorem Named.mem_declaredIndexes (hg : g.Named) {k : IndexKey} :
    k ∈ g.declaredIndexes ↔
      ∃ t, g.types.get? k.typeName = some t ∧ k.property ∈ t.properties.map (·.name) := by
  simp only [declaredIndexes, List.mem_toFinset, List.mem_flatMap, hg.mem_values_iff, List.mem_map]
  constructor
  · rintro ⟨t, ht, p, hp, rfl⟩
    exact ⟨t, ht, p, hp, rfl⟩
  · rintro ⟨t, ht, p, hp, hname⟩
    have htype := hg.name ht
    exact ⟨t, htype ▸ ht, p, hp, by rw [htype, hname]⟩

theorem Named.mem_declaredIndexes_iff (hg : g.Named) {k : IndexKey} {t : CompiledType}
    (ht : g.types.get? k.typeName = some t) :
    k ∈ g.declaredIndexes ↔ k.property ∈ t.properties.map (·.name) := by
  rw [hg.mem_declaredIndexes]
  simp [ht]

theorem Named.mem_wantedIndexes (hg : g.Named) {k : IndexKey} :
    k ∈ g.wantedIndexes ↔ ∃ t p, g.types.get? k.typeName = some t ∧ p ∈ t.properties ∧
      p.name = k.property ∧ t.shouldIndex p = true := by
  simp only [wantedIndexes, List.mem_toFinset, List.mem_flatMap, hg.mem_values_iff, List.mem_map,
    List.mem_filter]
  constructor
  · rintro ⟨t, ht, p, ⟨hp, hwanted⟩, rfl⟩
    exact ⟨t, p, ht, hp, rfl, hwanted⟩
  · rintro ⟨t, p, ht, hp, hname, hwanted⟩
    have htype := hg.name ht
    exact ⟨t, htype ▸ ht, p, ⟨hp, hwanted⟩, by rw [htype, hname]⟩

/-- Where a type declares a property, that declaration says whether its index is wanted. -/
theorem Named.mem_wantedIndexes_iff (hg : g.Named) {k : IndexKey} {t : CompiledType}
    (ht : g.types.get? k.typeName = some t) {p : Property} (hp : p ∈ t.properties)
    (hname : p.name = k.property) : k ∈ g.wantedIndexes ↔ t.shouldIndex p = true := by
  rw [hg.mem_wantedIndexes]
  constructor
  · rintro ⟨t', p', ht', hp', hname', hwanted⟩
    obtain rfl := Option.some.inj (ht.symm.trans ht')
    obtain rfl := List.inj_on_of_nodup_map (hg.properties ht) hp hp' (hname.trans hname'.symm)
    exact hwanted
  · exact fun hwanted => ⟨t, p, ht, hp, hname, hwanted⟩

theorem Named.wanted_subset_declared (hg : g.Named) : g.wantedIndexes ⊆ g.declaredIndexes := by
  intro k hk
  obtain ⟨t, p, ht, hp, hname, -⟩ := hg.mem_wantedIndexes.mp hk
  exact hg.mem_declaredIndexes.mpr ⟨t, ht, List.mem_map.mpr ⟨p, hp, hname⟩⟩

end Generation

/-- The stages of a sweep are about different indexes. -/
theorem stages_disjoint {g : Generation} (hg : g.Named) (removed : NameSet) :
    (Sweep.start ⟨g, removed⟩).stages.Pairwise fun a b => ∀ k, a.Covers g k → ¬ b.Covers g k := by
  have hnodup : (g.types.values.map (·.name)).Nodup :=
    SortedMap.keys_eq_map hg.name ▸ SortedMap.keys_nodup g.types
  refine List.pairwise_append.mpr ⟨?_, List.pairwise_singleton _ _, ?_⟩
  · rw [List.pairwise_map]
    refine (List.pairwise_map.mp hnodup).imp fun hne k ha hb => ?_
    exact hne (ha.symm.trans hb)
  · intro a ha b hb k hk hgone
    obtain ⟨t, ht, rfl⟩ := List.mem_map.mp ha
    obtain rfl := List.mem_singleton.mp hb
    have hname : k.typeName = t.name := hk
    have hcontains : g.contains k.typeName = false := hgone
    rw [Generation.contains, SortedMap.contains_eq_false_iff, hname,
      hg.mem_values_iff.mp ht] at hcontains
    cases hcontains

section WholeSweep

variable {g : Generation} {s : Settings}

theorem sound_stages (hg : g.Named) (removed : NameSet) :
    ∀ stage ∈ (Sweep.start ⟨g, removed⟩).stages, stage.Sound := by
  intro stage hstage
  rcases List.mem_append.mp hstage with htype | horphans
  · obtain ⟨t, ht, rfl⟩ := List.mem_map.mp htype
    have hget := hg.mem_values_iff.mp ht
    exact ⟨hg.dotless hget, hg.properties hget⟩
  · obtain rfl := List.mem_singleton.mp horphans
    trivial

/-- A type of a generation has a stage. -/
theorem type_mem_stages (hg : g.Named) (removed : NameSet) {name : String} {t : CompiledType}
    (ht : g.types.get? name = some t) :
    SweepStage.type t ∈ (Sweep.start ⟨g, removed⟩).stages := by
  refine List.mem_append_left _ (List.mem_map.mpr ⟨t, hg.mem_values_iff.mpr ?_, rfl⟩)
  rw [hg.name ht]
  exact ht

/-- A unit of a stage is about an index that is declared or recorded, and wants what the generation
wants. -/
theorem SweepStage.HasUnit.declared_or_recorded (hg : g.Named) {removed : NameSet}
    {stage : SweepStage} (hstage : stage ∈ (Sweep.start ⟨g, removed⟩).stages) {u : SweepUnit}
    (h : stage.HasUnit g s u) :
    (u.key ∈ g.declaredIndexes ∨ Ledger.Recorded s u.key) ∧
      (u.wanted = true ↔ u.key ∈ g.wantedIndexes) := by
  rcases List.mem_append.mp hstage with htype | horphans
  · obtain ⟨t, ht, rfl⟩ := List.mem_map.mp htype
    have hget := hg.mem_values_iff.mp ht
    rcases h with ⟨p, hp, rfl⟩ | ⟨hrec, hname, hlacks, hwanted⟩
    · exact ⟨Or.inl (hg.mem_declaredIndexes.mpr ⟨t, hget, List.mem_map.mpr ⟨p, hp, rfl⟩⟩),
        (hg.mem_wantedIndexes_iff hget hp rfl).symm⟩
    · refine ⟨Or.inr hrec, iff_of_false (by simp [hwanted]) fun hw => hlacks ?_⟩
      obtain ⟨t', p, ht', hp, hproperty, -⟩ := hg.mem_wantedIndexes.mp hw
      rw [hname, hget] at ht'
      obtain rfl := Option.some.inj ht'
      exact List.mem_map.mpr ⟨p, hp, hproperty⟩
  · obtain rfl := List.mem_singleton.mp horphans
    obtain ⟨hrec, hgone, hwanted⟩ := h
    refine ⟨Or.inr hrec, iff_of_false (by simp [hwanted]) fun hw => ?_⟩
    obtain ⟨t, p, ht, -⟩ := hg.mem_wantedIndexes.mp hw
    rw [Generation.contains, SortedMap.contains_eq_false_iff, ht] at hgone
    cases hgone

/-- A stage has a unit for each index that it is about and that is declared or recorded. -/
theorem SweepStage.Covers.hasUnit (hg : g.Named) {removed : NameSet} {stage : SweepStage}
    (hstage : stage ∈ (Sweep.start ⟨g, removed⟩).stages) {u : SweepUnit}
    (h : stage.Covers g u.key) (hknown : u.key ∈ g.declaredIndexes ∨ Ledger.Recorded s u.key)
    (hwanted : u.wanted = true ↔ u.key ∈ g.wantedIndexes) : stage.HasUnit g s u := by
  have hunwanted : u.key ∉ g.declaredIndexes → u.wanted = false := by
    intro hnot
    rw [Bool.eq_false_iff]
    exact fun hw => hnot (hg.wanted_subset_declared (hwanted.mp hw))
  rcases List.mem_append.mp hstage with htype | horphans
  · obtain ⟨t, ht, rfl⟩ := List.mem_map.mp htype
    have hname : u.key.typeName = t.name := h
    have hget : g.types.get? u.key.typeName = some t := hname ▸ hg.mem_values_iff.mp ht
    by_cases hdeclared : u.key ∈ g.declaredIndexes
    · obtain ⟨p, hp, hproperty⟩ := List.mem_map.mp ((hg.mem_declaredIndexes_iff hget).mp hdeclared)
      have hflag : u.wanted = t.shouldIndex p := by
        rw [Bool.eq_iff_iff, hwanted, hg.mem_wantedIndexes_iff hget hp hproperty]
      refine Or.inl ⟨p, hp, ?_⟩
      rw [← hname, hproperty, ← hflag]
    · exact Or.inr ⟨hknown.resolve_left hdeclared, h, mt (hg.mem_declaredIndexes_iff hget).mpr
        hdeclared, hunwanted hdeclared⟩
  · obtain rfl := List.mem_singleton.mp horphans
    have hgone : g.contains u.key.typeName = false := h
    have hdeclared : u.key ∉ g.declaredIndexes := by
      intro hmem
      obtain ⟨t, ht, -⟩ := hg.mem_declaredIndexes.mp hmem
      rw [Generation.contains, SortedMap.contains_eq_false_iff, ht] at hgone
      cases hgone
    exact ⟨hknown.resolve_left hdeclared, h, hunwanted hdeclared⟩

/-- Some stage is about an index. -/
theorem exists_stage_covers (hg : g.Named) (removed : NameSet) (k : IndexKey) :
    ∃ stage ∈ (Sweep.start ⟨g, removed⟩).stages, stage.Covers g k := by
  cases ht : g.types.get? k.typeName with
  | some t => exact ⟨.type t, type_mem_stages hg removed ht, (hg.name ht).symm⟩
  | none =>
      refine ⟨.orphans, List.mem_append_right _ List.mem_cons_self, ?_⟩
      rw [SweepStage.Covers, Generation.contains, SortedMap.contains_eq_false_iff, ht]

/-- The units of a whole sweep: each index that the generation declares or that is recorded, once,
wanted if the generation wants it. -/
theorem exists_swept_start (hg : g.Named) (removed : NameSet) {db : Database}
    (h : db.settings.Readable) :
    ∃ units, Swept units ⟨db.settings, db.catalog, { sequence := g.sequence }⟩
        ((Sweep.start ⟨g, removed⟩).outcome db) ∧
      (units.map SweepUnit.key).Nodup ∧
        ∀ u, u ∈ units ↔
          (u.key ∈ g.declaredIndexes ∨ Ledger.Recorded db.settings u.key) ∧
            (u.wanted = true ↔ u.key ∈ g.wantedIndexes) := by
  obtain ⟨units, hswept, hn, hmem⟩ := exists_swept_stages (g := g)
    (p := ⟨db.settings, db.catalog, { sequence := g.sequence }⟩) h (sound_stages hg removed)
      (stages_disjoint hg removed)
  refine ⟨units, hswept, hn, fun u => ?_⟩
  rw [hmem]
  constructor
  · rintro ⟨stage, hstage, hunit⟩
    exact hunit.declared_or_recorded hg hstage
  · rintro ⟨hknown, hwanted⟩
    obtain ⟨stage, hstage, hcovers⟩ := exists_stage_covers hg removed u.key
    exact ⟨stage, hstage, hcovers.hasUnit hg hstage hknown hwanted⟩

end WholeSweep

end LiveSchema
