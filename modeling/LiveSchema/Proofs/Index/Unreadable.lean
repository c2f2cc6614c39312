import LiveSchema.Proofs.Index.Stages

/-!
# LiveSchema.Proofs.Index.Unreadable

Sweeps over a record that cannot be read everywhere. In a persistent store other programs may leave
entries that are no text. A sweep never touches them (`PersistentSettings.SameDamage`); what they
keep it from doing to readable records is said here, index by index.

To bring an index in line the sweep asks for its record alone, so an unreadable entry elsewhere
does not matter (`settled_foldl`). But it learns of an index that the generation does not
declare only from a scan of a part of the record, and a scan fails as a whole if it meets an
unreadable entry. So a stage reaches the indexes that the generation declares, and others if nothing
is unreadable in the part that it scans (`SweepStage.Reaches`, `settled_finishStage`). An index that
is not reached keeps its record, wanted or not (`sweep_over_unreadable`).
-/

namespace LiveSchema

/-! ### Damage -/

namespace PersistentSettings

/-- Two stores with the same unreadable entries. -/
def SameDamage (m m' : PersistentSettings) : Prop :=
  ∀ key value, Unreadable key value → (m.get? key = some value ↔ m'.get? key = some value)

namespace SameDamage

variable {m m' m'' : PersistentSettings}

theorem refl (m : PersistentSettings) : m.SameDamage m := fun _ _ _ => Iff.rfl

theorem trans (h : m.SameDamage m') (h' : m'.SameDamage m'') : m.SameDamage m'' :=
  fun key value hbad => (h key value hbad).trans (h' key value hbad)

theorem marred_iff (h : m.SameDamage m') (start : String) : m.Marred start ↔ m'.Marred start := by
  refine exists_congr fun key => exists_congr fun value => ?_
  constructor
  · exact fun ⟨hget, hstart, hbad⟩ => ⟨(h key value hbad).mp hget, hstart, hbad⟩
  · exact fun ⟨hget, hstart, hbad⟩ => ⟨(h key value hbad).mpr hget, hstart, hbad⟩

theorem legible_iff (h : m.SameDamage m') (key : String) : m.Legible key ↔ m'.Legible key := by
  refine forall_congr' fun value => ?_
  constructor
  · exact fun hkey hget hbad => hkey ((h _ value hbad).mpr hget) hbad
  · exact fun hkey hget hbad => hkey ((h _ value hbad).mp hget) hbad

end SameDamage

/-- Writing over what is text leaves the damage as it is. -/
theorem exists_put {m : PersistentSettings} {key : String} (hkey : m.Legible key)
    (value : Option String) :
    ∃ m', (SettingsContents.persistent m).put key value = .persistent m' ∧ m.SameDamage m' := by
  have hput : ∃ m' : PersistentSettings,
      (SettingsContents.persistent m).put key value = .persistent m' ∧
        ∀ k, m'.get? k = if Text.toBytes key = k then value.map Text.toBytes else m.get? k := by
    cases value with
    | some v => exact ⟨_, rfl, fun k => SortedMap.get?_insert m _ k _⟩
    | none => exact ⟨_, rfl, SortedMap.get?_erase m _⟩
  obtain ⟨m', hm', hget⟩ := hput
  refine ⟨m', hm', fun k v hbad => ?_⟩
  rw [hget]
  by_cases hk : Text.toBytes key = k
  · -- neither what stood there nor what stands there now is unreadable
    subst hk
    rw [if_pos rfl]
    refine iff_of_false (fun hold => hkey v hold hbad) fun hnew => ?_
    obtain ⟨w, -, rfl⟩ := Option.map_eq_some_iff.mp hnew
    simp [Unreadable] at hbad
  · rw [if_neg hk]

end PersistentSettings

namespace Ledger

variable {s : Settings} {m : PersistentSettings}

theorem exists?_of_legible (h : .get ∉ s.refused) (hc : s.contents = .persistent m) {k : IndexKey}
    (hk : m.Legible (key k)) :
    exists? s k = .ok (decide (s.value? (key k) = some created)) := by
  rw [exists?, Settings.get_of_legible h hc hk]
  rfl

theorem exists_error_exists? (h : .get ∉ s.refused) (hc : s.contents = .persistent m)
    {k : IndexKey} (hk : ¬ m.Legible (key k)) : ∃ error, exists? s k = .error error := by
  obtain ⟨error, herror⟩ := Settings.exists_error_get h hc hk
  exact ⟨error, by rw [exists?, herror]; rfl⟩

end Ledger

/-! ### Units -/

/-- The settings are a persistent store with the unreadable entries of `m`, which does what is asked
of it, flushing apart, and no statement is rejected. -/
structure Damaged (m : PersistentSettings) (p : Progress) : Prop where
  allowed : ∀ operation, operation ≠ .flush → operation ∉ p.settings.refused
  stored : ∃ m', p.settings.contents = .persistent m' ∧ m.SameDamage m'
  accepting : p.catalog.failing = .empty

namespace Damaged

variable {m : PersistentSettings} {p : Progress} {u : SweepUnit}

theorem fail (h : Damaged m p) : Damaged m p.fail := ⟨h.allowed, h.stored, h.accepting⟩

theorem leave (h : Damaged m p) : Damaged m p.leave := ⟨h.allowed, h.stored, h.accepting⟩

/-- A record that is text is read. -/
theorem exists?_eq (h : Damaged m p) {k : IndexKey} (hk : m.Legible (Ledger.key k)) :
    Ledger.exists? p.settings k =
      .ok (decide (p.settings.value? (Ledger.key k) = some Ledger.created)) := by
  obtain ⟨m', hc, hsame⟩ := h.stored
  exact Ledger.exists?_of_legible (h.allowed .get (by decide)) hc ((hsame.legible_iff _).mp hk)

theorem exists_error_exists? (h : Damaged m p) {k : IndexKey} (hk : ¬ m.Legible (Ledger.key k)) :
    ∃ error, Ledger.exists? p.settings k = .error error := by
  obtain ⟨m', hc, hsame⟩ := h.stored
  exact Ledger.exists_error_exists? (h.allowed .get (by decide)) hc
    (mt (hsame.legible_iff _).mpr hk)

/-- A part of the record is scanned if nothing in it is unreadable. -/
theorem scans_iff (h : Damaged m p) {start : String} :
    p.settings.Scans start ↔ ¬ m.Marred start := by
  obtain ⟨m', hc, hsame⟩ := h.stored
  rw [Settings.scans_iff, and_iff_right (h.allowed .scan (by decide)), hc, hsame.marred_iff]
  simp

/-- A statement of a unit is carried out and recorded. -/
theorem issue (h : Damaged m p) (hk : m.Legible (Ledger.key u.key)) {statement : IndexStatement}
    (hst : u.statement? p.settings = some statement) :
    Damaged m (p.issue statement) ∧ (p.issue statement).settings =
      { p.settings with
        contents := p.settings.contents.put (Ledger.key u.key)
          (if u.wanted then some Ledger.created else none) } := by
  obtain ⟨hkey, hcreate⟩ := SweepUnit.key_of_statement? hst
  obtain ⟨m', hc, hsame⟩ := h.stored
  have hopen : ¬ p.catalog.failing.contains statement.key = true := by
    rw [h.accepting]
    simp [SortedMap.contains]
  have hsettings : (p.issue statement).settings =
      { p.settings with
        contents := p.settings.contents.put (Ledger.key u.key)
          (if u.wanted then some Ledger.created else none) } := by
    rw [Progress.issue, if_neg hopen, Progress.record_eq (h.allowed .set (by decide)), hkey,
      hcreate]
  refine ⟨?_, hsettings⟩
  refine { allowed := ?allowed, stored := ?stored, accepting := ?accepting }
  case allowed =>
    rw [hsettings]
    exact h.allowed
  case stored =>
    obtain ⟨m'', hput, hsame'⟩ := PersistentSettings.exists_put ((hsame.legible_iff _).mp hk)
      (if u.wanted then some Ledger.created else none)
    refine ⟨m'', ?_, hsame.trans hsame'⟩
    rw [hsettings, hc]
    exact hput
  case accepting =>
    rw [Progress.issue, if_neg hopen, ← h.accepting]
    cases statement <;> rfl

end Damaged

/-- `p'` is what `p` was made by bringing the indexes that are `reached` in line with those that are
`wanted`, as far as their own records are text. -/
structure Settled (m : PersistentSettings) (wanted : Finset IndexKey) (reached : IndexKey → Prop)
    (p p' : Progress) : Prop where
  damaged : Damaged m p'
  recorded : ∀ k, m.Legible (Ledger.key k) → reached k →
    (Ledger.Recorded p'.settings k ↔ k ∈ wanted)
  kept : ∀ k, m.Legible (Ledger.key k) → ¬ reached k →
    (Ledger.Recorded p'.settings k ↔ Ledger.Recorded p.settings k)

namespace Settled

variable {m : PersistentSettings} {wanted : Finset IndexKey} {reached more : IndexKey → Prop}
  {p p' p'' : Progress}

/-- Nothing was done to the record. -/
theorem untouched (h : Damaged m p') (hs : p'.settings = p.settings) (hr : ∀ k, ¬ reached k) :
    Settled m wanted reached p p' where
  damaged := h
  recorded k _ hk := absurd hk (hr k)
  kept k _ _ := by rw [hs]

/-- One after the other. -/
theorem trans (h : Settled m wanted reached p p') (h' : Settled m wanted more p' p'') :
    Settled m wanted (fun k => reached k ∨ more k) p p'' where
  damaged := h'.damaged
  recorded k hk hreached := by
    by_cases hmore : more k
    · exact h'.recorded k hk hmore
    · exact (h'.kept k hk hmore).trans (h.recorded k hk (hreached.resolve_right hmore))
  kept k hk hnot := by
    obtain ⟨hreached, hmore⟩ := not_or.mp hnot
    exact (h'.kept k hk hmore).trans (h.kept k hk hreached)

/-- Indexes that were in line already may be said to be reached. -/
theorem extend (h : Settled m wanted reached p p') (hsub : ∀ k, reached k → more k)
    (hmore : ∀ k, more k → ¬ reached k → (Ledger.Recorded p.settings k ↔ k ∈ wanted)) :
    Settled m wanted more p p' where
  damaged := h.damaged
  recorded k hk hin := by
    by_cases hreached : reached k
    · exact h.recorded k hk hreached
    · exact (h.kept k hk hreached).trans (hmore k hin hreached)
  kept k hk hnot := h.kept k hk (mt (hsub k) hnot)

theorem congr (h : Settled m wanted reached p p') (hr : ∀ k, reached k ↔ more k) :
    Settled m wanted more p p' :=
  h.extend (fun k => (hr k).mp) fun k hk hnot => absurd ((hr k).mpr hk) hnot

end Settled

section Units

variable {m : PersistentSettings} {wanted : Finset IndexKey} {p : Progress}

/-- Bringing one index in line reaches this index. If its own record is not text it is left as it
is. -/
theorem settled_converge (h : Damaged m p) {u : SweepUnit} (hu : u.key.Dotless)
    (hwanted : u.wanted = true ↔ u.key ∈ wanted) :
    Settled m wanted (· = u.key) p (p.converge u) := by
  by_cases hlegible : m.Legible (Ledger.key u.key)
  case neg =>
    obtain ⟨error, herror⟩ := h.exists_error_exists? hlegible
    have hfail : p.converge u = p.fail := by rw [Progress.converge, herror]
    rw [hfail]
    refine { damaged := h.fail, recorded := ?recorded, kept := fun _ _ _ => Iff.rfl }
    case recorded =>
      rintro _ hk rfl
      exact absurd hk hlegible
  case pos =>
    rw [Progress.converge_eq (h.exists?_eq hlegible)]
    cases hst : u.statement? p.settings with
    | none =>
        refine { damaged := h.leave, recorded := ?recorded, kept := fun _ _ _ => Iff.rfl }
        case recorded =>
          rintro _ - rfl
          exact ((SweepUnit.statement?_eq_none_iff hu).mp hst).trans hwanted
    | some statement =>
        obtain ⟨hdamaged, hsettings⟩ := h.issue hlegible hst
        refine { damaged := hdamaged, recorded := ?recorded, kept := ?kept }
        case recorded =>
          rintro _ - rfl
          rw [hsettings, Ledger.recorded_put_iff hu, if_pos rfl, ← hwanted]
          cases u.wanted <;> simp
        case kept =>
          intro k _ hk
          rw [hsettings, Ledger.recorded_put_iff hu, if_neg hk]

/-- Bringing indexes in line one after the other reaches each of them, whatever else cannot be
read. -/
theorem settled_foldl {units : List SweepUnit} (h : Damaged m p)
    (hunits : ∀ u ∈ units, u.key.Dotless ∧ (u.wanted = true ↔ u.key ∈ wanted)) :
    Settled m wanted (∃ u ∈ units, u.key = ·) p (units.foldl Progress.converge p) := by
  induction units generalizing p with
  | nil => exact .untouched h rfl (by simp)
  | cons u rest ih =>
      obtain ⟨hdotless, hwanted⟩ := hunits u List.mem_cons_self
      have hfirst := settled_converge h hdotless hwanted
      have hrest := ih hfirst.damaged fun v hv => hunits v (List.mem_cons_of_mem u hv)
      exact (hfirst.trans hrest).congr fun k => by simp [eq_comm]

end Units

/-! ### Stages -/

/-- The indexes that a stage reaches: those that the generation declares, and others if nothing is
unreadable in the part of the record that it scans. -/
def SweepStage.Reaches (g : Generation) (m : PersistentSettings) : SweepStage → IndexKey → Prop
  | .type t, k => k.typeName = t.name ∧
      (k.property ∈ t.properties.map (·.name) ∨
        ¬ m.Marred (Ledger.keyStart ++ t.name ++ "."))
  | .orphans, k => g.contains k.typeName = false ∧ ¬ m.Marred Ledger.keyStart

section Stages

variable {g : Generation} {m : PersistentSettings} {p : Progress}

/-- The units of a stage are brought in line. -/
theorem settled_units (hg : g.Named) {removed : NameSet} {stage : SweepStage}
    (hstage : stage ∈ (Sweep.start ⟨g, removed⟩).stages) (h : Damaged m p) :
    Settled m g.wantedIndexes (∃ u ∈ stage.unitsOf g p.settings, u.key = ·) p
      ((stage.unitsOf g p.settings).foldl Progress.converge p) := by
  have hsound := sound_stages hg removed stage hstage
  refine settled_foldl h fun u hu => ?_
  have hunit := SweepStage.hasUnit_of_mem hsound hu
  exact ⟨hunit.dotless hsound, (hunit.declared_or_recorded hg hstage).2⟩

/-- A stage that could scan its part of the record reaches all indexes that it is about. -/
theorem settled_of_scans (hg : g.Named) {removed : NameSet} {stage : SweepStage}
    (hstage : stage ∈ (Sweep.start ⟨g, removed⟩).stages) (h : Damaged m p)
    (hscans : p.settings.Scans stage.scanStart) :
    Settled m g.wantedIndexes (stage.Covers g) p (p.finishStage g stage) := by
  have hsound := sound_stages hg removed stage hstage
  rw [Progress.finishStage_eq hscans]
  refine (settled_units hg hstage h).extend ?_ fun k hk hnot => ?_
  · rintro _ ⟨u, hu, rfl⟩
    exact (SweepStage.hasUnit_of_mem hsound hu).covers
  · -- an index without a unit is neither recorded nor wanted
    have hunknown : ¬ (k ∈ g.declaredIndexes ∨ Ledger.Recorded p.settings k) := by
      intro hknown
      have hunit : stage.HasUnit g p.settings ⟨k, decide (k ∈ g.wantedIndexes)⟩ :=
        hk.hasUnit hg hstage hknown decide_eq_true_iff
      exact hnot ⟨_, (SweepStage.mem_unitsOf_iff hsound hscans).mpr hunit, rfl⟩
    obtain ⟨hdeclared, hrecorded⟩ := not_or.mp hunknown
    exact iff_of_false hrecorded fun hw => hdeclared (hg.wanted_subset_declared hw)

/-- A stage brings the indexes that it reaches in line and leaves the others alone. -/
theorem settled_finishStage (hg : g.Named) {removed : NameSet} {stage : SweepStage}
    (hstage : stage ∈ (Sweep.start ⟨g, removed⟩).stages) (h : Damaged m p) :
    Settled m g.wantedIndexes (stage.Reaches g m) p (p.finishStage g stage) := by
  have hsound := sound_stages hg removed stage hstage
  by_cases hscans : p.settings.Scans stage.scanStart
  · have hreadable := h.scans_iff.mp hscans
    refine (settled_of_scans hg hstage h hscans).congr fun k => ?_
    cases stage with
    | type t => exact (and_iff_left (Or.inr hreadable)).symm
    | orphans => exact (and_iff_left hreadable).symm
  · have hmarred := not_not.mp (mt h.scans_iff.mpr hscans)
    cases stage with
    | type t =>
        -- only the declared properties have units
        rw [p.finishStage_type]
        refine (settled_units hg hstage h).congr fun k => ?_
        have hreaches : (SweepStage.type t).Reaches g m k ↔
            k.typeName = t.name ∧ k.property ∈ t.properties.map (·.name) :=
          and_congr_right fun _ => or_iff_left (not_not_intro hmarred)
        rw [hreaches, SweepStage.unitsOf_of_not_scans hsound hscans, SweepStage.declared]
        constructor
        · rintro ⟨u, hu, rfl⟩
          obtain ⟨q, hq, rfl⟩ := List.mem_map.mp hu
          exact ⟨rfl, List.mem_map_of_mem hq⟩
        · rintro ⟨hname, hproperty⟩
          obtain ⟨q, hq, hq'⟩ := List.mem_map.mp hproperty
          exact ⟨_, List.mem_map_of_mem hq, by rw [← hname, hq']⟩
    | orphans =>
        obtain ⟨error, herror⟩ := exists_error_orphanUnits g hscans
        have hfail : p.finishStage g .orphans = p.fail := by
          rw [Progress.finishStage, herror]
        rw [hfail]
        exact .untouched h.fail rfl fun k hk => hk.2 hmarred

/-- Stages one after the other reach what any of them reaches. -/
theorem settled_stages (hg : g.Named) {removed : NameSet} {stages : List SweepStage}
    (hstages : ∀ stage ∈ stages, stage ∈ (Sweep.start ⟨g, removed⟩).stages) (h : Damaged m p) :
    Settled m g.wantedIndexes (fun k => ∃ stage ∈ stages, stage.Reaches g m k) p
      (stages.foldl (Progress.finishStage g) p) := by
  induction stages generalizing p with
  | nil => exact .untouched h rfl (by simp)
  | cons stage rest ih =>
      have hfirst := settled_finishStage hg (hstages stage List.mem_cons_self) h
      have hrest := ih (fun stage' hstage' => hstages stage' (List.mem_cons_of_mem stage hstage'))
        hfirst.damaged
      exact (hfirst.trans hrest).congr fun k => by simp

end Stages

/-! ### The whole sweep -/

/-- What the keys begin with that a sweep scans for an index which the generation does not declare:
those of its type, and all of them if the generation lacks the type. -/
def Generation.scanned (g : Generation) (k : IndexKey) : String :=
  if g.contains k.typeName then Ledger.keyStart ++ k.typeName ++ "." else Ledger.keyStart

section WholeSweep

variable {g : Generation} {m : PersistentSettings}

/-- Of the indexes that it is about, a stage reaches those that are declared, and the others if the
part of the record in which they stand is readable. -/
theorem SweepStage.reaches_iff (hg : g.Named) {removed : NameSet} {stage : SweepStage}
    (hstage : stage ∈ (Sweep.start ⟨g, removed⟩).stages) (k : IndexKey) :
    stage.Reaches g m k ↔
      stage.Covers g k ∧ (k ∈ g.declaredIndexes ∨ ¬ m.Marred (g.scanned k)) := by
  rcases List.mem_append.mp hstage with htype | horphans
  · obtain ⟨t, ht, rfl⟩ := List.mem_map.mp htype
    refine and_congr_right fun hname => ?_
    have hget : g.types.get? k.typeName = some t := hname ▸ hg.mem_values_iff.mp ht
    have hcontains : g.contains k.typeName = true := SortedMap.contains_iff.mpr ⟨t, hget⟩
    rw [hg.mem_declaredIndexes_iff hget, Generation.scanned, if_pos hcontains, hname]
  · obtain rfl := List.mem_singleton.mp horphans
    refine and_congr_right fun hgone => ?_
    have hdeclared : k ∉ g.declaredIndexes := by
      intro hk
      obtain ⟨t, ht, -⟩ := hg.mem_declaredIndexes.mp hk
      rw [Generation.contains, SortedMap.contains_eq_false_iff, ht] at hgone
      cases hgone
    rw [Generation.scanned, if_neg (by simp [hgone]), or_iff_right hdeclared]

/-- What the stages of a sweep reach together. -/
theorem exists_stage_reaches_iff (hg : g.Named) (removed : NameSet) (k : IndexKey) :
    (∃ stage ∈ (Sweep.start ⟨g, removed⟩).stages, stage.Reaches g m k) ↔
      k ∈ g.declaredIndexes ∨ ¬ m.Marred (g.scanned k) := by
  constructor
  · rintro ⟨stage, hstage, hreaches⟩
    exact ((SweepStage.reaches_iff hg hstage k).mp hreaches).2
  · intro hk
    obtain ⟨stage, hstage, hcovers⟩ := exists_stage_covers hg removed k
    exact ⟨stage, hstage, (SweepStage.reaches_iff hg hstage k).mpr ⟨hcovers, hk⟩⟩

/-- What a sweep makes of a record that cannot be read everywhere. -/
theorem settled_outcome (hg : g.Named) (removed : NameSet) {db : Database}
    (h : Damaged m ⟨db.settings, db.catalog, { sequence := g.sequence }⟩) :
    Settled m g.wantedIndexes (fun k => k ∈ g.declaredIndexes ∨ ¬ m.Marred (g.scanned k))
      ⟨db.settings, db.catalog, { sequence := g.sequence }⟩
        ((Sweep.start ⟨g, removed⟩).outcome db) := by
  have hsettled : Settled m g.wantedIndexes
      (fun k => ∃ stage ∈ (Sweep.start ⟨g, removed⟩).stages, stage.Reaches g m k)
      ⟨db.settings, db.catalog, { sequence := g.sequence }⟩
      ((Sweep.start ⟨g, removed⟩).outcome db) :=
    settled_stages hg (fun _ hstage => hstage) h
  exact hsettled.congr (exists_stage_reaches_iff hg removed)

end WholeSweep

/-- **Sweeps over an unreadable record.** Whatever bytes a persistent store holds, a sweep whose
statements are all carried out runs to its end unless the gate is closed. When it has finished, the
unreadable entries are what they were, and of the indexes whose own records are readable

* one that the generation declares is recorded exactly if the generation wants it;
* one that it does not declare is off the record if nothing is unreadable among the keys that are
  scanned for it, and has the record that it had if something is. -/
theorem sweep_over_unreadable {c : Compiler} {sequence : Nat} {ds : List Definition}
    {g : Generation} (hg : Generation.ofDefinitions c sequence ds = .ok g) (removed : NameSet)
    {db : Database} {m : PersistentSettings} (hm : db.settings.contents = .persistent m)
    (hallowed : ∀ operation, operation ≠ .flush → operation ∉ db.settings.refused)
    (haccepting : db.catalog.failing = .empty) :
    (db.gate.closed = false →
      ∃ stats db', (Sweep.start ⟨g, removed⟩).run false db = .finished stats db') ∧
    ∀ stats db', (Sweep.start ⟨g, removed⟩).Finishes db stats db' →
      (∃ m', db'.settings.contents = .persistent m' ∧ m.SameDamage m') ∧
      ∀ k, k.Dotless → m.Legible (Ledger.key k) →
        (k ∈ g.declaredIndexes ∨ ¬ m.Marred (g.scanned k) →
          Ledger.exists? db'.settings k = .ok (decide (k ∈ g.wantedIndexes))) ∧
        (k ∉ g.declaredIndexes → m.Marred (g.scanned k) →
          Ledger.exists? db'.settings k = Ledger.exists? db.settings k) := by
  have hnamed := Generation.named_of_ofDefinitions hg
  refine ⟨fun hopen => Sweep.exists_run_eq_finished hopen, fun stats db' hfin => ?_⟩
  have hdamaged : Damaged m ⟨db.settings, db.catalog, { sequence := g.sequence }⟩ :=
    ⟨hallowed, ⟨m, hm, .refl m⟩, haccepting⟩
  have hsettled := settled_outcome hnamed removed hdamaged
  rw [Sweep.outcome_finishes hfin] at hsettled
  refine ⟨hsettled.damaged.stored, fun k hk hlegible => ?_⟩
  have hafter := hsettled.damaged.exists?_eq hlegible
  have hbefore := hdamaged.exists?_eq hlegible
  refine ⟨fun hreached => ?_, fun hdeclared hmarred => ?_⟩
  · have hrecorded := hsettled.recorded k hlegible hreached
    rw [Ledger.Recorded, and_iff_right hk] at hrecorded
    rw [hafter, decide_eq_decide.mpr hrecorded]
  · have hkept := hsettled.kept k hlegible (not_or.mpr ⟨hdeclared, not_not_intro hmarred⟩)
    rw [Ledger.Recorded, Ledger.Recorded, and_iff_right hk, and_iff_right hk] at hkept
    rw [hafter, hbefore, decide_eq_decide.mpr hkept]

/-- A type with an unreadable entry, a readable type, and a type that is gone. What the readable
type lacks is dropped; what the other two lack stays on the record. -/
theorem sweep_over_unreadable_person :
    let person := (Definition.node "Person").withProperty
      { name := "name", declaredType := "String", indexed := true }
    let robot := (Definition.node "Robot").withProperty
      { name := "model", declaredType := "String" }
    let record : PersistentSettings := SortedMap.ofList
      [(Text.toBytes "index.Person." ++ [255], Text.toBytes "true"),
        (Text.toBytes "index.Person.nick", Text.toBytes "true"),
        (Text.toBytes "index.Robot.wing", Text.toBytes "true"),
        (Text.toBytes "index.Ship.mass", Text.toBytes "true")]
    let db : Database := { settings := .persistent record }
    ∃ g stats db', Generation.ofDefinitions {} 1 [person, robot] = .ok g ∧
      (Sweep.start ⟨g, .empty⟩).run false db = .finished stats db' ∧
        Ledger.exists? db'.settings ⟨"Person", "name"⟩ = .ok true ∧
        Ledger.exists? db'.settings ⟨"Robot", "wing"⟩ = .ok false ∧
        Ledger.exists? db'.settings ⟨"Person", "nick"⟩ = .ok true ∧
        Ledger.exists? db'.settings ⟨"Ship", "mass"⟩ = .ok true := by
  intro person robot record db
  have hgeneration : (Generation.ofDefinitions {} 1 [person, robot]).map
      (fun g => (g.wantedIndexes, g.declaredIndexes, g.contains "Person", g.contains "Robot",
        g.contains "Ship")) =
        .ok ({⟨"Person", "name"⟩}, {⟨"Person", "name"⟩, ⟨"Robot", "model"⟩}, true, true,
          false) := by
    decide
  obtain ⟨g, hok, hread⟩ := Generation.exists_of_map_ofDefinitions hgeneration
  obtain ⟨hwanted, hdeclared, hperson, hrobot, hship⟩ : _ ∧ _ ∧ _ ∧ _ ∧ _ := by
    simpa only [Prod.mk.injEq] using hread
  have hm : db.settings.contents = .persistent record := rfl
  obtain ⟨hrun, hfinishes⟩ := sweep_over_unreadable hok .empty hm (fun _ _ => List.not_mem_nil) rfl
  obtain ⟨stats, db', hrun⟩ := hrun rfl
  obtain ⟨-, hrecord⟩ := hfinishes stats db' (Sweep.finishes_of_run hrun)
  have hmarred : record.Marred "index.Person." ∧ ¬ record.Marred "index.Robot." ∧
      record.Marred "index." := by
    decide +kernel
  refine ⟨g, stats, db', hok, hrun, ?name, ?wing, ?nick, ?mass⟩
  case name =>
    obtain ⟨hreached, -⟩ :=
      hrecord ⟨"Person", "name"⟩ (by simp [IndexKey.Dotless]) (by decide +kernel)
    rw [hreached (Or.inl (by rw [hdeclared]; decide)), hwanted]
    rfl
  case wing =>
    obtain ⟨hreached, -⟩ :=
      hrecord ⟨"Robot", "wing"⟩ (by simp [IndexKey.Dotless]) (by decide +kernel)
    have hscanned : g.scanned ⟨"Robot", "wing"⟩ = "index.Robot." := by
      rw [Generation.scanned, if_pos hrobot]
      rfl
    rw [hreached (Or.inr (by rw [hscanned]; exact hmarred.2.1)), hwanted]
    rfl
  case nick =>
    obtain ⟨-, hkept⟩ :=
      hrecord ⟨"Person", "nick"⟩ (by simp [IndexKey.Dotless]) (by decide +kernel)
    have hscanned : g.scanned ⟨"Person", "nick"⟩ = "index.Person." := by
      rw [Generation.scanned, if_pos hperson]
      rfl
    rw [hkept (by rw [hdeclared]; decide) (by rw [hscanned]; exact hmarred.1)]
    decide +kernel
  case mass =>
    obtain ⟨-, hkept⟩ :=
      hrecord ⟨"Ship", "mass"⟩ (by simp [IndexKey.Dotless]) (by decide +kernel)
    have hscanned : g.scanned ⟨"Ship", "mass"⟩ = "index." := by
      rw [Generation.scanned, if_neg (by simp [hship])]
      rfl
    rw [hkept (by rw [hdeclared]; decide) (by rw [hscanned]; exact hmarred.2.2)]
    decide +kernel

/-- One value that is no text keeps two unwanted indexes on the record, one of a type that the
generation has and one of a type that it lacks. Their own records are readable. -/
theorem unreadable_value_keeps_unwanted :
    let person := (Definition.node "Person").withProperty
      { name := "name", declaredType := "String", indexed := true }
    let record : PersistentSettings := SortedMap.ofList
      [(Text.toBytes "index.Person.age", [255]),
        (Text.toBytes "index.Person.nick", Text.toBytes "true"),
        (Text.toBytes "index.Ship.mass", Text.toBytes "true")]
    let db : Database := { settings := .persistent record }
    ∃ g stats db', Generation.ofDefinitions {} 1 [person] = .ok g ∧
      (Sweep.start ⟨g, .empty⟩).run false db = .finished stats db' ∧
        ∀ k ∈ [⟨"Person", "nick"⟩, ⟨"Ship", "mass"⟩],
          record.Legible (Ledger.key k) ∧ k ∉ g.wantedIndexes ∧
            Ledger.exists? db'.settings k = .ok true := by
  intro person record db
  have hgeneration : (Generation.ofDefinitions {} 1 [person]).map (fun g =>
      decide (∀ k ∈ [⟨"Person", "nick"⟩, ⟨"Ship", "mass"⟩],
        record.Legible (Ledger.key k) ∧ k ∉ g.wantedIndexes ∧
          Ledger.exists? ((Sweep.start ⟨g, .empty⟩).outcome db).settings k = .ok true)) =
        .ok true := by
    decide +kernel
  obtain ⟨g, hok, hread⟩ := Generation.exists_of_map_ofDefinitions hgeneration
  obtain ⟨stats, db', hrun⟩ :=
    Sweep.exists_run_eq_finished (s := .start ⟨g, .empty⟩) (show db.gate.closed = false from rfl)
  have hkept := of_decide_eq_true hread
  rw [Sweep.outcome_finishes (Sweep.finishes_of_run hrun)] at hkept
  exact ⟨g, stats, db', hok, hrun, hkept⟩

end LiveSchema
