import LiveSchema.Proofs.Index.Accord
import LiveSchema.Proofs.Index.Agenda
import LiveSchema.Proofs.Index.Upkeep

/-!
# LiveSchema.Proofs.Index.Resumption

Cancelled sweeps are taken up again without loss or repetition. A sweep that is cancelled stops
before its next unit; a statement that was decided on is still issued and recorded. So what it has
done is what it was asked for by the first of its units, as if it had begun with all of them in hand
(`Synchronizer.Concludes.spec`): what the sweep finds on its way is what stood in the record when it
began, because no statement makes a difference to a unit that is still to come
(`Sweep.Orderly.step`).

A sweep over the record that it leaves behind asks for the rest. `cancelled_sweep_resumes` compares
the two of them with one sweep that is not cancelled.
-/

namespace LiveSchema

/-! ### Carrying out statements -/

/-- Some statements were issued one after the other, and each was recorded. -/
structure Database.CarriedOut (issued : List IndexStatement) (db db' : Database) : Prop where
  settings : db'.settings = issued.foldl Sweep.record db.settings
  catalog : db'.catalog = issued.foldl (fun c statement => (c.issue statement).1) db.catalog

namespace Database.CarriedOut

variable {issued issued' : List IndexStatement} {db db₁ db₂ : Database}

theorem nil (db : Database) : CarriedOut [] db db := ⟨rfl, rfl⟩

theorem append (h : CarriedOut issued db db₁) (h' : CarriedOut issued' db₁ db₂) :
    CarriedOut (issued ++ issued') db db₂ where
  settings := by rw [h'.settings, h.settings, List.foldl_append]
  catalog := by rw [h'.catalog, h.catalog, List.foldl_append]

theorem refused (h : CarriedOut issued db db₁) (hset : .set ∉ db.settings.refused) :
    .set ∉ db₁.settings.refused := by
  rwa [h.settings, refused_foldl_record hset]

/-- The catalog logs every statement, and goes on to accept what it accepted. -/
theorem calls_and_failing (h : CarriedOut issued db db₁) :
    db₁.catalog.calls = db.catalog.calls ++ issued ∧
      db₁.catalog.failing = db.catalog.failing := by
  rw [h.catalog]
  generalize db.catalog = c
  clear h
  induction issued generalizing c with
  | nil => exact ⟨(List.append_nil _).symm, rfl⟩
  | cons statement issued ih =>
      have hissue : (c.issue statement).1.calls = c.calls ++ [statement] ∧
          (c.issue statement).1.failing = c.failing := by
        unfold Catalog.issue
        dsimp only
        split
        · exact ⟨rfl, rfl⟩
        · cases statement <;> exact ⟨rfl, rfl⟩
      obtain ⟨hcalls, hfailing⟩ := ih (c.issue statement).1
      rw [List.foldl_cons, hcalls, hfailing, hissue.1, hissue.2, List.append_assoc]
      exact ⟨rfl, rfl⟩

end Database.CarriedOut

namespace Sweep

variable {g : Generation} {s s' : Sweep} {db db' : Database} {settings : Settings}

/-- A statement that is not rejected is carried out. -/
theorem carriedOut_issue (s : Sweep) (db : Database) (haccepts : db.catalog.failing = .empty)
    (statement : IndexStatement) :
    Database.CarriedOut [statement] db (s.issue db statement).2 := by
  have hpass : (db.catalog.issue statement).2 = none := by
    rw [Catalog.issue, haccepts]
    rfl
  unfold issue
  dsimp only
  rw [hpass]
  exact ⟨rfl, rfl⟩

/-! ### What is left of a sweep -/

/-- Everything that a sweep under way is still to look at. -/
def work (s : Sweep) (settings : Settings) : List SweepUnit :=
  s.units ++ s.stages.flatMap (·.unitsOf s.request.generation settings)

/-- The unit that the next step of a sweep looks at, unless a statement waits. -/
def facing (s : Sweep) : Option SweepUnit :=
  match s.statement with
  | some _ => none
  | none => s.units.head?

/-- A sweep for a generation that has not been cancelled. It is to look at each index once, and not
at that of the statement that waits, which would bring the record in line. -/
structure Orderly (g : Generation) (settings : Settings) (s : Sweep) : Prop where
  generation : s.request.generation = g
  stages : ∀ stage ∈ s.stages, stage ∈ g.stages
  units : ∀ u ∈ s.units, u.Fits g
  statement : ∀ statement, s.statement = some statement → statement.Due g settings
  once : (s.statement.toList.map IndexStatement.key ++ (s.work settings).map SweepUnit.key).Nodup
  going : s.stats.cancelled = false

/-- What one step makes of a sweep: it goes on in order, what is left is all but the unit that was
looked at, and the statements that its units ask for are still to be issued, but for the one that
waited. -/
structure Stepped (g : Generation) (db db' : Database) (s s' : Sweep) : Prop where
  orderly : s'.Orderly g db'.settings
  work : s.work db.settings = s.facing.toList ++ s'.work db'.settings
  carriedOut : Database.CarriedOut s.statement.toList db db'
  asks : ∀ looked, looked <+: s'.work db'.settings →
    (s.facing.toList ++ looked).filterMap (·.asks db.settings) =
      s'.statement.toList ++ looked.filterMap (·.asks db'.settings)

/-- A sweep that is cancelled does not look at its next unit. -/
theorem exists_finished_of_facing (h : s.facing ≠ none) (db : Database) :
    ∃ stats, s.step true db = .finished stats := by
  unfold facing at h
  unfold step
  cases hst : s.statement with
  | some statement => simp [hst] at h
  | none =>
      cases hun : s.units with
      | nil => simp [hst, hun] at h
      | cons u units => exact ⟨_, rfl⟩

namespace Orderly

theorem start (hg : g.Named) (removed : NameSet) (settings : Settings) :
    (Sweep.start ⟨g, removed⟩).Orderly g settings where
  generation := rfl
  stages _ h := h
  units := nofun
  statement := nofun
  once := hg.nodup_agenda settings
  going := rfl

theorem fits_of_mem_work (hg : g.Named) (h : s.Orderly g settings) {u : SweepUnit}
    (hu : u ∈ s.work settings) : u.Fits g := by
  rcases List.mem_append.mp hu with hunit | hstage
  · exact h.units u hunit
  · obtain ⟨stage, hstage, hu⟩ := List.mem_flatMap.mp hstage
    rw [h.generation] at hu
    exact SweepStage.fits_of_mem hg (h.stages stage hstage) hu

/-- What is still to be looked at is not about the index of the statement that waits. -/
theorem key_ne (h : s.Orderly g settings) {statement : IndexStatement}
    (hst : s.statement = some statement) {u : SweepUnit} (hu : u ∈ s.work settings) :
    u.key ≠ statement.key := by
  intro hkey
  have honce := h.once
  rw [hst] at honce
  exact (List.nodup_cons.mp honce).1 (List.mem_map.mpr ⟨u, hu, hkey⟩)

/-- So recording that statement makes no difference to it. -/
theorem work_record (hg : g.Named) (h : s.Orderly g settings) (hset : .set ∉ settings.refused)
    {statement : IndexStatement} (hst : s.statement = some statement) :
    s.work (record settings statement) = s.work settings := by
  rw [work, work, h.generation]
  refine congrArg (s.units ++ ·) (List.flatMap_congr fun stage hstage => ?_)
  refine SweepStage.unitsOf_record hg hset (h.stages stage hstage) (h.statement statement hst) ?_
  intro hkey
  obtain ⟨u, hu, hkey⟩ := List.mem_map.mp hkey
  refine h.key_ne hst (List.mem_append_right _ ?_) hkey
  exact List.mem_flatMap.mpr ⟨stage, hstage, h.generation.symm ▸ hu⟩

/-- The statement that waits is issued. -/
theorem issue (hg : g.Named) (h : s.Orderly g db.settings) (hset : .set ∉ db.settings.refused)
    (haccepts : db.catalog.failing = .empty) {statement : IndexStatement}
    (hst : s.statement = some statement) (gate : Gate) :
    Stepped g db ({ s with statement := none }.issue { db with gate := gate } statement).2 s
      ({ s with statement := none }.issue { db with gate := gate } statement).1 := by
  have hissue := carriedOut_issue { s with statement := none } { db with gate := gate } haccepts
    statement
  obtain ⟨hrequest, hunits, hstages, hnone⟩ :=
    issue_frame { s with statement := none } { db with gate := gate } statement
  have hstats := stats_issue { s with statement := none } { db with gate := gate } statement
  generalize { s with statement := none }.issue { db with gate := gate } statement = next at *
  obtain ⟨s', db'⟩ := next
  dsimp only at *
  have hsettings : db'.settings = record db.settings statement := hissue.settings
  have hwork : s'.work db'.settings = s.work db.settings := by
    rw [hsettings, ← h.work_record hg hset hst, work, work, hrequest, hunits, hstages]
  have hfacing : s.facing = none := by rw [facing, hst]
  have honce := h.once
  rw [hst] at honce
  refine { orderly := ?orderly, work := ?work, carriedOut := ?carriedOut, asks := ?asks }
  case orderly =>
    exact
      { generation := hrequest ▸ h.generation
        stages := hstages ▸ h.stages
        units := hunits ▸ h.units
        statement := by rw [hnone]; nofun
        once := by rw [hnone, hwork]; exact (List.nodup_cons.mp honce).2
        going := hstats.2.trans h.going }
  case work =>
    rw [hfacing, hwork]
    rfl
  case carriedOut =>
    rw [hst]
    exact ⟨hissue.settings, hissue.catalog⟩
  case asks =>
    intro looked hlooked
    rw [hfacing, hnone, hsettings]
    refine List.filterMap_congr fun u hu => ?_
    have hmem : u ∈ s.work db.settings := hwork ▸ hlooked.subset hu
    exact (SweepUnit.asks_record_of_ne hset (h.statement statement hst)
      (h.fits_of_mem_work hg hmem) (h.key_ne hst hmem)).symm

/-- The next unit is looked at. -/
theorem lookAt (h : s.Orderly g db.settings) {u : SweepUnit} {units : List SweepUnit}
    (hst : s.statement = none) (hun : s.units = u :: units) :
    Stepped g db db s ({ s with units := units }.lookAt db.settings u) := by
  obtain ⟨hasks, hrequest, hunits, hstages⟩ :=
    lookAt_spec { s with units := units } db.settings u hst
  have hstats := stats_lookAt { s with units := units } db.settings u
  generalize { s with units := units }.lookAt db.settings u = s' at *
  dsimp only at *
  have hfacing : s.facing = some u := by rw [facing, hst, hun]; rfl
  have hwork : s.work db.settings = u :: s'.work db.settings := by
    rw [work, work, hrequest, hunits, hstages, hun, List.cons_append]
  have honce := h.once
  rw [hst, hwork] at honce
  refine { orderly := ?orderly, work := ?work, carriedOut := ?carriedOut, asks := ?asks }
  case orderly =>
    refine
      { generation := hrequest ▸ h.generation
        stages := hstages ▸ h.stages
        units := fun v hv => h.units v (hun ▸ List.mem_cons_of_mem u (hunits ▸ hv))
        statement := fun statement hstatement =>
          (h.units u (hun ▸ List.mem_cons_self)).due (hasks.symm.trans hstatement)
        once := ?_
        going := hstats.2.trans h.going }
    -- a statement for the unit is about its index
    rw [hasks]
    cases hasked : u.asks db.settings with
    | none => exact (List.nodup_cons.mp honce).2
    | some statement =>
        rw [Option.toList_some, List.map_singleton, SweepUnit.key_of_asks hasked]
        exact honce
  case work =>
    rw [hfacing, hwork]
    rfl
  case carriedOut =>
    rw [hst]
    exact .nil db
  case asks =>
    intro looked _
    rw [hfacing, hasks, Option.toList_some, List.singleton_append, List.filterMap_cons]
    cases u.asks db.settings <;> rfl

/-- The next stage is entered. -/
theorem enter (hg : g.Named) (h : s.Orderly g db.settings) {stage : SweepStage}
    {stages : List SweepStage} (hst : s.statement = none) (hun : s.units = [])
    (hsg : s.stages = stage :: stages) :
    Stepped g db db s ({ s with stages := stages }.enter db.settings stage) := by
  obtain ⟨hunits, hrequest, hstages, hstatement⟩ :=
    enter_spec { s with stages := stages } db.settings stage hun
  have hstats := stats_enter { s with stages := stages } db.settings stage
  generalize { s with stages := stages }.enter db.settings stage = s' at *
  dsimp only at *
  have hfacing : s.facing = none := by rw [facing, hst, hun]; rfl
  have hwork : s'.work db.settings = s.work db.settings := by
    rw [work, work, hrequest, hunits, hstages, hun, hsg, List.flatMap_cons, List.nil_append]
  refine { orderly := ?orderly, work := ?work, carriedOut := ?carriedOut, asks := ?asks }
  case orderly =>
    refine
      { generation := hrequest ▸ h.generation
        stages := fun a ha => h.stages a (hsg ▸ List.mem_cons_of_mem stage (hstages ▸ ha))
        units := fun u hu => ?_
        statement := hstatement ▸ h.statement
        once := by rw [hstatement, hwork]; exact h.once
        going := hstats.2.trans h.going }
    rw [hunits, h.generation] at hu
    exact SweepStage.fits_of_mem hg (h.stages stage (hsg ▸ List.mem_cons_self)) hu
  case work =>
    rw [hfacing, hwork]
    rfl
  case carriedOut =>
    rw [hst]
    exact .nil db
  case asks =>
    intro looked _
    rw [hfacing, hstatement, hst]
    rfl

/-- One step of a sweep whose statements are not rejected and can be recorded. -/
theorem step (hg : g.Named) (h : s.Orderly g db.settings) (hset : .set ∉ db.settings.refused)
    (haccepts : db.catalog.failing = .empty) {cancelled : Bool}
    (hstep : s.step cancelled db = .more s' db') : Stepped g db db' s s' := by
  rcases step_cases (more_of_step hstep) with ⟨statement, gate, hst, -, hissue⟩ |
    ⟨u, units, hst, hun, rfl, rfl⟩ | ⟨stage, stages, hst, hun, hsg, rfl, rfl⟩
  · have hissued := h.issue hg hset haccepts hst gate
    rwa [hissue] at hissued
  · exact h.lookAt hst hun
  · exact h.enter hg hst hun hsg

/-- A sweep that ends was cancelled exactly if something is left to look at. -/
theorem finished (h : s.Orderly g db.settings) {cancelled : Bool} {stats : SweepStats}
    (hstep : s.step cancelled db = .finished stats) :
    s.statement = none ∧ (stats.cancelled = true ↔ s.work db.settings ≠ []) := by
  unfold Sweep.step at hstep
  split at hstep
  · split at hstep <;> cases hstep
  · next u units hst hun =>
      split at hstep
      · cases hstep
        exact ⟨hst, iff_of_true rfl (by simp [work, hun])⟩
      · cases hstep
  · cases hstep
  · next hst hun hsg =>
      cases hstep
      exact ⟨hst, iff_of_false (by simp [h.going]) (by simp [work, hun, hsg])⟩

end Orderly

end Sweep

/-! ### Sweeps that end -/

namespace Synchronizer

/-- The sweep under way. -/
def sweep? (s : Synchronizer) : Option Sweep :=
  match s.activity with
  | some (.sweeping _ sweep) => some sweep
  | _ => none

/-- The sweep under way goes on until it ends, having looked at some units. Meanwhile requests may
come, the gate may change, and the synchronizer may be shut down, which cancels the sweep. -/
inductive Concludes : Synchronizer → Database → List SweepUnit → SweepStats → Synchronizer →
    Database → Prop where
  | ended {s db sweep stats s' db'} : s.sweep? = some sweep → s.step db = some (s', db') →
      s'.sweep? = none → s'.last = some stats → Concludes s db [] stats s' db'
  | step {s db sweep s₁ db₁ looked stats s' db'} : s.sweep? = some sweep →
      s.step db = some (s₁, db₁) → s₁.sweep? ≠ none → Concludes s₁ db₁ looked stats s' db' →
      Concludes s db (sweep.facing.toList ++ looked) stats s' db'
  | synchronize {s db looked stats s' db'} (request : SyncRequest) :
      Concludes (s.synchronize request) db looked stats s' db' →
      Concludes s db looked stats s' db'
  | shutDown {s db looked stats s' db'} : Concludes s.shutDown db looked stats s' db' →
      Concludes s db looked stats s' db'
  | gate {s db looked stats s' db'} (gate : Gate) :
      Concludes s { db with gate := gate } looked stats s' db' →
      Concludes s db looked stats s' db'

variable {s s' : Synchronizer} {db db' : Database} {sweep : Sweep} {stats : SweepStats}
  {looked : List SweepUnit} {g : Generation}

theorem sweep?_eq_some_iff :
    s.sweep? = some sweep ↔ ∃ sweeper, s.activity = some (.sweeping sweeper sweep) := by
  unfold sweep?
  rcases s.activity with - | - | ⟨sweeper, sweep'⟩ <;> simp

/-- A request does not get in the way of the sweep under way. -/
theorem sweep?_synchronize (s : Synchronizer) (request : SyncRequest) :
    (s.synchronize request).sweep? = s.sweep? := by
  cases hopen : s.isShutDown with
  | true => rw [synchronize, if_pos hopen]
  | false =>
      rw [synchronize_of_open hopen, sweep?, sweep?]
      rcases s.activity with - | - | _ <;> rfl

/-- A step of a synchronizer that sweeps is a step of the sweep, or its end. -/
theorem step_of_sweep? (hsweep : s.sweep? = some sweep) (hstep : s.step db = some (s', db')) :
    (∃ next, sweep.step s.isShutDown db = .more next db' ∧ s'.sweep? = some next ∧
        s'.completed = s.completed) ∨
      ∃ stats, sweep.step s.isShutDown db = .finished stats ∧ db' = db ∧ s'.sweep? = none ∧
        s'.last = some stats ∧
        s'.completed = if stats.cancelled then s.completed else max s.completed stats.sequence := by
  obtain ⟨sweeper, hactivity⟩ := sweep?_eq_some_iff.mp hsweep
  rcases step_cases hstep with ⟨hscheduled, -⟩ | ⟨_, _, next, hsame, hnext, rfl⟩ |
    ⟨_, _, stats, hsame, hend, rfl, rfl⟩
  · cases hactivity.symm.trans hscheduled
  · cases hactivity.symm.trans hsame
    exact Or.inl ⟨next, hnext, rfl, rfl⟩
  · cases hactivity.symm.trans hsame
    cases sweeper <;> exact Or.inr ⟨stats, hend, rfl, rfl, rfl, rfl⟩

namespace Concludes

/-- A sweep that is cancelled completes nothing. -/
theorem completed_eq (h : s.Concludes db looked stats s' db') :
    s'.completed = if stats.cancelled then s.completed else max s.completed stats.sequence := by
  induction h with
  | ended hsweep hstep hnone hlast =>
      rcases step_of_sweep? hsweep hstep with ⟨_, -, hsome, -⟩ | ⟨_, -, -, -, hlast', hcompleted⟩
      · cases hnone.symm.trans hsome
      · obtain rfl := Option.some.inj (hlast.symm.trans hlast')
        exact hcompleted
  | step hsweep hstep hsome _ ih =>
      rcases step_of_sweep? hsweep hstep with ⟨_, -, -, hcompleted⟩ | ⟨_, -, -, hnone, -⟩
      · rw [ih, hcompleted]
      · exact absurd hnone hsome
  | synchronize request _ ih => rw [ih, completed_synchronize]
  | shutDown _ ih => exact ih
  | gate _ _ ih => exact ih

/-- What a sweep comes to that ends: it has looked at the first of the units that it was to look at
when it began, at all of them unless it was cancelled, and has carried out what they ask for. -/
theorem spec (hg : g.Named) (h : s.Concludes db looked stats s' db')
    (hsweep : s.sweep? = some sweep) (hs : sweep.Orderly g db.settings)
    (hset : .set ∉ db.settings.refused) (haccepts : db.catalog.failing = .empty) :
    (∃ left, sweep.work db.settings = looked ++ left ∧ (stats.cancelled = true ↔ left ≠ [])) ∧
      Database.CarriedOut
        (sweep.statement.toList ++ looked.filterMap (·.asks db.settings)) db db' := by
  induction h generalizing sweep with
  | ended hsome hstep hnone hlast =>
      cases hsweep.symm.trans hsome
      rcases step_of_sweep? hsweep hstep with ⟨_, -, hmore, -⟩ | ⟨_, hend, rfl, -, hlast', -⟩
      · cases hnone.symm.trans hmore
      · obtain rfl := Option.some.inj (hlast.symm.trans hlast')
        obtain ⟨hst, hcancelled⟩ := hs.finished hend
        refine ⟨⟨_, rfl, hcancelled⟩, ?_⟩
        rw [hst]
        exact .nil _
  | step hsome hstep hgoes _ ih =>
      cases hsweep.symm.trans hsome
      rcases step_of_sweep? hsweep hstep with ⟨next, hmore, hnext, -⟩ | ⟨_, -, -, hnone, -⟩
      · have hstepped := hs.step hg hset haccepts hmore
        have hissued := hstepped.carriedOut
        obtain ⟨⟨left, hwork, hcancelled⟩, hcarried⟩ := ih hnext hstepped.orderly
          (hissued.refused hset) (hissued.calls_and_failing.2.trans haccepts)
        refine ⟨⟨left, ?_, hcancelled⟩, ?_⟩
        · rw [hstepped.work, hwork, List.append_assoc]
        · rw [hstepped.asks _ ⟨left, hwork.symm⟩]
          exact hissued.append hcarried
      · exact absurd hnone hgoes
  | synchronize request _ ih =>
      exact ih ((sweep?_synchronize _ request).trans hsweep) hs hset haccepts
  | shutDown _ ih => exact ih hsweep hs hset haccepts
  | gate gate _ ih =>
      obtain ⟨hlooked, hcarried⟩ := ih hsweep hs hset haccepts
      exact ⟨hlooked, hcarried.settings, hcarried.catalog⟩

/-- What a sweep for a generation comes to. -/
theorem spec_start (hg : g.Named) {removed : NameSet} (h : s.Concludes db looked stats s' db')
    (hsweep : s.sweep? = some (.start ⟨g, removed⟩)) (hset : .set ∉ db.settings.refused)
    (haccepts : db.catalog.failing = .empty) :
    looked <+: g.agenda db.settings ∧
      (stats.cancelled = true ↔ looked ≠ g.agenda db.settings) ∧
      Database.CarriedOut (looked.filterMap (·.asks db.settings)) db db' := by
  obtain ⟨⟨left, hwork, hcancelled⟩, hcarried⟩ :=
    h.spec hg hsweep (.start hg removed db.settings) hset haccepts
  have hagenda : g.agenda db.settings = looked ++ left := hwork
  refine ⟨⟨left, hagenda.symm⟩, ?_, hcarried⟩
  rw [hcancelled, hagenda, ne_eq, ne_eq, List.self_eq_append_right]

end Concludes

/-! ### Sweeps end at any point -/

theorem exists_step_of_more {next : Sweep} (hsweep : s.sweep? = some sweep)
    (h : sweep.step s.isShutDown db = .more next db') :
    ∃ s₁, s.step db = some (s₁, db') ∧ s₁.sweep? = some next ∧ s₁.isShutDown = s.isShutDown := by
  obtain ⟨sweeper, hactivity⟩ := sweep?_eq_some_iff.mp hsweep
  refine ⟨s.goOn (.sweeping sweeper next), ?_, rfl, rfl⟩
  rw [step, hactivity]
  dsimp only
  rw [h]

theorem exists_concludes_of_finished (hsweep : s.sweep? = some sweep)
    (h : sweep.step s.isShutDown db = .finished stats) : ∃ s', s.Concludes db [] stats s' db := by
  obtain ⟨sweeper, hactivity⟩ := sweep?_eq_some_iff.mp hsweep
  have hstep : s.step db = some ((s.publish stats).afterSweep sweeper, db) := by
    rw [step, hactivity]
    dsimp only
    rw [h]
  cases sweeper <;> exact ⟨_, .ended hsweep hstep rfl rfl⟩

theorem exists_concludes_of_open {g : Generation} (hg : g.Named) {s : Synchronizer}
    {db : Database} {sweep : Sweep} {looked : List SweepUnit} (hsweep : s.sweep? = some sweep)
    (hopen : s.isShutDown = false) (hgate : db.gate.closed = false)
    (hs : sweep.Orderly g db.settings) (hset : .set ∉ db.settings.refused)
    (haccepts : db.catalog.failing = .empty) (hlooked : looked <+: sweep.work db.settings) :
    ∃ stats s' db', s.Concludes db looked stats s' db' := by
  cases hnext : sweep.step false db with
  | blocked => exact absurd (Sweep.closed_of_blocked hnext) (by simp [hgate])
  | finished stats =>
      obtain ⟨-, hun, hsg, -⟩ := Sweep.eq_of_finished hnext
      rw [Sweep.work, hun, hsg] at hlooked
      obtain rfl := List.prefix_nil.mp hlooked
      obtain ⟨s', hended⟩ := exists_concludes_of_finished hsweep (hopen ▸ hnext)
      exact ⟨stats, s', db, hended⟩
  | more next db₁ =>
      have hstepped := hs.step hg hset haccepts hnext
      have hissued := hstepped.carriedOut
      by_cases hstop : looked = [] ∧ sweep.facing ≠ none
      · -- the next unit is one too many
        obtain ⟨rfl, hfacing⟩ := hstop
        obtain ⟨stats, hend⟩ := Sweep.exists_finished_of_facing hfacing db
        obtain ⟨s', hended⟩ := exists_concludes_of_finished (s := s.shutDown) hsweep hend
        exact ⟨stats, s', db, .shutDown hended⟩
      · obtain ⟨looked', rfl, hlooked'⟩ : ∃ looked', looked = sweep.facing.toList ++ looked' ∧
            looked' <+: next.work db₁.settings := by
          rw [hstepped.work] at hlooked
          cases hfacing : sweep.facing with
          | none =>
              rw [hfacing] at hlooked
              exact ⟨looked, rfl, hlooked⟩
          | some u =>
              rw [hfacing] at hlooked hstop
              cases looked with
              | nil => exact absurd ⟨rfl, Option.some_ne_none u⟩ hstop
              | cons v looked =>
                  obtain ⟨rfl, hrest⟩ := List.cons_prefix_cons.mp hlooked
                  exact ⟨looked, rfl, hrest⟩
        obtain ⟨s₁, hstep, hsweep₁, hopen₁⟩ := exists_step_of_more hsweep (hopen ▸ hnext)
        obtain ⟨stats, s', db', hconcludes⟩ := exists_concludes_of_open hg hsweep₁
          (hopen₁.trans hopen) (Sweep.open_of_step hgate hnext) hstepped.orderly
          (hissued.refused hset) (hissued.calls_and_failing.2.trans haccepts) hlooked'
        exact ⟨stats, s', db', .step hsweep hstep (by simp [hsweep₁]) hconcludes⟩
termination_by sweep.remaining
decreasing_by exact Sweep.remaining_step hnext

/-- A sweep can end having looked at any first units of those that it is to look at. -/
theorem exists_concludes (hg : g.Named) (hsweep : s.sweep? = some sweep)
    (hopen : s.isShutDown = false) (hs : sweep.Orderly g db.settings)
    (hset : .set ∉ db.settings.refused) (haccepts : db.catalog.failing = .empty)
    (hlooked : looked <+: sweep.work db.settings) :
    ∃ stats s' db', s.Concludes db looked stats s' db' := by
  -- statements that wait are let through
  obtain ⟨stats, s', db', hconcludes⟩ : ∃ stats s' db',
      s.Concludes { db with gate := {} } looked stats s' db' :=
    exists_concludes_of_open hg hsweep hopen rfl hs hset haccepts hlooked
  exact ⟨stats, s', db', .gate {} hconcludes⟩

end Synchronizer

/-! ### Cancelled and resumed -/

/-- **A cancelled sweep is taken up again without loss or repetition.** Whatever the record says, if
it can be written and no statement is rejected: a sweep that may have been cancelled, and one for
the same generation after it that was not, issue together what a single sweep issues, in the same
order, and leave the same record and the same catalog behind. The first of them was cancelled
exactly if it had not looked at everything yet, and then it has completed nothing. -/
theorem cancelled_sweep_resumes {c : Compiler} {sequence : Nat} {definitions : List Definition}
    {g : Generation} (hg : Generation.ofDefinitions c sequence definitions = .ok g)
    {db : Database} (hset : .set ∉ db.settings.refused) (haccepts : db.catalog.failing = .empty)
    {first second whole : Synchronizer} {removed₁ removed₂ removed : NameSet}
    (hfirst : first.sweep? = some (.start ⟨g, removed₁⟩))
    (hsecond : second.sweep? = some (.start ⟨g, removed₂⟩))
    (hwhole : whole.sweep? = some (.start ⟨g, removed⟩))
    {looked₁ looked₂ looked : List SweepUnit} {stats₁ stats₂ stats : SweepStats}
    {first' second' whole' : Synchronizer} {db₁ db₂ db' : Database}
    (hinterrupted : first.Concludes db looked₁ stats₁ first' db₁)
    (hresumed : second.Concludes db₁ looked₂ stats₂ second' db₂)
    (hresumedEnds : stats₂.cancelled = false)
    (huninterrupted : whole.Concludes db looked stats whole' db')
    (huninterruptedEnds : stats.cancelled = false) :
    (∃ issued₁ issued₂,
      db₁.catalog.calls = db.catalog.calls ++ issued₁ ∧
      db₂.catalog.calls = db₁.catalog.calls ++ issued₂ ∧
      db'.catalog.calls = db.catalog.calls ++ (issued₁ ++ issued₂)) ∧
      db₂.settings = db'.settings ∧ db₂.catalog = db'.catalog ∧
      looked₁ <+: looked ∧ (stats₁.cancelled = true ↔ looked₁ ≠ looked) ∧
      (looked₁ ≠ looked → first'.completed = first.completed) := by
  have hnamed := Generation.named_of_ofDefinitions hg
  obtain ⟨hlooked₁, hcancelled₁, hcarried₁⟩ :=
    hinterrupted.spec_start hnamed hfirst hset haccepts
  obtain ⟨-, hcancelled₂, hcarried₂⟩ := hresumed.spec_start hnamed hsecond
    (hcarried₁.refused hset) (hcarried₁.calls_and_failing.2.trans haccepts)
  obtain ⟨-, hcancelled, hcarried⟩ := huninterrupted.spec_start hnamed hwhole hset haccepts
  -- the two sweeps that were not cancelled have looked at everything
  obtain rfl : looked₂ = g.agenda db₁.settings := by
    by_contra hlooked
    simp [hcancelled₂.mpr hlooked] at hresumedEnds
  obtain rfl : looked = g.agenda db.settings := by
    by_contra hlooked
    simp [hcancelled.mpr hlooked] at huninterruptedEnds
  -- what the first sweep has left is what the second one asks for
  have hasked : (g.agenda db.settings).filterMap (·.asks db.settings) =
      looked₁.filterMap (·.asks db.settings) ++
        (g.agenda db₁.settings).filterMap (·.asks db₁.settings) := by
    obtain ⟨left, hagenda⟩ := hlooked₁
    have hsplit : (g.agenda db.settings).filterMap (·.asks db.settings) =
        looked₁.filterMap (·.asks db.settings) ++ left.filterMap (·.asks db.settings) := by
      rw [← hagenda, List.filterMap_append]
    rw [hsplit, hcarried₁.settings, hnamed.asked_foldl_record hset hsplit]
  have htogether := hcarried₁.append hcarried₂
  rw [← hasked] at htogether
  refine ⟨⟨_, _, hcarried₁.calls_and_failing.1, hcarried₂.calls_and_failing.1, ?_⟩,
    htogether.settings.trans hcarried.settings.symm,
    htogether.catalog.trans hcarried.catalog.symm, hlooked₁, hcancelled₁, fun hleft => ?_⟩
  · rw [← hasked]
    exact hcarried.calls_and_failing.1
  · rw [hinterrupted.completed_eq, if_pos (hcancelled₁.mpr hleft)]

/-- A sweep that is cancelled after it had one index created. What is left is another wanted index,
one of a property that the type lacks, and one of a type that is gone. -/
theorem resumed_after_first_index :
    let person := ((Definition.node "Person").withProperty
      { name := "age", declaredType := "Integer", indexed := true }).withProperty
      { name := "name", declaredType := "String", indexed := true }
    let record : MemorySettings :=
      SortedMap.ofList [("index.Person.nick", "true"), ("index.Ship.mass", "true")]
    let db : Database := { settings := .inMemory record }
    let age : IndexStatement := .create ⟨"Person", "age"⟩
    let rest : List IndexStatement :=
      [.create ⟨"Person", "name"⟩, .drop ⟨"Person", "nick"⟩, .drop ⟨"Ship", "mass"⟩]
    let sweeping (g : Generation) : Synchronizer :=
      (({} : Synchronizer).synchronize ⟨g, .empty⟩).turn
    ∃ g looked₁ looked₂ looked stats₁ stats₂ stats first second whole db₁ db₂ db',
      Generation.ofDefinitions {} 1 [person] = .ok g ∧
      (sweeping g).Concludes db looked₁ stats₁ first db₁ ∧ stats₁.cancelled = true ∧
      (sweeping g).Concludes db₁ looked₂ stats₂ second db₂ ∧ stats₂.cancelled = false ∧
      (sweeping g).Concludes db looked stats whole db' ∧ stats.cancelled = false ∧
      db₁.catalog.calls = [age] ∧ db₂.catalog.calls = age :: rest ∧
      db'.catalog.calls = age :: rest ∧ db₂.settings = db'.settings ∧ first.completed = 0 := by
  intro person record db age rest sweeping
  let units : List SweepUnit :=
    [⟨⟨"Person", "name"⟩, true⟩, ⟨⟨"Person", "nick"⟩, false⟩, ⟨⟨"Ship", "mass"⟩, false⟩]
  have hgeneration : (Generation.ofDefinitions {} 1 [person]).map (·.agenda db.settings) =
      .ok (⟨⟨"Person", "age"⟩, true⟩ :: units) := by
    decide +kernel
  obtain ⟨g, hok, hagenda⟩ := Generation.exists_of_map_ofDefinitions hgeneration
  have hnamed := Generation.named_of_ofDefinitions hok
  have hsweep : (sweeping g).sweep? = some (.start ⟨g, .empty⟩) := rfl
  have hset : .set ∉ db.settings.refused := List.not_mem_nil
  have hfits (settings : Settings) : (Sweep.start ⟨g, .empty⟩).Orderly g settings :=
    .start hnamed .empty settings
  have hlooked : [⟨⟨"Person", "age"⟩, true⟩] <+: g.agenda db.settings := ⟨units, hagenda.symm⟩
  obtain ⟨stats₁, first, db₁, hfirst⟩ :=
    Synchronizer.exists_concludes hnamed hsweep rfl (hfits _) hset rfl hlooked
  obtain ⟨-, hcancelled₁, hcarried₁⟩ := hfirst.spec_start hnamed hsweep hset rfl
  obtain ⟨hcalls₁, haccepts₁⟩ := hcarried₁.calls_and_failing
  obtain ⟨stats₂, second, db₂, hsecond⟩ := Synchronizer.exists_concludes hnamed hsweep rfl
    (hfits _) (hcarried₁.refused hset) haccepts₁ (List.prefix_refl (g.agenda db₁.settings))
  obtain ⟨-, hcancelled₂, -⟩ :=
    hsecond.spec_start hnamed hsweep (hcarried₁.refused hset) haccepts₁
  obtain ⟨stats, whole, db', hwhole⟩ := Synchronizer.exists_concludes hnamed hsweep rfl
    (hfits _) hset rfl (List.prefix_refl (g.agenda db.settings))
  obtain ⟨-, hcancelled, hcarried⟩ := hwhole.spec_start hnamed hsweep hset rfl
  have hends₂ : stats₂.cancelled = false := by simpa using hcancelled₂
  have hends : stats.cancelled = false := by simpa using hcancelled
  obtain ⟨-, hsettings, hcatalog, -, -, hcompleted⟩ := cancelled_sweep_resumes hok hset rfl hsweep
    hsweep hsweep hfirst hsecond hends₂ hwhole hends
  have hleft : [⟨⟨"Person", "age"⟩, true⟩] ≠ g.agenda db.settings := by
    rw [hagenda]
    simp [units]
  have hissued : (g.agenda db.settings).filterMap (·.asks db.settings) = age :: rest := by
    rw [hagenda]
    decide +kernel
  have hcalls := hcarried.calls_and_failing.1
  rw [hissued] at hcalls
  refine ⟨g, _, _, _, stats₁, stats₂, stats, first, second, whole, db₁, db₂, db', hok, hfirst,
    hcancelled₁.mpr hleft, hsecond, hends₂, hwhole, hends, ?_, ?_, hcalls, hsettings,
    hcompleted hleft⟩
  · rw [hcalls₁]
    decide +kernel
  · rw [hcatalog]
    exact hcalls

end LiveSchema
