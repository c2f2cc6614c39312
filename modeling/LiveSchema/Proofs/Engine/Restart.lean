import LiveSchema.CommandLine.Commands
import LiveSchema.Proofs.Files.Path
import LiveSchema.Proofs.Index.Accord
import LiveSchema.Proofs.Index.Convergence
import LiveSchema.Proofs.Index.Wanted
import LiveSchema.Proofs.Reload.Run

/-!
# LiveSchema.Proofs.Engine.Restart

Engines that are started one after the other over one record. A `Session` is an engine in a process
of its own: it begins with a catalog without indexes, knows nothing of the sessions before it but
what the directory of the record holds, reloads its schema once and waits for the sweep. Its schema
may have become any other one since the last session.

* `Session.ended_cases` — the two ways in which a session ends.
* `Session.updates_or_refused` — what it does to the record in either.
* `Session.reload_of_isCommand` — the `reload` command is a session, and keeps what it leaves.
* `restarts_are_incremental` — any number of sessions, and one more: only the difference between
  what was recorded and what the schema asks for (`Schema.Wants`) is created and dropped.

What a directory holds when it is opened is taken to be what was kept in it last.
-/

namespace LiveSchema

/-! ### An engine alone -/

/-- Without older coordinators, the run under way goes on and then the sweep. -/
theorem Engine.settle_of_alone {e : Engine} (h : e.retired = []) {c : Coordinator}
    {source : DefinitionSource} (hrun : e.coordinator.workOnRun e.source = (c, source)) :
    e.settle =
      { e with
        source := source
        db := (c.synchronizer.work e.db).2
        coordinator := { c.wakeAll with synchronizer := (c.synchronizer.work e.db).1 } } := by
  obtain ⟨before, db, retired, coordinator, callers⟩ := e
  obtain rfl : retired = [] := h
  rw [settle, coordinators, List.nil_append, Coordinator.workOnRuns, hrun]
  rfl

/-- A worker that is asked for a sweep at an open gate completes it. -/
theorem Synchronizer.work_synchronize (request : SyncRequest) {db : Database}
    (hopen : db.gate.closed = false) :
    ∃ stats, (Sweep.start request).Finishes db stats
        ((({} : Synchronizer).synchronize request).work db).2 ∧
      (stats.cancelled = false → stats.sequence ≤
        ((({} : Synchronizer).synchronize request).work db).1.completed) := by
  obtain ⟨stats, db', hrun⟩ := Sweep.exists_run_eq_finished (s := Sweep.start request) hopen
  -- no sweep is under way yet; the worker takes the request in its turn, and sweeps then
  have hadvance : (({} : Synchronizer).synchronize request).advance db =
      (({} : Synchronizer).synchronize request, db) := rfl
  have hturn : (({} : Synchronizer).synchronize request).turnIfScheduled =
      ({} : Synchronizer).goOn (.sweeping .worker (Sweep.start request)) := rfl
  unfold work
  rw [hadvance]
  dsimp only
  rw [hturn]
  dsimp only [advance, activity, goOn, RunGuard.handOver]
  rw [hrun]
  refine ⟨stats, Sweep.finishes_of_run hrun, fun hcancelled => ?_⟩
  show stats.sequence ≤ if stats.cancelled then 0 else max 0 stats.sequence
  rw [hcancelled, if_neg Bool.false_ne_true]
  exact Nat.le_max_right ..

theorem Coordinator.waitForSync?_of_completed {c : Coordinator} {sequence : Nat}
    (h : sequence ≤ c.synchronizer.completed) : c.waitForSync? sequence = some true := by
  rw [waitForSync?, Synchronizer.waitFor?, if_pos h, ite_self]

/-- A sweep leaves the settings in the store that they are in. -/
theorem Sweep.Finishes.persistent {s : Sweep} {db db' : Database} {stats : SweepStats}
    (h : s.Finishes db stats db') (hstored : ∃ stored, db.settings = .persistent stored) :
    ∃ stored, db'.settings = .persistent stored := by
  induction h with
  | done => exact hstored
  | gate _ _ ih => exact ih hstored
  | @step s db _ _ _ _ hstep _ ih =>
      -- only a statement that is carried out touches the settings, and it puts one value
      refine ih ?_
      rcases Sweep.step_cases hstep with ⟨statement, gate, -, -, hissue⟩ | ⟨_, _, -, -, rfl, -⟩ |
        ⟨_, _, -, -, -, rfl, -⟩
      · obtain ⟨stored, hstored⟩ := hstored
        obtain ⟨-, hsettings⟩ :=
          issue_database { s with statement := none } { db with gate := gate } statement
        rw [hissue] at hsettings
        rcases hsettings with ⟨hsame, -⟩ | ⟨hrecord, -⟩
        · exact ⟨stored, hsame.trans hstored⟩
        · rw [hstored, Progress.record_eq List.not_mem_nil] at hrecord
          rw [hrecord]
          exact Settings.exists_persistent_put stored _ _
      · exact hstored
      · exact hstored

/-! ### Sessions -/

/-- An engine in its own process: it works on a schema of its own, keeps its record in a directory,
and is not in testing mode. -/
structure Session where
  schema : List Definition
  config : EngineConfig
  /-- The directory of the record. -/
  path : String
  /-- Whether the schema can be reached. -/
  available : Bool := true
  /-- Whether reports about the types are refused. -/
  refusesReports : Bool := false
  works : config.testingMode = false
  inDirectory : config.storageType = .directory
  hasPath : config.ledgerPath = some path

namespace Session

variable (s : Session)

/-- What the engine reloads from. -/
def source : DefinitionSource where
  store := { Store.ofDefinitions s.schema with available := s.available }
  refusesReports := s.refusesReports

/-- The engine as it is started: with what the directory holds, and a catalog without indexes. -/
def start (stored : PersistentSettings) : Engine where
  source := s.source
  db := { settings := .persistent stored }
  coordinator := .ofConfig s.config

theorem create_eq (stored : PersistentSettings) :
    Engine.create s.config stored true s.source = .ok (s.start stored) := by
  rw [Engine.create, s.inDirectory, s.hasPath]
  rfl

/-- The engine after one reload and the sweep that follows, and what the caller was told. -/
def ended (stored : PersistentSettings) : Engine × Option ReloadOutcome :=
  (s.start stored).reloadOnce

/-- The outcome of the reload. -/
def outcome? (stored : PersistentSettings) : Option ReloadOutcome := (s.ended stored).2

/-- The statements that were issued. -/
def calls (stored : PersistentSettings) : List IndexStatement := (s.ended stored).1.db.catalog.calls

/-- What the directory holds afterwards. -/
def left (stored : PersistentSettings) : PersistentSettings :=
  match (s.ended stored).1.db.settings.contents with
  | .persistent stored => stored
  | .memory _ => stored

/-- What the directory holds after some sessions, which found it empty. -/
def recordAfter (sessions : List Session) : PersistentSettings :=
  sessions.foldl (fun stored s => s.left stored) .empty

/-- The generation that the engine makes of its schema. -/
def Makes (g : Generation) : Prop :=
  s.available = true ∧
    Generation.ofDefinitions (Coordinator.ofConfig s.config).compiler 1
      (Store.ofDefinitions s.schema).definitions = .ok g

variable {s}

/-- The coordinator of a session, once it was asked for a reload. -/
def asked (s : Session) : Coordinator := (Coordinator.ofConfig s.config).ask true

/-- The run of a session has nothing to make sure of, and nothing keeps it waiting. -/
theorem workOnRun_asked : s.asked.workOnRun s.source = s.asked.begun.endRun s.source := by
  have hsound : s.asked.flight.Sound := Flight.sound_empty.ask true
  rw [Coordinator.workOnRun_scheduled hsound rfl
      (show s.source.ensureBuiltins [] = .ok s.source from rfl),
    Coordinator.workOnRun_begun hsound rfl]
  rfl

/-- The run comes to its end, and then the sweep goes on that it asked for. -/
theorem ended_eq (stored : PersistentSettings) {c : Coordinator} {source : DefinitionSource}
    (h : s.asked.begun.endRun s.source = (c, source)) :
    s.ended stored =
      ({ source := source
         db := (c.synchronizer.work (s.start stored).db).2
         coordinator :=
          { c.wakeAll with synchronizer := (c.synchronizer.work (s.start stored).db).1 } },
        c.wakeAll.outcome? 0) := by
  have hended : s.ended stored =
      ({ s.start stored with coordinator := s.asked }.settle,
        { s.start stored with coordinator := s.asked }.settle.coordinator.outcome? 0) :=
    rfl
  rw [hended, Engine.settle_of_alone rfl (workOnRun_asked.trans h)]
  rfl

/-- Who asked is told how the run ended when he wakes. -/
theorem outcome?_ended {c : Coordinator} {result : RunResult}
    (h : c.flight = s.asked.begun.flight.finish 0 result) :
    c.wakeAll.outcome? 0 = some (.ofOwnRun result) := by
  rw [Coordinator.outcome?, Coordinator.wakeAll, h]
  rfl

/-- A run that fails asks for no sweep, so nothing is left to do. -/
theorem ended_of_failed (stored : PersistentSettings) {compiles : Nat} {error : ReloadError}
    {source : DefinitionSource}
    (h : s.asked.begun.endRun s.source =
      ({ s.asked.begun with compiles := compiles }.finish (.error error), source)) :
    (∃ error, s.outcome? stored = some (.failed error)) ∧
      (s.ended stored).1.db = (s.start stored).db := by
  have houtcome := @outcome?_ended s
    ({ s.asked.begun with compiles := compiles }.finish (.error error)) (.error error) rfl
  rw [outcome?, ended_eq stored h]
  exact ⟨⟨error, houtcome⟩, rfl⟩

/-- A session ends in one of two ways. -/
theorem ended_cases (stored : PersistentSettings) :
    ((∀ g, ¬ s.Makes g) ∧ (∃ error, s.outcome? stored = some (.failed error)) ∧
      (s.ended stored).1.db = (s.start stored).db) ∨
    ∃ g removed stats, s.Makes g ∧ s.outcome? stored = some (.committed g) ∧
      (Sweep.start ⟨g, removed⟩).Finishes (s.start stored).db stats (s.ended stored).1.db ∧
      (stats.cancelled = false →
        stats.sequence ≤ (s.ended stored).1.coordinator.synchronizer.completed) := by
  have hout : s.source.handedOut = (Store.ofDefinitions s.schema).definitions :=
    List.append_nil _
  rcases Coordinator.endRun_cases s.asked.begun s.source with ⟨ha, error, hend⟩ |
    ⟨ha, hnone, error, compiles, -, hend⟩ | ⟨ha, g, hg, hend⟩
  · refine .inl ⟨fun g hg => ?_, ended_of_failed stored hend⟩
    exact absurd (hg.1.symm.trans ha) (by decide)
  · rw [hout] at hnone
    exact .inl ⟨fun g hg => hnone g hg.2, ended_of_failed stored hend⟩
  · rw [hout] at hg
    rw [Coordinator.followUp_eq s.works] at hend
    have hopen : (s.start stored).db.gate.closed = false := rfl
    obtain ⟨stats, hfinishes, hcompleted⟩ := Synchronizer.work_synchronize
      ⟨g, s.asked.begun.current.removedIn g⟩ hopen
    refine .inr ⟨g, s.asked.begun.current.removedIn g, stats, ⟨ha, hg⟩, ?_⟩
    rw [outcome?, ended_eq stored hend]
    refine ⟨?_, hfinishes, hcompleted⟩
    dsimp only
    exact @outcome?_ended s _ (.ok g) rfl

/-- The record is in the directory at all times. -/
theorem settings_ended (stored : PersistentSettings) :
    (s.ended stored).1.db.settings = .persistent (s.left stored) := by
  obtain ⟨stored', hstored'⟩ : ∃ stored', (s.ended stored).1.db.settings = .persistent stored' := by
    rcases ended_cases (s := s) stored with ⟨-, -, hdb⟩ | ⟨_, _, _, -, -, hfinishes, -⟩
    · exact ⟨stored, hdb ▸ rfl⟩
    · exact hfinishes.persistent ⟨stored, rfl⟩
  rw [left, hstored']
  rfl

/-! ### What a session leaves -/

/-- What a session does whose reload ends with a new generation: `before` is what was recorded, and
`after` is what is recorded now. -/
structure Updates (s : Session) (stored : PersistentSettings) (before after : List IndexKey) :
    Prop where
  /-- The sweep for the generation is complete as well. -/
  committed : ∃ g, s.outcome? stored = some (.committed g) ∧
    (s.ended stored).1.coordinator.waitForSync? g.sequence = some true
  record_nodup : after.Nodup
  record : ∀ k, k ∈ after ↔ Schema.Wants s.schema k
  /-- No statement is issued twice. -/
  calls_nodup : (s.calls stored).Nodup
  create : ∀ k, .create k ∈ s.calls stored ↔ Schema.Wants s.schema k ∧ k ∉ before
  drop : ∀ k, .drop k ∈ s.calls stored ↔ k ∈ before ∧ ¬ Schema.Wants s.schema k

/-- A session whose reload fails does nothing. -/
structure Refused (s : Session) (stored : PersistentSettings) : Prop where
  failed : ∃ error, s.outcome? stored = some (.failed error)
  calls : s.calls stored = []
  left : s.left stored = stored

/-- A schema that makes no generation is refused. -/
theorem refused_of_not_makes (stored : PersistentSettings) (h : ∀ g, ¬ s.Makes g) :
    s.Refused stored := by
  rcases ended_cases (s := s) stored with ⟨-, hfailed, hdb⟩ | ⟨g, -, -, hg, -⟩
  · refine ⟨hfailed, ?_, ?_⟩
    · rw [calls, hdb]
      rfl
    · rw [left, hdb]
      rfl
  · exact absurd hg (h g)

/-- The catalog of a session rejects nothing. -/
theorem not_mem_rejected_start (stored : PersistentSettings) (k : IndexKey) :
    k ∉ (s.start stored).db.catalog.rejected :=
  fun hk => absurd (Catalog.mem_rejected.mp hk) nofun

/-- A schema that makes a generation has the indexes brought in line with it, and what the directory
holds stays text. -/
theorem converged_of_makes {stored : PersistentSettings}
    (ht : (SettingsContents.persistent stored).IsText) (h : ∃ g, s.Makes g) :
    ∃ g stats before, s.Makes g ∧ s.outcome? stored = some (.committed g) ∧
      (s.ended stored).1.coordinator.waitForSync? g.sequence = some true ∧
      Ledger.entries (.persistent stored) = .ok before ∧
      Converged g before.toFinset (s.start stored).db stats (s.ended stored).1.db ∧
      (SettingsContents.persistent (s.left stored)).IsText := by
  obtain ⟨g, removed, stats, hg, houtcome, hfinishes, hcompleted⟩ :=
    (ended_cases (s := s) stored).resolve_left fun hnone => h.elim hnone.1
  have hs : (s.start stored).db.settings.Readable := Settings.readable_persistent ht
  have hnamed := Generation.named_of_ofDefinitions hg.2
  obtain ⟨before, hbefore, -, hrecorded⟩ := Ledger.exists_entries hs
  have hledgered : ∀ k, k ∈ before.toFinset ↔
      Ledger.Recorded (s.start stored).db.settings k := fun k => by
    rw [List.mem_toFinset, hrecorded]
  obtain ⟨units, hunits, hswept⟩ := exists_unitsOf hnamed removed hs hledgered
  rw [Sweep.outcome_finishes hfinishes] at hswept
  have hconverged := hunits.converged hnamed hs hswept
  have htext := hswept.readable.text
  rw [settings_ended] at htext
  refine ⟨g, stats, before, hg, houtcome, ?_, hbefore, hconverged, htext⟩
  refine Coordinator.waitForSync?_of_completed ?_
  rw [← hconverged.sequence.1]
  exact hcompleted hconverged.sequence.2

/-- A schema that makes a generation brings the record in line with what it wants. -/
theorem updates_of_makes {stored : PersistentSettings}
    (ht : (SettingsContents.persistent stored).IsText) (h : ∃ g, s.Makes g) :
    ∃ before after, Ledger.entries (.persistent stored) = .ok before ∧
      Ledger.entries (.persistent (s.left stored)) = .ok after ∧
        s.Updates stored before after := by
  obtain ⟨g, stats, before, hg, houtcome, hsynced, hbefore, hconverged, htext⟩ :=
    converged_of_makes ht h
  have hwants : ∀ k, k ∈ g.wantedIndexes ↔ Schema.Wants s.schema k := fun k =>
    Generation.mem_wantedIndexes_iff_wants hg.2
  obtain ⟨after, hafter, hnodup, -⟩ :=
    Ledger.exists_entries (Settings.readable_persistent htext)
  obtain ⟨entries, hentries, hrecord⟩ := hconverged.record
  rw [settings_ended, hafter] at hentries
  obtain rfl := Except.ok.inj hentries
  obtain ⟨issued, hissued, hissuedNodup, hmem⟩ := hconverged.exists_issued
  -- nothing was issued on the catalog before the sweep
  have hcalls : s.calls stored = issued := hissued
  simp only [Finset.mem_sdiff, hwants, List.mem_toFinset] at hmem
  exact
    ⟨before, after, hbefore, hafter,
      { committed := ⟨g, houtcome, hsynced⟩
        record_nodup := hnodup
        record := fun k => by
          rw [hrecord, if_neg (not_mem_rejected_start stored k), hwants]
        calls_nodup := hcalls ▸ hissuedNodup
        create := fun k => hcalls ▸ (hmem k).1
        drop := fun k => hcalls ▸ (hmem k).2 }⟩

/-- Whether the reload ends with a generation or fails, what the session did is settled; and what is
recorded after one that made a generation is what its schema asks for. -/
theorem updates_or_refused {stored : PersistentSettings}
    (ht : (SettingsContents.persistent stored).IsText) :
    ∃ before after, Ledger.entries (.persistent stored) = .ok before ∧
      Ledger.entries (.persistent (s.left stored)) = .ok after ∧
      (s.Updates stored before after ∨ s.Refused stored) ∧
      ((∃ g, s.Makes g) → ∀ k, k ∈ after ↔ Schema.Wants s.schema k) := by
  by_cases h : ∃ g, s.Makes g
  · obtain ⟨before, after, hbefore, hafter, hupdates⟩ := updates_of_makes ht h
    exact ⟨before, after, hbefore, hafter, .inl hupdates, fun _ => hupdates.record⟩
  · have hrefused := refused_of_not_makes stored (not_exists.mp h)
    obtain ⟨before, hbefore, -⟩ := Ledger.exists_entries (Settings.readable_persistent ht)
    refine ⟨before, before, hbefore, ?_, .inr hrefused, fun hmakes => absurd hmakes h⟩
    rw [hrefused.left]
    exact hbefore

/-- Either way a session leaves text. -/
theorem isText_left {stored : PersistentSettings}
    (ht : (SettingsContents.persistent stored).IsText) :
    (SettingsContents.persistent (s.left stored)).IsText := by
  by_cases h : ∃ g, s.Makes g
  · obtain ⟨_, _, _, -, -, -, -, -, htext⟩ := converged_of_makes ht h
    exact htext
  · rw [(refused_of_not_makes stored (not_exists.mp h)).left]
    exact ht

/-! ### One session after the other -/

theorem recordAfter_append (earlier : List Session) (s : Session) :
    recordAfter (earlier ++ [s]) = s.left (recordAfter earlier) := by
  rw [recordAfter, List.foldl_append]
  rfl

theorem isText_recordAfter (sessions : List Session) :
    (SettingsContents.persistent (recordAfter sessions)).IsText := by
  induction sessions using List.reverseRecOn with
  | nil => exact fun key value h => nomatch h
  | append_singleton earlier s ih =>
      rw [recordAfter_append]
      exact isText_left ih

/-- Whether a schema makes a generation is settled by the schema and the store, not by the rest of
the configuration. -/
theorem makes_congr {t : Session} (hschema : t.schema = s.schema)
    (havailable : t.available = true → s.available = true) (h : ∃ g, t.Makes g) :
    ∃ g, s.Makes g := by
  obtain ⟨g, ha, hg⟩ := h
  rw [hschema] at hg
  -- two configurations differ in the prefix of qualified names, and in no base
  have hbases : (Coordinator.ofConfig s.config).compiler.addedBases =
      (Coordinator.ofConfig t.config).compiler.addedBases := rfl
  obtain ⟨g', hg'⟩ := Generation.exists_ofDefinitions_congr hbases hg 1
  exact ⟨g', havailable ha, hg'⟩

/-- A session on the schema that the record is in line with issues nothing. -/
theorem calls_eq_nil_of_inLine {t : Session} {stored : PersistentSettings}
    (ht : (SettingsContents.persistent stored).IsText) {entries : List IndexKey}
    (hentries : Ledger.entries (.persistent stored) = .ok entries)
    (hrecord : (∃ g, t.Makes g) → ∀ k, k ∈ entries ↔ Schema.Wants t.schema k) :
    t.calls stored = [] := by
  by_cases h : ∃ g, t.Makes g
  · obtain ⟨before, after, hbefore, -, hupdates⟩ := updates_of_makes ht h
    obtain rfl := Except.ok.inj (hbefore.symm.trans hentries)
    -- a statement would be about an index on which the record and the schema differ
    refine List.eq_nil_iff_forall_not_mem.mpr fun statement hmem => ?_
    cases statement with
    | create k =>
        obtain ⟨hwants, hnew⟩ := (hupdates.create k).mp hmem
        exact hnew ((hrecord h k).mpr hwants)
    | drop k =>
        obtain ⟨hold, hunwanted⟩ := (hupdates.drop k).mp hmem
        exact hunwanted ((hrecord h k).mp hold)
  · exact (refused_of_not_makes stored (not_exists.mp h)).calls

/-! ### The command -/

/-- The `reload` command is a session, as far as files, variables and options go: they name what the
session works on, and the directory of the record holds `stored` when it is opened. -/
structure IsCommand (s : Session) (stored : PersistentSettings) (w : Workspace)
    (env : Environment) (options : CommandLine.ReloadOptions) (opened : Workspace) : Prop where
  configured : CommandLine.configure w env options = .ok s.config
  schema : CommandLine.openStore w options.schema = .ok s.source.store
  keepsReports : s.refusesReports = false
  directory : CommandLine.openSettings w s.path = (.ok stored, opened)

/-- What the command puts out: the statements and the record after a reload that ended with a
generation, or why there is none. -/
def Reports (s : Session) (stored : PersistentSettings) (after : List IndexKey)
    (createdAt : String) (format : ReportFormat) : Except CommandFailure String → Prop
  | .ok output => ∃ (g : Generation) (report : ReloadReport),
      s.outcome? stored = some (.committed g) ∧
      report.statements = s.calls stored ∧ report.ledger = after ∧
        output = report.text createdAt format
  | .error failure => ∃ error, s.outcome? stored = some (.failed error) ∧ failure = .reload error

theorem hasPath_of_openStore {w : Workspace} {path : String} {store : Store}
    (h : CommandLine.openStore w path = .ok store) : w.hasPath path = true := by
  unfold CommandLine.openStore Workspace.read at h
  unfold Workspace.hasPath
  cases hfind : w.find path with
  | ok entry => rfl
  | error fault =>
      rw [hfind] at h
      cases h

/-- The command works on the record as its session does, and keeps what the session leaves. -/
theorem reload_of_isCommand {stored : PersistentSettings} {w opened : Workspace}
    {env : Environment} {options : CommandLine.ReloadOptions}
    (h : s.IsCommand stored w env options opened) {after : List IndexKey}
    (hafter : Ledger.entries (.persistent (s.left stored)) = .ok after) (createdAt : String) :
    s.Reports stored after createdAt options.format
        (CommandLine.reload w env createdAt options).1 ∧
      (CommandLine.reload w env createdAt options).2 = opened.keep s.path (s.left stored) := by
  have hdirectory : CommandLine.ledgerDirectory? s.config = some s.path := by
    rw [CommandLine.ledgerDirectory?, s.inDirectory]
    exact s.hasPath
  have hsource : ({ store := s.source.store } : DefinitionSource) = s.source := by
    rw [source, h.keepsReports]
  have hpath : ¬ (decide (s.config.storageType = .directory) && s.config.ledgerPath.isNone) =
      true := by
    rw [s.hasPath]
    simp
  have hfound : ¬ (!w.hasPath options.schema) = true := by
    rw [hasPath_of_openStore h.schema]
    simp
  have hkeep : CommandLine.keepSettings opened (some s.path) (s.ended stored).1.db.settings =
      opened.keep s.path (s.left stored) := by
    rw [settings_ended]
    rfl
  rw [CommandLine.reload, h.configured]
  dsimp only
  rw [if_neg hpath, if_neg hfound, h.schema]
  dsimp only
  rw [hdirectory, Option.elim_some, h.directory]
  dsimp only
  rw [hsource, s.create_eq]
  dsimp only
  -- from here on the command reads what its session came to
  rw [show (s.start stored).reloadOnce = s.ended stored from rfl, hkeep]
  rcases ended_cases (s := s) stored with ⟨-, ⟨error, hfailed⟩, -⟩ | ⟨g, -, -, -, hcommitted, -⟩
  · rw [show (s.ended stored).2 = some (.failed error) from hfailed]
    exact ⟨⟨error, hfailed, rfl⟩, rfl⟩
  · rw [show (s.ended stored).2 = some (.committed g) from hcommitted, CommandLine.reloadReport,
      settings_ended, hafter]
    exact ⟨⟨g, _, hcommitted, rfl, rfl, rfl⟩, rfl⟩

end Session

/-- **A persistent record makes restarts incremental.** After any sessions over one record, and then
one more: if its reload ends with a generation, then the record is what its schema asks for, and
exactly the statements that this takes were issued, each once; if the reload fails, nothing was
done. A next session on the same schema issues none. The `reload` command does what its session
does. -/
theorem restarts_are_incremental (earlier : List Session) (s : Session) :
    Engine.create s.config (Session.recordAfter earlier) true s.source =
        .ok (s.start (Session.recordAfter earlier)) ∧
    ∃ before after,
      Ledger.entries (.persistent (Session.recordAfter earlier)) = .ok before ∧
      Ledger.entries (.persistent (Session.recordAfter (earlier ++ [s]))) = .ok after ∧
      (s.Updates (Session.recordAfter earlier) before after ∨
        s.Refused (Session.recordAfter earlier)) ∧
      (∀ t : Session, t.schema = s.schema → (t.available = true → s.available = true) →
        t.calls (Session.recordAfter (earlier ++ [s])) = []) ∧
      ∀ w env options opened createdAt,
        s.IsCommand (Session.recordAfter earlier) w env options opened →
          s.Reports (Session.recordAfter earlier) after createdAt options.format
              (CommandLine.reload w env createdAt options).1 ∧
            (CommandLine.reload w env createdAt options).2 =
              opened.keep s.path (Session.recordAfter (earlier ++ [s])) := by
  have ht := Session.isText_recordAfter earlier
  rw [Session.recordAfter_append]
  refine ⟨s.create_eq _, ?_⟩
  obtain ⟨before, after, hbefore, hafter, hsession, hinLine⟩ := s.updates_or_refused ht
  refine ⟨before, after, hbefore, hafter, hsession, fun t hschema havailable => ?_,
    fun w env options opened createdAt h => Session.reload_of_isCommand h hafter createdAt⟩
  refine Session.calls_eq_nil_of_inLine (Session.isText_left ht) hafter fun hmakes => ?_
  rw [hschema]
  exact hinLine (Session.makes_congr hschema havailable hmakes)

/-- A session on a node type that has a name, which is indexed, and another property. -/
def Session.onPerson (property : PropertyDeclaration) : Session where
  schema := [((Definition.node "Person").withProperty
    { name := "name", declaredType := "String", indexed := true }).withProperty property]
  config := .persistent "record"
  path := "record"
  works := rfl
  inDirectory := rfl
  hasPath := rfl

/-- The first of two sessions on it: the other property is an index of nodes that lack it. -/
def Session.person : Session :=
  .onPerson { name := "age", declaredType := "Integer", indexedWhenEmpty := true }

/-- The type in a schema file, up to its properties. -/
def personLine : String := "[\x7b\"kind\":\"node\",\"name\":\"Person\",\"properties\":["

/-- Its name in a schema file. -/
def nameLine : String := "\x7b\"name\":\"name\",\"declared_type\":\"String\",\"indexed\":true\x7d,"

/-- The other property in a schema file, up to the end of the file. -/
def ageLine : String :=
  "\x7b\"name\":\"age\",\"declared_type\":\"Integer\",\"indexed_when_empty\":true\x7d]\x7d]"

/-- Its schema as a file holds it. -/
def personText : String := personLine ++ nameLine ++ ageLine

/-- The file, and the directory of the record, with nothing recorded so far. -/
def personFiles : Workspace :=
  ((({} : Workspace).addFile ["schema"] personText).put ["record"] (.directory .empty)).put
    ["record", "blobs"] (.directory .empty)

/-- The options that name both. -/
def personOptions : CommandLine.ReloadOptions where
  schema := "schema"
  path := some "record"
  storage := some .directory
  config := none
  testing := false
  format := .json

/-- The command on these files is the session. -/
theorem Session.isCommand_person :
    Session.person.IsCommand .empty personFiles .empty personOptions
      (CommandLine.openSettings personFiles "record").2 where
  configured := rfl
  schema := by
    have hread : personFiles.read "schema" = .ok personText := by
      simp only [Workspace.read, Workspace.find, Workspace.locate, Path.ofText, Path.splitOn_slash,
        Path.isWhole, String.contains_char_eq]
      decide +kernel
    have hdecode : (decodeText Store.definitionsDecoder personText).toOption =
        some Session.person.schema := by
      -- line by line, since a long text is slow to take apart
      rw [decodeText, Json.Text.ofString, personText, String.toList_append, String.toList_append]
      decide +kernel
    rw [CommandLine.openStore, show personOptions.schema = "schema" from rfl, hread]
    dsimp only
    rw [Store.ofText]
    cases htext : decodeText Store.definitionsDecoder personText with
    | error cause =>
        rw [htext] at hdecode
        cases hdecode
    | ok definitions =>
        rw [htext] at hdecode
        rw [Option.some.inj hdecode]
        rfl
  keepsReports := rfl
  directory := by
    refine Prod.ext ?_ rfl
    show (CommandLine.openSettings personFiles "record").1 = .ok .empty
    simp only [CommandLine.openSettings, Workspace.openDirectory, SettingsDirectory.opening,
      SettingsDirectory.makeBlobs, SettingsDirectory.makeLayout, SettingsDirectory.findLog,
      SettingsDirectory.readSummary, SettingsDirectory.write, SettingsDirectory.look,
      SettingsDirectory.clearBlobs, Workspace.hasPath, Workspace.find, Workspace.makeDirectories,
      Workspace.locate, Path.ofText, Path.endsInName, Path.splitOn_slash, Path.isWhole,
      String.contains_char_eq]
    decide +kernel

/-- Between two sessions one indexed property has come and another one has gone; then the schema
stays as it is. The first session is one of the command. -/
theorem restarts_are_incremental_person :
    let first := Session.person
    let second := Session.onPerson { name := "mail", declaredType := "String", indexed := true }
    (second.calls (Session.recordAfter [first])).Perm
        [.create ⟨"Person", "mail"⟩, .drop ⟨"Person", "age"⟩] ∧
      second.calls (Session.recordAfter [first, second]) = [] ∧
      ∃ output, CommandLine.reload personFiles .empty "" personOptions =
        (.ok output, (CommandLine.openSettings personFiles "record").2.keep "record"
          (Session.recordAfter [first])) := by
  intro first second
  have hwants : ∀ (s : Session) (wanted : Finset IndexKey),
      (Generation.ofDefinitions {} 1 (Store.ofDefinitions s.schema).definitions).map
        (·.wantedIndexes) = .ok wanted → ∀ k, Schema.Wants s.schema k ↔ k ∈ wanted := by
    intro s wanted h k
    obtain ⟨g, hg, rfl⟩ := Generation.exists_of_map_ofDefinitions h
    exact (Generation.mem_wantedIndexes_iff_wants hg).symm
  have hfirst := hwants first {⟨"Person", "name"⟩, ⟨"Person", "age"⟩} (by decide)
  have hsecond := hwants second {⟨"Person", "name"⟩, ⟨"Person", "mail"⟩} (by decide)
  have hcommits : ∀ {s : Session} {stored},
      ((s.outcome? stored).bind (·.error?)).isNone = true →
        ¬ ∃ error, s.outcome? stored = some (.failed error) := by
    rintro s stored hnone ⟨error, hfailed⟩
    rw [hfailed] at hnone
    cases hnone
  have hcommitted := @hcommits first .empty (by decide +kernel)
  obtain ⟨-, _, after, -, hafter, hupdated, -, hcommand⟩ := restarts_are_incremental [] first
  obtain ⟨-, before, _, hbefore, -, hupdated', hagain, -⟩ :=
    restarts_are_incremental [first] second
  obtain rfl := Except.ok.inj (hafter.symm.trans hbefore)
  have hrecord := (hupdated.resolve_right fun h => hcommitted h.failed).record
  have hsession := hupdated'.resolve_right fun h => hcommits (by decide +kernel) h.failed
  obtain ⟨hreports, hkept⟩ := hcommand _ _ _ _ "" Session.isCommand_person
  refine ⟨?_, hagain second rfl id, ?_⟩
  case refine_2 =>
    cases hout : (CommandLine.reload personFiles .empty "" personOptions).1 with
    | ok output => exact ⟨output, Prod.ext hout hkept⟩
    | error failure =>
        rw [hout] at hreports
        obtain ⟨error, hfailed, -⟩ := hreports
        exact absurd ⟨error, hfailed⟩ hcommitted
  refine (List.perm_ext_iff_of_nodup hsession.calls_nodup (by decide)).mpr fun statement => ?_
  have honly : ∀ (a b c : IndexKey), b ≠ a → b ≠ c → ∀ {k},
      (k = a ∨ k = b) ∧ ¬ (k = a ∨ k = c) ↔ k = b := by
    intro a b c hab hbc k
    constructor
    · exact fun h => h.1.resolve_left fun hk => h.2 (.inl hk)
    · rintro rfl
      exact ⟨.inr rfl, not_or.mpr ⟨hab, hbc⟩⟩
  cases statement with
  | create k =>
      rw [hsession.create, hrecord, hfirst, hsecond]
      simpa using honly ⟨"Person", "name"⟩ ⟨"Person", "mail"⟩ ⟨"Person", "age"⟩
        (by decide) (by decide)
  | drop k =>
      rw [hsession.drop, hrecord, hfirst, hsecond]
      simpa using honly ⟨"Person", "name"⟩ ⟨"Person", "age"⟩ ⟨"Person", "mail"⟩
        (by decide) (by decide)

end LiveSchema
