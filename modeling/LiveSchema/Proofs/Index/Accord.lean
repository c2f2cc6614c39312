import LiveSchema.Proofs.Index.Stages

/-!
# LiveSchema.Proofs.Index.Accord

The record and the catalog agree. They are changed one after the other, and only if the statement
was not rejected, so they name the same indexes after every step of a sweep: also of one that is
cancelled on its way, and however many sweeps there were before it, for whatever generations
(`Database.InAccord`). A statement that waits was decided on by what the record said, and nothing
else touches its index meanwhile. So no statement is issued in vain: an index that is to be created
is not there, and one that is to be dropped is (`Sweep.Careful`).

`record_agrees_with_catalog` says it of all that can happen to a database that is swept
(`SweepEvent`), from one without indexes on.
-/

namespace LiveSchema

/-! ### What can happen -/

/-- What can happen to a database that is swept. -/
inductive SweepEvent where
  /-- A sweep for the generation of some definitions begins, if they compile and none is under
  way. -/
  | start (c : Compiler) (sequence : Nat) (definitions : List Definition) (removed : NameSet)
  /-- The sweep under way takes a step, or stops if it is cancelled. -/
  | step (cancelled : Bool)
  /-- From now on the statements about an index are rejected. -/
  | failOn (key : IndexKey)
  | clearFailures
  | setGate (gate : Gate)

/-- A database, and the sweep that is under way on it. -/
structure Sweeping where
  db : Database
  sweep : Option Sweep := none

namespace Sweeping

/-- One thing happens. -/
def after (w : Sweeping) : SweepEvent → Sweeping
  | .start c sequence definitions removed =>
    match w.sweep, Generation.ofDefinitions c sequence definitions with
    | none, .ok g => { w with sweep := some (.start ⟨g, removed⟩) }
    | _, _ => w
  | .step cancelled =>
    match w.sweep with
    | none => w
    | some s =>
      match s.step cancelled w.db with
      | .more s db => ⟨db, some s⟩
      | .blocked => w
      | .finished _ => { w with sweep := none }
  | .failOn key => { w with db := { w.db with catalog := w.db.catalog.failOn key } }
  | .clearFailures => { w with db := { w.db with catalog := w.db.catalog.clearFailures } }
  | .setGate gate => { w with db := { w.db with gate := gate } }

/-- What has become of a database after all that happened to it. -/
def run (db : Database) (events : List SweepEvent) : Sweeping := events.foldl after ⟨db, none⟩

end Sweeping

/-! ### What a step keeps -/

/-- The record names the indexes of the catalog, and every question to it is answered. -/
structure Database.InAccord (db : Database) : Prop where
  readable : db.settings.Readable
  agree : ∀ k, Ledger.Recorded db.settings k ↔ db.catalog.has k = true

/-- What a sweep has found is what it looked for, and the statement that waits is not in vain. -/
structure Sweep.Careful (s : Sweep) (db : Database) : Prop where
  stages : ∀ stage ∈ s.stages, stage.Sound
  units : ∀ u ∈ s.units, u.key.Dotless
  statement : ∀ statement, s.statement = some statement →
    statement.key.Dotless ∧ db.catalog.has statement.key = !statement.isCreate

namespace Sweep

variable {s s' : Sweep} {db db' : Database}

/-- Cancelling a sweep ends it or makes no difference. -/
theorem more_of_step {cancelled : Bool} (h : s.step cancelled db = .more s' db') :
    s.step false db = .more s' db' := by
  cases cancelled with
  | false => exact h
  | true =>
      unfold step at h ⊢
      split at h <;> first | exact h | cases h

/-- The effect of a statement on the database. -/
theorem issue_database (s : Sweep) (db : Database) (statement : IndexStatement) :
    (s.issue db statement).2.catalog.calls = db.catalog.calls ++ [statement] ∧
      (((s.issue db statement).2.settings = db.settings ∧
          ∀ k, (s.issue db statement).2.catalog.has k = db.catalog.has k) ∨
        ((s.issue db statement).2.settings = record db.settings statement ∧
          ∀ k, (s.issue db statement).2.catalog.has k =
            if k = statement.key then statement.isCreate else db.catalog.has k)) := by
  unfold issue Catalog.issue
  by_cases hfails : db.catalog.failing.contains statement.key = true
  · rw [if_pos hfails]
    exact ⟨rfl, .inl ⟨rfl, fun _ => rfl⟩⟩
  · rw [if_neg hfails]
    refine ⟨by cases statement <;> rfl, .inr ⟨rfl, fun k => ?_⟩⟩
    exact Progress.has_apply _ statement k

end Sweep

namespace Database.InAccord

variable {db : Database}

/-- The record follows the catalog. -/
theorem issue (h : db.InAccord) (s : Sweep) {statement : IndexStatement}
    (hk : statement.key.Dotless) : (s.issue db statement).2.InAccord := by
  obtain ⟨-, ⟨hsettings, hhas⟩ | ⟨hsettings, hhas⟩⟩ := s.issue_database db statement
  · exact ⟨hsettings ▸ h.readable, fun k => by rw [hsettings, hhas, h.agree]⟩
  · have hrecord := Progress.record_eq (h.readable.allowed .set (by decide)) statement
    rw [hrecord] at hsettings
    refine ⟨hsettings ▸ h.readable.put _ _, fun k => ?_⟩
    rw [hsettings, hhas, Ledger.recorded_put_iff hk]
    by_cases hkey : k = statement.key
    · cases statement <;> simp [hkey, IndexStatement.isCreate]
    · simp [hkey, h.agree]

end Database.InAccord

/-- A unit asks for nothing in vain. -/
theorem SweepUnit.has_of_statement? {u : SweepUnit} {db : Database} (hdb : db.InAccord)
    (hu : u.key.Dotless) {statement : IndexStatement}
    (h : u.statement? db.settings = some statement) :
    statement.key.Dotless ∧ db.catalog.has statement.key = !statement.isCreate := by
  cases statement with
  | create k =>
      obtain ⟨rfl, -, hrec⟩ := (SweepUnit.statement?_eq_create_iff hu).mp h
      rw [hdb.agree, Bool.not_eq_true] at hrec
      exact ⟨hu, hrec⟩
  | drop k =>
      obtain ⟨rfl, -, hrec⟩ := (SweepUnit.statement?_eq_drop_iff hu).mp h
      exact ⟨hu, (hdb.agree u.key).mp hrec⟩

namespace Sweep.Careful

variable {s s' : Sweep} {db db' : Database}

theorem start {g : Generation} (hg : g.Named) (removed : NameSet) (db : Database) :
    (Sweep.start ⟨g, removed⟩).Careful db where
  stages := sound_stages hg removed
  units := fun _ hu => absurd hu List.not_mem_nil
  statement := fun _ h => nomatch h

theorem lookAt (hdb : db.InAccord) (h : s.Careful db) (hnone : s.statement = none) {u : SweepUnit}
    (hu : u.key.Dotless) : (s.lookAt db.settings u).Careful db := by
  obtain ⟨hasks, -, hunits, hstages⟩ := s.lookAt_spec db.settings u hnone
  refine ⟨hstages ▸ h.stages, hunits ▸ h.units, fun statement hst => ?_⟩
  rw [hasks, SweepUnit.asks_eq_statement? hdb.readable] at hst
  exact u.has_of_statement? hdb hu hst

/-- The units of a stage are about indexes that can be told from their keys. -/
theorem enter (h : s.Careful db) {stage : SweepStage} (hstage : stage.Sound)
    (hunits : s.units = []) : (s.enter db.settings stage).Careful db := by
  obtain ⟨hfound, -, hstages, hstatement⟩ := enter_spec s db.settings stage hunits
  refine ⟨hstages ▸ h.stages, fun u hu => ?_, hstatement ▸ h.statement⟩
  rw [hfound] at hu
  exact (SweepStage.hasUnit_of_mem hstage hu).dotless hstage

/-- One step of a sweep: record and catalog stay in accord, and if a statement is issued, it is not
in vain. -/
theorem step {cancelled : Bool} (hdb : db.InAccord) (h : s.Careful db)
    (hstep : s.step cancelled db = .more s' db') :
    db'.InAccord ∧ s'.Careful db' ∧
      (db'.catalog.calls = db.catalog.calls ∨
        ∃ statement, db'.catalog.calls = db.catalog.calls ++ [statement] ∧
          db.catalog.has statement.key = !statement.isCreate) := by
  rcases step_cases (more_of_step hstep) with ⟨statement, gate, hst, -, hissue⟩ |
    ⟨u, units, hst, hun, rfl, rfl⟩ | ⟨stage, stages, -, hun, hsg, rfl, rfl⟩
  · -- the statement that waited is issued: what made it worth deciding on still holds
    obtain ⟨hk, hhas⟩ := h.statement statement hst
    have hgate : ({ db with gate := gate } : Database).InAccord := ⟨hdb.readable, hdb.agree⟩
    obtain ⟨-, hunits, hstages, hnone⟩ :=
      issue_frame { s with statement := none } { db with gate := gate } statement
    have haccord := hgate.issue { s with statement := none } hk
    have hcalls :=
      (issue_database { s with statement := none } { db with gate := gate } statement).1
    rw [hissue] at hunits hstages hnone haccord hcalls
    refine ⟨haccord, ⟨?_, ?_, ?_⟩, .inr ⟨statement, hcalls, hhas⟩⟩
    · rw [hstages]
      exact h.stages
    · rw [hunits]
      exact h.units
    · rw [hnone]
      exact fun _ hwaiting => nomatch hwaiting
  · -- the next unit is looked at, and the next stage entered, with the database as it is
    have hrest : ({ s with units := units } : Sweep).Careful db' :=
      ⟨h.stages, fun v hv => h.units v (hun ▸ List.mem_cons_of_mem u hv), h.statement⟩
    exact ⟨hdb, hrest.lookAt hdb hst (h.units u (hun ▸ List.mem_cons_self)), .inl rfl⟩
  · have hrest : ({ s with stages := stages } : Sweep).Careful db' :=
      ⟨fun a ha => h.stages a (hsg ▸ List.mem_cons_of_mem stage ha), h.units, h.statement⟩
    exact ⟨hdb, hrest.enter (h.stages stage (hsg ▸ List.mem_cons_self)) hun, .inl rfl⟩

end Sweep.Careful

/-! ### Whatever happens -/

namespace Sweeping

/-- Record and catalog are in accord, and the sweep under way is careful. -/
structure Sound (w : Sweeping) : Prop where
  accord : w.db.InAccord
  careful : ∀ s, w.sweep = some s → s.Careful w.db

/-- Nothing but settings and indexes counts. -/
theorem Sound.congr {w : Sweeping} (h : w.Sound) {db : Database}
    (hsettings : db.settings = w.db.settings)
    (hindexes : db.catalog.indexes = w.db.catalog.indexes) :
    ({ w with db := db } : Sweeping).Sound := by
  have hhas : ∀ k, db.catalog.has k = w.db.catalog.has k := fun k => by
    rw [Catalog.has, hindexes, Catalog.has]
  refine ⟨⟨hsettings ▸ h.accord.readable, fun k => ?_⟩, fun s hs => ?_⟩
  · rw [hsettings, hhas, h.accord.agree]
  · refine ⟨(h.careful s hs).stages, (h.careful s hs).units, fun statement hst => ?_⟩
    rw [hhas]
    exact (h.careful s hs).statement statement hst

/-- Whatever happens, record and catalog stay in accord, and at most one statement is issued, which
is not in vain. -/
theorem Sound.after {w : Sweeping} (h : w.Sound) (event : SweepEvent) :
    (w.after event).Sound ∧
      ((w.after event).db.catalog.calls = w.db.catalog.calls ∨
        ∃ statement, (w.after event).db.catalog.calls = w.db.catalog.calls ++ [statement] ∧
          w.db.catalog.has statement.key = !statement.isCreate) := by
  cases event with
  | start c sequence definitions removed =>
      unfold Sweeping.after
      dsimp only
      split
      next g hnone hg =>
        refine ⟨⟨h.accord, fun s hs => ?_⟩, .inl rfl⟩
        obtain rfl := Option.some.inj hs
        exact .start (Generation.named_of_ofDefinitions hg) removed w.db
      next => exact ⟨h, .inl rfl⟩
  | step cancelled =>
      unfold Sweeping.after
      dsimp only
      cases hs : w.sweep with
      | none => exact ⟨h, .inl rfl⟩
      | some s =>
          dsimp only
          cases hstep : s.step cancelled w.db with
          | more s' db' =>
              obtain ⟨haccord, hcareful, hcalls⟩ := (h.careful s hs).step h.accord hstep
              refine ⟨⟨haccord, fun t ht => ?_⟩, hcalls⟩
              obtain rfl := Option.some.inj ht
              exact hcareful
          | blocked => exact ⟨h, .inl rfl⟩
          | finished stats => exact ⟨⟨h.accord, fun _ ht => nomatch ht⟩, .inl rfl⟩
  | failOn key => exact ⟨h.congr rfl rfl, .inl rfl⟩
  | clearFailures => exact ⟨h.congr rfl rfl, .inl rfl⟩
  | setGate gate => exact ⟨h.congr rfl rfl, .inl rfl⟩

theorem Sound.foldl {w : Sweeping} (h : w.Sound) (events : List SweepEvent) :
    (events.foldl Sweeping.after w).Sound := by
  induction events generalizing w with
  | nil => exact h
  | cons event rest ih => exact ih (h.after event).1

/-- A database without indexes and without a record of any is in accord. -/
theorem sound_start {db : Database} (hs : db.settings.Readable)
    (hrecord : Ledger.entries db.settings = .ok []) (hindexes : db.catalog.indexes = .empty) :
    (⟨db, none⟩ : Sweeping).Sound := by
  obtain ⟨keys, hkeys, -, hmem⟩ := Ledger.exists_entries hs
  obtain rfl : keys = [] := Except.ok.inj (hkeys.symm.trans hrecord)
  refine ⟨⟨hs, fun k => iff_of_false (fun hk => ?_) fun hk => ?_⟩, fun s h => ?_⟩
  · exact List.not_mem_nil ((hmem k).mpr hk)
  · rw [Catalog.has, hindexes] at hk
    cases hk
  · cases h

end Sweeping

/-- **The record agrees with the catalog, and no statement is issued in vain.** From a database
without indexes on, whatever happens: the record names exactly the indexes of the catalog, and if
the next thing that happens has a statement issued, then one that creates an index which is not
there or drops one which is. -/
theorem record_agrees_with_catalog {db : Database} (hs : db.settings.Readable)
    (hrecord : Ledger.entries db.settings = .ok []) (hindexes : db.catalog.indexes = .empty)
    (events : List SweepEvent) :
    (∃ entries, Ledger.entries (Sweeping.run db events).db.settings = .ok entries ∧
        entries.Nodup ∧ ∀ k, k ∈ entries ↔ (Sweeping.run db events).db.catalog.has k = true) ∧
      ∀ event,
        (Sweeping.run db (events ++ [event])).db.catalog.calls =
            (Sweeping.run db events).db.catalog.calls ∨
          ∃ statement,
            (Sweeping.run db (events ++ [event])).db.catalog.calls =
              (Sweeping.run db events).db.catalog.calls ++ [statement] ∧
            (Sweeping.run db events).db.catalog.has statement.key = !statement.isCreate := by
  have hsound : (Sweeping.run db events).Sound :=
    (Sweeping.sound_start hs hrecord hindexes).foldl events
  obtain ⟨entries, hentries, hnodup, hmem⟩ := Ledger.exists_entries hsound.accord.readable
  refine ⟨⟨entries, hentries, hnodup, fun k => (hmem k).trans (hsound.accord.agree k)⟩, ?_⟩
  intro event
  have hlast : Sweeping.run db (events ++ [event]) = (Sweeping.run db events).after event := by
    rw [Sweeping.run, Sweeping.run, List.foldl_append, List.foldl_cons, List.foldl_nil]
  rw [hlast]
  exact (hsound.after event).2

/-- A sweep whose only statement is rejected, another one for the same type, one for a different
type that is cancelled before it looks at the type that is gone, and a last one that does. -/
def sweepEvents : List SweepEvent :=
  let person := (Definition.node "Person").withProperty
    { name := "name", declaredType := "String", indexed := true }
  let ship := (Definition.node "Ship").withProperty
    { name := "mass", declaredType := "Double", indexed := true }
  let go (n : Nat) : List SweepEvent := List.replicate n (.step false)
  List.flatten
    [[.failOn ⟨"Person", "name"⟩, .start {} 1 [person] .empty], go 5,
      [.clearFailures, .start {} 1 [person] .empty], go 5,
      [.start {} 2 [ship] .empty], go 4, [.step true],
      [.start {} 2 [ship] .empty], go 6]

theorem record_agrees_after_rejection_and_cancellation :
    (∃ entries, Ledger.entries (Sweeping.run {} sweepEvents).db.settings = .ok entries ∧
        entries.Nodup ∧
        ∀ k, k ∈ entries ↔ (Sweeping.run {} sweepEvents).db.catalog.has k = true) ∧
      (Sweeping.run {} sweepEvents).db.catalog.calls =
        [.create ⟨"Person", "name"⟩, .create ⟨"Person", "name"⟩, .create ⟨"Ship", "mass"⟩,
          .drop ⟨"Person", "name"⟩] ∧
      (Sweeping.run {} sweepEvents).sweep.isNone ∧
      (Sweeping.run {} sweepEvents).db.catalog.indexes.keys = [⟨"Ship", "mass"⟩] := by
  have hs : ({} : Database).settings.Readable := ⟨fun _ _ => List.not_mem_nil, trivial⟩
  have hrecord : Ledger.entries ({} : Database).settings = .ok [] := by decide
  refine ⟨(record_agrees_with_catalog hs hrecord rfl sweepEvents).1, ?_⟩
  decide +kernel

end LiveSchema
