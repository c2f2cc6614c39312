import LiveSchema.Generation
import LiveSchema.Index.Catalog
import LiveSchema.Index.Ledger

/-!
# LiveSchema.Index.Sweep

One sweep: bringing the indexes of the database in line with a generation. For each type in name
order it looks at every property of the type and then at recorded properties that the type no longer
has; last it looks at recorded types that are not in the generation. Where the record differs from
what the generation wants, it has the index created or dropped and the record changed. A failure on
one index does not disturb the others.

A sweep is a state that is stepped, because it waits for every statement and other things can happen
meanwhile. `Sweep.step` takes one step; between two steps the sweep can be cancelled or abandoned.

* `Database` — the settings with the record, and the catalog behind its gate.
* `Sweep` — what is still to do, the counts so far, and the statement that waits.
-/

namespace LiveSchema

/-- What the engine works on: the settings, and the index catalog behind its gate. -/
structure Database where
  settings : Settings := .inMemory
  catalog : Catalog := {}
  gate : Gate := {}

/-- The wish to bring the indexes in line with a generation. -/
structure SyncRequest where
  generation : Generation
  /-- Types of earlier generations that this one lacks. -/
  removed : NameSet

/-- Fold a request into one that is waiting: the newer generation counts, and the removed types of
both that are not back. -/
def SyncRequest.coalesce (waiting arriving : SyncRequest) : SyncRequest :=
  let (older, newer) :=
    if waiting.generation.sequence ≤ arriving.generation.sequence then (waiting, arriving)
    else (arriving, waiting)
  ⟨newer.generation,
    (older.removed.union newer.removed).filter fun name _ => !newer.generation.contains name⟩

/-- The counts of one sweep. -/
structure SweepStats where
  sequence : Nat
  created : Nat := 0
  dropped : Nat := 0
  unchanged : Nat := 0
  failed : Nat := 0
  cancelled : Bool := false
deriving DecidableEq, Repr

/-- One index to look at, and whether the generation wants it. -/
structure SweepUnit where
  key : IndexKey
  wanted : Bool
deriving DecidableEq

/-- A part of a sweep whose units are found when it is reached. -/
inductive SweepStage where
  | type (t : CompiledType)
  | orphans

/-- A sweep under way. -/
structure Sweep where
  request : SyncRequest
  /-- The units of the stage under way that are still to be looked at. -/
  units : List SweepUnit := []
  /-- The stages still to come. -/
  stages : List SweepStage
  /-- The statement that waits to be issued. -/
  statement : Option IndexStatement := none
  stats : SweepStats

/-- What one step of a sweep comes to. -/
inductive Sweep.Next where
  /-- There is more to do. -/
  | more (sweep : Sweep) (db : Database)
  /-- A statement waits at the gate. -/
  | blocked
  | finished (stats : SweepStats)

namespace Sweep

/-- A sweep that has not begun. -/
def start (request : SyncRequest) : Sweep where
  request := request
  stages := request.generation.types.values.map .type ++ [.orphans]
  stats := { sequence := request.generation.sequence }

/-- The units of a type: its properties in order, then the recorded ones that it lacks. If the
record cannot be read, only its properties. -/
def typeUnits (s : Settings) (t : CompiledType) : List SweepUnit :=
  let recorded := match Ledger.entriesForType s t.name with
    | .ok keys => (NameSet.ofNames (keys.map IndexKey.property)).keys
    | .error _ => []
  let stale := recorded.filter fun p => !t.properties.any (·.name = p)
  t.properties.map (fun p => ⟨⟨t.name, p.name⟩, t.shouldIndex p⟩) ++
    stale.map (fun p => ⟨⟨t.name, p⟩, false⟩)

/-- The recorded indexes of types that a generation lacks. -/
def orphanUnits (g : Generation) (s : Settings) : Except SettingsError (List SweepUnit) :=
  (Ledger.entries s).map fun keys =>
    (keys.filter (fun k => !g.contains k.typeName)).map (⟨·, false⟩)

/-- One more failure. -/
def fail (s : Sweep) : Sweep := { s with stats := { s.stats with failed := s.stats.failed + 1 } }

/-- One more index that is as it should be. -/
def leave (s : Sweep) : Sweep :=
  { s with stats := { s.stats with unchanged := s.stats.unchanged + 1 } }

/-- One more index that was created or dropped. -/
def count (s : Sweep) (statement : IndexStatement) : Sweep :=
  { s with
    stats :=
      if statement.isCreate then { s.stats with created := s.stats.created + 1 }
      else { s.stats with dropped := s.stats.dropped + 1 } }

/-- Enter what a statement did into the record. If that fails the record stays as it was. -/
def record (s : Settings) (statement : IndexStatement) : Settings :=
  let result := match statement with
    | .create key => Ledger.mark s key
    | .drop key => Ledger.clear s key
  match result with
  | .ok s => s
  | .error _ => s

/-- Look at one index: leave it as it is, or decide on a statement. -/
def lookAt (s : Sweep) (settings : Settings) (unit : SweepUnit) : Sweep :=
  match Ledger.exists? settings unit.key with
  | .error _ => s.fail
  | .ok recorded =>
    if unit.wanted && !recorded then { s with statement := some (.create unit.key) }
    else if !unit.wanted && recorded then { s with statement := some (.drop unit.key) }
    else s.leave

/-- Issue a statement that has passed the gate. -/
def issue (s : Sweep) (db : Database) (statement : IndexStatement) : Sweep × Database :=
  let (catalog, failure) := db.catalog.issue statement
  match failure with
  | some _ => (s.fail, { db with catalog := catalog })
  | none =>
    (s.count statement, { db with catalog := catalog, settings := record db.settings statement })

/-- Find the units of the next stage. -/
def enter (s : Sweep) (settings : Settings) : SweepStage → Sweep
  | .type t => { s with units := typeUnits settings t }
  | .orphans =>
    match orphanUnits s.request.generation settings with
    | .ok units => { s with units := units }
    | .error _ => s.fail

/-- One step. A sweep that is cancelled stops before its next unit; a statement that is waiting is
still issued. -/
def step (s : Sweep) (cancelled : Bool) (db : Database) : Next :=
  match s.statement, s.units, s.stages with
  | some statement, _, _ =>
    match db.gate.pass? with
    | none => .blocked
    | some gate =>
      let (s, db) := { s with statement := none }.issue { db with gate := gate } statement
      .more s db
  | none, unit :: units, _ =>
    if cancelled then .finished { s.stats with cancelled := true }
    else .more ({ s with units := units }.lookAt db.settings unit) db
  | none, [], stage :: stages => .more ({ s with stages := stages }.enter db.settings stage) db
  | none, [], [] => .finished s.stats

/-! ### Sweeps end -/

/-- What is left to do: stages, and within a stage units and the statement that waits. -/
def remaining (s : Sweep) : Nat × Nat :=
  (s.stages.length, 2 * s.units.length + (if s.statement.isSome then 1 else 0))

/-- Looking at an index adds at most a statement. -/
theorem remaining_lookAt (s : Sweep) (settings : Settings) (unit : SweepUnit)
    (h : s.statement = none) :
    (s.lookAt settings unit).remaining.1 = s.stages.length ∧
      (s.lookAt settings unit).remaining.2 ≤ 2 * s.units.length + 1 := by
  unfold lookAt
  split
  · simp [remaining, fail, h]
  · split
    · simp [remaining]
    · split <;> simp [remaining, leave, h]

/-- A step leaves less to do. -/
theorem remaining_step {s : Sweep} {cancelled : Bool} {db : Database} {s' : Sweep} {db' : Database}
    (h : s.step cancelled db = .more s' db') :
    Prod.Lex (· < ·) (· < ·) s'.remaining s.remaining := by
  unfold step at h
  split at h
  · rename_i statement _ _ hst
    split at h
    · cases h
    · simp only [issue] at h
      split at h <;>
      · cases h
        simp only [remaining, fail, count, hst, Option.isSome_some, Option.isSome_none]
        exact Prod.Lex.right _ (by simp)
  · rename_i unit units hst hun
    split at h
    · cases h
    · cases h
      have hr := remaining_lookAt { s with units := units } db.settings unit hst
      rw [Prod.lex_def]
      refine .inr ⟨?_, ?_⟩
      · simpa [remaining] using hr.1
      · have h2 := hr.2
        simp only [remaining, hun, List.length_cons] at h2 ⊢
        omega
  · rename_i stage stages hst hun hsg
    cases h
    refine Prod.Lex.left _ _ ?_
    have : (({ s with stages := stages } : Sweep).enter db.settings stage).stages = stages := by
      unfold enter
      split
      · rfl
      · split <;> rfl
    simp only [this, hsg, List.length_cons]
    omega
  · cases h

/-- A sweep that went as far as it could: to a closed gate, or to its end. -/
inductive Result where
  | blocked (sweep : Sweep) (db : Database)
  | finished (stats : SweepStats) (db : Database)

/-- Step until the sweep ends or waits. -/
def run (s : Sweep) (cancelled : Bool) (db : Database) : Result :=
  match _h : s.step cancelled db with
  | .more s db => run s cancelled db
  | .blocked => .blocked s db
  | .finished stats => .finished stats db
termination_by s.remaining
decreasing_by exact remaining_step _h

end Sweep

end LiveSchema
