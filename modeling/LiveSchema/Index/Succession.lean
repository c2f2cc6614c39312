import LiveSchema.Index.Synchronizer

/-!
# LiveSchema.Index.Succession

Synchronizers that were started one after the other over one database. A new one knows nothing of
the sweeps before it, but finds the record that they left; what an older one had under way goes on
beside it.
-/

namespace LiveSchema

/-- Synchronizers over one database. -/
structure Succession where
  db : Database := {}
  /-- The synchronizers that came before, oldest first. -/
  retired : List Synchronizer := []
  synchronizer : Synchronizer := {}

/-- What a caller is told who wants a sweep at once. -/
inductive InlineSweep where
  | counted (stats : SweepStats)
  /-- Another sweep is running. -/
  | alreadyRunning
  /-- The sweep waited at the gate, and the caller left. -/
  | gaveUp

namespace Succession

/-- Let the synchronizers work, oldest first. -/
def workAll : List Synchronizer → Database → List Synchronizer × Database
  | [], db => ([], db)
  | s :: rest, db =>
    let (s, db) := s.work db
    let (rest, db) := workAll rest db
    (s :: rest, db)

/-- Let all work go on until it has ended or waits at the gate. -/
def settle (s : Succession) : Succession :=
  let (retired, db) := workAll s.retired s.db
  let (synchronizer, db) := s.synchronizer.work db
  ⟨db, retired, synchronizer⟩

/-- Ask for a sweep. -/
def synchronize (s : Succession) (request : SyncRequest) : Succession :=
  { s with synchronizer := s.synchronizer.synchronize request }

/-- Run a sweep at once, and leave it if it has to wait at the gate. -/
def sweepNow (s : Succession) (request : SyncRequest) : InlineSweep × Succession :=
  match s.synchronizer.startInline? request with
  | none => (.alreadyRunning, s)
  | some synchronizer =>
    let (synchronizer, db) := synchronizer.advance s.db
    match synchronizer.activity, synchronizer.last with
    | none, some stats => (.counted stats, { s with db := db, synchronizer := synchronizer })
    | _, _ => (.gaveUp, { s with db := db, synchronizer := synchronizer.abandonInline })

/-- Start a new synchronizer. -/
def restart (s : Succession) : Succession :=
  { s with retired := s.retired ++ [s.synchronizer], synchronizer := {} }

end Succession

end LiveSchema
