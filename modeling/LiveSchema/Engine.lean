import LiveSchema.Reload.Coordinator

/-!
# LiveSchema.Engine

The engine at work: reloads and sweeps over one source of definitions and one database. An engine
can be started anew over the same source and database; it then has an empty generation, and what the
coordinators before it had under way goes on beside it.

Work goes on between the requests of its users. `Engine.settle` lets all of it go on until
everything has ended or is kept waiting, by the source or at the gate of the database: first the
runs of reloads, whose callers wake then, and after them the sweeps, each in the order in which the
coordinators were started.

* `Engine` — the parties, and the callers who wait under a name.
* `Engine.create` — an engine for a configuration.
* `Engine.settle` — let the work go on.
-/

namespace LiveSchema

/-- Settings for a configuration. `stored` is what the directory of the record holds, if the record
is kept in one. -/
def Settings.open (storage : StorageType) (path : Option String) (stored : PersistentSettings) :
    Except SettingsError Settings :=
  match storage, path with
  | .memory, _ => .ok (Settings.inMemory)
  | .directory, some _ => .ok (Settings.persistent stored)
  | .directory, none => .error (.unavailable .directory "a ledger path is required")

namespace Coordinator

/-- Let the run of each coordinator in turn go on, and its callers wake. -/
def workOnRuns : List Coordinator → DefinitionSource → List Coordinator × DefinitionSource
  | [], source => ([], source)
  | c :: rest, source =>
    let (c, source) := c.workOnRun source
    let (rest, source) := workOnRuns rest source
    (c.wakeAll :: rest, source)

/-- Let the sweep of each coordinator in turn go on. -/
def workOnSweeps : List Coordinator → Database → List Coordinator × Database
  | [], db => ([], db)
  | c :: rest, db =>
    let (synchronizer, db) := c.synchronizer.work db
    let (rest, db) := workOnSweeps rest db
    ({ c with synchronizer := synchronizer } :: rest, db)

end Coordinator

/-- Coordinators over one source of definitions and one database. -/
structure Engine where
  source : DefinitionSource := {}
  db : Database := {}
  /-- The coordinators that came before, oldest first. -/
  retired : List Coordinator := []
  coordinator : Coordinator := {}
  /-- Callers who wait for an outcome, by name: the place of their coordinator, and their place
  among its callers. -/
  callers : SortedMap String (Nat × Nat) := .empty

namespace Engine

/-- An engine for a configuration. `stored` is what the directory of the record holds; `hasRuntime`
says whether there is something that background work can run on. -/
def create (config : EngineConfig) (stored : PersistentSettings) (hasRuntime : Bool)
    (source : DefinitionSource) : Except ReloadError Engine :=
  match Settings.open config.storageType config.ledgerPath stored with
  | .error cause => .error (.settings cause)
  | .ok settings =>
    if hasRuntime then
      .ok { source := source
            db := { settings := settings }
            coordinator := Coordinator.ofConfig config }
    else .error .noRuntime

/-- All coordinators, oldest first. -/
def coordinators (e : Engine) : List Coordinator := e.retired ++ [e.coordinator]

/-- The engine with other coordinators. -/
def withCoordinators (e : Engine) (cs : List Coordinator) : Engine :=
  match cs.getLast? with
  | some c => { e with retired := cs.dropLast, coordinator := c }
  | none => e

/-- Let all work go on until it has ended or is kept waiting. -/
def settle (e : Engine) : Engine :=
  let (cs, source) := Coordinator.workOnRuns e.coordinators e.source
  let (cs, db) := Coordinator.workOnSweeps cs e.db
  { e with source := source, db := db }.withCoordinators cs

/-- Start anew, over the same source and database. -/
def restart (e : Engine) : Engine :=
  { e with
    retired := e.coordinators
    coordinator := Coordinator.ofConfig e.coordinator.config }

/-- Ask for a reload and wait for it and for the sweep that follows. -/
def reloadOnce (e : Engine) : Engine × Option ReloadOutcome :=
  let call := e.coordinator.flight.callers.length
  let e := { e with coordinator := e.coordinator.ask true }.settle
  (e, e.coordinator.outcome? call)

/-- The reports that are kept about the types of the current generation. -/
def keptReports (e : Engine) : SortedMap String HierarchyEntry :=
  SortedMap.ofList (e.coordinator.current.typeNames.filterMap fun name =>
    (e.source.store.hierarchyEntry? name).map (name, ·))

/-! ### Callers with a name -/

/-- The engine with another coordinator in the place of one of its own. -/
def modifyCoordinator (e : Engine) (place : Nat) (change : Coordinator → Coordinator) : Engine :=
  if place < e.retired.length then { e with retired := e.retired.modify place change }
  else { e with coordinator := change e.coordinator }

/-- Let the caller of a name go. -/
def dismiss (e : Engine) (caller : String) : Engine :=
  match e.callers.get? caller with
  | none => e
  | some (place, call) =>
    { e.modifyCoordinator place (·.leave call) with callers := e.callers.erase caller }

/-- Ask for a reload under a name, in place of who waited under it. -/
def reload (e : Engine) (caller : String) (wait : Bool) : Engine :=
  let e := e.dismiss caller
  let call := e.coordinator.flight.callers.length
  { e with
    coordinator := e.coordinator.ask wait
    callers := e.callers.insert caller (e.retired.length, call) }

/-- The outcome for the caller of a name, if there is one and he has been told. -/
def outcome? (e : Engine) (caller : String) : Option ReloadOutcome := do
  let (place, call) ← e.callers.get? caller
  let c ← e.coordinators[place]?
  c.outcome? call

/-- Whether somebody waits under a name. -/
def isWaiting (e : Engine) (caller : String) : Bool := e.callers.contains caller

end Engine

end LiveSchema
