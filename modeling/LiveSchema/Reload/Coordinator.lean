import LiveSchema.Config
import LiveSchema.Definition.Source
import LiveSchema.Index.Synchronizer
import LiveSchema.Reload.Flight

/-!
# LiveSchema.Reload.Coordinator

Reloads. A run loads all definitions, compiles them as one batch and makes the result the current
generation; then it has the reports about the node types kept and asks for a sweep of the indexes.
If anything before the commit fails, nothing changes.

At most one run is under way; the `Flight` sees to that. A run has two parts, since loading may have
to wait. It does not need its callers: it goes on when they leave.

* `Coordinator.ask` — ask for a reload.
* `Coordinator.workOn?` — the next part of a run, and what it comes to.
* `Coordinator.stepRun` — a run under way goes on by one part.
-/

namespace LiveSchema

/-- What reloads work on, and how they went. -/
structure Coordinator where
  config : EngineConfig := {}
  compiler : Compiler := {}
  /-- How many times a batch was handed to the compiler. -/
  compiles : Nat := 0
  registry : Registry := {}
  /-- The bases that built-in node types have to extend, by type. -/
  overrides : SortedMap String String := .empty
  synchronizer : Synchronizer := {}
  /-- The runs under way, and who waits for them. -/
  flight : Flight := {}

namespace Coordinator

/-- A coordinator without history. -/
def ofConfig (config : EngineConfig) : Coordinator where
  config := config
  compiler := { namespaceName := config.namespaceName }

/-- The current generation. -/
def current (c : Coordinator) : Generation := c.registry.current

/-- Whether a run is under way. -/
def isReloading (c : Coordinator) : Bool := c.flight.compiling.isRunning

/-- How far the run under way is: the first one, should there be more. -/
def run (c : Coordinator) : Option ReloadRun := c.flight.runs.head?.map (·.run)

/-- How the runs so far ended, in the order in which they started. -/
def results (c : Coordinator) : List RunResult := c.flight.results

/-- Have a node type extend a base in every generation from now on. A base that is not one of the
fixed ones becomes known to the compiler. -/
def registerOverride (c : Coordinator) (typeName base : String) : Coordinator :=
  { c with
    compiler := if isFixedBase base then c.compiler else c.compiler.addBase base .node
    overrides := c.overrides.insert typeName base }

/-- The report on the node types of the current generation. -/
def hierarchy (c : Coordinator) : HierarchyReport :=
  Hierarchy.report c.config.depthLimit c.current.definitions

/-- Stop the work on the indexes. Reloads go on. -/
def shutDown (c : Coordinator) : Coordinator :=
  { c with synchronizer := c.synchronizer.shutDown }

/-- Whether the indexes have been brought in line with a generation, or a later one: no answer yet
while they may still be. In testing mode nobody waits for that. -/
def waitForSync? (c : Coordinator) (sequence : Nat) : Option Bool :=
  if c.config.testingMode then some true else c.synchronizer.waitFor? sequence

/-! ### Callers -/

/-- Ask for a reload, and join a run that is under way or not. -/
def ask (c : Coordinator) (waits : Bool) : Coordinator := { c with flight := c.flight.ask waits }

/-- A caller wakes. -/
def wake (c : Coordinator) (call : Nat) : Coordinator := { c with flight := c.flight.wake call }

/-- Every caller wakes. -/
def wakeAll (c : Coordinator) : Coordinator := { c with flight := c.flight.wakeAll }

/-- A caller leaves. -/
def leave (c : Coordinator) (call : Nat) : Coordinator := { c with flight := c.flight.leave call }

/-- What a caller has been told. -/
def outcome? (c : Coordinator) (call : Nat) : Option ReloadOutcome := c.flight.outcome? call

/-! ### Runs -/

/-- Compile some definitions and make the result the current generation. Definitions that do not
emit never reach the compiler. -/
def commit (c : Coordinator) (sequence : Nat) (definitions : List Definition) :
    RunResult × Coordinator :=
  match emitAll definitions with
  | .error errors => (.error (.rejected (errors.map .definition)), c)
  | .ok units =>
    let c := { c with compiles := c.compiles + 1 }
    match c.compiler.compile units with
    | .error errors => (.error (.rejected errors), c)
    | .ok types =>
      let views := Generation.viewNames definitions
      let generation : Generation := ⟨sequence, types, views, definitions⟩
      match c.registry.commit generation with
      | .error cause => (.error (.registry cause), c)
      | .ok registry => (.ok generation, { c with registry := registry })

/-- What follows a commit, except in testing mode: reports are kept and the indexes are swept. -/
def followUp (c : Coordinator) (previous generation : Generation) (source : DefinitionSource) :
    Coordinator × DefinitionSource :=
  if c.config.testingMode then (c, source)
  else
    let report := Hierarchy.report c.config.depthLimit generation.definitions
    let request : SyncRequest := ⟨generation, previous.removedIn generation⟩
    ({ c with synchronizer := c.synchronizer.synchronize request },
      source.keepReports report.annotations)

/-- The first part of a run: remember what is current, and make sure of the built-in types. -/
def beginRun (c : Coordinator) (source : DefinitionSource) : RunStep × DefinitionSource :=
  match source.ensureBuiltins c.overrides.entries with
  | .ok source => (.continues (.loading c.current), source)
  | .error cause => (.ends (.error (.store cause)), source)

/-- The rest of a run. -/
def completeRun (c : Coordinator) (previous : Generation) (source : DefinitionSource) :
    RunResult × Coordinator × DefinitionSource :=
  match source.load with
  | .error cause => (.error (.store cause), c, source)
  | .ok (definitions, source) =>
    let (result, c) := c.commit (previous.sequence + 1) definitions
    match result with
    | .error error => (.error error, c, source)
    | .ok generation =>
      let (c, source) := c.followUp previous generation source
      (.ok generation, c, source)

/-- The next part of a run that has come so far, and what it comes to; none if it is kept
waiting. -/
def workOn? (c : Coordinator) (source : DefinitionSource) :
    ReloadRun → Option (RunStep × Coordinator × DefinitionSource)
  | .scheduled =>
    let (step, source) := c.beginRun source
    some (step, c, source)
  | .loading previous =>
    if source.held then none
    else
      let (result, c, source) := c.completeRun previous source
      some (.ends result, c, source)

/-- The run at a place among those under way goes on by one part; none if there is no such run or it
is kept waiting. -/
def stepRun (c : Coordinator) (place : Nat) (source : DefinitionSource) :
    Option (Coordinator × DefinitionSource) :=
  match c.flight.runs[place]? with
  | none => none
  | some active =>
    match c.workOn? source active.run with
    | none => none
    | some (step, c, source) =>
      some ({ c with flight := c.flight.record active.channel step }, source)

/-- Run the run under way until it ends or is kept waiting; it has two parts. -/
def workOnRun (c : Coordinator) (source : DefinitionSource) : Coordinator × DefinitionSource :=
  match c.stepRun 0 source with
  | none => (c, source)
  | some (c, source) => (c.stepRun 0 source).getD (c, source)

end Coordinator

end LiveSchema
