import LiveSchema.CommandLine.Arguments
import LiveSchema.CommandLine.Failure
import LiveSchema.Engine
import LiveSchema.Files.SettingsDirectory

/-!
# LiveSchema.CommandLine.Commands

What the commands do, as functions of the files that they find: `reload` compiles a schema file and
brings a fresh index catalog in line with it, `hierarchy` reports on a schema file without compiling
it, `ledger` lists the record of indexes that is kept in a directory.
-/

namespace LiveSchema.CommandLine

/-- What a command leaves behind. -/
structure CommandResult where
  exitCode : Nat
  output : String
  /-- The lines on the error output. -/
  errors : List String
  workspace : Workspace

/-- The number of the version. -/
def versionNumber : String := "0.0.1"

/-! ### Reload -/

/-- The configuration for a reload: the file, overridden by the environment, overridden by options.
-/
def configure (w : Workspace) (env : Environment) (options : ReloadOptions) :
    Except ConfigError EngineConfig := do
  let config ← match options.config with
    | none => .ok {}
    | some path =>
      match w.read path with
      | .ok text => EngineConfig.ofText text
      | .error fault => .error (.unreadable fault)
  let config ← config.overriddenBy env
  return { config with
    storageType := options.storage.getD config.storageType
    ledgerPath := options.path.or config.ledgerPath
    testingMode := options.testing || config.testingMode }

/-- The store that a schema file describes. -/
def openStore (w : Workspace) (path : String) : Except StoreError Store :=
  match w.read path with
  | .ok text => Store.ofText text
  | .error fault => .error (.unreadable fault)

/-- The directory where the record of indexes is kept, if it is kept in one. -/
def ledgerDirectory? (config : EngineConfig) : Option String :=
  match config.storageType with
  | .directory => config.ledgerPath
  | .memory => none

/-- Open the settings of a directory. -/
def openSettings (w : Workspace) (path : String) :
    Except SettingsError PersistentSettings × Workspace :=
  match w.openDirectory path with
  | (.ok stored, w) => (.ok stored, w)
  | (.error fault, w) => (.error (.backend fault.message), w)

/-- Keep the settings of a directory as an engine left them. -/
def keepSettings (w : Workspace) (path : Option String) (settings : Settings) : Workspace :=
  match path, settings.contents with
  | some path, .persistent stored => w.keep path stored
  | _, _ => w

/-- The report on a reload that has ended. -/
def reloadReport (e : Engine) : Except SettingsError ReloadReport := do
  return {
    generation := e.coordinator.current
    annotations := e.keptReports
    statements := e.db.catalog.calls
    ledger := ← Ledger.entries e.db.settings }

/-- What a reload puts out, and the files after it. -/
def reload (w : Workspace) (env : Environment) (createdAt : String) (options : ReloadOptions) :
    Except CommandFailure String × Workspace :=
  match configure w env options with
  | .error cause => (.error (.config cause), w)
  | .ok config =>
    if config.storageType = .directory && config.ledgerPath.isNone then
      (.error .noLedgerDirectory, w)
    else if !w.hasPath options.schema then (.error (.noSchema options.schema), w)
    else
      match openStore w options.schema with
      | .error cause => (.error (.store cause), w)
      | .ok store =>
        let directory := ledgerDirectory? config
        match directory.elim (.ok .empty, w) (openSettings w) with
        | (.error cause, w) => (.error (.engine cause), w)
        | (.ok stored, w) =>
          match Engine.create config stored true { store := store } with
          | .error cause => (.error (.reload cause), w)
          | .ok engine =>
            let (engine, outcome) := engine.reloadOnce
            let w := keepSettings w directory engine.db.settings
            match outcome.bind ReloadOutcome.error? with
            | some cause => (.error (.reload cause), w)
            | none =>
              match reloadReport engine with
              | .ok report => (.ok (report.text createdAt options.format), w)
              | .error cause => (.error (.settings cause), w)

/-! ### The other commands -/

/-- What the report on the hierarchy of a schema file puts out. -/
def hierarchy (w : Workspace) (path : String) (depthLimit : Nat) (format : ReportFormat) :
    Except CommandFailure String :=
  match w.read path with
  | .error fault => .error (.unreadableSchema path fault)
  | .ok text =>
    match decodeText Store.definitionsDecoder text with
    | .error cause => .error (.schema cause)
    | .ok definitions => .ok ((Hierarchy.report depthLimit definitions).text format)

/-- What the list of the record of indexes puts out, and the files after it. -/
def ledger (w : Workspace) (path : String) (format : ReportFormat) :
    Except CommandFailure String × Workspace :=
  if !w.hasPath path then (.error (.noLedger path), w)
  else
    match openSettings w path with
    | (.error cause, w) => (.error (.settings cause), w)
    | (.ok stored, w) =>
      match Ledger.entries (Settings.persistent stored) with
      | .ok keys => (.ok (Ledger.text keys format), w)
      | .error cause => (.error (.settings cause), w)

/-- Carry out what the user wants. -/
def Invocation.run (w : Workspace) (env : Environment) (createdAt : String) :
    Invocation → Except CommandFailure String × Workspace
  | .version =>
    (.ok ("SchemaLite " ++ versionNumber ++ "\nDynamic schema compilation engine"), w)
  | .programVersion => (.ok ("schemalite " ++ versionNumber), w)
  | .reload options => CommandLine.reload w env createdAt options
  | .hierarchy schema depthLimit format => (CommandLine.hierarchy w schema depthLimit format, w)
  | .ledger path format => CommandLine.ledger w path format

/-- Run the command line. `createdAt` is the time that a reload reports. -/
def run (w : Workspace) (env : Environment) (createdAt : String) (arguments : List String) :
    CommandResult :=
  match Invocation.ofArguments? arguments with
  | none => ⟨2, "", [], w⟩
  | some invocation =>
    match invocation.run w env createdAt with
    | (.ok output, w) => ⟨0, line output, [], w⟩
    | (.error failure, w) => ⟨1, "", failure.lines, w⟩

end LiveSchema.CommandLine
