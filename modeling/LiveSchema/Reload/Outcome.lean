import LiveSchema.Compile.Error
import LiveSchema.Definition.Store
import LiveSchema.Registry
import LiveSchema.Settings.Basic

/-!
# LiveSchema.Reload.Outcome

How reloads end, and what those who asked for them are told. A run of a reload ends with a
generation or with a `ReloadError`; everybody who waits for the run gets this very result, and is
told whether the run was started for him.
-/

namespace LiveSchema

/-- Why there is no new generation. The current one stays. -/
inductive ReloadError where
  /-- The definitions make no sense. -/
  | rejected (errors : List CompileError)
  /-- The definitions cannot be loaded. -/
  | store (cause : StoreError)
  | registry (cause : RegistryError)
  /-- The record of indexes cannot be opened. -/
  | settings (cause : SettingsError)
  /-- There is nothing that background work could run on. -/
  | noRuntime
  /-- The run has vanished without a result. -/
  | aborted

namespace ReloadError

/-- The wording of a failure. -/
def message : ReloadError → String
  | .rejected errors => "Schema rejected: " ++ CompileError.summary errors
  | .store cause => "Storage unavailable during reload: " ++ cause.message
  | .registry cause => "Commit rejected: " ++ cause.message
  | .settings cause => "Index ledger unavailable: " ++ cause.message
  | .noRuntime =>
    "No async runtime available: there is no reactor running, must be called from the context " ++
      "of a Tokio 1.x runtime"
  | .aborted => "Reload task ended without a result"

/-- What is wrong with the definitions. -/
def compileErrors : ReloadError → List CompileError
  | .rejected errors => errors
  | _ => []

end ReloadError

/-- How a run ended. -/
abbrev RunResult := Except ReloadError Generation

/-- What a caller is told. -/
inductive ReloadOutcome where
  /-- The run that was started for the caller ended with a new generation. -/
  | committed (generation : Generation)
  /-- The run that was started for the caller failed. -/
  | failed (error : ReloadError)
  /-- A run was under way, and this is how it ended. -/
  | joined (result : RunResult)
  /-- A run was under way, and the caller did not want to wait. -/
  | alreadyInProgress

namespace ReloadOutcome

/-- The outcome for the caller for whom a run was started. -/
def ofOwnRun : RunResult → ReloadOutcome
  | .ok generation => .committed generation
  | .error error => .failed error

/-- How the run ended that the caller waited for. -/
def result? : ReloadOutcome → Option RunResult
  | .committed generation => some (.ok generation)
  | .failed error => some (.error error)
  | .joined result => some result
  | .alreadyInProgress => none

/-- The new generation. -/
def generation? (o : ReloadOutcome) : Option Generation :=
  match o.result? with
  | some (.ok generation) => some generation
  | _ => none

/-- Why there is none. -/
def error? (o : ReloadOutcome) : Option ReloadError :=
  match o.result? with
  | some (.error error) => some error
  | _ => none

/-- The words for an outcome. -/
def label : ReloadOutcome → String
  | .committed _ => "committed"
  | .failed _ => "failed"
  | .joined (.ok _) => "joined (committed)"
  | .joined (.error _) => "joined (failed)"
  | .alreadyInProgress => "already in progress"

end ReloadOutcome

end LiveSchema
