import LiveSchema.Config
import LiveSchema.Reload.Outcome

/-!
# LiveSchema.CommandLine.Failure

Why a command fails, and how the last line on the error output says so: a text of the command itself
in quotes, any other failure by the kind of its cause and the cause's own words.
-/

namespace LiveSchema

/-- A kind of failure and what it holds. -/
def tagged (kind content : String) : String := kind ++ "(" ++ content ++ ")"

/-- A kind of failure and its named members. -/
def record (kind : String) (members : List (String × String)) : String :=
  kind ++ " \x7b " ++ ", ".intercalate (members.map fun m => m.1 ++ ": " ++ m.2) ++ " \x7d"

/-- A fault of a file, by its members. -/
def FileFault.details (f : FileFault) : String :=
  let members := [("kind", f.name), ("message", Text.quoted f.reason)]
  match f.code? with
  | some code => record "Os" (("code", toString code) :: members)
  | none => record "Error" members

/-- What is wrong with a text, by its kind. -/
def DecodeError.details (e : DecodeError) : String := tagged "Error" (Text.quoted e.message)

/-- Why there is no configuration, by its kind. -/
def ConfigError.details : ConfigError → String
  | .unreadable cause => tagged "Io" cause.details
  | .malformed cause => tagged "Parse" cause.details
  | .invalidValue variableName value =>
    record "InvalidValue" [("key", Text.quoted variableName), ("value", Text.quoted value)]

/-- Why a store does not do what it is asked, by its kind. -/
def StoreError.details : StoreError → String
  | .unavailable reason => tagged "Unavailable" (Text.quoted reason)
  | .serialization cause => tagged "Serialization" (Text.quoted cause.message)
  | .unreadable cause => tagged "Io" (Text.quoted cause.message)

/-- The name of a storage type among kinds. -/
def StorageType.kindName : StorageType → String
  | .directory => "Sled"
  | .memory => "Memory"

/-- Why settings cannot be read or written, by its kind. -/
def SettingsError.details : SettingsError → String
  | .invalidValue key => record "InvalidValue" [("key", Text.quoted key)]
  | .unavailable storage reason =>
    record "Unavailable" [("backend", storage.kindName), ("reason", Text.quoted reason)]
  | .backend reason => tagged "BackendSpecific" (Text.quoted reason)

/-- Why a command fails. -/
inductive CommandFailure where
  | config (cause : ConfigError)
  | store (cause : StoreError)
  | settings (cause : SettingsError)
  /-- The engine cannot be started over the record of indexes. -/
  | engine (cause : SettingsError)
  /-- A schema is malformed. -/
  | schema (cause : DecodeError)
  | noLedgerDirectory
  | noSchema (path : String)
  | unreadableSchema (path : String) (cause : FileFault)
  | noLedger (path : String)
  | reload (cause : ReloadError)

namespace CommandFailure

/-- How the last line on the error output tells of a failure. -/
def details : CommandFailure → String
  | .config cause => cause.details
  | .store cause => cause.details
  | .settings cause => cause.details
  | .engine cause => tagged "Settings" cause.details
  | .schema cause => cause.details
  | .noLedgerDirectory =>
    Text.quoted "The sled ledger needs a directory: pass --path, or use --storage memory"
  | .noSchema path => Text.quoted ("Schema file not found at " ++ Text.quoted path)
  | .unreadableSchema path cause =>
    Text.quoted ("Unable to read schema file " ++ Text.quoted path ++ ": " ++ cause.message)
  | .noLedger path => Text.quoted ("Ledger not found at " ++ Text.quoted path)
  | .reload cause => Text.quoted cause.message

/-- What is wrong with a schema, one problem on a line. -/
def problems (errors : List CompileError) : List String :=
  if errors.isEmpty then []
  else
    "Schema errors:" ::
      errors.mapIdx fun i e => "  " ++ toString (i + 1) ++ ". " ++ e.message

/-- The lines on the error output. -/
def lines (f : CommandFailure) : List String :=
  let before := match f with
    | .reload cause => ("Reload failed: " ++ cause.message) :: problems cause.compileErrors
    | _ => []
  before ++ ["Error: " ++ f.details]

end CommandFailure

end LiveSchema
