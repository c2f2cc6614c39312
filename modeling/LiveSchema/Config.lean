import LiveSchema.Files.Fault
import LiveSchema.Hierarchy
import LiveSchema.Json.Decode
import LiveSchema.Settings.StorageType
import LiveSchema.Text.Blank

/-!
# LiveSchema.Config

The configuration of the engine: its defaults, its form as a JSON record of which any member may be
left out, and the environment variables that override members.
-/

namespace LiveSchema

/-- What the user of the engine decides. -/
structure EngineConfig where
  /-- Stop after a commit: no reports are written back and no indexes are kept. -/
  testingMode : Bool := false
  /-- The depth that is reported for longer chains of types. -/
  depthLimit : Nat := Hierarchy.defaultDepthLimit
  /-- Where the record of indexes is kept. -/
  storageType : StorageType := .directory
  /-- The directory of the record, if it is kept in one. -/
  ledgerPath : Option String := none
  /-- The prefix of qualified type names. -/
  namespaceName : String := "schemalite.dynamic"
deriving DecidableEq

/-- The values of environment variables. -/
abbrev Environment := SortedMap String String

/-- Why there is no configuration. -/
inductive ConfigError where
  /-- The file cannot be read. -/
  | unreadable (cause : FileFault)
  /-- The file is malformed. -/
  | malformed (cause : DecodeError)
  /-- An environment variable has a value that means nothing. -/
  | invalidValue (variableName value : String)

/-- The wording of a failure. -/
def ConfigError.message : ConfigError → String
  | .unreadable cause => "IO error reading config: " ++ cause.message
  | .malformed cause => "Invalid config file: " ++ cause.message
  | .invalidValue variableName value =>
    "Invalid value '" ++ value ++ "' for " ++ variableName

namespace EngineConfig

/-- Everything in memory, and nothing done after a commit. -/
def testing : EngineConfig := { testingMode := true, storageType := .memory }

/-- Everything in memory. -/
def inMemory : EngineConfig := { storageType := .memory }

/-- The record of indexes in a directory. -/
def persistent (path : String) : EngineConfig := { ledgerPath := some path }

/-! ### Records -/

/-- Read a configuration. -/
def decoder : Decoder EngineConfig :=
  let default : EngineConfig := {}
  RecordDecoder.run "struct EngineConfig"
    (EngineConfig.mk
      <$> .withDefault "testing_mode" default.testingMode Decoder.flag
      <*> .withDefault "hierarchy_depth_cap" default.depthLimit Decoder.natural
      <*> .withDefault "storage_type" default.storageType (choice StorageType.named)
      <*> .withDefault "ledger_path" default.ledgerPath
        (Decoder.optional (Decoder.textCalled "path string"))
      <*> .withDefault "dynamic_namespace" default.namespaceName Decoder.text)

/-- The full record. -/
def toJson (c : EngineConfig) : Json :=
  .object
    [("dynamic_namespace", .string c.namespaceName), ("hierarchy_depth_cap", .ofNat c.depthLimit),
      ("ledger_path", .ofOption .string c.ledgerPath), ("storage_type", .string c.storageType.name),
      ("testing_mode", .bool c.testingMode)]

/-- The configuration that a text describes. -/
def ofText (s : String) : Except ConfigError EngineConfig :=
  match decodeText decoder s with
  | .ok c => .ok c
  | .error cause => .error (.malformed cause)

/-! ### Environment -/

/-- The variable that switches testing mode. -/
def testingVariable : String := "SCHEMALITE_TESTING"

/-- The variable that names the storage type. -/
def storageVariable : String := "SCHEMALITE_STORAGE"

/-- The variable that holds the directory of the record. -/
def ledgerPathVariable : String := "SCHEMALITE_LEDGER_PATH"

/-- The words for yes and no; an empty text says no. -/
def switchWords : List (String × Bool) :=
  [("1", true), ("true", true), ("yes", true), ("on", true),
    ("0", false), ("false", false), ("no", false), ("off", false), ("", false)]

/-- What a word for yes or no means, in capitals or not and with blanks around it. -/
def switch? (s : String) : Option Bool :=
  switchWords.lookup (String.ofList ((Text.trimBlank s).toList.map Char.toLower))

/-- The value of a variable that is set, as far as it means something. -/
def readVariable {α : Type} (env : Environment) (name : String) (read : String → Option α) :
    Except ConfigError (Option α) :=
  match env.get? name with
  | none => .ok none
  | some value =>
    match read value with
    | some a => .ok (some a)
    | none => .error (.invalidValue name value)

/-- The configuration with the members that environment variables set. An empty directory name sets
nothing. -/
def overriddenBy (c : EngineConfig) (env : Environment) : Except ConfigError EngineConfig := do
  let testing ← readVariable env testingVariable switch?
  let storage ← readVariable env storageVariable StorageType.ofText?
  let path := (env.get? ledgerPathVariable).filter (!·.isEmpty)
  return { c with
    testingMode := testing.getD c.testingMode
    storageType := storage.getD c.storageType
    ledgerPath := path.or c.ledgerPath }

/-- The configuration that environment variables describe. -/
def ofEnvironment (env : Environment) : Except ConfigError EngineConfig :=
  overriddenBy {} env

end EngineConfig

end LiveSchema
