import LiveSchema.Settings.StorageType
import LiveSchema.SortedMap
import LiveSchema.Text.Bytes

/-!
# LiveSchema.Settings.Basic

Settings: texts under text keys. They are kept in memory, or in a persistent store that maps bytes
to bytes and in which other programs may leave keys and values that are no text. Both answer alike
as long as all bytes are text: a scan lists the keys that begin with a given text, in key order, and
the order of texts is that of their UTF-8 forms.

A backend can refuse operations, as one does that has lost its disk or its connection.
-/

namespace LiveSchema

/-- Why settings cannot be read or written. -/
inductive SettingsError where
  /-- A stored key or value is no text. -/
  | invalidValue (key : String)
  | unavailable (backend : StorageType) (reason : String)
  | backend (reason : String)
deriving DecidableEq

/-- The wording of a failure. -/
def SettingsError.message : SettingsError → String
  | .invalidValue key => "Stored value for '" ++ key ++ "' is not valid UTF-8"
  | .unavailable storage reason => "Backend '" ++ storage.name ++ "' is unavailable: " ++ reason
  | .backend reason => "Settings backend error: " ++ reason

/-! ### In memory -/

/-- Settings in memory. -/
abbrev MemorySettings := SortedMap String String

namespace MemorySettings

/-- Whether a text begins with another. -/
def beginsWith (start text : String) : Bool := start.toList.isPrefixOf text.toList

/-- The settings whose keys begin with a text: from the first key that is not smaller, as long as
keys begin with it. -/
def scan (m : MemorySettings) (start : String) : List (String × String) :=
  (m.entries.dropWhile (fun e => compare e.1 start = .lt)).takeWhile (fun e => beginsWith start e.1)

end MemorySettings

/-! ### Persistent -/

/-- Settings as a persistent store keeps them. -/
abbrev PersistentSettings := SortedMap Bytes Bytes

namespace PersistentSettings

/-- Bytes as a text, or the failure to read them, reported under a key. -/
def textOf (key : String) (bytes : Bytes) : Except SettingsError String :=
  match Text.ofBytes? bytes with
  | some s => .ok s
  | none => .error (.invalidValue key)

/-- Read the pairs of a scan in order; a key that is no text is reported under `start`, a value
under its key. -/
def readPairs (start : String) : List (Bytes × Bytes) →
    Except SettingsError (List (String × String))
  | [] => .ok []
  | (k, v) :: rest => do
    let key ← textOf start k
    let value ← textOf key v
    return (key, value) :: (← readPairs start rest)

/-- The settings whose keys begin with a text. -/
def scan (m : PersistentSettings) (start : String) :
    Except SettingsError (List (String × String)) :=
  readPairs start (m.entries.filter fun e => (Text.toBytes start).isPrefixOf e.1)

end PersistentSettings

/-! ### Either -/

/-- What can be asked of settings. -/
inductive SettingsOperation where
  | get
  | set
  | scan
  | flush
deriving DecidableEq

/-- The settings that a backend keeps. -/
inductive SettingsContents where
  | memory (entries : MemorySettings)
  | persistent (entries : PersistentSettings)

/-- The contents with a value put under a key, or with the key cleared. -/
def SettingsContents.put (contents : SettingsContents) (key : String) (value : Option String) :
    SettingsContents :=
  match contents, value with
  | .memory m, some v => .memory (m.insert key v)
  | .memory m, none => .memory (m.erase key)
  | .persistent m, some v => .persistent (m.insert (Text.toBytes key) (Text.toBytes v))
  | .persistent m, none => .persistent (m.erase (Text.toBytes key))

/-- Settings, and the operations that their backend refuses. -/
structure Settings where
  contents : SettingsContents
  refused : List SettingsOperation := []

namespace Settings

/-- Settings in memory. -/
def inMemory (entries : MemorySettings := .empty) : Settings := ⟨.memory entries, []⟩

/-- Settings in a persistent store. -/
def persistent (entries : PersistentSettings := .empty) : Settings := ⟨.persistent entries, []⟩

/-- Whether the backend does what is asked. -/
def checkAllowed (s : Settings) (operation : SettingsOperation) : Except SettingsError Unit :=
  if s.refused.contains operation then .error (.backend "injected") else .ok ()

/-- The value under a key. -/
def get (s : Settings) (key : String) : Except SettingsError (Option String) := do
  s.checkAllowed .get
  match s.contents with
  | .memory m => return m.get? key
  | .persistent m =>
    match m.get? (Text.toBytes key) with
    | some bytes => return some (← PersistentSettings.textOf key bytes)
    | none => return none

/-- Put a value under a key, or clear the key. -/
def set (s : Settings) (key : String) (value : Option String) : Except SettingsError Settings := do
  s.checkAllowed .set
  return { s with contents := s.contents.put key value }

/-- The settings whose keys begin with a text, in key order. -/
def scan (s : Settings) (start : String) : Except SettingsError (List (String × String)) := do
  s.checkAllowed .scan
  match s.contents with
  | .memory m => return m.scan start
  | .persistent m => m.scan start

/-- Make sure that what was put will last. -/
def flush (s : Settings) : Except SettingsError Unit := s.checkAllowed .flush

end Settings

end LiveSchema
