import LiveSchema.CommandLine.Paths
import LiveSchema.Json.Reader
import LiveSchema.Settings.Encoding
import Std.Time.DateTime

/-!
# LiveSchema.Main

The command line. Everything that a command decides is decided in `LiveSchema.CommandLine.Commands`;
here its files are fetched before it runs, and what it leaves behind is put out and stored after it.

A directory with settings holds them in a file that begins with a byte of no text, followed by the
settings as JSON.
-/

namespace LiveSchema.CommandLine

/-- The byte that begins a file which is no text. -/
def binaryMark : UInt8 := 0xFF

/-- The file in which a directory keeps its settings. -/
def settingsFile (directory : String) : String := Path.join directory SettingsDirectory.logFile

/-- The settings that a directory keeps. -/
def fetchSettings (directory : String) : IO PersistentSettings := do
  match ← (IO.FS.readBinFile (settingsFile directory)).toBaseIO with
  | .ok content =>
    let text := String.fromUTF8? (content.extract 1 content.size)
    let stored := text.bind fun text => (Json.parse text).toOption.bind PersistentSettings.ofJson?
    return stored.getD .empty
  | .error _ => return .empty

/-- How a place is written. -/
def locationText : Location → String
  | "/" :: rest => "/" ++ "/".intercalate rest
  | here => "/".intercalate ("." :: here)

/-- What stands at a place. -/
def fetchEntry (path : String) : IO (Option FileEntry) := do
  match ← (IO.FS.realPath path).toBaseIO with
  | .error _ => return none
  | .ok found =>
    if ← found.isDir then return some (.directory (← fetchSettings path))
    else
      match String.fromUTF8? (← IO.FS.readBinFile path) with
      | some text => return some (.file text)
      | none => return some .binary

/-- Add what stands at a place to the files that are known. -/
def fetchLocation (w : Workspace) (here : Location) : IO Workspace := do
  match ← fetchEntry (locationText here) with
  | some entry => return w.put here entry
  | none => return w

/-- Add what stands at a path, and on the way to it, to the files that are known. -/
def fetch (w : Workspace) (path : String) : IO Workspace := do
  let path := Path.ofText path
  let ways := (List.range (path.steps.length + 1)).map path.steps.take
  (ways.map fun steps => steps.foldl .step path.start).foldlM fetchLocation w

/-- Add the entries of a directory that are looked at to the files that are known. -/
def fetchListed (w : Workspace) (listed : String × (String → Bool)) : IO Workspace := do
  let (directory, isLookedAt) := listed
  match ← (IO.FS.realPath directory).toBaseIO with
  | .error _ => return w
  | .ok found =>
    if ← found.isDir then
      let names := (← found.readDir).toList.map (·.fileName)
      ((names.filter isLookedAt).map (Path.join directory)).foldlM fetch w
    else return w

/-- The environment variables that the program knows. -/
def fetchEnvironment : IO Environment := do
  let names :=
    [EngineConfig.testingVariable, EngineConfig.storageVariable, EngineConfig.ledgerPathVariable]
  let pairs ← names.mapM fun name => do return (← IO.getEnv name).map (name, ·)
  return SortedMap.ofList (pairs.filterMap id)

/-- The time as a text. -/
def timeText (t : Std.Time.PlainDateTime) : String :=
  let two (n : Int) : String := let s := toString n; if s.length < 2 then "0" ++ s else s
  toString t.date.year.toInt ++ "-" ++ two t.date.month.val ++ "-" ++ two t.date.day.val ++ "T" ++
    two t.time.hour.val ++ ":" ++ two t.time.minute.val ++ ":" ++ two t.time.second.val ++ "+00:00"

/-- The bytes of a file that is no text. -/
def binaryContent (content : String) : ByteArray :=
  ByteArray.empty.push binaryMark ++ content.toUTF8

/-- Take away the files that a command has taken away. -/
def removeEntries (before after : Workspace) : IO Unit :=
  before.entries.keys.forM fun here => do
    if (after.entry? here).isNone then IO.FS.removeFile (locationText here)

/-- Make the directories and files that a command has made. A directory stands before what is in it.
-/
def storeEntries (before after : Workspace) : IO Unit :=
  after.entries.entries.forM fun (here, entry) => do
    match before.entry? here, entry with
    | none, .directory _ => IO.FS.createDirAll (locationText here)
    | none, .file text => IO.FS.writeFile (locationText here) text
    | some .binary, .binary => pure ()
    | _, .binary => IO.FS.writeBinFile (locationText here) (binaryContent "")
    | _, _ => pure ()

/-- Store the settings that a command left in a directory. -/
def storeSettings (w : Workspace) (directory : String) : IO Unit := do
  match w.find (settingsFile directory), w.find directory with
  | .ok .binary, .ok (.directory stored) =>
    IO.FS.writeBinFile (settingsFile directory) (binaryContent stored.toJson.compact)
  | _, _ => pure ()

/-- Run the program: the exit code. -/
def execute (arguments : List String) : IO UInt32 := do
  let env ← fetchEnvironment
  let invocation := Invocation.ofArguments? arguments
  let w ← (invocation.elim [] Invocation.paths).foldlM fetch {}
  let directory := invocation.bind (Invocation.directory? w env)
  let w ← (directory.elim [] directoryPaths).foldlM fetch w
  let w ← (directory.elim [] listedDirectories).foldlM fetchListed w
  let now := Std.Time.WallTime.ofSeconds (← Std.Time.Timestamp.now).toSecondsSinceUnixEpoch
  let result := run w env (timeText (Std.Time.PlainDateTime.ofWallTime now)) arguments
  removeEntries w result.workspace
  storeEntries w result.workspace
  directory.toList.forM (storeSettings result.workspace)
  (← IO.getStdout).putStr result.output
  result.errors.forM IO.eprintln
  return result.exitCode.toUInt32

end LiveSchema.CommandLine

def main (arguments : List String) : IO UInt32 := LiveSchema.CommandLine.execute arguments
