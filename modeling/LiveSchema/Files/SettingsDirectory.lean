import LiveSchema.Files.Layout
import LiveSchema.Files.Workspace

/-!
# LiveSchema.Files.SettingsDirectory

A directory that settings are kept in. These stand in it:

* `conf`, which says how the other files are laid out;
* `db`, the log of all that was written;
* `blobs`, a directory of values that are too large for the log. The name of each is the position in
  the log at which it was written;
* a summary of the log, with a name that begins with `snap.` and ends with the position up to which
  it goes. Older summaries may stand beside it.

Opening the settings makes what is missing. Where a log is found, a blob that was written after the
end of the log belongs to a write that was broken off, and is taken away.

* `Workspace.openDirectory`, `Workspace.keep` — the settings in a directory.
* `OpeningFault` — why they cannot be opened.
-/

namespace LiveSchema

/-- Why settings in a directory cannot be opened. -/
inductive OpeningFault where
  /-- A file or directory cannot be read or made. -/
  | file (cause : FileFault)
  /-- The files are laid out in a way that cannot be used. -/
  | layout (cause : LayoutConflict)
  /-- A file does not hold what has to be in it. -/
  | damaged
deriving DecidableEq, Repr

/-- The wording of a fault. -/
def OpeningFault.message : OpeningFault → String
  | .file cause => "IO error: " ++ cause.message
  | .layout cause => "Unsupported: " ++ cause.message
  | .damaged => "Read corrupted data at file offset None backtrace ()"

namespace SettingsDirectory

/-! ### What stands in the directory -/

/-- The file that says how the others are laid out. -/
def layoutFile : String := "conf"

/-- The log of what was written. -/
def logFile : String := "db"

/-- The directory of values that are too large for the log. -/
def blobDirectory : String := "blobs"

/-- The number of bytes up to which a file of the layout counts as missing. -/
def shortestLayout : Nat := 8

/-- Whether a name is that of a summary. One that is still being made does not count. -/
def isSummary (name : String) : Bool := name.startsWith "snap." && !name.endsWith ".in___motion"

/-- The largest position in a log. -/
def lastPosition : Int := 9223372036854775807

/-- The position in the log that the name of a blob stands for. -/
def blobPosition? (name : String) : Option Int :=
  let position : Option Int := match name.toList with
    | '-' :: digits => (Text.number? digits).map fun n => -n
    | '+' :: digits => (Text.number? digits).map fun n => n
    | digits => (Text.number? digits).map fun n => n
  position.filter fun p => -lastPosition - 1 ≤ p && p ≤ lastPosition

/-- The last position of a log that was written to. The bytes of a log are not modelled; with a few
settings in it, it ends about here. -/
def endOfLog : Int := 1000

/-- The summary of a log, up to its end. -/
def summaryFile : String := "snap.00000000000003E8"

/-! ### Opening -/

/-- A change of files that may fail on the way. What was changed before a fault stays. -/
abbrev Change := ExceptT OpeningFault (StateM Workspace)

/-- Stop at a fault of a file. -/
def refuse {α : Type} (cause : FileFault) : Change α := throw (.file cause)

/-- The place that a path leads to, and what stands there. -/
def look (path : String) : Change (Location × Option FileEntry) := do
  let w ← get
  match w.locate (.ofText path) with
  | .ok here => return (here, w.entry? here)
  | .error cause => refuse cause

/-- Put something at a place. -/
def put (here : Location) (entry : FileEntry) : Change Unit := modify (·.put here entry)

/-- Make the directory of blobs unless something stands there. -/
def makeBlobs (directory : String) : Change Unit := do
  let path := Path.join directory blobDirectory
  unless (← get).hasPath path do
    let (made, w) := (← get).makeDirectories path
    set w
    match made with
    | .ok _ => return
    | .error cause => refuse cause

/-- Write the layout, or see whether the files can be used as they are laid out. -/
def makeLayout (directory : String) : Change Unit := do
  let (here, entry) ← look (Path.join directory layoutFile)
  match entry with
  | some (.directory _) => refuse .isDirectory
  | some .binary => return
  | some (.file text) =>
    if text.utf8ByteSize ≤ shortestLayout then put here .binary
    else
      match (Layout.ofText? text).map Layout.conflict? with
      | none => throw .damaged
      | some (some cause) => throw (.layout cause)
      | some none => return
  | none => put here .binary

/-- Find the log, or make one without anything in it: whether something was written to it before. -/
def findLog (directory : String) : Change Bool := do
  let (here, entry) ← look (Path.join directory logFile)
  match entry with
  | some (.directory _) => refuse .isDirectory
  | some .binary => return true
  | some _ => return false
  | none =>
    put here (.file "")
    return false

/-- Read the last summary, if there is one. Summaries are found only in a directory that is named by
a path that ends in its name. -/
def readSummary (directory : String) : Change Unit := do
  let (here, _) ← look directory
  let summaries := ((← get).children here).filter fun child => isSummary child.1
  match if Path.endsInName directory then summaries.getLast? else none with
  | none => return
  | some (_, .binary) => return
  | some (_, .directory _) => refuse .isDirectory
  | some (_, .file _) => throw .damaged

/-- Whether the name of a blob says that it was written after the end of the log. -/
def isLost (name : String) : Bool := (blobPosition? name).any (endOfLog < ·)

/-- Take the lost blobs away. -/
def clearBlobs (directory : String) : Change Unit := do
  let (blobs, entry) ← look (Path.join directory blobDirectory)
  if !entry.any FileEntry.isDirectory then refuse .notDirectory
  else
    let lost := ((← get).children blobs).filter fun child => isLost child.1
    lost.forM fun (name, blob) =>
      if blob.isDirectory then refuse .isDirectory
      else modify (·.remove (blobs ++ [name]))

/-- Put a file of bytes that are no text into the directory. -/
def write (directory name : String) : Change Unit := do
  let (here, _) ← look (Path.join directory name)
  put here .binary

/-- Open the settings in a directory. -/
def opening (directory : String) : Change PersistentSettings := do
  makeBlobs directory
  makeLayout directory
  let isInUse ← findLog directory
  readSummary directory
  if isInUse then
    clearBlobs directory
    write directory summaryFile
  write directory logFile
  match (← look directory).2 with
  | some (.directory stored) => return stored
  | _ => return .empty

end SettingsDirectory

namespace Workspace

/-- The settings that are kept in a directory. A directory that does not exist is made. -/
def openDirectory (w : Workspace) (path : String) :
    Except OpeningFault PersistentSettings × Workspace :=
  (SettingsDirectory.opening path).run w

/-- Keep settings in a directory. -/
def keep (w : Workspace) (path : String) (stored : PersistentSettings) : Workspace :=
  match w.locate (.ofText path) with
  | .ok here => w.put here (.directory stored)
  | .error _ => w

end Workspace

end LiveSchema
