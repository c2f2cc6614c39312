import LiveSchema.Files.Fault
import LiveSchema.Files.Path
import LiveSchema.Settings.Basic

/-!
# LiveSchema.Files.Workspace

The files and directories that commands work on. A directory may be used to keep settings in; what
is kept there is part of the directory.

A path is followed step by step: each step has to be taken from a directory that exists, even a step
that goes up again, and the first step that cannot be taken is what is reported.

* `Workspace.find`, `Workspace.read` — what stands at a path.
* `Workspace.makeDirectories` — make a directory and those that lead to it.
* `Workspace.children` — what stands in a directory.
-/

namespace LiveSchema

/-- What stands at a place. -/
inductive FileEntry where
  | file (text : String)
  /-- A file whose bytes are no text. -/
  | binary
  /-- A directory, and the settings that are kept in it. -/
  | directory (stored : PersistentSettings)

/-- Whether a directory stands at a place. -/
def FileEntry.isDirectory : FileEntry → Bool
  | .directory _ => true
  | _ => false

/-- Files and directories by place. -/
structure Workspace where
  entries : SortedMap Location FileEntry := .empty

namespace Workspace

/-- What stands at a place. -/
def entry? (w : Workspace) (here : Location) : Option FileEntry :=
  match w.entries.get? here with
  | some entry => some entry
  | none =>
    if here.isStandard then some (.directory .empty)
    else if here = .emptyFile then some (.file "")
    else none

/-- What stands in a directory, by name. -/
def children (w : Workspace) (directory : Location) : List (String × FileEntry) :=
  w.entries.entries.filterMap fun (here, entry) => (directory.nameIn? here).map (·, entry)

/-! ### Following a path -/

/-- One step of a path. -/
def follow (w : Workspace) (here : Location) (name : String) : Except FileFault Location :=
  match w.entry? here with
  | none => .error .notFound
  | some entry =>
    if !entry.isDirectory then .error .notDirectory
    else if Path.longestName < name.utf8ByteSize then .error .nameTooLong
    else .ok (here.step name)

/-- The place that a path leads to. Nothing has to stand there, but all steps have to be taken. -/
def locate (w : Workspace) (path : Path) : Except FileFault Location :=
  if !path.isWhole then .error .invalidPath
  else if !path.isShort then .error .nameTooLong
  else path.steps.foldlM w.follow path.start

/-- What a written path leads to. -/
def find (w : Workspace) (path : String) : Except FileFault FileEntry := do
  if path = "" then .error .notFound
  else
    match w.entry? (← w.locate (.ofText path)) with
    | some entry => .ok entry
    | none => .error .notFound

/-- Whether a written path leads to something. -/
def hasPath (w : Workspace) (path : String) : Bool := (w.find path).isOk

/-- The text of a file. -/
def read (w : Workspace) (path : String) : Except FileFault String :=
  match w.find path with
  | .ok (.file text) => .ok text
  | .ok .binary => .error .invalidText
  | .ok (.directory _) => .error .isDirectory
  | .error fault => .error fault

/-! ### Making directories and files -/

/-- Put something at a place. -/
def put (w : Workspace) (here : Location) (entry : FileEntry) : Workspace :=
  ⟨w.entries.insert here entry⟩

/-- Take away what stands at a place. -/
def remove (w : Workspace) (here : Location) : Workspace := ⟨w.entries.erase here⟩

/-- Make one directory, unless it is there. -/
def makeDirectory (w : Workspace) (path : Path) : Except FileFault Workspace := do
  let here ← w.locate path
  match w.entry? here with
  | some (.directory _) => .ok w
  | some _ => .error .alreadyExists
  | none => .ok (w.put here (.directory .empty))

/-- Make a directory, and those above it where one is missing. `back` holds the steps to it, the
last one first. What was made before a fault stays. -/
def makeSteps (w : Workspace) (path : Path) : List String → Except FileFault Unit × Workspace
  | [] => (.ok (), w)
  | name :: back =>
    let whole := { path with steps := (name :: back).reverse }
    match w.makeDirectory whole with
    | .ok w => (.ok (), w)
    | .error .notFound =>
      match w.makeSteps path back with
      | (.error fault, w) => (.error fault, w)
      | (.ok _, w) =>
        match w.makeDirectory whole with
        | .ok w => (.ok (), w)
        | .error fault => (.error fault, w)
    | .error fault => (.error fault, w)

/-- Make the directory that a written path leads to, and those above it where one is missing. -/
def makeDirectories (w : Workspace) (path : String) : Except FileFault Unit × Workspace :=
  let path := Path.ofText path
  w.makeSteps path (path.steps.filter (· ≠ ".")).reverse

/-- Put a directory at a place unless something stands there. -/
def ensureDirectory (w : Workspace) (here : Location) : Workspace :=
  match w.entry? here with
  | some _ => w
  | none => w.put here (.directory .empty)

/-- Put a file at a place, and directories above it. -/
def addFile (w : Workspace) (here : Location) (text : String) : Workspace :=
  (here.above.foldl ensureDirectory w).put here (.file text)

end Workspace

end LiveSchema
