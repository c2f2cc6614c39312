import LiveSchema.SortedMap
import LiveSchema.Text.Digits

/-!
# LiveSchema.Files.Layout

How the files in a directory of settings are laid out, and the file that says so: one line for each
trait, its name and its value, and a checksum of four bytes after them. The lines may stand in any
order, others may stand among them, and the checksum may be wrong.

* `Layout.ofText?` — the layout that a file states.
* `Layout.standard` — the only layout that can be used; `Layout.conflict?` says why another cannot.
-/

namespace LiveSchema

/-- How the files in a directory of settings are laid out. -/
structure Layout where
  isCompressed : Bool
  segmentSize : Nat
  /-- The version of the layout: the first two of its numbers. -/
  version : Nat × Nat
deriving DecidableEq

/-- Why a layout cannot be used. -/
inductive LayoutConflict where
  /-- The files are compressed. -/
  | compressed
  | segmentSize (found : Nat)
  | version (found : Nat × Nat)
deriving DecidableEq, Repr

namespace Layout

/-- The layout of the directories that are made. -/
def standard : Layout := ⟨false, 524288, (0, 34)⟩

/-- What keeps a layout from being used. -/
def conflict? (l : Layout) : Option LayoutConflict :=
  if l.isCompressed ≠ standard.isCompressed then some .compressed
  else if l.segmentSize ≠ standard.segmentSize then some (.segmentSize l.segmentSize)
  else if l.version ≠ standard.version then some (.version l.version)
  else none

/-! ### Reading a layout -/

/-- The number of bytes of the checksum. -/
def checksumSize : Nat := 4

/-- What stands before the checksum. -/
def stated? (text : String) : Option String :=
  let bytes := text.toUTF8
  String.fromUTF8? (bytes.extract 0 (bytes.size - checksumSize))

/-- A line without the return that may end it. -/
def withoutReturn (line : String) : String :=
  if line.endsWith "\r" then (line.dropEnd 1).toString else line

/-- The lines of a text. The last one need not be ended. -/
def lines (text : String) : List String :=
  let parts := text.splitOn "\n"
  parts.dropLast.map withoutReturn ++ (parts.drop (parts.length - 1)).filter (· ≠ "")

/-- The name and the value of a trait. -/
def trait? (line : String) : Option (String × String) :=
  match line.splitOn ": " with
  | name :: value :: _ => some (name, value)
  | _ => none

/-- A truth value. -/
def truth? : String → Option Bool
  | "true" => some true
  | "false" => some false
  | _ => none

/-- The first two numbers of a version. -/
def version? (value : String) : Option (Nat × Nat) :=
  match value.splitOn "." with
  | first :: second :: _ => do return (← Text.natural? first, ← Text.natural? second)
  | _ => none

/-- The layout that a file states. -/
def ofText? (text : String) : Option Layout := do
  let traits := SortedMap.ofList (← (lines (← stated? text)).mapM trait?)
  return {
    segmentSize := ← Text.natural? (← traits.get? "segment_size")
    isCompressed := ← truth? (← traits.get? "use_compression")
    version := ← version? (← traits.get? "version") }

end Layout

/-- A version as it is written. -/
def versionText (version : Nat × Nat) : String :=
  toString version.1 ++ "." ++ toString version.2

/-- The wording of a conflict. -/
def LayoutConflict.message : LayoutConflict → String
  | .compressed =>
    "cannot change compression values across restarts. old value of use_compression loaded from " ++
      "disk: true, currently set value: false."
  | .segmentSize found =>
    "cannot change the io buffer size across restarts. please change it back to " ++ toString found
  | .version found =>
    "This database was created using pagecache version " ++ versionText found ++
      ", but our pagecache version is " ++ versionText Layout.standard.version ++ ". Please " ++
      "perform an upgrade using the sled::Db::export and sled::Db::import methods."

end LiveSchema
