/-!
# LiveSchema.Files.Path

Places in the tree of files, and the paths that lead to them.

* `Location` — a place, written in one way only.
* `Path` — a written path: where it starts, and the steps it takes from there.
-/

namespace LiveSchema

/-- A place in the tree of files, as the names on the way from the working directory. The way to a
place above the working directory begins with steps upwards, the way to a place below the root with
a step to the root, which has the name `/`. -/
abbrev Location := List String

namespace Location

/-- The working directory. -/
def working : Location := []

/-- The root of the tree. -/
def root : Location := ["/"]

/-- The step upwards. -/
def upwards : String := ".."

/-- The directory above a place. The root is above itself. -/
def up (here : Location) : Location :=
  match here.getLast? with
  | none => [upwards]
  | some last =>
    if last = upwards then here ++ [upwards]
    else if here = root then root
    else here.dropLast

/-- One step from a directory. -/
def step (here : Location) (name : String) : Location :=
  if name = "." then here
  else if name = upwards then here.up
  else here ++ [name]

/-- The name of a place in a directory, if it is in it. -/
def nameIn? (directory here : Location) : Option String :=
  if here.dropLast = directory ∧ here ≠ root then here.getLast?.filter (· ≠ upwards) else none

/-- The names of directories that every system has below its root. -/
def standardNames : List String :=
  ["bin", "dev", "etc", "home", "lib", "opt", "proc", "root", "run", "sys", "tmp", "usr", "var"]

/-- Whether a place is a directory that is there without having been made. -/
def isStandard (here : Location) : Bool :=
  here.all (· = upwards) || here = root || standardNames.any fun name => here = root ++ [name]

/-- The file that is always empty. -/
def emptyFile : Location := root ++ ["dev", "null"]

/-- The places on the way to a place, the nearest to the working directory first. -/
def above (here : Location) : List Location := (List.range here.length).map here.take

end Location

/-- A written path. -/
structure Path where
  start : Location
  /-- The steps from the start. A step `.` stays in a directory, a step `..` goes up. -/
  steps : List String
  /-- The number of bytes of the whole path as it is written. -/
  size : Nat
deriving DecidableEq

namespace Path

/-- The largest number of bytes in a name. -/
def longestName : Nat := 255

/-- The largest number of bytes in a path. -/
def longestPath : Nat := 4095

/-- A written path. A slash at its end asks for a directory, as a step `.` does. -/
def ofText (s : String) : Path :=
  let written := s.splitOn "/"
  let names := written.filter (· ≠ "")
  { start := if s.startsWith "/" then .root else .working
    steps := if names ≠ [] ∧ written.getLast? = some "" then names ++ ["."] else names
    size := s.utf8ByteSize }

/-- Where a path leads if all its steps can be taken. -/
def location (p : Path) : Location := p.steps.foldl .step p.start

/-- The written path to something in a directory. -/
def join (directory name : String) : String :=
  if directory = "" ∨ directory.endsWith "/" then directory ++ name else directory ++ "/" ++ name

/-- Whether a path ends in the name of a place, with one slash after it at most. A step `.` is no
name, a step `..` is one, and so is the empty path. -/
def endsInName (s : String) : Bool :=
  let written := s.splitOn "/"
  let whole := if s.endsWith "/" then written.dropLast else written
  s = "" || whole.getLast?.any fun name => name ≠ "" && name ≠ "."

/-- Whether a path is short enough to be looked up. -/
def isShort (p : Path) : Bool := p.size ≤ longestPath

/-- Whether a path holds no character that would end it early. -/
def isWhole (p : Path) : Bool := p.steps.all fun name => !name.contains '\x00'

end Path

end LiveSchema
