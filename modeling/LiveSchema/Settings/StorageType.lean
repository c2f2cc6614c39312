/-!
# LiveSchema.Settings.StorageType

The two places where settings can be kept, and their names as users write them, in capitals or not.
-/

namespace LiveSchema

/-- Where settings are kept. -/
inductive StorageType where
  /-- In a directory, where they survive the process. -/
  | directory
  /-- In memory. -/
  | memory
deriving DecidableEq, Repr

namespace StorageType

/-- The name of a storage type. -/
def name : StorageType → String
  | .directory => "sled"
  | .memory => "memory"

/-- The storage types by name. No letter outside ASCII has one of the letters of these names as its
lower case, so lower-casing ASCII letters is enough to compare. -/
def named : List (String × StorageType) := [("sled", .directory), ("memory", .memory)]

/-- The storage type that a user means. -/
def ofText? (s : String) : Option StorageType :=
  named.lookup (String.ofList (s.toList.map Char.toLower))

/-- What is said of a text that means none. -/
def unknownMessage (s : String) : String :=
  "Unknown storage type: " ++ s ++ ". Valid options: sled, memory"

theorem ofText?_name (t : StorageType) : ofText? t.name = some t := by
  cases t <;> decide

end StorageType

end LiveSchema
