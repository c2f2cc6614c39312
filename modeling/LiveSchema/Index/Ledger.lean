import LiveSchema.Index.Key
import LiveSchema.Settings.Basic

/-!
# LiveSchema.Index.Ledger

The record of the indexes that the engine created, kept in the settings so that it survives a
restart. An index on property `p` of type `T` is recorded by the value `true` under the key
`index.T.p`. No type name contains a dot, so the type ends at the first one.
-/

namespace LiveSchema.Ledger

/-- What every key of a record begins with. -/
def keyStart : String := "index."

/-- The value of a record. -/
def created : String := "true"

/-- The key of the record of an index. -/
def key (k : IndexKey) : String := keyStart ++ k.typeName ++ "." ++ k.property

/-- The index that a key records. -/
def keyOf? (key : String) : Option IndexKey :=
  if MemorySettings.beginsWith keyStart key then
    let rest := key.toList.drop keyStart.length
    match rest.dropWhile (· != '.') with
    | _ :: property =>
      some ⟨String.ofList (rest.takeWhile (· != '.')), String.ofList property⟩
    | [] => none
  else none

/-- Whether an index is recorded. -/
def exists? (s : Settings) (k : IndexKey) : Except SettingsError Bool := do
  return (← s.get (key k)) = some created

/-- Record an index. -/
def mark (s : Settings) (k : IndexKey) : Except SettingsError Settings :=
  s.set (key k) (some created)

/-- Take an index off the record. -/
def clear (s : Settings) (k : IndexKey) : Except SettingsError Settings := s.set (key k) none

/-- The indexes that settings record. -/
def recorded (pairs : List (String × String)) : List IndexKey :=
  (pairs.filter (·.2 = created)).filterMap fun e => keyOf? e.1

/-- All recorded indexes, in the order of their keys. -/
def entries (s : Settings) : Except SettingsError (List IndexKey) :=
  (s.scan keyStart).map recorded

/-- The recorded indexes of one type. -/
def entriesForType (s : Settings) (typeName : String) : Except SettingsError (List IndexKey) :=
  (s.scan (keyStart ++ typeName ++ ".")).map recorded

end LiveSchema.Ledger
