import LiveSchema.Json.Basic
import LiveSchema.Settings.Basic

/-!
# LiveSchema.Settings.Encoding

The form in which a directory keeps settings: a JSON list of pairs of lists of bytes.
-/

namespace LiveSchema.PersistentSettings

/-- Bytes as a list of numbers. -/
def bytesJson (bytes : Bytes) : Json := .list (bytes.map fun b => .ofNat b.toNat)

/-- The byte that a number is. -/
def byteOf? (v : Json) : Option UInt8 :=
  match v with
  | .number (.int n) => if 0 ≤ n ∧ n < 256 then some n.toNat.toUInt8 else none
  | _ => none

/-- The bytes that a list of numbers is. -/
def bytesOf? : Json → Option Bytes
  | .list items => items.mapM byteOf?
  | _ => none

/-- Settings as a list of pairs. -/
def toJson (m : PersistentSettings) : Json :=
  .list (m.entries.map fun e => .list [bytesJson e.1, bytesJson e.2])

/-- The setting that a pair is. -/
def pairOf? : Json → Option (Bytes × Bytes)
  | .list [key, value] => do return (← bytesOf? key, ← bytesOf? value)
  | _ => none

/-- The settings that a list of pairs is. -/
def ofJson? : Json → Option PersistentSettings
  | .list items => SortedMap.ofList <$> items.mapM pairOf?
  | _ => none

end LiveSchema.PersistentSettings
