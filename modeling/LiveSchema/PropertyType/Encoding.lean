import LiveSchema.Json.Decode
import LiveSchema.PropertyType.Basic

/-!
# LiveSchema.PropertyType.Encoding

Property types as JSON values: a scalar is its name, every other type an object whose one key names
the alternative. This form can hold types that no text denotes, such as an enumeration of texts that
are no identifiers.
-/

namespace LiveSchema.PropertyType

/-- The names of the alternatives that have a content. -/
def contentNames : List String := ["Enum", "Reference", "Collection"]

/-- The failure to find an alternative of that name. -/
def unknownName (name : String) : DecodeError :=
  .unknownAlternative name (scalars.map (·.1) ++ contentNames)

/-- A type as a value. -/
def toJson : PropertyType → Json
  | .string => .string "String"
  | .integer => .string "Integer"
  | .long => .string "Long"
  | .double => .string "Double"
  | .boolean => .string "Boolean"
  | .date => .string "Date"
  | .json => .string "Json"
  | .enumeration values => .object [("Enum", Json.ofStrings values)]
  | .reference target => .object [("Reference", .string target)]
  | .collection items => .object [("Collection", items.toJson)]

/-- The type that a value denotes. -/
def ofJson : Json → Except DecodeError PropertyType
  | .string name =>
    match scalars.lookup name with
    | some t => .ok t
    | none =>
      if contentNames.contains name then .error (.wrongType .bareName "newtype variant")
      else .error (unknownName name)
  | .object [(name, content)] =>
    match scalars.lookup name with
    | some t => do
      Decoder.nothing .value (.ofJson content)
      return t
    | none =>
      if name = "Enum" then
        .enumeration <$> decodeJson (Decoder.listOf Decoder.text) content
      else if name = "Reference" then .reference <$> decodeJson Decoder.text content
      else if name = "Collection" then .collection <$> ofJson content
      else .error (unknownName name)
  | .object _ => .error (.wrongValue .map "map with a single key")
  | v => mismatch "string or map" (.ofJson v)

end LiveSchema.PropertyType
