import LiveSchema.SortedMap

/-!
# LiveSchema.Json.Basic

JSON values. Numbers keep the distinction that property types depend on: a number written without
point and exponent is an integer, every other one a double.

* `Json` — values; the fields of an object stand in key order, each key once, in every value built
  by `Json.ofFields` or read from text.
* `Json.field?` — lookup in an object.
* `Json.shape` — the word for the kind of value in messages about entities.
-/

namespace LiveSchema

/-- A JSON number: an integer in the 64-bit ranges, or a double. -/
inductive Number where
  | int (value : Int)
  | double (value : Float)
deriving DecidableEq

/-- A JSON value. -/
inductive Json where
  | null
  | bool (value : Bool)
  | number (value : Number)
  | string (value : String)
  | list (items : List Json)
  | object (fields : List (String × Json))

namespace Json

instance : Inhabited Json := ⟨null⟩

/-- The object with the given fields, in key order; of fields with one key the last counts. -/
def ofFields (fields : List (String × Json)) : Json :=
  .object (SortedMap.ofList fields).entries

/-- A natural number. -/
def ofNat (n : Nat) : Json := .number (.int n)

/-- A list of texts. -/
def ofStrings (texts : List String) : Json := .list (texts.map .string)

/-- An absent value is `null`. -/
def ofOption {α : Type} (f : α → Json) : Option α → Json
  | none => .null
  | some a => f a

/-- The fields of an object; any other value has none. -/
def fields : Json → List (String × Json)
  | .object fields => fields
  | _ => []

/-- The value of a field. -/
def field? (v : Json) (name : String) : Option Json := SortedMap.lookup name v.fields

/-- Whether a value is a text. -/
def isString : Json → Bool
  | .string _ => true
  | _ => false

/-- Whether a value is `null`. -/
def isNull : Json → Bool
  | .null => true
  | _ => false

/-- The word for the kind of a value. -/
def shape : Json → String
  | .null => "null"
  | .bool _ => "boolean"
  | .number _ => "number"
  | .string _ => "string"
  | .list _ => "array"
  | .object _ => "object"

/-- The integer that a number is, if it fits 64 signed bits. -/
def int64? : Json → Option Int
  | .number (.int n) =>
    if -9223372036854775808 ≤ n ∧ n ≤ 9223372036854775807 then some n else none
  | _ => none

end Json

end LiveSchema
