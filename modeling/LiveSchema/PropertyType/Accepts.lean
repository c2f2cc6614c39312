import LiveSchema.Calendar
import LiveSchema.Json.Basic
import LiveSchema.PropertyType.Basic

/-!
# LiveSchema.PropertyType.Accepts

Which JSON values a property of a type can hold. Whole numbers are told from doubles by how they are
written, so `1` is an `Integer` and `1.0` is not; a reference is the text of an identity, or an
object that carries one in its field `id`. `null` stands for an absent value and is dealt with by
who asks.
-/

namespace LiveSchema.PropertyType

/-- Whether a text is one of a list. -/
def isOneOf (values : List String) : Json → Bool
  | .string s => values.contains s
  | _ => false

/-- Whether a value names the entity that it refers to. -/
def isIdentity (v : Json) : Bool :=
  v.isString || (match v.field? "id" with
    | some id => id.isString
    | none => false)

/-- Whether a value is a date. -/
def isDateText : Json → Bool
  | .string s => Calendar.isDate s
  | _ => false

/-- Whether a property of this type can hold the value. -/
def accepts : PropertyType → Json → Bool
  | .string, v => v.isString
  | .integer, v =>
    match v.int64? with
    | some n => -2147483648 ≤ n && n ≤ 2147483647
    | none => false
  | .long, v => v.int64?.isSome
  | .double, .number _ => true
  | .double, _ => false
  | .boolean, .bool _ => true
  | .boolean, _ => false
  | .date, v => isDateText v
  | .json, _ => true
  | .enumeration values, v => isOneOf values v
  | .reference _, v => isIdentity v
  | .collection items, .list vs => vs.all items.accepts
  | .collection _, _ => false

end LiveSchema.PropertyType
