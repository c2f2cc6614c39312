/-!
# LiveSchema.PropertyType.Basic

The types that a property can be declared with, and their written form: seven scalars by name,
enumerations of identifiers, references to node types, and collections, each layer of which is one
`[]` after the type of the items.

* `PropertyType.chars`, `PropertyType.render` — the written form.
* `PropertyType.layers`, `PropertyType.inner` — a type as a number of collection layers around a
  type that is no collection; `PropertyType.wrap` puts layers around a type.
* `PropertyType.referenced?` — the node type that a property points at.
-/

namespace LiveSchema

/-- The type of a declared property. -/
inductive PropertyType where
  | string
  /-- A whole number of 32 bits. -/
  | integer
  /-- A whole number of 64 bits. -/
  | long
  | double
  | boolean
  /-- A timestamp or a calendar date. -/
  | date
  /-- Any value. -/
  | json
  | enumeration (values : List String)
  /-- A reference to an entity of another node type. -/
  | reference (target : String)
  | collection (items : PropertyType)
deriving DecidableEq

namespace PropertyType

instance : Inhabited PropertyType := ⟨string⟩

/-- The scalar types and their names. -/
def scalars : List (String × PropertyType) :=
  [("String", string), ("Integer", integer), ("Long", long), ("Double", double),
    ("Boolean", boolean), ("Date", date), ("Json", json)]

/-- The written form. -/
def chars : PropertyType → List Char
  | .string => "String".toList
  | .integer => "Integer".toList
  | .long => "Long".toList
  | .double => "Double".toList
  | .boolean => "Boolean".toList
  | .date => "Date".toList
  | .json => "Json".toList
  | .enumeration values =>
    "Enum(".toList ++ [',', ' '].intercalate (values.map String.toList) ++ [')']
  | .reference target => "Ref(".toList ++ target.toList ++ [')']
  | .collection items => items.chars ++ ['[', ']']

/-- The written form as a text. -/
def render (t : PropertyType) : String := String.ofList t.chars

/-- The node type that a property points at, looked at through collections. -/
def referenced? : PropertyType → Option String
  | .reference target => some target
  | .collection items => items.referenced?
  | _ => none

/-- The number of collection layers. -/
def layers : PropertyType → Nat
  | .collection items => items.layers + 1
  | _ => 0

/-- What the collection layers are put around. -/
def inner : PropertyType → PropertyType
  | .collection items => items.inner
  | t => t

/-- Put collection layers around a type. -/
def wrap : Nat → PropertyType → PropertyType
  | 0, t => t
  | n + 1, t => wrap n (.collection t)

@[simp] theorem referenced?_wrap (n : Nat) (t : PropertyType) :
    (wrap n t).referenced? = t.referenced? := by
  induction n generalizing t with
  | zero => rfl
  | succ n ih => simp [wrap, ih, referenced?]

theorem wrap_collection (n : Nat) (t : PropertyType) :
    wrap n (.collection t) = .collection (wrap n t) := by
  induction n generalizing t with
  | zero => rfl
  | succ n ih => simp [wrap, ih]

/-- A type is its layers around its inside. -/
@[simp] theorem wrap_layers_inner (t : PropertyType) : wrap t.layers t.inner = t := by
  induction t with
  | collection items ih => simp [layers, inner, wrap, wrap_collection, ih]
  | _ => rfl

end PropertyType

end LiveSchema
