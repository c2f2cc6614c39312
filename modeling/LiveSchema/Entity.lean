import LiveSchema.CompiledType
import LiveSchema.Json.Basic
import LiveSchema.PropertyType.Accepts

/-!
# LiveSchema.Entity

Entities, and what a compiled type says about them: whether their values fit the declared
properties, what a property holds, and what a view shows.
-/

namespace LiveSchema

/-- The values of an entity by property name. -/
abbrev Entity := SortedMap String Json

/-- The entity that an object describes. -/
def Entity.ofJson (v : Json) : Entity := SortedMap.ofList v.fields

/-- An entity as an object. -/
def Entity.toJson (e : Entity) : Json := .object e.entries

/-- What does not fit between an entity and its type. -/
inductive EntityError where
  | unknownProperty (typeName property : String)
  | typeMismatch (property : String) (expected : PropertyType) (got : String)
  | readOnly (property : String)
  | unknownView (typeName view : String)
deriving DecidableEq

/-- The wording of a misfit. -/
def EntityError.message : EntityError → String
  | .unknownProperty t p => "Type '" ++ t ++ "' has no property '" ++ p ++ "'"
  | .typeMismatch p expected got =>
    "Property '" ++ p ++ "' expects " ++ expected.render ++ ", got " ++ got
  | .readOnly p => "Property '" ++ p ++ "' is read-only"
  | .unknownView t view => "Type '" ++ t ++ "' has no view '" ++ view ++ "'"

namespace CompiledType

/-- What is wrong with a value under a property name. `null` fits every property, and the system
properties fit anything unless the type declares them. -/
def valueError? (t : CompiledType) (name : String) (value : Json) : Option EntityError :=
  match t.property? name with
  | some p =>
    if value.isNull || p.type.accepts value then none
    else some (.typeMismatch name p.type value.shape)
  | none => if isSystemProperty name then none else some (.unknownProperty t.name name)

/-- What is wrong with writing a value under a property name. -/
def updateError? (t : CompiledType) (name : String) (value : Json) : Option EntityError :=
  match t.valueError? name value with
  | some error => some error
  | none =>
    match t.property? name with
    | some p => if p.readOnly then some (.readOnly name) else none
    | none => none

/-- What is wrong with an entity, in the order of its property names. -/
def validate (t : CompiledType) (e : Entity) : List EntityError :=
  e.entries.filterMap fun (name, value) => t.valueError? name value

/-- What is wrong with a change to an entity. -/
def validateUpdate (t : CompiledType) (e : Entity) : List EntityError :=
  e.entries.filterMap fun (name, value) => t.updateError? name value

/-- The value of a property, `none` where the entity has none. -/
def getValue (t : CompiledType) (e : Entity) (name : String) :
    Except EntityError (Option Json) :=
  if (t.property? name).isNone && !isSystemProperty name then
    .error (.unknownProperty t.name name)
  else .ok (e.get? name)

/-- What a view shows of an entity: each member with its value, `null` where there is none. -/
def serializeView (t : CompiledType) (view : String) (e : Entity) : Except EntityError Entity :=
  match t.view? view with
  | some members => .ok (SortedMap.ofList (members.map fun m => (m, (e.get? m).getD .null)))
  | none => .error (.unknownView t.name view)

end CompiledType

end LiveSchema
