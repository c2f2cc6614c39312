import LiveSchema.Base
import LiveSchema.PropertyType.Basic
import LiveSchema.SortedMap

/-!
# LiveSchema.CompiledType

A type as compilation leaves it: its own properties and views merged with those of every type that
it extends. Inherited properties stand first, in the order of their first declaration; a property
that is declared anew keeps its place and takes the new declaration. What entities of the type look
like is in `LiveSchema.Entity`.
-/

namespace LiveSchema

/-- One property of a compiled type. -/
structure Property where
  name : String
  type : PropertyType
  indexed : Bool
  indexedWhenEmpty : Bool
  readOnly : Bool
  /-- The type whose declaration counts. -/
  declaredBy : String
deriving DecidableEq

/-- Whether the declaration asks for an index. -/
def Property.wantsIndex (p : Property) : Bool := p.indexed || p.indexedWhenEmpty

/-- The helper code of a compiled type. -/
structure Helper where
  name : String
  source : String
  fingerprint : UInt32
deriving DecidableEq

/-- A type of a generation. -/
structure CompiledType where
  name : String
  /-- The name with the prefix of the namespace. -/
  qualifiedName : String
  kind : Kind
  /-- The defined types above, nearest first. -/
  ancestors : List String
  /-- The base at the top of the chain. -/
  builtinBase : Option String
  /-- Merged properties. -/
  properties : List Property
  /-- Merged views. -/
  views : SortedMap String (List String)
  helper : Option Helper
  endpoints : Option Endpoints
  builtin : Bool
  nonIndexed : Bool
deriving DecidableEq

namespace CompiledType

/-- The property of a name. -/
def property? (t : CompiledType) (name : String) : Option Property :=
  t.properties.find? (·.name = name)

/-- The members of a view. -/
def view? (t : CompiledType) (name : String) : Option (List String) := t.views.get? name

/-- Whether a name is the type's own, that of a type above it, or that of its base. -/
def extends? (t : CompiledType) (ancestor : String) : Bool :=
  t.name = ancestor || t.ancestors.contains ancestor || t.builtinBase = some ancestor

/-- Whether the engine keeps an index on a property of the type. The property `id` of every entity
is covered by the one index on the root of the node types. -/
def shouldIndex (t : CompiledType) (p : Property) : Bool :=
  !t.nonIndexed && p.wantsIndex && (p.name != "id" || t.name = nodeInterface)

end CompiledType

end LiveSchema
