import LiveSchema.Definition.Basic
import LiveSchema.PropertyType.Basic

/-!
# LiveSchema.SourceUnit

What is compiled: one unit for each type, and one for each piece of helper code. A unit is a
definition whose names have been checked and whose property types have been read; whether it fits
together with the other units of its batch is not known yet.
-/

namespace LiveSchema

/-- One property of a type unit. -/
structure Field where
  name : String
  type : PropertyType
  indexed : Bool
  indexedWhenEmpty : Bool
  readOnly : Bool
deriving DecidableEq

/-- The unit of a type. -/
structure TypeUnit where
  name : String
  kind : Kind
  parent : Option String
  fields : List Field
  views : List ViewDeclaration
  endpoints : Option Endpoints
  builtin : Bool
  nonIndexed : Bool
deriving DecidableEq

/-- The unit of a piece of helper code. -/
structure HelperUnit where
  name : String
  /-- The type that the code belongs to. -/
  owner : String
  ownerKind : Kind
  source : String
  /-- The check value of the source. -/
  fingerprint : UInt32
deriving DecidableEq

/-- A unit of a batch. -/
inductive SourceUnit where
  | type (unit : TypeUnit)
  | helper (unit : HelperUnit)
deriving DecidableEq

namespace SourceUnit

/-- The name of a unit. -/
def name : SourceUnit → String
  | .type unit => unit.name
  | .helper unit => unit.name

/-- The type units among some units. -/
def types (units : List SourceUnit) : List TypeUnit :=
  units.filterMap fun | .type unit => some unit | .helper _ => none

/-- The helper units among some units. -/
def helpers (units : List SourceUnit) : List HelperUnit :=
  units.filterMap fun | .type _ => none | .helper unit => some unit

end SourceUnit

end LiveSchema
