import LiveSchema.Checksum
import LiveSchema.PropertyType.Parser
import LiveSchema.SourceUnit

/-!
# LiveSchema.Emission

From definitions to source units. Everything that can be said of one definition alone is checked
here: names are identifiers, no property is declared twice, every declared type can be read, and
exactly the relationship types have endpoints. All problems of a definition are reported together:
first the name, then the endpoints, then each property in order with at most one problem, then the
views.
-/

namespace LiveSchema

/-- What can be wrong with one definition. -/
inductive DefinitionError where
  | invalidTypeName (kind : Kind) (name : String)
  | invalidPropertyName (typeName property : String)
  | duplicateProperty (typeName property : String)
  | malformedPropertyType (typeName property source : String) (failure : TypeFailure)
  | invalidViewName (typeName view : String)
  | missingEndpoints (typeName : String)
  | unexpectedEndpoints (typeName : String)
deriving DecidableEq

namespace DefinitionError

/-- The name of the definition that is wrong. -/
def typeName : DefinitionError → String
  | .invalidTypeName _ name => name
  | .invalidPropertyName name _ => name
  | .duplicateProperty name _ => name
  | .malformedPropertyType name _ _ _ => name
  | .invalidViewName name _ => name
  | .missingEndpoints name => name
  | .unexpectedEndpoints name => name

/-- The wording of a problem. -/
def message : DefinitionError → String
  | .invalidTypeName kind name => "Invalid " ++ kind.name ++ " type name '" ++ name ++ "'"
  | .invalidPropertyName t p => "Invalid property name '" ++ p ++ "' on type '" ++ t ++ "'"
  | .duplicateProperty t p =>
    "Property '" ++ p ++ "' is declared more than once on type '" ++ t ++ "'"
  | .malformedPropertyType t p source failure =>
    "Malformed declaration of '" ++ t ++ "." ++ p ++ "': " ++ failure.message source
  | .invalidViewName t view => "Invalid view name '" ++ view ++ "' on type '" ++ t ++ "'"
  | .missingEndpoints t => "Relationship type '" ++ t ++ "' has no source/target endpoints"
  | .unexpectedEndpoints t =>
    "Node type '" ++ t ++ "' must not declare relationship endpoints"

end DefinitionError

/-- The name of the unit of a type's helper code. -/
def helperUnitName (owner : String) : String := "_" ++ owner ++ "Helper"

/-- The units of one definition. -/
structure Emission where
  primary : TypeUnit
  helper : Option HelperUnit
deriving DecidableEq

/-- The units of an emission, the type first. -/
def Emission.units (e : Emission) : List SourceUnit :=
  .type e.primary :: (e.helper.map SourceUnit.helper).toList

namespace Emission

/-- The problem with the name of a definition. -/
def nameErrors (d : Definition) : List DefinitionError :=
  if isIdentifier d.name then [] else [.invalidTypeName d.kind d.name]

/-- The problem with the endpoints of a definition. -/
def endpointErrors (d : Definition) : List DefinitionError :=
  match d.kind, d.endpoints with
  | .relationship, none => [.missingEndpoints d.name]
  | .node, some _ => [.unexpectedEndpoints d.name]
  | _, _ => []

/-- The field that a property declares, or what is wrong with it after the valid names in `seen`. -/
def field (typeName : String) (seen : List String) (p : PropertyDeclaration) :
    Except DefinitionError Field :=
  if !isIdentifier p.name then .error (.invalidPropertyName typeName p.name)
  else if seen.contains p.name then .error (.duplicateProperty typeName p.name)
  else
    match PropertyType.parse p.declaredType with
    | .ok type => .ok ⟨p.name, type, p.indexed, p.indexedWhenEmpty, p.readOnly⟩
    | .error failure => .error (.malformedPropertyType typeName p.name p.declaredType failure)

/-- What each property comes to, in order. A valid name counts as seen even if its type is
malformed. -/
def fields (typeName : String) (seen : List String) :
    List PropertyDeclaration → List (Except DefinitionError Field)
  | [] => []
  | p :: rest =>
    field typeName seen p ::
      fields typeName (if isIdentifier p.name then p.name :: seen else seen) rest

/-- The failures among some results. -/
def failures {ε α : Type} (results : List (Except ε α)) : List ε :=
  results.filterMap fun | .error e => some e | .ok _ => none

/-- The successes among some results. -/
def successes {ε α : Type} (results : List (Except ε α)) : List α :=
  results.filterMap fun | .ok a => some a | .error _ => none

/-- The problems with the views of a definition. -/
def viewErrors (d : Definition) : List DefinitionError :=
  (d.views.filter (fun v => !isIdentifier v.name)).map fun v => .invalidViewName d.name v.name

/-- All problems of a definition. -/
def errors (d : Definition) : List DefinitionError :=
  nameErrors d ++ endpointErrors d ++ failures (fields d.name [] d.properties) ++ viewErrors d

/-- The type unit of a definition. -/
def typeUnit (d : Definition) : TypeUnit where
  name := d.name
  kind := d.kind
  parent := d.parent
  fields := successes (fields d.name [] d.properties)
  views := d.views
  endpoints := d.endpoints
  builtin := d.builtin
  nonIndexed := d.nonIndexed

/-- The unit of a definition's helper code. -/
def helperUnit? (d : Definition) : Option HelperUnit :=
  d.auxiliarySource.map fun source =>
    ⟨helperUnitName d.name, d.name, d.kind, source, Checksum.ofText source⟩

end Emission

/-- The units of a definition, or everything that is wrong with it. -/
def Definition.emit (d : Definition) : Except (List DefinitionError) Emission :=
  match Emission.errors d with
  | [] => .ok ⟨Emission.typeUnit d, Emission.helperUnit? d⟩
  | errors => .error errors

/-- The units of several definitions in order, or everything that is wrong with any of them. -/
def emitAll (ds : List Definition) : Except (List DefinitionError) (List SourceUnit) :=
  match ds.flatMap Emission.errors with
  | [] =>
    .ok (ds.flatMap fun d => (Emission.mk (Emission.typeUnit d) (Emission.helperUnit? d)).units)
  | errors => .error errors

end LiveSchema
