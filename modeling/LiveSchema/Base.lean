import LiveSchema.Definition.Basic

/-!
# LiveSchema.Base

The built-in bases that a type can extend without their being defined, and the system properties
that every entity has.
-/

namespace LiveSchema

/-- The base at the root of the node types, on which alone the property `id` is indexed. -/
def nodeInterface : String := "NodeInterface"

/-- The fixed bases. -/
def fixedBases : List (String × Kind) :=
  [(nodeInterface, .node), ("AbstractNode", .node), ("RelationshipInterface", .relationship),
    ("AbstractRelationship", .relationship)]

/-- Whether a name is that of a fixed base. -/
def isFixedBase (name : String) : Bool := (fixedBases.lookup name).isSome

/-- The system properties. -/
def systemProperties : List String := ["id", "type"]

/-- Whether a name is that of a system property. -/
def isSystemProperty (name : String) : Bool := systemProperties.contains name

end LiveSchema
