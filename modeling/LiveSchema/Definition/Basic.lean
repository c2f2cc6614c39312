/-!
# LiveSchema.Definition.Basic

Definitions: what the author of a schema writes about one node type or relationship type. Nothing is
checked here; a definition may have any name, and its property types are still texts. Whether it
makes sense is decided when it is emitted (`LiveSchema.Emission`) and compiled
(`LiveSchema.Compile.Batch`).

The functions after the types build a definition up from its name.
-/

namespace LiveSchema

/-- What a type describes. -/
inductive Kind where
  | node
  | relationship
deriving DecidableEq, Repr

/-- The word for a kind. -/
def Kind.name : Kind → String
  | .node => "node"
  | .relationship => "relationship"

/-- One property as it is declared. -/
structure PropertyDeclaration where
  name : String
  /-- The type in its written form. -/
  declaredType : String
  indexed : Bool := false
  indexedWhenEmpty : Bool := false
  readOnly : Bool := false
deriving DecidableEq

/-- A named selection of properties. -/
structure ViewDeclaration where
  name : String
  properties : List String
deriving DecidableEq

/-- What a relationship type connects, and the label that it has in the graph. -/
structure Endpoints where
  source : String
  target : String
  relationshipType : String
deriving DecidableEq

/-- What an author writes about one type. -/
structure Definition where
  name : String
  kind : Kind
  /-- The type that this one extends: another defined type or a built-in base. -/
  parent : Option String := none
  properties : List PropertyDeclaration := []
  views : List ViewDeclaration := []
  /-- Helper code, compiled as a unit of its own. -/
  auxiliarySource : Option String := none
  endpoints : Option Endpoints := none
  /-- Marks the definition of a type that takes the place of a built-in one. -/
  builtin : Bool := false
  /-- No property of the type is indexed, whatever its declaration says. -/
  nonIndexed : Bool := false
deriving DecidableEq

namespace Definition

/-- A node type without properties. -/
def node (name : String) : Definition where
  name := name
  kind := .node

/-- A relationship type without properties. -/
def relationship (name : String) (endpoints : Endpoints) : Definition where
  name := name
  kind := .relationship
  endpoints := some endpoints

/-- The same definition, extending another type. -/
def extending (d : Definition) (parent : String) : Definition := { d with parent := some parent }

/-- The definition with one more property. -/
def withProperty (d : Definition) (property : PropertyDeclaration) : Definition :=
  { d with properties := d.properties ++ [property] }

/-- The definition with one more view. -/
def withView (d : Definition) (view : ViewDeclaration) : Definition :=
  { d with views := d.views ++ [view] }

/-- The definition with helper code. -/
def withAuxiliarySource (d : Definition) (source : String) : Definition :=
  { d with auxiliarySource := some source }

/-- The definition, opted out of indexing. -/
def optedOut (d : Definition) : Definition := { d with nonIndexed := true }

/-- The names of the views declared here. -/
def viewNames (d : Definition) : List String := d.views.map (·.name)

end Definition

end LiveSchema
