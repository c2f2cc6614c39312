import LiveSchema.Definition.Basic
import LiveSchema.Json.Decode

/-!
# LiveSchema.Definition.Encoding

Definitions as JSON records. Members that hold their default may be left out: an absent option, no
properties or views, a flag that is not set. `Definition.toJson` writes all of them.
-/

namespace LiveSchema

/-- The two kinds and their names. -/
def Kind.named : List (String × Kind) := [("node", .node), ("relationship", .relationship)]

/-- Read a kind. -/
def Kind.decoder : Decoder Kind := choice Kind.named

namespace PropertyDeclaration

/-- Read a property declaration. -/
def decoder : Decoder PropertyDeclaration :=
  RecordDecoder.run "struct PropertyDeclaration"
    (PropertyDeclaration.mk
      <$> .required "name" Decoder.text
      <*> .required "declared_type" Decoder.text
      <*> .withDefault "indexed" false Decoder.flag
      <*> .withDefault "indexed_when_empty" false Decoder.flag
      <*> .withDefault "read_only" false Decoder.flag)

/-- The full record. -/
def toJson (p : PropertyDeclaration) : Json :=
  .object
    [("declared_type", .string p.declaredType), ("indexed", .bool p.indexed),
      ("indexed_when_empty", .bool p.indexedWhenEmpty), ("name", .string p.name),
      ("read_only", .bool p.readOnly)]

end PropertyDeclaration

namespace ViewDeclaration

/-- Read a view declaration. -/
def decoder : Decoder ViewDeclaration :=
  RecordDecoder.run "struct ViewDeclaration"
    (ViewDeclaration.mk
      <$> .required "name" Decoder.text
      <*> .required "properties" (Decoder.listOf Decoder.text))

/-- The full record. -/
def toJson (v : ViewDeclaration) : Json :=
  .object [("name", .string v.name), ("properties", Json.ofStrings v.properties)]

end ViewDeclaration

namespace Endpoints

/-- Read endpoints. -/
def decoder : Decoder Endpoints :=
  RecordDecoder.run "struct RelationshipEndpoints"
    (Endpoints.mk
      <$> .required "source" Decoder.text
      <*> .required "target" Decoder.text
      <*> .required "relationship_type" Decoder.text)

/-- The full record. -/
def toJson (e : Endpoints) : Json :=
  .object
    [("relationship_type", .string e.relationshipType), ("source", .string e.source),
      ("target", .string e.target)]

end Endpoints

namespace Definition

/-- Read a definition. -/
def decoder : Decoder Definition :=
  RecordDecoder.run "struct SchemaDefinition"
    (Definition.mk
      <$> .required "name" Decoder.text
      <*> .required "kind" Kind.decoder
      <*> .withDefault "extends" none (Decoder.optional Decoder.text)
      <*> .withDefault "properties" [] (Decoder.listOf PropertyDeclaration.decoder)
      <*> .withDefault "views" [] (Decoder.listOf ViewDeclaration.decoder)
      <*> .withDefault "auxiliary_source" none (Decoder.optional Decoder.text)
      <*> .withDefault "endpoints" none (Decoder.optional Endpoints.decoder)
      <*> .withDefault "builtin" false Decoder.flag
      <*> .withDefault "non_indexed" false Decoder.flag)

/-- The full record. -/
def toJson (d : Definition) : Json :=
  .object
    [("auxiliary_source", Json.ofOption .string d.auxiliarySource), ("builtin", .bool d.builtin),
      ("endpoints", Json.ofOption Endpoints.toJson d.endpoints),
      ("extends", Json.ofOption .string d.parent), ("kind", .string d.kind.name),
      ("name", .string d.name), ("non_indexed", .bool d.nonIndexed),
      ("properties", .list (d.properties.map PropertyDeclaration.toJson)),
      ("views", .list (d.views.map ViewDeclaration.toJson))]

end Definition

end LiveSchema
