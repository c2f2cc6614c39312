import LiveSchema.Hierarchy
import LiveSchema.Index.Ledger
import LiveSchema.Index.Catalog
import LiveSchema.Generation
import LiveSchema.Json.Printer
import LiveSchema.Report.Table

/-!
# LiveSchema.Report.Basic

What is shown of the record of indexes, of the hierarchy of a schema and of a reload, as tables for
the reader or as JSON for a program.
-/

namespace LiveSchema

/-- The form of a report. -/
inductive ReportFormat where
  | table
  | json
deriving DecidableEq, Repr

/-- A line with its end. -/
def line (s : String) : String := s ++ "\n"

/-! ### The record of indexes -/

namespace Ledger

/-- The record as a table. -/
def table (keys : List IndexKey) : String :=
  if keys.isEmpty then line "No indexes recorded"
  else
    line "Index Ledger" ++
      line (Table.render ⟨["Type", "Property"], keys.map fun k => [k.typeName, k.property]⟩)

/-- The record as JSON. -/
def toJson (keys : List IndexKey) : Json :=
  .list (keys.map fun k =>
    .object [("property", .string k.property), ("type", .string k.typeName)])

/-- What is shown of the record. -/
def text (keys : List IndexKey) : ReportFormat → String
  | .table => table keys
  | .json => (toJson keys).pretty

end Ledger

/-! ### Hierarchies -/

/-- What is reported about a node type, as JSON. -/
def HierarchyEntry.toJson (e : HierarchyEntry) : Json :=
  .object [("depth", .ofNat e.depth), ("relationship_count", .ofNat e.relationshipCount)]

namespace HierarchyReport

/-- The circles, one on a line. -/
def cycleLines (r : HierarchyReport) : String :=
  if r.cycles.isEmpty then ""
  else
    "\n" ++ line "Inheritance cycles:" ++
      String.join (r.cycles.map fun cycle => line ("  " ++ " -> ".intercalate cycle))

/-- The report as a table. -/
def table (r : HierarchyReport) : String :=
  line "Type Hierarchy" ++
    line (Table.render ⟨["Type", "Depth", "Relationships"],
      r.annotations.entries.map fun (name, e) =>
        [name, toString e.depth, toString e.relationshipCount]⟩) ++
    r.cycleLines

/-- The report as JSON. -/
def toJson (r : HierarchyReport) : Json :=
  .object
    [("annotations", .object (r.annotations.mapValues fun _ e => e.toJson).entries),
      ("cycles", .list (r.cycles.map .ofStrings))]

/-- What is shown of the report. -/
def text (r : HierarchyReport) : ReportFormat → String
  | .table => r.table
  | .json => r.toJson.pretty

end HierarchyReport

/-! ### Reloads -/

/-- A committed generation, and what the reload did. -/
structure ReloadReport where
  generation : Generation
  /-- The reports that are kept about its types. -/
  annotations : SortedMap String HierarchyEntry
  /-- The statements that were issued. -/
  statements : List IndexStatement
  /-- The record of indexes after them. -/
  ledger : List IndexKey

namespace ReloadReport

/-- The chain of names above a type, nearest first, the base last. -/
def lineage (t : CompiledType) : List String := t.ancestors ++ t.builtinBase.toList

/-- The properties of a type on which an index is kept. -/
def indexed (t : CompiledType) : List String := (t.properties.filter t.shouldIndex).map (·.name)

/-- The cells of a type. -/
def row (r : ReloadReport) (t : CompiledType) : List String :=
  [t.name, t.kind.name, " -> ".intercalate (lineage t),
    ", ".intercalate (t.properties.map (·.name)), ", ".intercalate (indexed t),
    ", ".intercalate t.views.keys,
    ((r.annotations.get? t.name).map fun e => toString e.depth).getD ""]

/-- The statements, one on a line. -/
def statementLines (r : ReloadReport) : String :=
  if r.statements.isEmpty then line "No index DDL issued"
  else
    line "Index DDL:" ++ String.join (r.statements.map fun s => line ("  " ++ s.text))

/-- The report as tables. -/
def table (r : ReloadReport) : String :=
  line ("✅ Committed generation " ++ toString r.generation.sequence) ++
    line ("Types: " ++ toString r.generation.types.size) ++ "\n" ++
    line (Table.render ⟨["Type", "Kind", "Extends", "Properties", "Indexed", "Views", "Depth"],
      r.generation.types.values.map r.row⟩) ++
    "\n" ++ r.statementLines ++ "\n" ++ Ledger.table r.ledger

/-- A property of a type. -/
def propertyJson (t : CompiledType) (p : Property) : Json :=
  .object
    [("declared_by", .string p.declaredBy), ("indexed", .bool (t.shouldIndex p)),
      ("name", .string p.name), ("read_only", .bool p.readOnly), ("type", .string p.type.render)]

/-- A type of the generation. -/
def typeJson (r : ReloadReport) (t : CompiledType) : Json :=
  .object
    [("ancestors", .ofStrings t.ancestors), ("builtin_base", .ofOption .string t.builtinBase),
      ("hierarchy", .ofOption HierarchyEntry.toJson (r.annotations.get? t.name)),
      ("kind", .string t.kind.name), ("name", .string t.name),
      ("properties", .list (t.properties.map (propertyJson t))),
      ("qualified_name", .string t.qualifiedName),
      ("views", .object (t.views.mapValues fun _ members => Json.ofStrings members).entries)]

/-- The report as JSON. `createdAt` says when the generation was committed. -/
def toJson (r : ReloadReport) (createdAt : String) : Json :=
  .object
    [("created_at", .string createdAt), ("ddl", .ofStrings (r.statements.map (·.text))),
      ("dynamic_views", .ofStrings r.generation.dynamicViews.keys),
      ("generation", .ofNat r.generation.sequence), ("ledger", Ledger.toJson r.ledger),
      ("status", .string "committed"), ("types", .list (r.generation.types.values.map r.typeJson))]

/-- What is shown of the report. -/
def text (r : ReloadReport) (createdAt : String) : ReportFormat → String
  | .table => r.table
  | .json => (r.toJson createdAt).pretty

end ReloadReport

end LiveSchema
