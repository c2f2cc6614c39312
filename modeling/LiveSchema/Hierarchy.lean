import LiveSchema.Definition.Basic
import LiveSchema.Lineage

/-!
# LiveSchema.Hierarchy

What is reported about the node types of a schema, whether or not it compiles: how deep each lies
below its topmost ancestor, how many relationship ends meet in it, and which types extend each other
in a circle. Of several definitions of one node type the last counts; every relationship definition
counts.
-/

namespace LiveSchema

/-- What is reported about one node type. -/
structure HierarchyEntry where
  /-- The number of defined types above it, up to a limit. -/
  depth : Nat
  /-- Relationship definitions that start here, and those that end here. -/
  relationshipCount : Nat
deriving DecidableEq, Repr

/-- What is reported about all node types. -/
structure HierarchyReport where
  annotations : SortedMap String HierarchyEntry
  /-- The sorted members of each circle. -/
  cycles : List (List String)

namespace Hierarchy

/-- The depth that is reported for longer chains, unless told otherwise. -/
def defaultDepthLimit : Nat := 20

/-- The node definitions by name. -/
def nodes (definitions : List Definition) : SortedMap String Definition :=
  SortedMap.ofList ((definitions.filter (·.kind = .node)).map fun d => (d.name, d))

/-- The extends relation among node definitions. -/
def lineage (nodes : SortedMap String Definition) : Lineage where
  names := nodes.keys
  parent? name := do
    let definition ← nodes.get? name
    let parent ← definition.parent
    if nodes.contains parent then some parent else none

/-- The node types that relationship definitions connect, one entry per end. -/
def ends (definitions : List Definition) : List String :=
  (definitions.filter (·.kind = .relationship)).flatMap fun d =>
    match d.endpoints with
    | some endpoints => [endpoints.source, endpoints.target]
    | none => []

/-- The report on a list of definitions. -/
def report (depthLimit : Nat) (definitions : List Definition) : HierarchyReport :=
  let nodes := nodes definitions
  let lineage := lineage nodes
  let ends := ends definitions
  { annotations := nodes.mapValues fun name _ =>
      ⟨lineage.depthUpTo depthLimit name, ends.count name⟩
    cycles := lineage.cycles }

end Hierarchy

end LiveSchema
