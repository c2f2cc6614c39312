import LiveSchema.Definition.Encoding
import LiveSchema.Files.Fault
import LiveSchema.Hierarchy

/-!
# LiveSchema.Definition.Store

Where definitions are kept. A definition is stored under its kind and name; loading lists the node
types first, each kind in name order. Reports about node types are written back to the store and
kept beside the definitions. A store may be out of reach, and then refuses to load and to be written
to by the engine; its owner can still edit it.
-/

namespace LiveSchema

/-- Why a store does not do what it is asked. -/
inductive StoreError where
  | unavailable (reason : String)
  /-- A file of definitions is malformed. -/
  | serialization (cause : DecodeError)
  /-- A file of definitions cannot be read. -/
  | unreadable (cause : FileFault)

/-- The wording of a failure. -/
def StoreError.message : StoreError → String
  | .unavailable reason => "Storage unavailable: " ++ reason
  | .serialization cause => "Serialization error: " ++ cause.message
  | .unreadable cause => "IO error: " ++ cause.message

/-- Definitions, the reports about them, and whether they can be reached. -/
structure Store where
  nodes : SortedMap String Definition := .empty
  relationships : SortedMap String Definition := .empty
  /-- The last report about each node type. -/
  annotations : SortedMap String HierarchyEntry := .empty
  available : Bool := true
  /-- How many times the definitions were loaded. -/
  loads : Nat := 0

namespace Store

/-- A store without definitions. -/
def empty : Store := {}

/-- The definitions of a kind. -/
def ofKind (s : Store) : Kind → SortedMap String Definition
  | .node => s.nodes
  | .relationship => s.relationships

/-- The store with other definitions of a kind. -/
def setKind (s : Store) (kind : Kind) (definitions : SortedMap String Definition) : Store :=
  match kind with
  | .node => { s with nodes := definitions }
  | .relationship => { s with relationships := definitions }

/-! ### Editing -/

/-- Store a definition, in place of the one of its kind and name. -/
def define (s : Store) (d : Definition) : Store :=
  s.setKind d.kind ((s.ofKind d.kind).insert d.name d)

/-- Store definitions one after the other. -/
def defineAll (s : Store) (ds : List Definition) : Store := ds.foldl define s

/-- A store that holds the given definitions. -/
def ofDefinitions (ds : List Definition) : Store := empty.defineAll ds

/-- The definition of a kind and name. -/
def definition? (s : Store) (kind : Kind) (name : String) : Option Definition :=
  (s.ofKind kind).get? name

/-- Take a definition out of the store. Its report stays. -/
def remove (s : Store) (kind : Kind) (name : String) : Store :=
  s.setKind kind ((s.ofKind kind).erase name)

/-- The last report about a node type. -/
def hierarchyEntry? (s : Store) (name : String) : Option HierarchyEntry := s.annotations.get? name

/-! ### What the engine does -/

/-- Whether the store answers. -/
def checkAvailable (s : Store) : Except StoreError Unit :=
  if s.available then .ok () else .error (.unavailable "in-memory store marked unavailable")

/-- All definitions, node types first, each kind in name order. -/
def definitions (s : Store) : List Definition := s.nodes.values ++ s.relationships.values

/-- Load all definitions. -/
def load (s : Store) : Except StoreError (List Definition × Store) := do
  s.checkAvailable
  return (s.definitions, { s with loads := s.loads + 1 })

/-- Make sure that a node type of that name is defined, marked as built in and extends `base`. -/
def ensureBuiltin (s : Store) (name base : String) : Except StoreError Store := do
  s.checkAvailable
  let d := (s.nodes.get? name).getD (Definition.node name)
  return { s with nodes := s.nodes.insert name { d with parent := some base, builtin := true } }

/-- Keep reports about the node types that are defined. -/
def writeHierarchy (s : Store) (annotations : SortedMap String HierarchyEntry) :
    Except StoreError Store := do
  s.checkAvailable
  return { s with
    annotations := s.annotations.union (annotations.filter fun name _ => s.nodes.contains name) }

/-! ### Files -/

/-- Read a list of definitions. -/
def definitionsDecoder : Decoder (List Definition) := Decoder.listOf Definition.decoder

/-- The store that a text describes. -/
def ofText (s : String) : Except StoreError Store :=
  match decodeText definitionsDecoder s with
  | .ok ds => .ok (ofDefinitions ds)
  | .error cause => .error (.serialization cause)

end Store

end LiveSchema
