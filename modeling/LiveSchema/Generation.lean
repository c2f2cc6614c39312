import LiveSchema.Compile.Batch

/-!
# LiveSchema.Generation

A generation: everything that one reload compiled, under a sequence number. Generation zero is empty
and is current before the first reload. A generation never changes; the next one takes its place.
-/

namespace LiveSchema

/-- A compiled snapshot of a schema. -/
structure Generation where
  sequence : Nat
  types : SortedMap String CompiledType
  /-- The names of all views of the definitions. -/
  dynamicViews : NameSet
  /-- The definitions it was compiled from, in the order in which they were loaded. -/
  definitions : List Definition

namespace Generation

/-- The generation before the first reload. -/
def empty : Generation := ⟨0, .empty, .empty, []⟩

/-- The names of the views of some definitions. -/
def viewNames (ds : List Definition) : NameSet := NameSet.ofNames (ds.flatMap (·.viewNames))

/-- The type of a name. -/
def type? (g : Generation) (name : String) : Option CompiledType := g.types.get? name

/-- Whether there is a type of a name. -/
def contains (g : Generation) (name : String) : Bool := g.types.contains name

/-- The names of the types. -/
def typeNames (g : Generation) : List String := g.types.keys

/-- The types of a kind, in name order. -/
def ofKind (g : Generation) (kind : Kind) : List CompiledType :=
  g.types.values.filter (·.kind = kind)

/-- The names of the types that a newer generation lacks. -/
def removedIn (g newer : Generation) : NameSet :=
  (g.types.filter fun name _ => !newer.contains name).mapValues fun _ _ => ()

/-- Whether one type is another or extends it; names of no type are subtypes of nothing. -/
def isSubtype (g : Generation) (child ancestor : String) : Bool :=
  match g.type? child with
  | some t => t.extends? ancestor
  | none => false

/-- Whether a node of a type can be the end of a relationship that is declared for `endpoint`. A
name of no type fits only itself. -/
def fitsEndpoint (g : Generation) (node endpoint : String) : Bool :=
  match g.type? node with
  | some t => t.extends? endpoint
  | none => node = endpoint

/-- The relationship types that can connect nodes of two types, in name order. -/
def relationshipsBetween (g : Generation) (source target : String) : List CompiledType :=
  (g.ofKind .relationship).filter fun t =>
    match t.endpoints with
    | some endpoints =>
      g.fitsEndpoint source endpoints.source && g.fitsEndpoint target endpoints.target
    | none => false

/-- The next generation of some definitions. -/
def ofDefinitions (c : Compiler) (sequence : Nat) (ds : List Definition) :
    Except (List CompileError) Generation :=
  (c.compileDefinitions ds).map fun types => ⟨sequence, types, viewNames ds, ds⟩

end Generation

end LiveSchema
