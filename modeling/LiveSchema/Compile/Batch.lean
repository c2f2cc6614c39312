import LiveSchema.Compile.Error
import LiveSchema.CompiledType
import LiveSchema.Lineage

/-!
# LiveSchema.Compile.Batch

Compiling a batch of units together, all or nothing. References between new types resolve against
the batch itself; a name that the batch does not define may be that of a built-in base, fixed or
added to the compiler.

Errors come in stages: units whose name is taken, helper code without an owner, then for each type
in name order its references and its parent, then circles of types. Only a batch without any of
these is built, and building can still find views that list unknown properties; those come in the
order in which types are built.

* `Compiler` — the namespace and the added bases.
* `Batch.ofUnits` — the units by name, and the units that were left out.
* `Batch.structureErrors`, `Batch.viewErrors` — the two lists of errors.
* `Compiler.compile` — the compiled types by name, or the errors.
-/

namespace LiveSchema

/-- What compilation depends on besides the units. -/
structure Compiler where
  /-- The prefix of qualified names. -/
  namespaceName : String := "schemalite.dynamic"
  /-- Bases besides the fixed ones. -/
  addedBases : SortedMap String Kind := .empty

/-- The kind of a base, a fixed one before an added one. -/
def Compiler.baseKind? (c : Compiler) (name : String) : Option Kind :=
  (fixedBases.lookup name).or (c.addedBases.get? name)

/-- Accept a name as a base. -/
def Compiler.addBase (c : Compiler) (name : String) (kind : Kind) : Compiler :=
  { c with addedBases := c.addedBases.insert name kind }

/-- The units of a batch: one type per name, and one piece of helper code per kind and owner. -/
structure Batch where
  types : SortedMap String TypeUnit := .empty
  nodeHelpers : SortedMap String HelperUnit := .empty
  relationshipHelpers : SortedMap String HelperUnit := .empty

namespace Batch

/-- The helper code of the types of a kind, by owner. -/
def helpers (b : Batch) : Kind → SortedMap String HelperUnit
  | .node => b.nodeHelpers
  | .relationship => b.relationshipHelpers

/-- The batch with other helper code for the types of a kind. -/
def setHelpers (b : Batch) (kind : Kind) (helpers : SortedMap String HelperUnit) : Batch :=
  match kind with
  | .node => { b with nodeHelpers := helpers }
  | .relationship => { b with relationshipHelpers := helpers }

/-- Add a unit, or say that its place is taken. -/
def add (b : Batch) : SourceUnit → Except CompileError Batch
  | .type unit =>
    if b.types.contains unit.name then .error (.duplicateType unit.name)
    else .ok { b with types := b.types.insert unit.name unit }
  | .helper unit =>
    let helpers := b.helpers unit.ownerKind
    if helpers.contains unit.owner then .error (.duplicateHelper unit.name)
    else .ok (b.setHelpers unit.ownerKind (helpers.insert unit.owner unit))

/-- Add units in order; of several for one place the first stays. -/
def addAll (b : Batch) : List SourceUnit → Batch × List CompileError
  | [] => (b, [])
  | unit :: rest =>
    match b.add unit with
    | .ok b => b.addAll rest
    | .error error =>
      let (b, errors) := b.addAll rest
      (b, error :: errors)

/-- The batch of some units, and an error for each unit that was left out. -/
def ofUnits (units : List SourceUnit) : Batch × List CompileError := ({} : Batch).addAll units

/-! ### Helper code -/

/-- Helper code of a kind whose owner is no type of that kind. -/
def orphansOf (b : Batch) (kind : Kind) : List CompileError :=
  (b.helpers kind).entries.filterMap fun (owner, helper) =>
    if (b.types.get? owner).map (·.kind) = some kind then none
    else some (.orphanHelper helper.name owner kind)

/-- Helper code without an owner, that of node types first. -/
def orphans (b : Batch) : List CompileError := b.orphansOf .node ++ b.orphansOf .relationship

/-! ### References and parents -/

/-- Whether a name is that of a node type: one of the batch, or a base that no type of the batch
hides. -/
def isNodeType (b : Batch) (c : Compiler) (name : String) : Bool :=
  match b.types.get? name with
  | some unit => unit.kind = .node
  | none => c.baseKind? name = some .node

/-- Properties that refer to something else than a node type. -/
def referenceErrors (b : Batch) (c : Compiler) (unit : TypeUnit) : List CompileError :=
  unit.fields.filterMap fun field =>
    match field.type.referenced? with
    | some target =>
      if b.isNodeType c target then none
      else some (.unresolvedReference unit.name field.name target)
    | none => none

/-- Endpoints that are no node types. -/
def endpointErrors (b : Batch) (c : Compiler) (unit : TypeUnit) : List CompileError :=
  match unit.endpoints with
  | some endpoints =>
    ([endpoints.source, endpoints.target].filter (fun e => !b.isNodeType c e)).map
      (.unresolvedEndpoint unit.name)
  | none => []

/-- The type of the batch that a type extends: one of its own kind. -/
def parentUnit? (b : Batch) (unit : TypeUnit) : Option TypeUnit :=
  match unit.parent.bind b.types.get? with
  | some parent => if parent.kind = unit.kind then some parent else none
  | none => none

/-- What is wrong with the parent of a type. -/
def parentErrors (b : Batch) (c : Compiler) (unit : TypeUnit) : List CompileError :=
  match unit.parent with
  | none => []
  | some parent =>
    match (b.types.get? parent).map (·.kind) <|> c.baseKind? parent with
    | some kind => if kind = unit.kind then [] else [.kindMismatch unit.name unit.kind parent]
    | none => [.unresolvedParent unit.name parent]

/-- The extends relation among the types of the batch. -/
def lineage (b : Batch) : Lineage where
  names := b.types.keys
  parent? name := ((b.types.get? name).bind b.parentUnit?).map (·.name)

/-- Everything that keeps a batch from being built, the units that were left out apart. -/
def structureErrors (b : Batch) (c : Compiler) : List CompileError :=
  b.orphans ++
  b.types.values.flatMap (fun unit =>
    b.referenceErrors c unit ++ b.endpointErrors c unit ++ b.parentErrors c unit) ++
  b.lineage.cycles.map .inheritanceCycle

/-! ### Building -/

/-- The property that a field declares. -/
def propertyOf (unit : TypeUnit) (field : Field) : Property :=
  ⟨field.name, field.type, field.indexed, field.indexedWhenEmpty, field.readOnly, unit.name⟩

/-- Put a property in the place of the one that has its name, or at the end. -/
def mergeProperty (properties : List Property) (p : Property) : List Property :=
  if properties.any (·.name = p.name) then
    properties.map (fun q => if q.name = p.name then p else q)
  else properties ++ [p]

/-- Inherited properties and those of the type. -/
def mergeProperties (inherited : List Property) (unit : TypeUnit) : List Property :=
  (unit.fields.map (propertyOf unit)).foldl mergeProperty inherited

/-- Whether a view of a type with these properties can list a name. -/
def isViewable (properties : List Property) (name : String) : Bool :=
  isSystemProperty name || properties.any (·.name = name)

/-- Append a name that is not listed yet. -/
def appendNew (members : List String) (name : String) : List String :=
  if members.contains name then members else members ++ [name]

/-- Add a declared view to the merged ones: members that the view did not have are appended. -/
def mergeView (properties : List Property) (views : SortedMap String (List String))
    (view : ViewDeclaration) : SortedMap String (List String) :=
  views.insert view.name
    ((view.properties.filter (isViewable properties)).foldl appendNew
      ((views.get? view.name).getD []))

/-- The compiled form of a type below its compiled parent, if the batch defines one. -/
def build (b : Batch) (c : Compiler) (parent : Option CompiledType) (unit : TypeUnit) :
    CompiledType :=
  let properties := mergeProperties ((parent.map (·.properties)).getD []) unit
  { name := unit.name
    qualifiedName := c.namespaceName ++ "." ++ unit.name
    kind := unit.kind
    ancestors := match parent with
      | some p => p.name :: p.ancestors
      | none => []
    builtinBase := match parent with
      | some p => p.builtinBase
      | none => unit.parent
    properties := properties
    views := unit.views.foldl (mergeView properties) ((parent.map (·.views)).getD .empty)
    helper := ((b.helpers unit.kind).get? unit.name).map fun h => ⟨h.name, h.source, h.fingerprint⟩
    endpoints := unit.endpoints
    builtin := unit.builtin
    nonIndexed := unit.nonIndexed || (parent.map (·.nonIndexed)).getD false }

/-- The compiled form of a type: its ancestors are compiled first. The chain is followed for as many
steps as there are types, which is far enough in a batch without circles. -/
def compileUnit (b : Batch) (c : Compiler) : Nat → TypeUnit → CompiledType
  | 0, unit => b.build c none unit
  | steps + 1, unit => b.build c ((b.parentUnit? unit).map (compileUnit b c steps)) unit

/-- The compiled types by name. -/
def compiled (b : Batch) (c : Compiler) : SortedMap String CompiledType :=
  b.types.mapValues fun _ unit => b.compileUnit c b.types.size unit

/-- The unknown properties that the views of a type list. -/
def unknownInViews (properties : List Property) (unit : TypeUnit) : List CompileError :=
  unit.views.flatMap fun view =>
    (view.properties.filter (fun p => !isViewable properties p)).map
      (.unknownViewProperty unit.name view.name)

/-- The unknown properties that views list, in the order in which types are built. -/
def viewErrors (b : Batch) (compiled : SortedMap String CompiledType) : List CompileError :=
  b.lineage.buildOrder.flatMap fun name =>
    match b.types.get? name, compiled.get? name with
    | some unit, some t => unknownInViews t.properties unit
    | _, _ => []

end Batch

/-- The compiled types of some units by name, or everything that is wrong with them. -/
def Compiler.compile (c : Compiler) (units : List SourceUnit) :
    Except (List CompileError) (SortedMap String CompiledType) :=
  let (batch, leftOut) := Batch.ofUnits units
  match leftOut ++ batch.structureErrors c with
  | [] =>
    let compiled := batch.compiled c
    match batch.viewErrors compiled with
    | [] => .ok compiled
    | errors => .error errors
  | errors => .error errors

/-- The compiled types of some definitions by name, or everything that is wrong with them. -/
def Compiler.compileDefinitions (c : Compiler) (ds : List Definition) :
    Except (List CompileError) (SortedMap String CompiledType) :=
  match emitAll ds with
  | .ok units => c.compile units
  | .error errors => .error (errors.map .definition)

end LiveSchema
