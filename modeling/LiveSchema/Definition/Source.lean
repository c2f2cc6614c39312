import LiveSchema.Definition.Store

/-!
# LiveSchema.Definition.Source

Where a reload gets its definitions: a store that may keep the reload waiting, that may hand out
definitions besides the stored ones, so that a name can occur twice, and that may refuse to keep
reports.
-/

namespace LiveSchema

/-- A store as a reload sees it. -/
structure DefinitionSource where
  store : Store := {}
  /-- Loading waits while this is set. -/
  held : Bool := false
  /-- Reports are not kept. -/
  refusesReports : Bool := false
  /-- Definitions that are handed out after the stored ones. -/
  extra : List Definition := []

namespace DefinitionSource

/-- Make sure that node types are defined, marked as built in and extend the given bases, one after
the other. A store that is out of reach refuses the first one, so nothing is done by halves. -/
def ensureBuiltins (s : DefinitionSource) :
    List (String × String) → Except StoreError DefinitionSource
  | [] => .ok s
  | (name, base) :: rest => do
    let store ← s.store.ensureBuiltin name base
    { s with store := store }.ensureBuiltins rest

/-- Load all definitions. -/
def load (s : DefinitionSource) : Except StoreError (List Definition × DefinitionSource) := do
  let (definitions, store) ← s.store.load
  return (definitions ++ s.extra, { s with store := store })

/-- Have reports kept, if the store does that. -/
def keepReports (s : DefinitionSource) (annotations : SortedMap String HierarchyEntry) :
    DefinitionSource :=
  if s.refusesReports then s
  else
    match s.store.writeHierarchy annotations with
    | .ok store => { s with store := store }
    | .error _ => s

end DefinitionSource

end LiveSchema
