import LiveSchema.SortedMap

/-!
# LiveSchema.Lineage

The extends relation of a set of named types. A type extends at most one other, so the relation is a
partial function, and its questions are about iterating it: how long a chain is, whether it comes
back to where it began, and in which order types can be built so that each parent comes before its
children.

* `Lineage.depthUpTo` — the length of a chain, up to a limit.
* `Lineage.cycles` — the closed chains, each as its sorted members.
* `Lineage.buildOrder` — parents before children.
-/

namespace LiveSchema

/-- Names, in increasing order, and the name of the set that each extends. -/
structure Lineage where
  names : List String
  parent? : String → Option String

namespace Lineage

variable (l : Lineage)

/-- The name that is reached by following `extends` so many times. -/
def ascend : Nat → String → Option String
  | 0, name => some name
  | n + 1, name => (l.parent? name).bind (ascend n)

/-- How many times `extends` can be followed, counting no further than `limit`. -/
def depthUpTo : Nat → String → Nat
  | 0, _ => 0
  | limit + 1, name =>
    match l.parent? name with
    | some parent => depthUpTo limit parent + 1
    | none => 0

/-! ### Closed chains -/

/-- The names from `name` up to the one that extends `start`, if there is one within a number of
steps. -/
def pathTo (start : String) : Nat → String → Option (List String)
  | 0, _ => none
  | steps + 1, name =>
    match l.parent? name with
    | none => none
    | some parent =>
      if parent = start then some [name] else (pathTo start steps parent).map (name :: ·)

/-- The members of the closed chain that a name lies on, beginning with the name. -/
def cycleOf? (name : String) : Option (List String) := l.pathTo name l.names.length name

/-- The closed chains, each as its sorted members. A chain is listed where its least member stands
in the order of the names. -/
def cycles : List (List String) :=
  l.names.filterMap fun name =>
    (l.cycleOf? name).bind fun members =>
      if members.all (fun m => name ≤ m) then some (NameSet.ofNames members).keys else none

/-! ### Build order -/

/-- The names that extend a name. -/
def children (name : String) : List String :=
  l.names.filter (fun child => l.parent? child = some name)

/-- Visit a name after all that extend it: `done` grows by the names that are finished. -/
def finish : Nat → List String → String → List String
  | 0, done, _ => done
  | fuel + 1, done, name =>
    if done.contains name then done
    else (l.children name).foldl (finish fuel) done ++ [name]

/-- The names in the order in which types are built: the reverse of the order in which a depth-first
visit finishes them. -/
def buildOrder : List String :=
  (l.names.foldl (l.finish l.names.length) []).reverse

end Lineage

end LiveSchema
