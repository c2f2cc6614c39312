import LiveSchema.DerivedCaches
import LiveSchema.Generation

/-!
# LiveSchema.Registry

The current generation and what hangs on it: the derived caches, and the set of view names that
subscribers watch. Only a newer generation can take the place of the current one. The published set
has a version, which counts its changes; a subscriber remembers the version that it saw last.
-/

namespace LiveSchema

/-- Why a generation is not made current. -/
inductive RegistryError where
  | stale (current attempted : Nat)
deriving DecidableEq

/-- The wording of a refusal. -/
def RegistryError.message : RegistryError → String
  | .stale current attempted =>
    "Generation " ++ toString attempted ++ " is not newer than current generation " ++
      toString current

/-- The current generation, its caches and the published views. -/
structure Registry where
  current : Generation := .empty
  caches : DerivedCaches := {}
  views : NameSet := .empty
  /-- How many times the published set changed. -/
  viewsVersion : Nat := 0

namespace Registry

/-- Publish a set of view names; an equal set is no change. -/
def publishViews (r : Registry) (views : NameSet) : Registry :=
  if r.views = views then r else { r with views := views, viewsVersion := r.viewsVersion + 1 }

/-- Drop the cached answers of earlier generations. -/
def invalidateCaches (r : Registry) : Registry :=
  { r with caches := r.caches.invalidate r.current.sequence }

/-- Make a generation current. Answers the registry after it; the replaced generation is the one
that was current before. -/
def commit (r : Registry) (g : Generation) : Except RegistryError Registry :=
  if g.sequence ≤ r.current.sequence then .error (.stale r.current.sequence g.sequence)
  else .ok (({ r with current := g }).invalidateCaches.publishViews g.dynamicViews)

/-- Whether one type is another or extends it, in the current generation. -/
def isSubtype (r : Registry) (child ancestor : String) : Bool × Registry :=
  let (answer, caches) := r.caches.askInheritance r.current.sequence child ancestor
    (r.current.contains child) fun _ => r.current.isSubtype child ancestor
  (answer.value, { r with caches := caches })

/-- The relationship types that can connect nodes of two types, in the current generation. -/
def relationshipsBetween (r : Registry) (source target : String) : List CompiledType × Registry :=
  let (answer, caches) := r.caches.askTemplates r.current.sequence source target
    (r.current.contains source) fun _ => r.current.relationshipsBetween source target
  (answer.value, { r with caches := caches })

end Registry

/-- A subscriber to the published views. -/
structure ViewSubscriber where
  /-- The version that was seen last. -/
  seen : Nat := 0

namespace ViewSubscriber

/-- Whether the published set changed since it was seen. -/
def hasChanged (s : ViewSubscriber) (r : Registry) : Bool := s.seen != r.viewsVersion

/-- See the published set. -/
def markSeen (_ : ViewSubscriber) (r : Registry) : ViewSubscriber := ⟨r.viewsVersion⟩

end ViewSubscriber

end LiveSchema
