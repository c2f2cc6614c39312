import LiveSchema.Registry

/-!
# LiveSchema.Proofs.Registry

What a commit does to the registry. A newer generation becomes current, no answer is left in the
caches, and its views are the published ones; the version of the published set goes up by one
exactly when the set is another one (`Registry.publish`, `Registry.commit_eq`).
-/

namespace LiveSchema

namespace Registry

/-- The registry after a generation has become current. -/
def publish (r : Registry) (g : Generation) : Registry where
  current := g
  caches := { current := g.sequence }
  views := g.dynamicViews
  viewsVersion := if r.views = g.dynamicViews then r.viewsVersion else r.viewsVersion + 1

/-- Only a newer generation becomes current. -/
theorem commit_eq {r : Registry} {g : Generation} (h : r.current.sequence < g.sequence) :
    r.commit g = .ok (r.publish g) := by
  unfold commit
  rw [if_neg (Nat.not_le.mpr h)]
  unfold publishViews publish
  show Except.ok (if r.views = g.dynamicViews then _ else _) = _
  by_cases hviews : r.views = g.dynamicViews
  · rw [if_pos hviews, if_pos hviews, ← hviews]
    rfl
  · rw [if_neg hviews, if_neg hviews]
    rfl

end Registry

end LiveSchema
