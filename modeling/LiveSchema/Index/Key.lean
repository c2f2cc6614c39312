import LiveSchema.SortedMap

/-!
# LiveSchema.Index.Key

What an index is on: a property of a type. Keys are ordered by type and then by property.
-/

namespace LiveSchema

/-- A property of a type. -/
structure IndexKey where
  typeName : String
  property : String
deriving DecidableEq, Repr

namespace IndexKey

instance : Ord IndexKey where
  compare a b := (compare a.typeName b.typeName).then (compare a.property b.property)

theorem compare_def (a b : IndexKey) :
    compare a b = (compare a.typeName b.typeName).then (compare a.property b.property) := rfl

instance : Std.TransOrd IndexKey :=
  inferInstanceAs (Std.TransCmp fun (a b : IndexKey) =>
    (compareLex (compareOn IndexKey.typeName) (compareOn IndexKey.property)) a b)

instance : Std.LawfulEqOrd IndexKey where
  eq_of_compare {a b} h := by
    rw [compare_def, Ordering.then_eq_eq] at h
    cases a; cases b
    simp only [IndexKey.mk.injEq]
    exact ⟨Std.LawfulEqCmp.eq_of_compare h.1, Std.LawfulEqCmp.eq_of_compare h.2⟩

end IndexKey

end LiveSchema
