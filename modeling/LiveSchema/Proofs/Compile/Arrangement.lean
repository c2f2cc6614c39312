import LiveSchema.Proofs.Compile.Batch

/-!
# LiveSchema.Proofs.Compile.Arrangement

The order in which units are handed over makes no difference to what is compiled. Units are looked
up by name and by owner from the moment they are in a batch; where names and owners are pairwise
distinct there is one unit for a lookup to find, in whatever order they were added, so rearranged
units make the same batch (`Batch.ofUnits_perm`). Everything that follows works on the batch: the
passes that collect errors, the search for circles and the order in which types are built.

Where two units want one place the order does matter, since the first of them stays.
-/

namespace LiveSchema

/-! ### Units in another order -/

namespace SourceUnit

variable {units units' : List SourceUnit}

theorem types_perm (h : units.Perm units') : (types units).Perm (types units') := h.filterMap _

theorem helpers_perm (h : units.Perm units') : (helpers units).Perm (helpers units') :=
  h.filterMap _

end SourceUnit

namespace Batch

/-- With distinct keys it makes no difference in which order a list is searched. -/
theorem find?_perm {α β : Type} [DecidableEq β] {key : α → β} {l l' : List α} (h : l.Perm l')
    (hn : (l.map key).Nodup) (k : β) : l.find? (key · = k) = l'.find? (key · = k) := by
  refine Option.ext fun a => ?_
  rw [find?_eq_some_iff_of_nodup hn, find?_eq_some_iff_of_nodup ((h.map key).nodup_iff.mp hn),
    h.mem_iff]

/-- A batch is what lookups find in it. -/
theorem ext_get? {b b' : Batch} (htypes : ∀ name, b.types.get? name = b'.types.get? name)
    (hhelpers : ∀ kind owner, (b.helpers kind).get? owner = (b'.helpers kind).get? owner) :
    b = b' := by
  have hkind (kind : Kind) : b.helpers kind = b'.helpers kind :=
    SortedMap.ext_get? (hhelpers kind)
  obtain ⟨types, nodes, relationships⟩ := b
  obtain ⟨types', nodes', relationships'⟩ := b'
  obtain rfl : types = types' := SortedMap.ext_get? htypes
  obtain rfl : nodes = nodes' := hkind .node
  obtain rfl : relationships = relationships' := hkind .relationship
  rfl

/-- With distinct names and owners, rearranged units make the same batch, and none is left out. -/
theorem ofUnits_perm {units units' : List SourceUnit} (h : units.Perm units')
    (hn : ((SourceUnit.types units).map (·.name)).Nodup)
    (ho : ((SourceUnit.helpers units).map HelperUnit.key).Nodup) :
    ofUnits units = ofUnits units' := by
  have htypes := SourceUnit.types_perm h
  have hhelpers := SourceUnit.helpers_perm h
  have hn' := (htypes.map (·.name)).nodup_iff.mp hn
  have ho' := (hhelpers.map HelperUnit.key).nodup_iff.mp ho
  refine Prod.ext (ext_get? (fun name => ?_) fun kind owner => ?_) ?_
  · rw [get?_types_ofUnits, get?_types_ofUnits]
    exact find?_perm htypes hn name
  · rw [get?_helpers_ofUnits, get?_helpers_ofUnits]
    exact find?_perm hhelpers ho (kind, owner)
  · rw [(leftOut_eq_nil_iff units).mpr ⟨hn, ho⟩, (leftOut_eq_nil_iff units').mpr ⟨hn', ho'⟩]

end Batch

/-! ### The result -/

namespace Compiler

/-- **The order of units does not matter**: with pairwise distinct type names and owners of helper
code, rearranged units compile to the same types, or are rejected with the same errors in the same
order. -/
theorem compile_perm (c : Compiler) {units units' : List SourceUnit} (h : units.Perm units')
    (hn : ((SourceUnit.types units).map (·.name)).Nodup)
    (ho : ((SourceUnit.helpers units).map HelperUnit.key).Nodup) :
    c.compile units = c.compile units' := by
  rw [compile, compile, Batch.ofUnits_perm h hn ho]

/-- A type and one that extends it, with a property that is declared anew and helper code. -/
def pair : List SourceUnit :=
  [.type ⟨"Employee", .node, some "Person", [⟨"name", .string, true, false, false⟩],
      [⟨"card", ["name", "age"]⟩], none, false, false⟩,
    .helper ⟨"_EmployeeHelper", "Employee", .node, "hire()", 5⟩,
    .type ⟨"Person", .node, none,
      [⟨"name", .string, false, false, false⟩, ⟨"age", .integer, false, false, false⟩], [], none,
      false, false⟩]

/-- Two circles, helper code without an owner, and a type with an unknown parent. -/
def knot : List SourceUnit :=
  [.type ⟨"Zebra", .node, some "Yak", [], [], none, false, false⟩,
    .helper ⟨"_GhostHelper", "Ghost", .node, "boo()", 3⟩,
    .type ⟨"Cat", .node, some "Dog", [], [], none, false, false⟩,
    .type ⟨"Yak", .node, some "Zebra", [], [], none, false, false⟩,
    .type ⟨"Stray", .node, some "Nobody", [], [], none, false, false⟩,
    .type ⟨"Dog", .node, some "Cat", [], [], none, false, false⟩]

theorem pair_and_knot_rearranged :
    (∃ types, ({} : Compiler).compile pair = .ok types ∧
      ({} : Compiler).compile pair.reverse = .ok types) ∧
    ({} : Compiler).compile knot.reverse = .error
      [.orphanHelper "_GhostHelper" "Ghost" .node, .unresolvedParent "Stray" "Nobody",
        .inheritanceCycle ["Cat", "Dog"], .inheritanceCycle ["Yak", "Zebra"]] := by
  have hpair := compile_perm {} (List.reverse_perm pair).symm (by decide) (by decide)
  have hknot := compile_perm {} (List.reverse_perm knot).symm (by decide) (by decide)
  have hok : ({} : Compiler).compile pair = .ok ((Batch.ofUnits pair).1.compiled {}) := by
    rfl
  exact ⟨⟨_, hok, hpair.symm.trans hok⟩, hknot.symm.trans (by rfl)⟩

end Compiler

end LiveSchema
