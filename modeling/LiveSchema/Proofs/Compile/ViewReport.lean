import LiveSchema.Proofs.Compile.Violations

/-!
# LiveSchema.Proofs.Compile.ViewReport

When a rejected batch is told what is wrong with its views. Views are looked at when types are
built, and nothing is built of a batch in which anything else is wrong. So the unknown properties
that views list are reported exactly if the batch fits but for them (`Compiler.view_error_iff`).
What is wrong with one type hides what is wrong with the views of every other, also of one that has
nothing to do with it (`Compiler.view_hidden_by_parent`).
-/

namespace LiveSchema

open SourceUnit

/-- A view of a type lists a name that is no system property and that is declared neither by the
type nor above it. -/
structure SourceUnit.ListsUnknown (units : List SourceUnit) (u : TypeUnit)
    (view property : String) : Prop where
  listed : ∃ v ∈ u.views, v.name = view ∧ property ∈ v.properties
  notSystem : isSystemProperty property = false
  undeclared : ∀ above, Relation.ReflTransGen (Extends units) u above →
    ∀ f ∈ above.fields, f.name ≠ property

namespace Compiler

variable {c : Compiler} {units : List SourceUnit}

/-- In a batch that fits, what is found in the views of a type is what they list and nobody
declares. -/
theorem mem_unknownInViews_compiled_iff (hf : c.Fits units) {u : TypeUnit} (hu : u ∈ types units)
    {t : CompiledType} (ht : ((Batch.ofUnits units).1.compiled c).get? u.name = some t)
    {view property : String} :
    .unknownViewProperty u.name view property ∈ Batch.unknownInViews t.properties u ↔
      ListsUnknown units u view property := by
  have hacyclic := hf.resolved.acyclic_iff.mpr hf.acyclic
  have hviewable : Batch.isViewable t.properties property = false ↔
      isSystemProperty property = false ∧
        ∀ above, Relation.ReflTransGen (Extends units) u above →
          ∀ f ∈ above.fields, f.name ≠ property := by
    rw [← Bool.not_eq_true, Batch.isViewable_iff, not_or, Bool.not_eq_true,
      Batch.mem_property_names_ofUnits_iff hf.resolved hacyclic hu ht]
    simp only [not_exists, not_and, ne_eq]
  rw [Batch.mem_unknownInViews_iff]
  constructor
  · rintro ⟨v, hv, p, hp, hunknown, heq⟩
    cases heq
    obtain ⟨hsystem, hdeclared⟩ := hviewable.mp hunknown
    exact ⟨⟨v, hv, rfl, hp⟩, hsystem, hdeclared⟩
  · rintro ⟨⟨v, hv, rfl, hp⟩, hsystem, hdeclared⟩
    exact ⟨v, hv, property, hp, hviewable.mpr ⟨hsystem, hdeclared⟩, rfl⟩

/-- **The unknown properties of views are reported exactly if the batch fits but for them.** -/
theorem view_error_iff (c : Compiler) (units : List SourceUnit) (name view property : String) :
    (∃ errors, c.compile units = .error errors ∧
        .unknownViewProperty name view property ∈ errors) ↔
      c.Fits units ∧ ∃ u ∈ types units, u.name = name ∧ ListsUnknown units u view property := by
  simp only [compile_eq_error_iff]
  constructor
  · rintro ⟨errors, ⟨-, rfl | ⟨hnone, rfl⟩⟩, hmem⟩
    · -- what is found before building is not about views
      rw [(found_perm c units).mem_iff, List.mem_append, or_iff_right
        (not_mem_violations (.inr ⟨name, view, property, rfl⟩)), List.mem_map] at hmem
      obtain ⟨circle, -, heq⟩ := hmem
      cases heq
    · have hf : c.Fits units := fits_iff.mpr (List.append_eq_nil_iff.mp hnone)
      obtain ⟨key, u, t, hget, ht, herror⟩ := Batch.mem_viewErrors_iff.mp hmem
      obtain ⟨hu, rfl⟩ := (Batch.get?_types_eq_some_iff hf.names).mp hget
      have hname : name = u.name := by
        obtain ⟨v, -, p, -, -, heq⟩ := Batch.mem_unknownInViews_iff.mp herror
        exact (CompileError.unknownViewProperty.inj heq).1
      subst hname
      exact ⟨hf, u, hu, rfl, (mem_unknownInViews_compiled_iff hf hu ht).mp herror⟩
  · rintro ⟨hf, u, hu, rfl, hlists⟩
    have hget := (Batch.get?_types_eq_some_iff hf.names).mpr ⟨hu, rfl⟩
    obtain ⟨t, ht⟩ : ∃ t, ((Batch.ofUnits units).1.compiled c).get? u.name = some t :=
      ⟨_, by rw [Batch.get?_compiled, hget, Option.map_some]⟩
    have herror : .unknownViewProperty u.name view property ∈
        (Batch.ofUnits units).1.viewErrors ((Batch.ofUnits units).1.compiled c) :=
      Batch.mem_viewErrors_iff.mpr
        ⟨u.name, u, t, hget, ht, (mem_unknownInViews_compiled_iff hf hu ht).mpr hlists⟩
    have hnone := List.append_eq_nil_iff.mpr (fits_iff.mp hf)
    exact ⟨_, ⟨List.ne_nil_of_mem herror, .inr ⟨hnone, rfl⟩⟩, herror⟩

/-! ### What one type hides of another -/

/-- The chain of a type is whole: what it extends fits all the way up, and it does not come back. -/
structure WholeChain (c : Compiler) (units : List SourceUnit) (u : TypeUnit) : Prop where
  parents : ∀ above, Relation.ReflTransGen (Extends units) u above → c.ParentFits units above
  ends : ∀ above, Relation.ReflTransGen (Extends units) u above →
    ¬ Relation.TransGen (Extends units) above above

/-- Everything that is wrong with the views of a type is reported if the type alone can be built. -/
def ReportsViews (c : Compiler) (units : List SourceUnit) : Prop :=
  ∀ errors, c.compile units = .error errors →
    ∀ u ∈ types units, ((types units).map (·.name)).count u.name = 1 → c.WholeChain units u →
      ∀ view property, ListsUnknown units u view property →
        .unknownViewProperty u.name view property ∈ errors

/-- A type without its parent, and a page that has nothing to do with it. -/
def strayAndPage : List SourceUnit :=
  [.type ⟨"Broken", .node, some "Missing", [], [], none, false, false⟩,
    .type ⟨"Page", .node, none, [], [⟨"main", ["ghost"]⟩], none, false, false⟩]

/-- That one type extends something unknown hides what the view of the other lists. -/
theorem view_hidden_by_parent : ¬ ({} : Compiler).ReportsViews strayAndPage := by
  intro hreports
  have hcompile : ({} : Compiler).compile strayAndPage =
      .error [.unresolvedParent "Broken" "Missing"] := by rfl
  obtain ⟨page, hpage, hparent, hname, hfields, hviews⟩ : ∃ page ∈ types strayAndPage,
      page.parent = none ∧ page.name = "Page" ∧ page.fields = [] ∧
        page.views = [⟨"main", ["ghost"]⟩] := ⟨_, .tail _ (.head _), rfl, rfl, rfl, rfl⟩
  have hno : ∀ a, ¬ Extends strayAndPage page a := fun a h => by
    cases hparent.symm.trans h.2.2
  -- nothing is above the page
  have hchain : ∀ above, Relation.ReflTransGen (Extends strayAndPage) page above →
      above = page := fun above h =>
    (Relation.ReflTransGen.cases_head h).elim Eq.symm fun ⟨_, hstep, _⟩ => absurd hstep (hno _)
  have hwhole : ({} : Compiler).WholeChain strayAndPage page :=
    { parents := fun above h name hp => by
        rw [hchain above h, hparent] at hp
        cases hp
      ends := fun above h hcycle => by
        rw [hchain above h] at hcycle
        obtain ⟨a, hstep, -⟩ := Relation.TransGen.head'_iff.mp hcycle
        exact hno a hstep }
  have hlists : ListsUnknown strayAndPage page "main" "ghost" :=
    { listed := ⟨⟨"main", ["ghost"]⟩, hviews ▸ List.mem_singleton_self _, rfl, .head _⟩
      notSystem := by decide
      undeclared := fun above h f hf => by
        rw [hchain above h, hfields] at hf
        cases hf }
  have hmem := hreports _ hcompile page hpage (hname ▸ by decide) hwhole "main" "ghost" hlists
  cases List.mem_singleton.mp hmem

end Compiler

end LiveSchema
