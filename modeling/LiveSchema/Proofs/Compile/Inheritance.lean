import LiveSchema.Proofs.Compile.Acceptance

/-!
# LiveSchema.Proofs.Compile.Inheritance

What a type inherits. `Inherits` relates a compiled type to its unit, to its compiled parent and to
the units of its chain, and says everything that a definition's `extends` promises:

* the chain is that of the parent with the parent in front, and ends in the base of its top;
* inherited names keep their places, new ones follow in the order of their declarations, and of
  several declarations of a property the nearest counts;
* inherited views are extended, never reordered;
* opting out of indexing is inherited, helper code is not.

Every type of an accepted batch is built from its compiled parent (`eq_build_of_compile`); the
fields that speak of one step are read off that, and those that speak of the whole chain come from
the induction on compiled types.
-/

namespace LiveSchema

open SourceUnit

/-- The compiled type that a unit extends, if it is one of the result. -/
def compiledParent? (types : SortedMap String CompiledType) (u : TypeUnit) : Option CompiledType :=
  u.parent.bind types.get?

/-- The names of the properties that a unit inherits. -/
def inheritedNames (types : SortedMap String CompiledType) (u : TypeUnit) : List String :=
  ((compiledParent? types u).map fun above => above.properties.map (·.name)).getD []

/-- The members of a view that a unit inherits. -/
def inheritedView (types : SortedMap String CompiledType) (u : TypeUnit) (view : String) :
    List String :=
  ((compiledParent? types u).bind (·.view? view)).getD []

/-- The declaration of a property by the type of a name: the last one, if it has several. -/
def SourceUnit.declaration? (units : List SourceUnit) (name property : String) : Option Property :=
  ((types units).find? (·.name = name)).bind (Batch.declaration? · property)

/-- A compiled type `t` is what its unit `u` says, above what it inherits. -/
structure Inherits (units : List SourceUnit) (types : SortedMap String CompiledType)
    (u : TypeUnit) (t : CompiledType) : Prop where
  name : t.name = u.name
  kind : t.kind = u.kind
  /-- The compiled parent is that of the batch type that the unit extends. -/
  parent : ∀ name, (∃ above, compiledParent? types u = some above ∧ above.name = name) ↔
    ∃ p, Extends units u p ∧ p.name = name
  ancestors : t.ancestors =
    match compiledParent? types u with
    | some above => above.name :: above.ancestors
    | none => []
  builtinBase : t.builtinBase =
    match compiledParent? types u with
    | some above => above.builtinBase
    | none => u.parent
  chain_nodup : (t.name :: t.ancestors).Nodup
  chain_kind : ∀ x ∈ t.name :: t.ancestors, ∃ above, types.get? x = some above ∧
    above.name = x ∧ above.kind = t.kind
  property_nodup : (t.properties.map (·.name)).Nodup
  /-- Inherited properties first, then the new ones in the order of their declarations. -/
  property_names : t.properties.map (·.name) =
    inheritedNames types u ++ Batch.newNames (inheritedNames types u) (u.fields.map (·.name))
  /-- A property is found under its name wherever it stands. -/
  property_mem : ∀ p ∈ t.properties, t.property? p.name = some p
  property_isSome : ∀ name, (t.property? name).isSome = true ↔
    ∃ x ∈ t.name :: t.ancestors, ∃ a ∈ SourceUnit.types units, a.name = x ∧
      ∃ f ∈ a.fields, f.name = name
  /-- The nearest declaration counts, with its type, its flags and the name of its type. -/
  property_eq : ∀ name, t.property? name =
    (t.name :: t.ancestors).findSome? (SourceUnit.declaration? units · name)
  view_isSome : ∀ view, (t.view? view).isSome = true ↔
    (∃ above, compiledParent? types u = some above ∧ (above.view? view).isSome = true) ∨
      ∃ v ∈ u.views, v.name = view
  /-- Inherited members first, then what the unit lists besides, each once. -/
  view_eq : ∀ view members, t.view? view = some members →
    members.Nodup ∧ members = inheritedView types u view ++
      Batch.newNames (inheritedView types u view) (Batch.listed u view)
  nonIndexed : t.nonIndexed = true ↔
    ∃ x ∈ t.name :: t.ancestors, ∃ a ∈ SourceUnit.types units, a.name = x ∧ a.nonIndexed = true
  helper : ∀ code, t.helper = some code ↔
    ∃ h ∈ helpers units, h.key = (t.kind, t.name) ∧ code = ⟨h.name, h.source, h.fingerprint⟩

namespace Batch

variable {b : Batch} {c : Compiler}

/-! ### One step of building -/

theorem names_build (parent : Option CompiledType) (u : TypeUnit) :
    (b.build c parent u).properties.map (·.name) =
      (parent.map fun above => above.properties.map (·.name)).getD [] ++
        newNames ((parent.map fun above => above.properties.map (·.name)).getD [])
          (u.fields.map (·.name)) := by
  cases parent with
  | none => exact names_mergeProperties [] u
  | some above => exact names_mergeProperties above.properties u

/-- A view is there if it is inherited or declared, and then has the inherited members and the new
ones that are listed. -/
theorem view?_build (parent : Option CompiledType) (u : TypeUnit) (view : String) :
    (b.build c parent u).view? view =
      if u.views.any (·.name = view) then
        some (((parent.bind (·.view? view)).getD []) ++
          newNames ((parent.bind (·.view? view)).getD [])
            ((listed u view).filter (isViewable (b.build c parent u).properties)))
      else parent.bind (·.view? view) := by
  have hviews : (b.build c parent u).view? view =
      (u.views.foldl (mergeView (b.build c parent u).properties)
        ((parent.map (·.views)).getD .empty)).get? view := rfl
  have hinherited : ((parent.map CompiledType.views).getD SortedMap.empty).get? view =
      parent.bind (·.view? view) := by
    cases parent with
    | none => exact SortedMap.get?_empty view
    | some above => rfl
  rw [hviews, get?_mergeViews, hinherited, foldl_appendNew, listed]

theorem isSome_view?_build (parent : Option CompiledType) (u : TypeUnit) (view : String) :
    ((b.build c parent u).view? view).isSome = true ↔
      (∃ v ∈ u.views, v.name = view) ∨ (parent.bind (·.view? view)).isSome = true := by
  rw [view?_build]
  split <;> simp_all

/-- The members of a view are pairwise distinct, whatever the units repeat. -/
theorem nodup_of_view? (hk : b.Keyed) (ha : b.lineage.Acyclic) {name : String} {t : CompiledType}
    (ht : (b.compiled c).get? name = some t) {view : String} {members : List String}
    (hview : t.view? view = some members) : members.Nodup := by
  -- a step keeps the members distinct: it appends new ones
  have hstep : ∀ (parent : Option CompiledType) (u : TypeUnit),
      (∀ members, parent.bind (·.view? view) = some members → members.Nodup) →
        ∀ members, (b.build c parent u).view? view = some members → members.Nodup := by
    intro parent u hparent members hmembers
    rw [view?_build, ← foldl_appendNew] at hmembers
    split at hmembers
    · obtain rfl := Option.some.inj hmembers
      refine nodup_foldl_appendNew ?_ _
      cases hinherited : parent.bind (·.view? view) with
      | none => exact List.nodup_nil
      | some inherited => exact hparent inherited hinherited
    · exact hparent members hmembers
  refine compiled_induction hk ha (motive := fun _ t =>
    ∀ members, t.view? view = some members → members.Nodup) ?_ ?_ ht members hview
  · intro name u _ _
    exact hstep none u nofun
  · intro name u p above _ _ _ ih
    exact hstep (some above) u ih

end Batch

/-! ### The types of an accepted batch -/

theorem SourceUnit.Resolved.parentUnit?_eq {units : List SourceUnit} (hf : Resolved units)
    {u : TypeUnit} (hu : u ∈ types units) :
    (Batch.ofUnits units).1.parentUnit? u =
      u.parent.bind (Batch.ofUnits units).1.types.get? := by
  refine Option.ext fun p => ?_
  rw [hf.parentUnit?_iff hu, Option.bind_eq_some_iff]
  constructor
  · exact fun hp => ⟨p.name, hp.2.2, (Batch.get?_types_eq_some_iff hf.names).mpr ⟨hp.2.1, rfl⟩⟩
  · rintro ⟨name, hname, hget⟩
    obtain ⟨hp, rfl⟩ := (Batch.get?_types_eq_some_iff hf.names).mp hget
    exact ⟨hu, hp, hname⟩

namespace Compiler

variable {c : Compiler} {units : List SourceUnit} {types : SortedMap String CompiledType}

theorem acyclic_of_compile (h : c.compile units = .ok types) :
    (Batch.ofUnits units).1.lineage.Acyclic :=
  (wellFormed_of_compile h).resolved.acyclic_iff.mpr (wellFormed_of_compile h).acyclic

theorem eq_compiled_of_compile (h : c.compile units = .ok types) :
    types = (Batch.ofUnits units).1.compiled c := by
  obtain ⟨-, -, -, heq⟩ := compile_eq_ok_iff.mp h
  exact heq

/-- A batch type that a unit extends has its compiled form in the result. -/
theorem compiledParent?_eq (h : c.compile units = .ok types) {u : TypeUnit}
    (hu : u ∈ SourceUnit.types units) :
    compiledParent? types u = ((Batch.ofUnits units).1.parentUnit? u).map
      ((Batch.ofUnits units).1.compileUnit c (Batch.ofUnits units).1.types.size) := by
  rw [(wellFormed_of_compile h).resolved.parentUnit?_eq hu, eq_compiled_of_compile h,
    compiledParent?]
  cases u.parent with
  | none => rfl
  | some name => rw [Option.bind_some, Option.bind_some, Batch.get?_compiled]

/-- Every type of the result is built from a unit of its name and its compiled parent. -/
theorem eq_build_of_compile (h : c.compile units = .ok types) {name : String} {t : CompiledType}
    (ht : types.get? name = some t) :
    ∃ u ∈ SourceUnit.types units, u.name = name ∧
      t = (Batch.ofUnits units).1.build c (compiledParent? types u) u := by
  have hn := (wellFormed_of_compile h).names
  have hk : (Batch.ofUnits units).1.Keyed := Batch.keyed_ofUnits units
  rw [eq_compiled_of_compile h, Batch.get?_compiled] at ht
  obtain ⟨u, hget, rfl⟩ := Option.map_eq_some_iff.mp ht
  obtain ⟨hu, rfl⟩ := (Batch.get?_types_eq_some_iff hn).mp hget
  exact ⟨u, hu, rfl, by
    rw [Batch.compileUnit_eq_build hk (acyclic_of_compile h) hget, compiledParent?_eq h hu]⟩

/-- The compiled type of a unit is built from that unit. -/
theorem eq_build_of_mem (h : c.compile units = .ok types) {u : TypeUnit}
    (hu : u ∈ SourceUnit.types units) {t : CompiledType} (ht : types.get? u.name = some t) :
    t = (Batch.ofUnits units).1.build c (compiledParent? types u) u := by
  obtain ⟨u', hu', hname, hbuild⟩ := eq_build_of_compile h ht
  obtain rfl := List.inj_on_of_nodup_map (wellFormed_of_compile h).names hu' hu hname
  exact hbuild

theorem compiledParent?_iff (h : c.compile units = .ok types) {u : TypeUnit}
    (hu : u ∈ SourceUnit.types units) (name : String) :
    (∃ above, compiledParent? types u = some above ∧ above.name = name) ↔
      ∃ p, Extends units u p ∧ p.name = name := by
  have hf := (wellFormed_of_compile h).resolved
  have hk : (Batch.ofUnits units).1.Keyed := Batch.keyed_ofUnits units
  rw [compiledParent?_eq h hu]
  simp only [Option.map_eq_some_iff, hf.parentUnit?_iff hu]
  constructor
  · rintro ⟨above, ⟨p, hp, rfl⟩, rfl⟩
    have hget := (Batch.get?_types_eq_some_iff hf.names).mpr ⟨hp.2.1, rfl⟩
    rw [Batch.compileUnit_eq_build hk (acyclic_of_compile h) hget, Batch.build_name]
    exact ⟨p, hp, rfl⟩
  · rintro ⟨p, hp, rfl⟩
    have hget := (Batch.get?_types_eq_some_iff hf.names).mpr ⟨hp.2.1, rfl⟩
    refine ⟨_, ⟨p, hp, rfl⟩, ?_⟩
    rw [Batch.compileUnit_eq_build hk (acyclic_of_compile h) hget, Batch.build_name]

/-- Nothing that a view lists is unknown. -/
theorem unknownInViews_of_compile (h : c.compile units = .ok types) {u : TypeUnit}
    (hu : u ∈ SourceUnit.types units) {t : CompiledType} (ht : types.get? u.name = some t) :
    Batch.unknownInViews t.properties u = [] := by
  obtain ⟨-, -, hviews, rfl⟩ := compile_eq_ok_iff.mp h
  have hn := (wellFormed_of_compile h).names
  exact Batch.viewErrors_eq_nil_iff.mp hviews
    ((Batch.get?_types_eq_some_iff hn).mpr ⟨hu, rfl⟩) ht

/-- A view is what the unit lists after what it inherits, or what it inherits if the unit lists
nothing. -/
theorem view?_of_compile (h : c.compile units = .ok types) {u : TypeUnit}
    (hu : u ∈ SourceUnit.types units) {t : CompiledType} (ht : types.get? u.name = some t)
    (view : String) :
    t.view? view =
      if u.views.any (·.name = view) then
        some (inheritedView types u view ++
          Batch.newNames (inheritedView types u view) (Batch.listed u view))
      else (compiledParent? types u).bind (·.view? view) := by
  -- all that a view lists is known, so nothing listed is dropped
  rw [← Batch.filter_listed (unknownInViews_of_compile h hu ht) view, eq_build_of_mem h hu ht,
    Batch.view?_build]
  rfl

theorem view?_isSome_iff (h : c.compile units = .ok types) {u : TypeUnit}
    (hu : u ∈ SourceUnit.types units) {t : CompiledType} (ht : types.get? u.name = some t)
    (view : String) :
    (t.view? view).isSome = true ↔
      (∃ above, compiledParent? types u = some above ∧ (above.view? view).isSome = true) ∨
        ∃ v ∈ u.views, v.name = view := by
  rw [view?_of_compile h hu ht]
  by_cases hany : u.views.any (·.name = view) = true
  · rw [if_pos hany]
    exact iff_of_true rfl (Or.inr (by simpa using hany))
  · rw [if_neg hany]
    have hnone : ¬ ∃ v ∈ u.views, v.name = view := by simpa using hany
    rw [or_iff_left hnone]
    cases compiledParent? types u <;> simp

theorem members_of_view? (h : c.compile units = .ok types) {u : TypeUnit}
    (hu : u ∈ SourceUnit.types units) {t : CompiledType} (ht : types.get? u.name = some t)
    {view : String} {members : List String} (hmembers : t.view? view = some members) :
    members = inheritedView types u view ++
      Batch.newNames (inheritedView types u view) (Batch.listed u view) := by
  rw [view?_of_compile h hu ht] at hmembers
  by_cases hany : u.views.any (·.name = view) = true
  · rw [if_pos hany] at hmembers
    exact (Option.some.inj hmembers).symm
  · rw [if_neg hany] at hmembers
    rw [inheritedView, hmembers, Option.getD_some, Batch.listed_eq_nil hany, Batch.newNames_nil,
      List.append_nil]

/-- The types of the units are the types of the batch. -/
theorem declaredBy?_eq (units : List SourceUnit) (name property : String) :
    (Batch.ofUnits units).1.declaredBy? name property =
      SourceUnit.declaration? units name property := by
  rw [Batch.declaredBy?, Batch.get?_types_ofUnits, SourceUnit.declaration?]

/-- **Every type of an accepted batch inherits as its definitions say.** -/
theorem inherits_of_compile (h : c.compile units = .ok types) {name : String} {t : CompiledType}
    (ht : types.get? name = some t) :
    ∃ u ∈ SourceUnit.types units, u.name = name ∧ Inherits units types u t := by
  have hw := wellFormed_of_compile h
  have hk : (Batch.ofUnits units).1.Keyed := Batch.keyed_ofUnits units
  have ha := acyclic_of_compile h
  have hc := eq_compiled_of_compile h
  have ht' : ((Batch.ofUnits units).1.compiled c).get? name = some t := hc ▸ ht
  obtain ⟨u, hu, rfl, hbuild⟩ := eq_build_of_compile h ht
  have hname : t.name = u.name := by rw [hbuild, Batch.build_name]
  have hkind : t.kind = u.kind := by rw [hbuild, Batch.build_kind]
  have hnodup := Batch.nodup_property_names hk ha ht'
  refine ⟨u, hu, rfl, ?_⟩
  exact
    { name := hname
      kind := hkind
      parent := compiledParent?_iff h hu
      ancestors := by rw [hbuild]; rfl
      builtinBase := by rw [hbuild]; rfl
      chain_nodup := Batch.nodup_chain hk ha ht'
      chain_kind := fun x hx => by
        obtain ⟨above, habove, hsame⟩ := Batch.exists_of_mem_chain hk ha ht' x hx
        exact ⟨above, hc ▸ habove, Batch.compiled_name hk ha habove, hsame⟩
      property_nodup := hnodup
      property_names := by rw [hbuild, Batch.names_build]; rfl
      property_mem := fun p hp => (Batch.find?_eq_some_iff_of_nodup hnodup).mpr ⟨hp, rfl⟩
      property_isSome := fun name => by
        rw [Batch.property?_isSome_iff hk ha ht']
        simp only [Batch.get?_types_eq_some_iff hw.names, and_assoc]
      property_eq := fun name => by
        rw [Batch.property?_eq_findSome? hk ha ht']
        simp only [declaredBy?_eq]
      view_isSome := view?_isSome_iff h hu ht
      view_eq := fun view members hmembers =>
        ⟨Batch.nodup_of_view? hk ha ht' hmembers, members_of_view? h hu ht hmembers⟩
      nonIndexed := by
        rw [Batch.nonIndexed_iff hk ha ht']
        simp only [Batch.get?_types_eq_some_iff hw.names, and_assoc]
      helper := fun code => by
        have hcode : t.helper = (((Batch.ofUnits units).1.helpers t.kind).get? t.name).map
            fun h => ⟨h.name, h.source, h.fingerprint⟩ := by rw [hbuild]; rfl
        rw [hcode, Option.map_eq_some_iff]
        simp only [Batch.get?_helpers_eq_some_iff hw.owners, and_assoc]
        exact exists_congr fun h => and_congr_right fun _ => and_congr_right fun _ => eq_comm }

theorem circle_inherits :
    ∃ types t, ({} : Compiler).compile shapes = .ok types ∧ types.get? "Circle" = some t ∧
      (∃ u ∈ SourceUnit.types shapes, u.name = "Circle" ∧ Inherits shapes types u t) ∧
        t.ancestors = ["Shape"] ∧ t.builtinBase = some "NodeInterface" ∧
          t.properties.map (fun p => (p.name, p.declaredBy)) =
            [("label", "Circle"), ("inside", "Shape"), ("radius", "Circle")] ∧
          t.view? "summary" = some ["id", "label", "radius"] ∧ t.nonIndexed = true := by
  have hok : ({} : Compiler).compile shapes = .ok ((Batch.ofUnits shapes).1.compiled {}) := by
    rfl
  obtain ⟨t, ht⟩ : ∃ t, ((Batch.ofUnits shapes).1.compiled {}).get? "Circle" = some t := ⟨_, rfl⟩
  refine ⟨_, t, hok, ht, inherits_of_compile hok ht, ?_⟩
  obtain rfl := Option.some.inj ht
  decide

end Compiler

end LiveSchema
