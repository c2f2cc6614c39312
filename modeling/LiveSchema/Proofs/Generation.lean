import LiveSchema.Generation
import LiveSchema.Proofs.Compile.Inheritance
import LiveSchema.Proofs.Emission

/-!
# LiveSchema.Proofs.Generation

Generations of definitions. What a generation is made of is what emission and compilation make of
the definitions (`ofDefinitions_eq_ok_iff`); there is none exactly when one of the two refuses them
(`Compiler.Refuses`). Its types stand under their own names, which have no
dot, and have each property once (`Generation.Named`).
-/

namespace LiveSchema

theorem Compiler.compileDefinitions_eq_ok_iff {c : Compiler} {ds : List Definition}
    {types : SortedMap String CompiledType} :
    c.compileDefinitions ds = .ok types ↔
      ∃ units, emitAll ds = .ok units ∧ c.compile units = .ok types := by
  unfold compileDefinitions
  cases hemit : emitAll ds with
  | ok units => simp
  | error errors => simp

/-- The definitions make no generation: one of them is not emitted, or what they emit together is
not compiled. -/
def Compiler.Refuses (c : Compiler) (ds : List Definition) : Prop :=
  (∃ d ∈ ds, ∀ emission, d.emit ≠ .ok emission) ∨
    ∃ units, emitAll ds = .ok units ∧ ∀ types, c.compile units ≠ .ok types

namespace Generation

/-- A generation of definitions is what the definitions emit, compiled. -/
theorem ofDefinitions_eq_ok_iff {c : Compiler} {sequence : Nat} {ds : List Definition}
    {g : Generation} :
    ofDefinitions c sequence ds = .ok g ↔
      ∃ units types, emitAll ds = .ok units ∧ c.compile units = .ok types ∧
        g = ⟨sequence, types, viewNames ds, ds⟩ := by
  unfold ofDefinitions
  cases hcompile : c.compileDefinitions ds with
  | error errors =>
      refine ⟨nofun, ?_⟩
      rintro ⟨units, types, hemit, htypes, -⟩
      rw [Compiler.compileDefinitions_eq_ok_iff.mpr ⟨units, hemit, htypes⟩] at hcompile
      cases hcompile
  | ok types =>
      obtain ⟨units, hemit, htypes⟩ := Compiler.compileDefinitions_eq_ok_iff.mp hcompile
      constructor
      · intro h
        exact ⟨units, types, hemit, htypes, (Except.ok.inj h).symm⟩
      · rintro ⟨units', types', hemit', htypes', rfl⟩
        obtain rfl := Except.ok.inj (hemit.symm.trans hemit')
        obtain rfl := Except.ok.inj (htypes.symm.trans htypes')
        rfl

/-- Whether definitions make a generation depends on no number and no prefix of names. -/
theorem exists_ofDefinitions_congr {c c' : Compiler} (hbases : c'.addedBases = c.addedBases)
    {sequence : Nat} {ds : List Definition} {g : Generation}
    (h : ofDefinitions c sequence ds = .ok g) (sequence' : Nat) :
    ∃ g', ofDefinitions c' sequence' ds = .ok g' := by
  obtain ⟨units, types, hemit, htypes, -⟩ := ofDefinitions_eq_ok_iff.mp h
  have hw := (Compiler.wellFormed_of_compile htypes).congr hbases
  exact ⟨_, ofDefinitions_eq_ok_iff.mpr
    ⟨units, _, hemit, Compiler.compile_of_wellFormed hw, rfl⟩⟩

/-- Where something is read off the generation of definitions, there is one. -/
theorem exists_of_map_ofDefinitions {α : Type} {c : Compiler} {sequence : Nat}
    {ds : List Definition} {f : Generation → α} {a : α}
    (h : (ofDefinitions c sequence ds).map f = .ok a) :
    ∃ g, ofDefinitions c sequence ds = .ok g ∧ f g = a := by
  cases hg : ofDefinitions c sequence ds with
  | error e =>
      rw [hg] at h
      cases h
  | ok g =>
      rw [hg] at h
      exact ⟨g, rfl, Except.ok.inj h⟩

/-- What a generation of definitions keeps of them. -/
theorem definitions_of_ofDefinitions {c : Compiler} {sequence : Nat} {ds : List Definition}
    {g : Generation} (h : ofDefinitions c sequence ds = .ok g) : g.definitions = ds := by
  obtain ⟨units, types, -, -, rfl⟩ := ofDefinitions_eq_ok_iff.mp h
  rfl

theorem contains_viewNames {ds : List Definition} {view : String} :
    (viewNames ds).contains view = true ↔ ∃ d ∈ ds, view ∈ d.viewNames := by
  rw [viewNames, NameSet.contains_ofNames, List.mem_flatMap]

/-- Definitions that make no generation are refused for one of the two reasons. -/
theorem refuses_of_ofDefinitions {c : Compiler} {sequence : Nat} {ds : List Definition}
    (h : ∀ g, ofDefinitions c sequence ds ≠ .ok g) : c.Refuses ds := by
  by_cases hemit : ∀ d ∈ ds, ∃ emission, d.emit = .ok emission
  · obtain ⟨units, hunits⟩ := exists_emitAll_iff.mpr hemit
    refine Or.inr ⟨units, hunits, fun types htypes => ?_⟩
    exact h _ (ofDefinitions_eq_ok_iff.mpr ⟨units, types, hunits, htypes, rfl⟩)
  · simp only [not_forall, not_exists] at hemit
    obtain ⟨d, hd, hnone⟩ := hemit
    exact Or.inl ⟨d, hd, hnone⟩

theorem not_refuses_of_ofDefinitions {c : Compiler} {sequence : Nat} {ds : List Definition}
    {g : Generation} (h : ofDefinitions c sequence ds = .ok g) : ¬ c.Refuses ds := by
  obtain ⟨units, types, hunits, htypes, -⟩ := ofDefinitions_eq_ok_iff.mp h
  rintro (⟨d, hd, hnone⟩ | ⟨units', hunits', hnone⟩)
  · obtain ⟨emission, hemission⟩ := exists_emitAll_iff.mp ⟨units, hunits⟩ d hd
    exact hnone emission hemission
  · obtain rfl := Except.ok.inj (hunits.symm.trans hunits')
    exact hnone types htypes

/-- Each type of a generation is that of a definition of its name and kind. -/
theorem exists_definition_of_ofDefinitions {c : Compiler} {sequence : Nat} {ds : List Definition}
    {g : Generation} (h : ofDefinitions c sequence ds = .ok g) {name : String} {t : CompiledType}
    (ht : g.types.get? name = some t) : ∃ d ∈ ds, d.name = name ∧ d.kind = t.kind := by
  obtain ⟨units, types, hunits, htypes, rfl⟩ := ofDefinitions_eq_ok_iff.mp h
  obtain ⟨u, hu, rfl, hbuild⟩ := Compiler.eq_build_of_compile htypes ht
  rw [types_of_emitAll hunits] at hu
  obtain ⟨d, hd, rfl⟩ := List.mem_map.mp hu
  refine ⟨d, hd, rfl, ?_⟩
  rw [hbuild, Batch.build_kind]
  rfl

/-- The types of a generation stand under their own names, no name has a dot, and no type has a
property twice. -/
structure Named (g : Generation) : Prop where
  name : ∀ {name t}, g.types.get? name = some t → t.name = name
  dotless : ∀ {name t}, g.types.get? name = some t → '.' ∉ name.toList
  properties : ∀ {name t}, g.types.get? name = some t → (t.properties.map (·.name)).Nodup

theorem named_of_ofDefinitions {c : Compiler} {sequence : Nat} {ds : List Definition}
    {g : Generation} (h : ofDefinitions c sequence ds = .ok g) : g.Named := by
  obtain ⟨units, types, hemit, htypes, rfl⟩ := ofDefinitions_eq_ok_iff.mp h
  exact
    { name := fun ht => by
        obtain ⟨u, -, hname, hbuild⟩ := Compiler.eq_build_of_compile htypes ht
        rw [hbuild, Batch.build_name, hname]
      dotless := fun ht => by
        obtain ⟨u, hu, rfl, -⟩ := Compiler.eq_build_of_compile htypes ht
        exact dotless_of_isIdentifier (isIdentifier_of_mem_types hemit hu)
      properties := fun ht => by
        have hcompiled := Compiler.eq_compiled_of_compile htypes
        subst hcompiled
        exact Batch.nodup_property_names (Batch.keyed_ofUnits units)
          (Compiler.acyclic_of_compile htypes) ht }

end Generation

end LiveSchema
