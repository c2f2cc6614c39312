import LiveSchema.Proofs.Definition.Store
import LiveSchema.Proofs.Index.Stages
import Mathlib.Logic.Relation

/-!
# LiveSchema.Proofs.Index.Wanted

Which indexes the author of a schema asks for. `Schema.Wants` reads them off the definitions as they
are written: of several records of a name the last one counts, a property is that of its nearest
declaration above the type, and a type opts out if a definition above it does. Nothing there speaks
of units, batches or compiled types.

`Generation.mem_wantedIndexes_iff_wants` says that these are the indexes that the generation of the
schema wants. A compiled type reads what stands above its definition (`Schema.Reads`); parents are
compiled first, so one step of building is all there is to see (`Schema.Reads.build`).
-/

namespace LiveSchema

namespace Schema

/-- The definition of a name: of several records the last one counts. -/
def definition? (schema : List Definition) (name : String) : Option Definition :=
  schema.reverse.find? (·.name = name)

/-- A definition extends another one of the schema. -/
def Extends (schema : List Definition) (d p : Definition) : Prop :=
  ∃ name, d.parent = some name ∧ definition? schema name = some p

/-- The nearest declaration of a property, from a definition upwards. -/
inductive Nearest (schema : List Definition) (property : String) :
    Definition → PropertyDeclaration → Prop where
  | own {d q} : q ∈ d.properties → q.name = property → Nearest schema property d q
  | inherited {d p q} : (∀ own ∈ d.properties, own.name ≠ property) → Extends schema d p →
      Nearest schema property p q → Nearest schema property d q

/-- An index is asked for: the nearest declaration of the property is flagged for it, no definition
from the type upwards opts out, and `id` is indexed on the root of the node types only. -/
def Wants (schema : List Definition) (k : IndexKey) : Prop :=
  ∃ d q, definition? schema k.typeName = some d ∧ Nearest schema k.property d q ∧
    (q.indexed = true ∨ q.indexedWhenEmpty = true) ∧
    (∀ a, Relation.ReflTransGen (Extends schema) d a → a.nonIndexed = false) ∧
    (k.property = "id" → k.typeName = nodeInterface)

variable {schema : List Definition}

/-! ### One step up -/

theorem name_of_definition? {name : String} {d : Definition}
    (h : definition? schema name = some d) : d.name = name := by
  simpa using List.find?_some h

/-- The parent of a definition stands in the schema under its own name. -/
theorem Extends.definition? {d p : Definition} (h : Extends schema d p) :
    definition? schema p.name = some p := by
  obtain ⟨name, -, hp⟩ := h
  rw [name_of_definition? hp]
  exact hp

theorem Extends.iff_eq {d p : Definition} (h : Extends schema d p) {p' : Definition} :
    Extends schema d p' ↔ p' = p := by
  constructor
  · rintro ⟨name, hname, hp'⟩
    obtain ⟨name', hname', hp⟩ := h
    obtain rfl := Option.some.inj (hname.symm.trans hname')
    exact Option.some.inj (hp'.symm.trans hp)
  · rintro rfl
    exact h

theorem nearest_iff {property : String} {d : Definition} {q : PropertyDeclaration} :
    Nearest schema property d q ↔
      (q ∈ d.properties ∧ q.name = property) ∨
        ((∀ own ∈ d.properties, own.name ≠ property) ∧
          ∃ p, Extends schema d p ∧ Nearest schema property p q) := by
  constructor
  · intro h
    cases h with
    | own hq hname => exact .inl ⟨hq, hname⟩
    | inherited hnone hp habove => exact .inr ⟨hnone, _, hp, habove⟩
  · rintro (⟨hq, hname⟩ | ⟨hnone, p, hp, habove⟩)
    · exact .own hq hname
    · exact .inherited hnone hp habove

/-- Where a definition declares a property, nothing above it counts. -/
theorem exists_nearest_iff_of_own {property : String} {d : Definition}
    (hown : ∃ q ∈ d.properties, q.name = property) {P : PropertyDeclaration → Prop} :
    (∃ q, Nearest schema property d q ∧ P q) ↔ ∃ q ∈ d.properties, q.name = property ∧ P q := by
  obtain ⟨own, hmem, hname⟩ := hown
  have hsome : ¬ ∀ own ∈ d.properties, own.name ≠ property := fun h => h own hmem hname
  simp only [nearest_iff (d := d), hsome, false_and, or_false, and_assoc]

/-- Where it does not, what is above it counts. -/
theorem exists_nearest_iff_of_not_own {property : String} {d : Definition}
    (hown : ¬ ∃ q ∈ d.properties, q.name = property) {P : PropertyDeclaration → Prop} :
    (∃ q, Nearest schema property d q ∧ P q) ↔
      ∃ p, Extends schema d p ∧ ∃ q, Nearest schema property p q ∧ P q := by
  have hnone : ∀ own ∈ d.properties, own.name ≠ property := fun own hmem hname =>
    hown ⟨own, hmem, hname⟩
  constructor
  · rintro ⟨q, hq, hP⟩
    rcases nearest_iff.mp hq with ⟨hmem, hname⟩ | ⟨-, p, hp, habove⟩
    · exact absurd hname (hnone q hmem)
    · exact ⟨p, hp, q, habove, hP⟩
  · rintro ⟨p, hp, q, hq, hP⟩
    exact ⟨q, .inherited hnone hp hq, hP⟩

theorem exists_above_iff {P : Definition → Prop} {d : Definition} :
    (∃ a, Relation.ReflTransGen (Extends schema) d a ∧ P a) ↔
      P d ∨ ∃ p, Extends schema d p ∧ ∃ a, Relation.ReflTransGen (Extends schema) p a ∧ P a := by
  constructor
  · rintro ⟨a, habove, ha⟩
    rcases habove.cases_head with rfl | ⟨p, hp, hrest⟩
    · exact .inl ha
    · exact .inr ⟨p, hp, a, hrest, ha⟩
  · rintro (hd | ⟨p, hp, a, habove, ha⟩)
    · exact ⟨d, .refl, hd⟩
    · exact ⟨a, .head hp habove, ha⟩

/-! ### What a store hands out -/

/-- Where no two definitions that a store hands out share a name, each is the last record of its
name. -/
theorem mem_definitions_iff
    (hn : ((Store.ofDefinitions schema).definitions.map (·.name)).Nodup) {d : Definition} :
    d ∈ (Store.ofDefinitions schema).definitions ↔ definition? schema d.name = some d := by
  -- the last record of a name is also the last one of its name and kind
  have hlast : ∀ d', definition? schema d'.name = some d' →
      d' ∈ (Store.ofDefinitions schema).definitions := by
    intro d' hd'
    rw [Store.mem_definitions_iff (Store.keyed_ofDefinitions schema),
      Store.definition?_ofDefinitions]
    obtain ⟨-, after, before, hsplit, hother⟩ := List.find?_eq_some_iff_append.mp hd'
    refine List.find?_eq_some_iff_append.mpr ⟨by simp, after, before, hsplit, fun e he => ?_⟩
    have hname := hother e he
    simp only [Bool.not_eq_true', decide_eq_false_iff_not] at hname ⊢
    exact fun hsame => hname hsame.2
  refine ⟨fun hd => ?_, hlast d⟩
  obtain ⟨e, he⟩ : ∃ e, definition? schema d.name = some e := by
    rw [Store.mem_definitions_iff (Store.keyed_ofDefinitions schema),
      Store.definition?_ofDefinitions] at hd
    refine Option.isSome_iff_exists.mp (List.find?_isSome.mpr ⟨d, List.mem_of_find?_eq_some hd, ?_⟩)
    exact decide_eq_true rfl
  have hname := name_of_definition? he
  have hmem := hlast e (hname ▸ he)
  rw [he, List.inj_on_of_nodup_map hn hmem hd hname]

end Schema

/-! ### Compiled schemas -/

/-- What a schema is emitted and compiled to. -/
structure Schema.Compiles (c : Compiler) (schema : List Definition) (units : List SourceUnit)
    (types : SortedMap String CompiledType) : Prop where
  emitted : emitAll (Store.ofDefinitions schema).definitions = .ok units
  compiled : c.compile units = .ok types

namespace Schema.Compiles

variable {c : Compiler} {schema : List Definition} {units : List SourceUnit}
  {types : SortedMap String CompiledType}

theorem nodup_names (h : Compiles c schema units types) :
    ((Store.ofDefinitions schema).definitions.map (·.name)).Nodup := by
  have hn := (Compiler.wellFormed_of_compile h.compiled).names
  rw [types_of_emitAll h.emitted, List.map_map] at hn
  exact hn

theorem mem_types_iff (h : Compiles c schema units types) {u : TypeUnit} :
    u ∈ SourceUnit.types units ↔
      ∃ d, definition? schema d.name = some d ∧ u = Emission.typeUnit d := by
  rw [types_of_emitAll h.emitted, List.mem_map]
  simp only [mem_definitions_iff h.nodup_names, eq_comm (a := u)]

theorem errors_eq_nil (h : Compiles c schema units types) {d : Definition}
    (hd : definition? schema d.name = some d) : Emission.errors d = [] :=
  (emitAll_eq_ok_iff.mp h.emitted).1 d ((mem_definitions_iff h.nodup_names).mpr hd)

/-- The batch holds the units of the definitions that count. -/
theorem get?_types_iff (h : Compiles c schema units types) {name : String} {u : TypeUnit} :
    (Batch.ofUnits units).1.types.get? name = some u ↔
      ∃ d, definition? schema name = some d ∧ u = Emission.typeUnit d := by
  rw [Batch.get?_types_eq_some_iff (Compiler.wellFormed_of_compile h.compiled).names,
    h.mem_types_iff]
  constructor
  · rintro ⟨⟨d, hd, rfl⟩, rfl⟩
    exact ⟨d, hd, rfl⟩
  · rintro ⟨d, hd, rfl⟩
    have hname := name_of_definition? hd
    exact ⟨⟨d, hname ▸ hd, rfl⟩, hname⟩

theorem eq_typeUnit (h : Compiles c schema units types) {name : String} {u : TypeUnit}
    {d : Definition} (hu : (Batch.ofUnits units).1.types.get? name = some u)
    (hd : definition? schema name = some d) :
    u = Emission.typeUnit d ∧ definition? schema d.name = some d := by
  obtain ⟨d', hd', rfl⟩ := h.get?_types_iff.mp hu
  obtain rfl := Option.some.inj (hd.symm.trans hd')
  exact ⟨rfl, name_of_definition? hd ▸ hd⟩

/-- There is a compiled type for each definition. -/
theorem exists_type_iff (h : Compiles c schema units types) {name : String} :
    (∃ t, types.get? name = some t) ↔ ∃ d, definition? schema name = some d := by
  rw [Compiler.eq_compiled_of_compile h.compiled, Batch.get?_compiled]
  simp only [Option.map_eq_some_iff, h.get?_types_iff]
  constructor
  · rintro ⟨t, u, ⟨d, hd, -⟩, -⟩
    exact ⟨d, hd⟩
  · rintro ⟨d, hd⟩
    exact ⟨_, _, ⟨d, hd, rfl⟩, rfl⟩

/-- The parent of a unit in the batch is the unit of the parent in the schema. -/
theorem parentUnit?_iff (h : Compiles c schema units types) {d : Definition}
    (hd : definition? schema d.name = some d) {u : TypeUnit} :
    (Batch.ofUnits units).1.parentUnit? (Emission.typeUnit d) = some u ↔
      ∃ p, Extends schema d p ∧ u = Emission.typeUnit p := by
  have hf := (Compiler.wellFormed_of_compile h.compiled).resolved
  rw [hf.parentUnit?_eq (h.mem_types_iff.mpr ⟨d, hd, rfl⟩), Option.bind_eq_some_iff]
  constructor
  · rintro ⟨name, hname, hu⟩
    obtain ⟨p, hp, rfl⟩ := h.get?_types_iff.mp hu
    exact ⟨p, ⟨name, hname, hp⟩, rfl⟩
  · rintro ⟨p, ⟨name, hname, hp⟩, rfl⟩
    exact ⟨name, hname, h.get?_types_iff.mpr ⟨p, hp, rfl⟩⟩

end Schema.Compiles

namespace Schema

/-- A compiled type asks for what its definition and those above it ask for. -/
structure Reads (schema : List Definition) (d : Definition) (t : CompiledType) : Prop where
  optedOut : t.nonIndexed = true ↔
    ∃ a, Relation.ReflTransGen (Extends schema) d a ∧ a.nonIndexed = true
  wantsIndex : ∀ property, (∃ p, t.property? property = some p ∧ p.wantsIndex = true) ↔
    ∃ q, Nearest schema property d q ∧ (q.indexed = true ∨ q.indexedWhenEmpty = true)

variable {schema : List Definition} {d : Definition}

/-- A unit declares what its definition declares. -/
theorem isSome_declaration?_iff (h : Emission.errors d = []) {property : String} :
    (Batch.declaration? (Emission.typeUnit d) property).isSome = true ↔
      ∃ q ∈ d.properties, q.name = property := by
  rw [Batch.declaration?_isSome_iff]
  exact Emission.exists_field_iff h fun e => e.1 = property

theorem wantsIndex_declaration?_iff (h : Emission.errors d = []) {property : String} :
    (∃ p, Batch.declaration? (Emission.typeUnit d) property = some p ∧ p.wantsIndex = true) ↔
      ∃ q ∈ d.properties, q.name = property ∧
        (q.indexed = true ∨ q.indexedWhenEmpty = true) := by
  have hflags : ∀ f : Field, (Batch.propertyOf (Emission.typeUnit d) f).wantsIndex = true ↔
      f.indexed = true ∨ f.indexedWhenEmpty = true := fun f => Bool.or_eq_true_iff
  rw [← Emission.exists_field_iff h fun e => e.1 = property ∧ (e.2.1 = true ∨ e.2.2 = true)]
  simp only [Batch.declaration?_eq_some_iff (Emission.nodup_fields h)]
  constructor
  · rintro ⟨_, ⟨f, hf, hname, rfl⟩, hwants⟩
    exact ⟨f, hf, hname, (hflags f).mp hwants⟩
  · rintro ⟨f, hf, hname, hwants⟩
    exact ⟨_, ⟨f, hf, hname, rfl⟩, (hflags f).mpr hwants⟩

/-- One step of building: the parent is read from its definition upwards, and the type adds what its
own definition says. -/
theorem Reads.build {b : Batch} {c : Compiler} (h : Emission.errors d = [])
    {parent : Option CompiledType}
    (hparent : (parent = none ∧ ∀ p, ¬ Extends schema d p) ∨
      ∃ p above, parent = some above ∧ Extends schema d p ∧ Reads schema p above) :
    Reads schema d (b.build c parent (Emission.typeUnit d)) := by
  have hflag : (b.build c parent (Emission.typeUnit d)).nonIndexed =
      (d.nonIndexed || (parent.map (·.nonIndexed)).getD false) := rfl
  refine ⟨?_, fun property => ?_⟩
  · -- either the definition opts out itself, or one from its parent upwards does
    rw [hflag, Bool.or_eq_true, exists_above_iff]
    refine or_congr_right ?_
    rcases hparent with ⟨rfl, hnone⟩ | ⟨p, above, rfl, hp, hreads⟩
    · simp [hnone]
    · rw [Option.map_some, Option.getD_some, hreads.optedOut]
      simp only [hp.iff_eq, exists_eq_left]
  · rw [Batch.property?_build]
    -- an own declaration is both what the merge keeps and what is nearest
    by_cases hown : ∃ q ∈ d.properties, q.name = property
    · rw [exists_nearest_iff_of_own hown, ← wantsIndex_declaration?_iff h]
      obtain ⟨own, hdeclared⟩ :=
        Option.isSome_iff_exists.mp ((isSome_declaration?_iff h).mpr hown)
      rw [hdeclared, Option.some_or]
    · have hnone : Batch.declaration? (Emission.typeUnit d) property = none := by
        rw [← Option.not_isSome_iff_eq_none, isSome_declaration?_iff h]
        exact hown
      rw [exists_nearest_iff_of_not_own hown, hnone, Option.none_or]
      rcases hparent with ⟨rfl, hnone⟩ | ⟨p, above, rfl, hp, hreads⟩
      · simp [hnone]
      · rw [Option.bind_some, hreads.wantsIndex]
        simp only [hp.iff_eq, exists_eq_left]

/-- The compiled types of a schema read their definitions. -/
theorem Compiles.reads {c : Compiler} {units : List SourceUnit}
    {types : SortedMap String CompiledType} (h : Compiles c schema units types) {name : String}
    {t : CompiledType} (ht : types.get? name = some t) (hd : definition? schema name = some d) :
    Reads schema d t := by
  have hk : (Batch.ofUnits units).1.Keyed := Batch.keyed_ofUnits units
  rw [Compiler.eq_compiled_of_compile h.compiled] at ht
  -- parents are compiled first
  refine Batch.compiled_induction hk (Compiler.acyclic_of_compile h.compiled)
    (motive := fun name t => ∀ d, definition? schema name = some d → Reads schema d t)
    ?_ ?_ ht d hd
  · intro name u hu hroot d hd
    obtain ⟨rfl, hself⟩ := h.eq_typeUnit hu hd
    refine .build (h.errors_eq_nil hself) (.inl ⟨rfl, fun p hp => ?_⟩)
    rw [(h.parentUnit?_iff hself).mpr ⟨p, hp, rfl⟩] at hroot
    cases hroot
  · intro name u p above hu hp habove ih d hd
    obtain ⟨rfl, hself⟩ := h.eq_typeUnit hu hd
    obtain ⟨e, he, rfl⟩ := (h.parentUnit?_iff hself).mp hp
    exact .build (h.errors_eq_nil hself) (.inr ⟨e, above, rfl, he, ih e he.definition?⟩)

end Schema

theorem CompiledType.shouldIndex_iff {t : CompiledType} {p : Property} :
    t.shouldIndex p = true ↔
      t.nonIndexed = false ∧ p.wantsIndex = true ∧ (p.name = "id" → t.name = nodeInterface) := by
  simp only [shouldIndex, Bool.and_eq_true, Bool.not_eq_true', Bool.or_eq_true, bne_iff_ne, ne_eq,
    decide_eq_true_eq, and_assoc, ← imp_iff_not_or]

/-- **The indexes that a generation wants are those that its schema asks for.** -/
theorem Generation.mem_wantedIndexes_iff_wants {c : Compiler} {sequence : Nat}
    {schema : List Definition} {g : Generation}
    (h : Generation.ofDefinitions c sequence (Store.ofDefinitions schema).definitions = .ok g)
    {k : IndexKey} : k ∈ g.wantedIndexes ↔ Schema.Wants schema k := by
  have hg := Generation.named_of_ofDefinitions h
  obtain ⟨units, types, hunits, htypes, rfl⟩ := Generation.ofDefinitions_eq_ok_iff.mp h
  have hc : Schema.Compiles c schema units types := ⟨hunits, htypes⟩
  have hfind : ∀ {t p}, types.get? k.typeName = some t →
      (t.property? k.property = some p ↔ p ∈ t.properties ∧ p.name = k.property) :=
    fun ht => Batch.find?_eq_some_iff_of_nodup (hg.properties ht)
  rw [hg.mem_wantedIndexes]
  constructor
  · rintro ⟨t, p, ht, hp, hname, hwanted⟩
    obtain ⟨hin, hwants, hid⟩ := CompiledType.shouldIndex_iff.mp hwanted
    obtain ⟨d, hd⟩ := hc.exists_type_iff.mp ⟨t, ht⟩
    have hreads := hc.reads ht hd
    obtain ⟨q, hq, hflags⟩ :=
      (hreads.wantsIndex k.property).mp ⟨p, (hfind ht).mpr ⟨hp, hname⟩, hwants⟩
    refine ⟨d, q, hd, hq, hflags, fun a ha => ?_, fun hproperty => ?_⟩
    · by_contra hout
      rw [hreads.optedOut.mpr ⟨a, ha, by simpa using hout⟩] at hin
      cases hin
    · exact (hg.name ht).symm.trans (hid (hname.trans hproperty))
  · rintro ⟨d, q, hd, hq, hflags, hchain, hid⟩
    obtain ⟨t, ht⟩ := hc.exists_type_iff.mpr ⟨d, hd⟩
    have hreads := hc.reads ht hd
    obtain ⟨p, hp, hwants⟩ := (hreads.wantsIndex k.property).mpr ⟨q, hq, hflags⟩
    obtain ⟨hmem, hname⟩ := (hfind ht).mp hp
    refine ⟨t, p, ht, hmem, hname, CompiledType.shouldIndex_iff.mpr ⟨?_, hwants, ?_⟩⟩
    · by_contra hout
      obtain ⟨a, ha, hflag⟩ := hreads.optedOut.mp (by simpa using hout)
      rw [hchain a ha] at hflag
      cases hflag
    · exact fun hproperty => (hg.name ht).trans (hid (hname.symm.trans hproperty))

end LiveSchema
