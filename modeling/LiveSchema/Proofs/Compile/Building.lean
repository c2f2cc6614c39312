import LiveSchema.Proofs.Compile.Batch
import LiveSchema.Proofs.Compile.Merge
import LiveSchema.Proofs.Lineage.BuildOrder

/-!
# LiveSchema.Proofs.Compile.Building

The compiled types of a batch without closed chains. A type is compiled by following its chain for
a bounded number of steps; where no chain is closed the bound is never reached
(`compileUnit_eq_build`), so every compiled type is built from its compiled parent
(`compiled_cases`). That gives an induction on compiled types, parents first
(`compiled_induction`), and every fact below is one use of it:

* `mem_chain_iff`, `nodup_chain`, `exists_of_mem_chain` — a type and its ancestors are what its
  chain reaches, each once, all of one kind;
* `property?_eq_findSome?`, `property?_isSome_iff` — the nearest declaration counts;
* `property?_eq_of_index` — a property is found at the place that an index has for its name;
* `nonIndexed_iff` — opting out of indexing is inherited.

Last, `compile_eq_ok_iff` and `compile_eq_error_iff` say what a compilation comes to.
-/

namespace LiveSchema

/-- The place of each property among the merged ones, by name. -/
def CompiledType.propertyIndex (t : CompiledType) : SortedMap String Nat :=
  SortedMap.ofList (t.properties.zipIdx.map fun entry => (entry.1.name, entry.2))

theorem CompiledType.property?_isSome_iff_mem {t : CompiledType} {name : String} :
    (t.property? name).isSome = true ↔ name ∈ t.properties.map (·.name) := by
  simp [property?, List.find?_isSome]

namespace Batch

variable {b : Batch} {c : Compiler}

/-! ### The bound is never reached -/

theorem lineage_parent?_of_get? {name : String} {u : TypeUnit} (hu : b.types.get? name = some u) :
    b.lineage.parent? name = (b.parentUnit? u).map (·.name) := by
  rw [lineage]
  dsimp only
  rw [hu, Option.bind_some]

/-- The parent of a type stands in the batch under its own name. -/
theorem Keyed.get?_parent (hk : b.Keyed) {u p : TypeUnit} (hp : b.parentUnit? u = some p) :
    b.types.get? p.name = some p := by
  obtain ⟨name, -, hget, -⟩ := parentUnit?_eq_some_iff.mp hp
  exact hk hget ▸ hget

/-- As many steps as the chain is long are enough; more change nothing. -/
theorem compileUnit_stable (hk : b.Keyed) {n m : Nat} {name : String} {u : TypeUnit}
    (hu : b.types.get? name = some u) (hend : b.lineage.ascend (n + 1) name = none)
    (hnm : n ≤ m) : b.compileUnit c m u = b.compileUnit c n u := by
  -- on the steps that the chain takes to end; the parent's chain takes one less
  induction n generalizing m name u with
  | zero =>
      rw [Lineage.ascend_one, lineage_parent?_of_get? hu, Option.map_eq_none_iff] at hend
      cases m with
      | zero => rfl
      | succ m =>
          show b.build c ((b.parentUnit? u).map (b.compileUnit c m)) u = b.build c none u
          rw [hend, Option.map_none]
  | succ n ih =>
      obtain ⟨k, rfl⟩ : ∃ k, m = k + 1 := ⟨m - 1, by omega⟩
      rw [compileUnit, compileUnit]
      cases hp : b.parentUnit? u with
      | none => rfl
      | some p =>
          rw [Lineage.ascend_succ, lineage_parent?_of_get? hu, hp, Option.map_some,
            Option.bind_some] at hend
          rw [Option.map_some, Option.map_some, ih (hk.get?_parent hp) hend (by omega)]

/-- A compiled type is built from its compiled parent. -/
theorem compileUnit_eq_build (hk : b.Keyed) (ha : b.lineage.Acyclic) {name : String}
    {u : TypeUnit} (hu : b.types.get? name = some u) :
    b.compileUnit c b.types.size u =
      b.build c ((b.parentUnit? u).map (b.compileUnit c b.types.size)) u := by
  have hend := Lineage.ascend_length_eq_none hk.closed ha (mem_lineage_names_iff.mpr ⟨u, hu⟩)
  have hlen : b.lineage.names.length = b.types.size := SortedMap.length_keys b.types
  rw [hlen] at hend
  obtain ⟨n, hn⟩ : ∃ n, b.types.size = n + 1 := by
    cases hs : b.types.size with
    | zero => rw [hs] at hend; cases hend
    | succ n => exact ⟨n, rfl⟩
  -- the bound is one step more than the chain needs, so a further step changes nothing
  have hstable : ∀ m, n ≤ m → b.compileUnit c m u = b.compileUnit c n u := fun m =>
    compileUnit_stable hk hu (hn ▸ hend)
  calc b.compileUnit c b.types.size u
      = b.compileUnit c n u := hstable _ (by omega)
    _ = b.compileUnit c (b.types.size + 1) u := (hstable _ (by omega)).symm
    _ = _ := by rw [compileUnit]

theorem get?_compiled (name : String) :
    (b.compiled c).get? name = (b.types.get? name).map (b.compileUnit c b.types.size) := by
  rw [compiled, SortedMap.get?_mapValues]

/-- What a compiled type is: built from its unit alone if the batch has no parent for it, and from
its unit and its compiled parent otherwise. -/
theorem compiled_cases (hk : b.Keyed) (ha : b.lineage.Acyclic) {name : String} {t : CompiledType}
    (ht : (b.compiled c).get? name = some t) :
    ∃ u, b.types.get? name = some u ∧
      ((b.parentUnit? u = none ∧ t = b.build c none u) ∨
        ∃ p above, b.parentUnit? u = some p ∧ (b.compiled c).get? p.name = some above ∧
          t = b.build c (some above) u) := by
  rw [get?_compiled] at ht
  obtain ⟨u, hu, rfl⟩ := Option.map_eq_some_iff.mp ht
  refine ⟨u, hu, ?_⟩
  cases hp : b.parentUnit? u with
  | none =>
      refine Or.inl ⟨rfl, ?_⟩
      rw [compileUnit_eq_build hk ha hu, hp, Option.map_none]
  | some p =>
      refine Or.inr ⟨p, b.compileUnit c b.types.size p, rfl, ?_, ?_⟩
      · rw [get?_compiled, hk.get?_parent hp, Option.map_some]
      · rw [compileUnit_eq_build hk ha hu, hp, Option.map_some]

/-- Induction on the compiled types of a batch, parents before children. -/
theorem compiled_induction (hk : b.Keyed) (ha : b.lineage.Acyclic)
    {motive : String → CompiledType → Prop}
    (root : ∀ {name u}, b.types.get? name = some u → b.parentUnit? u = none →
      motive name (b.build c none u))
    (child : ∀ {name u p above}, b.types.get? name = some u → b.parentUnit? u = some p →
      (b.compiled c).get? p.name = some above → motive p.name above →
        motive name (b.build c (some above) u)) :
    ∀ {name t}, (b.compiled c).get? name = some t → motive name t := by
  -- a compiled type does not hold its parent, so the induction is on names
  have key : ∀ name ∈ b.lineage.names, ∀ t, (b.compiled c).get? name = some t →
      motive name t := by
    refine Lineage.Acyclic.induction hk.closed ha fun name _ ih t ht => ?_
    obtain ⟨u, hu, ⟨hp, rfl⟩ | ⟨p, above, hp, habove, rfl⟩⟩ := compiled_cases hk ha ht
    · exact root hu hp
    · refine child hu hp habove (ih p.name ?_ above habove)
      rw [lineage_parent?_of_get? hu, hp, Option.map_some]
  intro name t ht
  obtain ⟨u, hu, -⟩ := compiled_cases hk ha ht
  exact key name (mem_lineage_names_iff.mpr ⟨u, hu⟩) t ht

/-! ### The chain of a compiled type -/

@[simp] theorem build_name (parent : Option CompiledType) (u : TypeUnit) :
    (b.build c parent u).name = u.name := rfl

@[simp] theorem build_kind (parent : Option CompiledType) (u : TypeUnit) :
    (b.build c parent u).kind = u.kind := rfl

theorem compiled_name (hk : b.Keyed) (ha : b.lineage.Acyclic) {name : String} {t : CompiledType}
    (ht : (b.compiled c).get? name = some t) : t.name = name := by
  obtain ⟨u, hu, ⟨-, rfl⟩ | ⟨p, above, -, -, rfl⟩⟩ := compiled_cases hk ha ht
  · exact hk hu
  · exact hk hu

/-- A type and its ancestors are the names that its chain reaches. -/
theorem mem_chain_iff (hk : b.Keyed) (ha : b.lineage.Acyclic) {name : String} {t : CompiledType}
    (ht : (b.compiled c).get? name = some t) {x : String} :
    x ∈ t.name :: t.ancestors ↔ b.lineage.Reaches name x := by
  revert x
  refine compiled_induction hk ha (motive := fun name t =>
    ∀ {x}, x ∈ t.name :: t.ancestors ↔ b.lineage.Reaches name x) ?_ ?_ ht
  · intro name u hu hp x
    rw [Lineage.reaches_iff, lineage_parent?_of_get? hu, hp]
    simp [build, hk hu, eq_comm]
  · intro name u p above hu hp habove ih x
    have hchain : (b.build c (some above) u).ancestors = above.name :: above.ancestors := rfl
    rw [Lineage.reaches_iff, lineage_parent?_of_get? hu, hp, build_name, hchain, List.mem_cons,
      ih, hk hu]
    simp [eq_comm]

/-- No name occurs twice: a type is not reached from its parent. -/
theorem nodup_chain (hk : b.Keyed) (ha : b.lineage.Acyclic) {name : String} {t : CompiledType}
    (ht : (b.compiled c).get? name = some t) : (t.name :: t.ancestors).Nodup := by
  refine compiled_induction hk ha (motive := fun _ t => (t.name :: t.ancestors).Nodup) ?_ ?_ ht
  · intro name u hu hp
    exact List.nodup_singleton u.name
  · intro name u p above hu hp habove ih
    refine List.nodup_cons.mpr ⟨fun hmem => ?_, ih⟩
    -- a type that its parent reaches would lie on a closed chain
    obtain ⟨n, hn⟩ := (mem_chain_iff hk ha habove).mp hmem
    refine ha name ⟨n, ?_⟩
    rw [Lineage.ascend_succ, lineage_parent?_of_get? hu, hp, Option.map_some, Option.bind_some,
      hn, build_name, hk hu]

/-- The whole chain is made of compiled types of one kind. -/
theorem exists_of_mem_chain (hk : b.Keyed) (ha : b.lineage.Acyclic) {name : String}
    {t : CompiledType} (ht : (b.compiled c).get? name = some t) :
    ∀ x ∈ t.name :: t.ancestors, ∃ above, (b.compiled c).get? x = some above ∧
      above.kind = t.kind := by
  refine compiled_induction hk ha (motive := fun name t => (b.compiled c).get? name = some t →
    ∀ x ∈ t.name :: t.ancestors, ∃ above, (b.compiled c).get? x = some above ∧
      above.kind = t.kind) ?_ ?_ ht ht
  · intro name u hu hp hself x hx
    obtain rfl : x = u.name := List.mem_singleton.mp hx
    exact ⟨_, hk hu ▸ hself, rfl⟩
  · intro name u p above hu hp habove ih hself x hx
    rcases List.mem_cons.mp hx with rfl | hx
    · exact ⟨_, by rw [build_name, hk hu]; exact hself, rfl⟩
    · obtain ⟨-, -, -, hkind⟩ := parentUnit?_eq_some_iff.mp hp
      obtain ⟨higher, hhigher, hsame⟩ := ih habove x hx
      have hp' : above.kind = p.kind := by
        obtain ⟨q, hq, ⟨-, rfl⟩ | ⟨-, -, -, -, rfl⟩⟩ := compiled_cases hk ha habove
        · rw [build_kind, Option.some.inj (hq.symm.trans (hk.get?_parent hp))]
        · rw [build_kind, Option.some.inj (hq.symm.trans (hk.get?_parent hp))]
      exact ⟨higher, hhigher, by rw [hsame, hp', hkind, build_kind]⟩

/-! ### Merged properties -/

theorem nodup_property_names (hk : b.Keyed) (ha : b.lineage.Acyclic) {name : String}
    {t : CompiledType} (ht : (b.compiled c).get? name = some t) :
    (t.properties.map (·.name)).Nodup := by
  refine compiled_induction hk ha (motive := fun _ t => (t.properties.map (·.name)).Nodup)
    ?_ ?_ ht
  · intro name u _ _
    show ((mergeProperties [] u).map (·.name)).Nodup
    refine nodup_mergeProperties ?_ u
    exact List.nodup_nil
  · intro name u p above _ _ _ ih
    exact nodup_mergeProperties ih u

/-- A property can be looked up by its place: no two properties of a type have the same name, so
what the index says of a name is where the search finds it. -/
theorem property?_eq_of_index (hk : b.Keyed) (ha : b.lineage.Acyclic) {name : String}
    {t : CompiledType} (ht : (b.compiled c).get? name = some t) (property : String) :
    t.property? property =
      (t.propertyIndex.get? property).bind fun place => t.properties[place]? := by
  have hnames : ((t.properties.zipIdx.map fun entry => (entry.1.name, entry.2)).reverse.map
      Prod.fst).Nodup := by
    rw [List.map_reverse, List.nodup_reverse, List.map_map]
    have hfirst : t.properties.zipIdx.map (Prod.fst ∘ fun entry => (entry.1.name, entry.2)) =
        t.properties.map (·.name) := by
      conv_rhs => rw [← List.zipIdx_map_fst 0 t.properties, List.map_map]
      rfl
    rw [hfirst]
    exact nodup_property_names hk ha ht
  have hplace {place : Nat} : t.propertyIndex.get? property = some place ↔
      ∃ p, t.properties[place]? = some p ∧ p.name = property := by
    rw [CompiledType.propertyIndex, SortedMap.get?_ofList, Option.map_eq_some_iff]
    simp only [find?_eq_some_iff_of_nodup hnames, List.mem_reverse, List.mem_map]
    constructor
    · rintro ⟨_, ⟨⟨⟨p, place⟩, hentry, rfl⟩, hname⟩, rfl⟩
      exact ⟨p, List.mem_zipIdx_iff_getElem?.mp hentry, hname⟩
    · rintro ⟨p, hp, hname⟩
      exact ⟨_, ⟨⟨(p, place), List.mem_zipIdx_iff_getElem?.mpr hp, rfl⟩, hname⟩, rfl⟩
  refine Option.ext fun p => ?_
  rw [CompiledType.property?, find?_eq_some_iff_of_nodup (nodup_property_names hk ha ht),
    Option.bind_eq_some_iff]
  simp only [hplace]
  constructor
  · rintro ⟨hmem, hname⟩
    obtain ⟨place, hp⟩ := List.mem_iff_getElem?.mp hmem
    exact ⟨place, ⟨p, hp, hname⟩, hp⟩
  · rintro ⟨place, ⟨q, hq, hname⟩, hp⟩
    obtain rfl := Option.some.inj (hq.symm.trans hp)
    exact ⟨List.mem_of_getElem? hp, hname⟩

/-- The declaration of a name that no two fields have. -/
theorem declaration?_eq_some_iff {u : TypeUnit} (hn : (u.fields.map (·.name)).Nodup)
    {name : String} {p : Property} :
    declaration? u name = some p ↔ ∃ f ∈ u.fields, f.name = name ∧ propertyOf u f = p := by
  have hreversed : (u.fields.reverse.map (·.name)).Nodup := by
    rw [List.map_reverse]
    exact List.nodup_reverse.mpr hn
  simp only [declaration?, Option.map_eq_some_iff, find?_eq_some_iff_of_nodup hreversed,
    List.mem_reverse, and_assoc]

/-- A type has its own declaration of a property, or else the inherited one. -/
theorem property?_build (parent : Option CompiledType) (u : TypeUnit) (property : String) :
    (b.build c parent u).property? property =
      (declaration? u property).or (parent.bind (·.property? property)) := by
  cases parent with
  | none => exact find?_mergeProperties [] u property
  | some above => exact find?_mergeProperties above.properties u property

/-- The declaration of a property by one type of the batch. -/
def declaredBy? (b : Batch) (name property : String) : Option Property :=
  (b.types.get? name).bind (declaration? · property)

/-- Of the declarations of a property on the chain of a type the nearest counts. -/
theorem property?_eq_findSome? (hk : b.Keyed) (ha : b.lineage.Acyclic) {name : String}
    {t : CompiledType} (ht : (b.compiled c).get? name = some t) (property : String) :
    t.property? property =
      (t.name :: t.ancestors).findSome? (fun x => b.declaredBy? x property) := by
  refine compiled_induction hk ha (motive := fun _ t => t.property? property =
    (t.name :: t.ancestors).findSome? (fun x => b.declaredBy? x property)) ?_ ?_ ht
  · intro name u hu _
    have hself : b.declaredBy? u.name property = declaration? u property := by
      rw [declaredBy?, hk hu, hu, Option.bind_some]
    rw [property?_build, build_name, List.findSome?_cons, hself]
    cases declaration? u property <;> rfl
  · intro name u p above hu _ _ ih
    have hself : b.declaredBy? u.name property = declaration? u property := by
      rw [declaredBy?, hk hu, hu, Option.bind_some]
    have hchain : (b.build c (some above) u).ancestors = above.name :: above.ancestors := rfl
    -- the own declaration is both the last one merged and the first one on the chain
    rw [property?_build, Option.bind_some, ih, build_name, hchain,
      List.findSome?_cons (a := u.name), hself]
    cases declaration? u property <;> rfl

/-- A type has the properties that are declared on its chain. -/
theorem property?_isSome_iff (hk : b.Keyed) (ha : b.lineage.Acyclic) {name : String}
    {t : CompiledType} (ht : (b.compiled c).get? name = some t) {property : String} :
    (t.property? property).isSome = true ↔
      ∃ x ∈ t.name :: t.ancestors, ∃ u, b.types.get? x = some u ∧
        ∃ f ∈ u.fields, f.name = property := by
  rw [property?_eq_findSome? hk ha ht, List.findSome?_isSome_iff]
  refine exists_congr fun x => and_congr_right fun _ => ?_
  rw [declaredBy?]
  cases b.types.get? x with
  | none => simp
  | some u => simp [declaration?_isSome_iff]

theorem mem_property_names_iff (hk : b.Keyed) (ha : b.lineage.Acyclic) {name : String}
    {t : CompiledType} (ht : (b.compiled c).get? name = some t) {property : String} :
    property ∈ t.properties.map (·.name) ↔
      ∃ x u, b.lineage.Reaches name x ∧ b.types.get? x = some u ∧
        ∃ f ∈ u.fields, f.name = property := by
  rw [← CompiledType.property?_isSome_iff_mem, property?_isSome_iff hk ha ht]
  simp only [mem_chain_iff hk ha ht, exists_and_left]

/-! ### Opting out of indexing -/

/-- A type opts out of indexing if a type of its chain does. -/
theorem nonIndexed_iff (hk : b.Keyed) (ha : b.lineage.Acyclic) {name : String}
    {t : CompiledType} (ht : (b.compiled c).get? name = some t) :
    t.nonIndexed = true ↔
      ∃ x ∈ t.name :: t.ancestors, ∃ u, b.types.get? x = some u ∧ u.nonIndexed = true := by
  refine compiled_induction hk ha (motive := fun _ t => t.nonIndexed = true ↔
    ∃ x ∈ t.name :: t.ancestors, ∃ u, b.types.get? x = some u ∧ u.nonIndexed = true) ?_ ?_ ht
  · intro name u hu _
    have hname := hk hu
    subst hname
    simp [build, hu]
  · intro name u p above hu _ _ ih
    have hname := hk hu
    subst hname
    have hflag : (b.build c (some above) u).nonIndexed = (u.nonIndexed || above.nonIndexed) := rfl
    have hchain : (b.build c (some above) u).ancestors = above.name :: above.ancestors := rfl
    rw [hflag, Bool.or_eq_true, ih, build_name, hchain]
    simp only [List.mem_cons (a := _) (b := u.name), or_and_right, exists_or, exists_eq_left, hu,
      Option.some.injEq, exists_eq_left']

/-! ### What a compilation comes to -/

/-- The views of every type are looked through. -/
theorem mem_viewErrors_iff {error : CompileError} :
    error ∈ b.viewErrors (b.compiled c) ↔
      ∃ name u t, b.types.get? name = some u ∧ (b.compiled c).get? name = some t ∧
        error ∈ unknownInViews t.properties u := by
  rw [viewErrors, List.mem_flatMap]
  constructor
  · rintro ⟨name, -, herror⟩
    split at herror
    next u t hu ht => exact ⟨name, u, t, hu, ht, herror⟩
    next => cases herror
  · rintro ⟨name, u, t, hu, ht, herror⟩
    refine ⟨name, Lineage.mem_buildOrder_iff.mpr (mem_lineage_names_iff.mpr ⟨u, hu⟩), ?_⟩
    rwa [hu, ht]

/-- No view lists an unknown property. -/
theorem viewErrors_eq_nil_iff :
    b.viewErrors (b.compiled c) = [] ↔
      ∀ {name u t}, b.types.get? name = some u → (b.compiled c).get? name = some t →
        unknownInViews t.properties u = [] := by
  simp only [List.eq_nil_iff_forall_not_mem, mem_viewErrors_iff]
  constructor
  · exact fun h name u t hu ht error herror => h error ⟨name, u, t, hu, ht, herror⟩
  · rintro h error ⟨name, u, t, hu, ht, herror⟩
    exact h hu ht error herror

end Batch

/-- A batch is accepted when nothing is left out, nothing is wrong with its structure, and no view
lists an unknown property; the result is what was built. -/
theorem Compiler.compile_eq_ok_iff {c : Compiler} {units : List SourceUnit}
    {types : SortedMap String CompiledType} :
    c.compile units = .ok types ↔
      (Batch.ofUnits units).2 = [] ∧ (Batch.ofUnits units).1.structureErrors c = [] ∧
        (Batch.ofUnits units).1.viewErrors ((Batch.ofUnits units).1.compiled c) = [] ∧
          types = (Batch.ofUnits units).1.compiled c := by
  rw [compile, ← and_assoc, ← List.append_eq_nil_iff]
  dsimp only
  split
  next hstructure =>
    split
    next hviews =>
      simp only [hstructure, hviews, true_and, Except.ok.injEq]
      exact eq_comm
    next hviews => exact ⟨nofun, fun h => absurd h.2.1 hviews⟩
  next hstructure => exact ⟨nofun, fun h => absurd h.1 hstructure⟩

/-- A batch is rejected with what is found before anything is built or, if that is nothing, with the
unknown properties that views list. -/
theorem Compiler.compile_eq_error_iff {c : Compiler} {units : List SourceUnit}
    {errors : List CompileError} :
    c.compile units = .error errors ↔ errors ≠ [] ∧
      ((Batch.ofUnits units).2 ++ (Batch.ofUnits units).1.structureErrors c = errors ∨
        ((Batch.ofUnits units).2 ++ (Batch.ofUnits units).1.structureErrors c = [] ∧
          (Batch.ofUnits units).1.viewErrors ((Batch.ofUnits units).1.compiled c) = errors)) := by
  rw [compile]
  dsimp only
  split
  next hfound =>
    rw [hfound]
    split
    next hviews =>
      rw [hviews]
      refine iff_of_false nofun ?_
      rintro ⟨hne, rfl | ⟨-, rfl⟩⟩
      · exact hne rfl
      · exact hne rfl
    next hviews =>
      rw [Except.error.injEq]
      constructor
      · rintro rfl
        exact ⟨hviews, .inr ⟨rfl, rfl⟩⟩
      · rintro ⟨hne, rfl | ⟨-, h⟩⟩
        · exact absurd rfl hne
        · exact h
  next hfound =>
    rw [Except.error.injEq]
    constructor
    · rintro rfl
      exact ⟨hfound, .inl rfl⟩
    · rintro ⟨-, h | ⟨h, -⟩⟩
      · exact h
      · exact absurd h hfound

end LiveSchema
