import LiveSchema.Proofs.Compile.Links
import LiveSchema.Proofs.Generation
import LiveSchema.Proofs.Registry.Memoization

/-!
# LiveSchema.Proofs.Registry.Subtyping

What the lookups of a registry mean. A registry answers as its current generation does, whatever was
asked before (`Agrees.isSubtype_eq`), and the generation answers by what its types extend. That is
what the links between names reach, so both lookups come down to links:

* `isSubtype_iff_below`, `mem_relationshipsBetween_iff` — one type is a subtype of what is above its
  name, and a relationship type can connect what its declared ends are above of;
* `subtypes_are_ordered` — subtypes are the order that the `extends` of the definitions make;
* `relationships_follow_subtypes` — what can be connected to a type can be connected to its
  subtypes.

A name that is no type of the generation may still be an end of a relationship type. It has no
links, so nothing but itself is above it, and this is how the lookup of relationship types takes it.
That is why the order reaches across the border between types and bases.
-/

namespace LiveSchema

/-- The definition of a name extends another name. -/
def Definition.Link (ds : List Definition) (name above : String) : Prop :=
  ∃ d ∈ ds, d.name = name ∧ d.parent = some above

/-- The links of units are those of the definitions that they come from. -/
theorem link_of_emitAll {ds : List Definition} {units : List SourceUnit}
    (h : emitAll ds = .ok units) : SourceUnit.Link units = Definition.Link ds := by
  funext name above
  rw [SourceUnit.Link, types_of_emitAll h]
  simp [Definition.Link, Emission.typeUnit]

namespace Generation

variable {c : Compiler} {units : List SourceUnit} {g : Generation}

theorem isSubtype_iff_below (h : c.compile units = .ok g.types) {child ancestor : String} :
    g.isSubtype child ancestor = true ↔
      g.contains child = true ∧ SourceUnit.Below units child ancestor := by
  unfold isSubtype contains type? SortedMap.contains
  cases ht : g.types.get? child with
  | none => simp
  | some t => simp [Compiler.extends?_iff_below h ht]

/-- A name fits an end that is above it. A name that is no type is below itself alone. -/
theorem fitsEndpoint_iff_below (h : c.compile units = .ok g.types) {node endpoint : String} :
    g.fitsEndpoint node endpoint = true ↔ SourceUnit.Below units node endpoint := by
  unfold fitsEndpoint type?
  cases ht : g.types.get? node with
  | none =>
      have hfree : ∀ u ∈ SourceUnit.types units, u.name ≠ node := by
        intro u hu hname
        obtain ⟨t, hget⟩ := SortedMap.contains_iff.mp
          ((Compiler.contains_iff_of_compile h).mpr ⟨u, hu, hname⟩)
        rw [ht] at hget
        cases hget
      rw [decide_eq_true_iff]
      exact ⟨fun heq => heq ▸ SourceUnit.Below.refl node, SourceUnit.eq_of_below_of_free hfree⟩
  | some t => exact Compiler.extends?_iff_below h ht

/-- The relationship types of a generation are the compiled relationship units. -/
theorem mem_ofKind_iff (h : c.compile units = .ok g.types) {kind : Kind} {t : CompiledType} :
    t ∈ g.ofKind kind ↔
      ∃ u ∈ SourceUnit.types units, u.kind = kind ∧ g.type? u.name = some t := by
  rw [ofKind, List.mem_filter, SortedMap.mem_values_iff, decide_eq_true_iff]
  constructor
  · intro hmem
    obtain ⟨⟨name, ht⟩, hkind⟩ := hmem
    obtain ⟨u, hu, rfl, hbuild⟩ := Compiler.eq_build_of_compile h ht
    exact ⟨u, hu, by rw [← hkind, hbuild, Batch.build_kind], ht⟩
  · intro hmem
    obtain ⟨u, hu, rfl, ht⟩ := hmem
    exact ⟨⟨_, ht⟩, by rw [Compiler.eq_build_of_mem h hu ht, Batch.build_kind]⟩

/-- The lookup of relationship types goes by the ends that their units declare. -/
theorem mem_relationshipsBetween_iff (h : c.compile units = .ok g.types) {source target : String}
    {t : CompiledType} :
    t ∈ g.relationshipsBetween source target ↔
      ∃ u ∈ SourceUnit.types units, u.kind = .relationship ∧ g.type? u.name = some t ∧
        ∃ e, u.endpoints = some e ∧ SourceUnit.Below units source e.source ∧
          SourceUnit.Below units target e.target := by
  have hends : ∀ u ∈ SourceUnit.types units, g.type? u.name = some t →
      t.endpoints = u.endpoints := by
    intro u hu ht
    rw [Compiler.eq_build_of_mem h hu ht]
    rfl
  rw [relationshipsBetween, List.mem_filter, mem_ofKind_iff h]
  constructor
  · intro hmem
    obtain ⟨⟨u, hu, hkind, ht⟩, hfits⟩ := hmem
    rw [hends u hu ht] at hfits
    cases he : u.endpoints with
    | none => simp [he] at hfits
    | some e =>
        rw [he, Bool.and_eq_true, fitsEndpoint_iff_below h, fitsEndpoint_iff_below h] at hfits
        exact ⟨u, hu, hkind, ht, e, he, hfits⟩
  · intro hmem
    obtain ⟨u, hu, hkind, ht, e, he, hfits⟩ := hmem
    refine ⟨⟨u, hu, hkind, ht⟩, ?_⟩
    rw [hends u hu ht, he, Bool.and_eq_true, fitsEndpoint_iff_below h, fitsEndpoint_iff_below h]
    exact hfits

/-- Relationship types are listed in the order of their names. -/
theorem sorted_relationshipsBetween (h : c.compile units = .ok g.types) (source target : String) :
    ((g.relationshipsBetween source target).map (·.name)).Pairwise (· < ·) := by
  have hnames : g.types.values.map (·.name) = g.types.keys := by
    refine (SortedMap.keys_eq_map fun {name t} ht => ?_).symm
    obtain ⟨u, -, hname, hbuild⟩ := Compiler.eq_build_of_compile h ht
    rw [hbuild, Batch.build_name, hname]
  have hsorted : (g.types.values.map (·.name)).Pairwise (· < ·) :=
    hnames ▸ SortedMap.keys_sorted g.types
  exact hsorted.sublist ((List.filter_sublist.trans List.filter_sublist).map _)

end Generation

namespace Registry

/-- The registry says that one type is another or extends it. -/
def IsSubtype (r : Registry) (child ancestor : String) : Prop :=
  (r.isSubtype child ancestor).1 = true

/-- The subtypes of a registry are the order that the links of some definitions make on its
types. -/
structure OrdersByLinks (r : Registry) (c : Compiler) (ds : List Definition) : Prop where
  /-- The types are what is defined. -/
  contains_iff : ∀ x, r.current.contains x = true ↔ ∃ d ∈ ds, d.name = x
  isSubtype_iff : ∀ x y, r.IsSubtype x y ↔
    r.current.contains x = true ∧ Relation.ReflTransGen (Definition.Link ds) x y
  refl : ∀ x, r.current.contains x = true → r.IsSubtype x x
  trans : ∀ x y z, r.IsSubtype x y → r.IsSubtype y z → r.IsSubtype x z
  antisymm : ∀ x y, r.IsSubtype x y → r.IsSubtype y x → x = y
  /-- Of two names above a type one is above the other. The one exception is the base at the end,
  which is no type and so is not called a subtype of itself. -/
  total : ∀ x y z, r.IsSubtype x y → r.IsSubtype x z →
    r.IsSubtype y z ∨ r.IsSubtype z y ∨ (y = z ∧ r.current.contains y = false)
  /-- What is above a type and is no type is a base. -/
  base : ∀ x y, r.IsSubtype x y → r.current.contains y = false → ∃ kind, c.baseKind? y = some kind

/-- The lookup of relationship types goes by their declared ends, and follows subtypes. -/
structure RelatesByLinks (r : Registry) (units : List SourceUnit) : Prop where
  mem_iff : ∀ source target rel, rel ∈ (r.relationshipsBetween source target).1 ↔
    ∃ u ∈ SourceUnit.types units, u.kind = .relationship ∧ r.current.type? u.name = some rel ∧
      ∃ e, u.endpoints = some e ∧ SourceUnit.Below units source e.source ∧
        SourceUnit.Below units target e.target
  /-- In the order of names, each once. -/
  sorted : ∀ source target,
    ((r.relationshipsBetween source target).1.map (·.name)).Pairwise (· < ·)
  /-- A subtype can stand where its supertype can, also where that is a base. -/
  source_mono : ∀ x y target, r.IsSubtype x y →
    ∀ rel ∈ (r.relationshipsBetween y target).1, rel ∈ (r.relationshipsBetween x target).1
  target_mono : ∀ x y source, r.IsSubtype x y →
    ∀ rel ∈ (r.relationshipsBetween source y).1, rel ∈ (r.relationshipsBetween source x).1

section Agreement

variable {c : Compiler} {units : List SourceUnit} {r : Registry} {h : History}

theorem Agrees.isSubtype_iff (hr : r.Agrees h) (hc : c.compile units = .ok r.current.types)
    {x y : String} :
    r.IsSubtype x y ↔ r.current.contains x = true ∧ SourceUnit.Below units x y := by
  rw [IsSubtype, hr.isSubtype_eq, Generation.isSubtype_iff_below hc]

/-- Of two names that are linked one is a subtype of the other, unless they are one base. -/
theorem Agrees.isSubtype_of_below (hr : r.Agrees h) (hc : c.compile units = .ok r.current.types)
    {x y : String} (hxy : SourceUnit.Below units x y) :
    r.IsSubtype x y ∨ (x = y ∧ r.current.contains x = false) := by
  cases hx : r.current.contains x with
  | true => exact .inl ((hr.isSubtype_iff hc).mpr ⟨hx, hxy⟩)
  | false =>
      refine .inr ⟨SourceUnit.eq_of_below_of_free (fun u hu hname => ?_) hxy, rfl⟩
      rw [Generation.contains, (Compiler.contains_iff_of_compile hc).mpr ⟨u, hu, hname⟩] at hx
      cases hx

end Agreement

/-- **The subtypes of a registry are the order that `extends` makes**, whatever was asked of the
registry before. -/
theorem subtypes_are_ordered {c : Compiler} {ds : List Definition} {requests : List Request}
    (h : c.compileDefinitions ds = .ok (run {} requests).2.current.types) :
    (run {} requests).2.OrdersByLinks c ds := by
  obtain ⟨units, hemit, hc⟩ := Compiler.compileDefinitions_eq_ok_iff.mp h
  have hr := (agrees_new.run requests).2
  have hw := Compiler.wellFormed_of_compile hc
  have hiff : ∀ x y, (run {} requests).2.IsSubtype x y ↔
      (run {} requests).2.current.contains x = true ∧ SourceUnit.Below units x y :=
    fun x y => hr.isSubtype_iff hc
  exact
    { contains_iff := fun x => by
        rw [Generation.contains, Compiler.contains_iff_of_compile hc, types_of_emitAll hemit]
        simp [Emission.typeUnit]
      isSubtype_iff := fun x y => by rw [hiff, SourceUnit.Below, link_of_emitAll hemit]
      refl := fun x hx => (hiff x x).mpr ⟨hx, .refl x⟩
      trans := fun x y z hxy hyz => by
        rw [hiff] at hxy hyz ⊢
        exact ⟨hxy.1, hxy.2.trans hyz.2⟩
      antisymm := fun x y hxy hyx => by
        rw [hiff] at hxy hyx
        exact SourceUnit.eq_of_below_of_below hw.names hw.acyclic hxy.2 hyx.2
      total := fun x y z hxy hxz => by
        rw [hiff] at hxy hxz
        cases SourceUnit.below_total hw.names hxy.2 hxz.2 with
        | inl hyz => exact (hr.isSubtype_of_below hc hyz).imp_right .inr
        | inr hzy =>
            refine .inr ((hr.isSubtype_of_below hc hzy).imp_right fun hbase => ?_)
            exact ⟨hbase.1.symm, hbase.1 ▸ hbase.2⟩
      base := fun x y hxy hout => by
        rw [hiff] at hxy
        exact Compiler.exists_base_of_below hc hxy.2 hxy.1 hout }

/-- Three node types in a chain, the topmost one named like a base, and two relationship types. -/
def shelf : List Definition :=
  [(Definition.node "AbstractNode").extending "NodeInterface",
    (Definition.node "Image").extending "File",
    (Definition.node "File").extending "AbstractNode",
    .relationship "Contains" ⟨"AbstractNode", "File", "CONTAINS"⟩,
    .relationship "Seen" ⟨"NodeInterface", "NodeInterface", "SEEN"⟩]

/-- The shelf becomes current between questions. -/
def shelfRequests : List Request :=
  [.isSubtype "Image" "File",
    .commit ⟨1, (({} : Compiler).compileDefinitions shelf).toOption.getD .empty, .empty, shelf⟩,
    .isSubtype "File" "Image", .relationshipsBetween "Image" "File", .invalidateCaches]

theorem subtypes_are_ordered_shelf :
    ({} : Compiler).compileDefinitions shelf = .ok (run {} shelfRequests).2.current.types ∧
      (run {} shelfRequests).2.OrdersByLinks {} shelf ∧
      (run {} shelfRequests).2.IsSubtype "Image" "NodeInterface" ∧
      ¬ (run {} shelfRequests).2.IsSubtype "File" "Image" := by
  have h : ({} : Compiler).compileDefinitions shelf =
      .ok (run {} shelfRequests).2.current.types := by
    rfl
  exact ⟨h, subtypes_are_ordered h, by unfold IsSubtype; decide, by unfold IsSubtype; decide⟩

/-- **What can be connected to a type can be connected to its subtypes**, and the lookup lists
exactly the relationship types whose ends allow it. -/
theorem relationships_follow_subtypes {c : Compiler} {units : List SourceUnit}
    {requests : List Request} (h : c.compile units = .ok (run {} requests).2.current.types) :
    (run {} requests).2.RelatesByLinks units := by
  have hr := (agrees_new.run requests).2
  have hmem : ∀ source target rel,
      rel ∈ ((run {} requests).2.relationshipsBetween source target).1 ↔
        ∃ u ∈ SourceUnit.types units, u.kind = .relationship ∧
          (run {} requests).2.current.type? u.name = some rel ∧
            ∃ e, u.endpoints = some e ∧ SourceUnit.Below units source e.source ∧
              SourceUnit.Below units target e.target := by
    intro source target rel
    rw [hr.relationshipsBetween_eq, Generation.mem_relationshipsBetween_iff h]
  exact
    { mem_iff := hmem
      sorted := fun source target => by
        rw [hr.relationshipsBetween_eq]
        exact Generation.sorted_relationshipsBetween h source target
      source_mono := fun x y target hxy rel hrel => by
        have hbelow := ((hr.isSubtype_iff h).mp hxy).2
        rw [hmem] at hrel ⊢
        obtain ⟨u, hu, hkind, ht, e, he, hsource, htarget⟩ := hrel
        exact ⟨u, hu, hkind, ht, e, he, hbelow.trans hsource, htarget⟩
      target_mono := fun x y source hxy rel hrel => by
        have hbelow := ((hr.isSubtype_iff h).mp hxy).2
        rw [hmem] at hrel ⊢
        obtain ⟨u, hu, hkind, ht, e, he, hsource, htarget⟩ := hrel
        exact ⟨u, hu, hkind, ht, e, he, hsource, hbelow.trans htarget⟩ }

/-- The lookup reaches an image also by what is declared for files and for the base. -/
theorem relationships_follow_subtypes_shelf :
    ∃ units, ({} : Compiler).compile units = .ok (run {} shelfRequests).2.current.types ∧
      (run {} shelfRequests).2.RelatesByLinks units ∧
      ((run {} shelfRequests).2.relationshipsBetween "Image" "Image").1.map (·.name) =
        ["Contains", "Seen"] ∧
      ((run {} shelfRequests).2.relationshipsBetween "NodeInterface" "File").1.map (·.name) =
        ["Seen"] := by
  obtain ⟨units, -, h⟩ := Compiler.compileDefinitions_eq_ok_iff.mp
    (show ({} : Compiler).compileDefinitions shelf =
      .ok (run {} shelfRequests).2.current.types from rfl)
  exact ⟨units, h, relationships_follow_subtypes h, by decide, by decide⟩

end Registry

end LiveSchema
