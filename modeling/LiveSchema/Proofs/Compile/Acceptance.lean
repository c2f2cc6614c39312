import LiveSchema.Proofs.Compile.Building
import Mathlib.Logic.Relation

/-!
# LiveSchema.Proofs.Compile.Acceptance

Which batches are accepted. `Compiler.WellFormed` says it of the units alone, without the maps, the
stages of errors and the build order of the compiler:

* names and owners are pairwise distinct, and helper code belongs to a type of the batch;
* what a type extends, refers to or connects is there and of the right kind, where a type of the
  batch hides a base of its name;
* no type is above itself, and a view lists what the type or a type above it declares.

`compile_ok_iff_wellFormed` is the theorem. The extends relation of the units (`Extends`) is the
lineage of the batch where every parent fits (`Resolved`), which both directions have at hand: the
checks of an accepted batch say so, and so does well-formedness.
-/

namespace LiveSchema

/-- A type unit extends another one of the same batch. -/
def SourceUnit.Extends (units : List SourceUnit) (child parent : TypeUnit) : Prop :=
  child ∈ types units ∧ parent ∈ types units ∧ child.parent = some parent.name

/-- A type unit extends another one of its kind; the batch follows no other links. -/
def SourceUnit.Continues (units : List SourceUnit) (child parent : TypeUnit) : Prop :=
  Extends units child parent ∧ parent.kind = child.kind

open SourceUnit

namespace Compiler

/-- A name is that of a node type of the batch, or of a node base that no type of the batch
hides. -/
def IsNodeType (c : Compiler) (units : List SourceUnit) (name : String) : Prop :=
  (∃ u ∈ types units, u.name = name ∧ u.kind = .node) ∨
    ((∀ u ∈ types units, u.name ≠ name) ∧ c.baseKind? name = some .node)

/-- A type extends nothing, a type of the batch or, where there is none of the name, a base; either
is of its own kind. -/
def ParentFits (c : Compiler) (units : List SourceUnit) (u : TypeUnit) : Prop :=
  ∀ name, u.parent = some name →
    (∃ p ∈ types units, p.name = name ∧ p.kind = u.kind) ∨
      ((∀ p ∈ types units, p.name ≠ name) ∧ c.baseKind? name = some u.kind)

/-- A batch that makes sense as a whole. -/
structure WellFormed (c : Compiler) (units : List SourceUnit) : Prop where
  names : ((types units).map (·.name)).Nodup
  owners : ((helpers units).map HelperUnit.key).Nodup
  /-- Helper code belongs to a type of the batch. -/
  owned : ∀ h ∈ helpers units, ∃ u ∈ types units, h.key = (u.kind, u.name)
  parents : ∀ u ∈ types units, c.ParentFits units u
  /-- No type is above itself. -/
  acyclic : ∀ u, ¬ Relation.TransGen (Extends units) u u
  /-- Properties refer to node types, inside any number of collections. -/
  references : ∀ u ∈ types units, ∀ f ∈ u.fields, ∀ layers target,
    f.type = PropertyType.wrap layers (.reference target) → c.IsNodeType units target
  endpoints : ∀ u ∈ types units, ∀ e, u.endpoints = some e →
    c.IsNodeType units e.source ∧ c.IsNodeType units e.target
  /-- A view lists system properties and what is declared by the type or above it. -/
  views : ∀ u ∈ types units, ∀ v ∈ u.views, ∀ p ∈ v.properties,
    isSystemProperty p = true ∨
      ∃ above, Relation.ReflTransGen (Extends units) u above ∧ ∃ f ∈ above.fields, f.name = p

/-- A batch whose types can be built: it makes sense but for its views. -/
structure Fits (c : Compiler) (units : List SourceUnit) : Prop where
  names : ((types units).map (·.name)).Nodup
  owners : ((helpers units).map HelperUnit.key).Nodup
  owned : ∀ h ∈ helpers units, ∃ u ∈ types units, h.key = (u.kind, u.name)
  parents : ∀ u ∈ types units, c.ParentFits units u
  acyclic : ∀ u, ¬ Relation.TransGen (Extends units) u u
  references : ∀ u ∈ types units, ∀ f ∈ u.fields, ∀ layers target,
    f.type = PropertyType.wrap layers (.reference target) → c.IsNodeType units target
  endpoints : ∀ u ∈ types units, ∀ e, u.endpoints = some e →
    c.IsNodeType units e.source ∧ c.IsNodeType units e.target

theorem WellFormed.fits {c : Compiler} {units : List SourceUnit} (h : c.WellFormed units) :
    c.Fits units :=
  { h with }

/-- Of the compiler only the added bases count. -/
theorem WellFormed.congr {c c' : Compiler} (hbases : c'.addedBases = c.addedBases)
    {units : List SourceUnit} (h : c.WellFormed units) : c'.WellFormed units := by
  obtain ⟨namespaceName, addedBases⟩ := c
  obtain ⟨namespaceName', addedBases'⟩ := c'
  obtain rfl : addedBases' = addedBases := hbases
  exact { h with }

end Compiler

namespace PropertyType

theorem referenced?_eq_some_iff {t : PropertyType} {target : String} :
    t.referenced? = some target ↔ ∃ layers, t = wrap layers (.reference target) := by
  constructor
  · intro h
    refine ⟨t.layers, ?_⟩
    rw [← wrap_layers_inner t, referenced?_wrap] at h
    have hinner : t.inner = .reference target := by
      induction t with
      | reference other => simpa [inner, referenced?] using h
      | collection items ih => exact ih h
      | _ => cases h
    rw [← hinner, wrap_layers_inner]
  · rintro ⟨layers, rfl⟩
    rw [referenced?_wrap, referenced?]

end PropertyType

namespace SourceUnit

variable {units : List SourceUnit} {c : Compiler}

/-! ### The lineage of the units -/

/-- A chain of units stays in the batch. -/
theorem mem_of_chain {u a : TypeUnit} (hu : u ∈ types units)
    (h : Relation.ReflTransGen (Extends units) u a) : a ∈ types units := by
  rcases Relation.ReflTransGen.cases_tail h with rfl | ⟨b, -, hlast⟩
  · exact hu
  · exact hlast.2.1

theorem mem_of_continues {u a : TypeUnit} (hu : u ∈ types units)
    (h : Relation.ReflTransGen (Continues units) u a) : a ∈ types units :=
  mem_of_chain hu (Relation.ReflTransGen.mono (fun _ _ (h : Continues units _ _) => h.1) _ _ h)

theorem mem_of_onCycle {u : TypeUnit} (h : Relation.TransGen (Continues units) u u) :
    u ∈ types units := by
  obtain ⟨p, hp, -⟩ := Relation.TransGen.head'_iff.mp h
  exact hp.1.1

section Names

variable (hn : ((types units).map (·.name)).Nodup)

include hn

/-- The batch follows a unit to the one of its kind that it extends. -/
theorem parentUnit?_ofUnits_iff {u p : TypeUnit} (hu : u ∈ types units) :
    (Batch.ofUnits units).1.parentUnit? u = some p ↔ Continues units u p := by
  rw [Batch.parentUnit?_eq_some_iff]
  constructor
  · rintro ⟨name, hname, hp, hkind⟩
    obtain ⟨hmem, rfl⟩ := (Batch.get?_types_eq_some_iff hn).mp hp
    exact ⟨⟨hu, hmem, hname⟩, hkind⟩
  · rintro ⟨⟨-, hmem, hname⟩, hkind⟩
    exact ⟨p.name, hname, (Batch.get?_types_eq_some_iff hn).mpr ⟨hmem, rfl⟩, hkind⟩

theorem lineage_parent?_ofUnits_iff {u : TypeUnit} (hu : u ∈ types units) {above : String} :
    (Batch.ofUnits units).1.lineage.parent? u.name = some above ↔
      ∃ p, Continues units u p ∧ p.name = above := by
  have hget := (Batch.get?_types_eq_some_iff hn).mpr ⟨hu, rfl⟩
  rw [Batch.lineage_parent?_of_get? hget, Option.map_eq_some_iff]
  exact exists_congr fun p => and_congr_left fun _ => parentUnit?_ofUnits_iff hn hu

/-- What a chain of the batch reaches is what a chain of units of one kind reaches. -/
theorem reaches_ofUnits_iff {u : TypeUnit} (hu : u ∈ types units) {above : String} :
    (Batch.ofUnits units).1.lineage.Reaches u.name above ↔
      ∃ a, Relation.ReflTransGen (Continues units) u a ∧ a.name = above := by
  constructor
  · rintro ⟨n, hreach⟩
    induction n generalizing u with
    | zero => exact ⟨u, .refl, Option.some.inj hreach⟩
    | succ n ih =>
        obtain ⟨name, hname, hrest⟩ := Option.bind_eq_some_iff.mp hreach
        obtain ⟨p, hp, rfl⟩ := (lineage_parent?_ofUnits_iff hn hu).mp hname
        obtain ⟨a, ha, rfl⟩ := ih hp.1.2.1 hrest
        exact ⟨a, .head hp ha, rfl⟩
  · rintro ⟨a, ha, rfl⟩
    induction ha using Relation.ReflTransGen.head_induction_on with
    | refl => exact .refl a.name
    | head hstep _ ih =>
        have hparent := (lineage_parent?_ofUnits_iff hn hstep.1.1).mpr ⟨_, hstep, rfl⟩
        exact (Lineage.Reaches.of_parent hparent).trans (ih hstep.1.2.1)

/-- A chain of the batch is closed where a chain of units of one kind comes back. -/
theorem onCycle_ofUnits_iff {u : TypeUnit} (hu : u ∈ types units) :
    (Batch.ofUnits units).1.lineage.OnCycle u.name ↔
      Relation.TransGen (Continues units) u u := by
  rw [Relation.TransGen.head'_iff]
  constructor
  · rintro ⟨n, hround⟩
    obtain ⟨above, habove, hrest⟩ := Option.bind_eq_some_iff.mp hround
    obtain ⟨p, hp, rfl⟩ := (lineage_parent?_ofUnits_iff hn hu).mp habove
    obtain ⟨a, hback, hname⟩ := (reaches_ofUnits_iff hn hp.1.2.1).mp ⟨n, hrest⟩
    obtain rfl := List.inj_on_of_nodup_map hn (mem_of_continues hp.1.2.1 hback) hu hname
    exact ⟨p, hp, hback⟩
  · rintro ⟨p, hp, hback⟩
    obtain ⟨n, hrest⟩ := (reaches_ofUnits_iff hn hp.1.2.1).mpr ⟨u, hback, rfl⟩
    refine ⟨n, ?_⟩
    rw [Lineage.ascend_succ, (lineage_parent?_ofUnits_iff hn hu).mpr ⟨p, hp, rfl⟩,
      Option.bind_some, hrest]

theorem exists_unit_of_onCycle {name : String}
    (h : (Batch.ofUnits units).1.lineage.OnCycle name) : ∃ u ∈ types units, u.name = name := by
  have hmem := Batch.Keyed.closed (Batch.keyed_ofUnits units) |>.mem_of_onCycle h
  obtain ⟨u, hu⟩ := Batch.mem_lineage_names_iff.mp hmem
  exact ⟨u, (Batch.get?_types_eq_some_iff hn).mp hu⟩

end Names

/-- Distinct names, and no type extends a type of the batch that is of another kind. -/
structure Resolved (units : List SourceUnit) : Prop where
  names : ((types units).map (·.name)).Nodup
  kinds : ∀ u p, Extends units u p → p.kind = u.kind

theorem Resolved.eq_of_name (hf : Resolved units) {u a : TypeUnit} (hu : u ∈ types units)
    (ha : a ∈ types units) (hname : u.name = a.name) : u = a :=
  List.inj_on_of_nodup_map hf.names hu ha hname

theorem Resolved.of_parentFits {c : Compiler} (hn : ((types units).map (·.name)).Nodup)
    (h : ∀ u ∈ types units, c.ParentFits units u) : Resolved units where
  names := hn
  kinds u p hup := by
    rcases h u hup.1 p.name hup.2.2 with ⟨q, hq, hname, hkind⟩ | ⟨hfree, -⟩
    · rw [List.inj_on_of_nodup_map hn hup.2.1 hq hname.symm, hkind]
    · exact absurd rfl (hfree p hup.2.1)

/-- Where every parent fits, the batch follows all of the extends relation. -/
theorem Resolved.continues_eq (hf : Resolved units) : Continues units = Extends units := by
  funext u p
  exact propext ⟨And.left, fun h => ⟨h, hf.kinds u p h⟩⟩

/-- The parent of a unit in the batch is the unit that it extends. -/
theorem Resolved.parentUnit?_iff (hf : Resolved units) {u p : TypeUnit}
    (hu : u ∈ types units) :
    (Batch.ofUnits units).1.parentUnit? u = some p ↔ Extends units u p := by
  rw [parentUnit?_ofUnits_iff hf.names hu, hf.continues_eq]

/-- What a chain of the batch reaches is what a chain of the units reaches. -/
theorem Resolved.reaches_iff (hf : Resolved units) {u : TypeUnit} (hu : u ∈ types units)
    {above : String} :
    (Batch.ofUnits units).1.lineage.Reaches u.name above ↔
      ∃ a, Relation.ReflTransGen (Extends units) u a ∧ a.name = above := by
  rw [reaches_ofUnits_iff hf.names hu, hf.continues_eq]

/-- No chain of the batch is closed exactly when no unit is above itself. -/
theorem Resolved.acyclic_iff (hf : Resolved units) :
    (Batch.ofUnits units).1.lineage.Acyclic ↔ ∀ u, ¬ Relation.TransGen (Extends units) u u := by
  rw [← hf.continues_eq]
  constructor
  · intro ha u hcycle
    exact ha u.name ((onCycle_ofUnits_iff hf.names (mem_of_onCycle hcycle)).mpr hcycle)
  · intro ha name hcycle
    obtain ⟨u, hu, rfl⟩ := exists_unit_of_onCycle hf.names hcycle
    exact ha u ((onCycle_ofUnits_iff hf.names hu).mp hcycle)

end SourceUnit

/-! ### The checks, said of the units -/

namespace Batch

variable {units : List SourceUnit} {c : Compiler}

theorem isNodeType_ofUnits_iff (hn : ((SourceUnit.types units).map (·.name)).Nodup)
    {name : String} : (ofUnits units).1.isNodeType c name = true ↔ c.IsNodeType units name := by
  rw [isNodeType_iff, Compiler.IsNodeType, get?_types_eq_none_iff]
  simp only [get?_types_eq_some_iff hn, and_assoc]

theorem parentErrors_ofUnits_iff (hn : ((SourceUnit.types units).map (·.name)).Nodup)
    {u : TypeUnit} :
    (ofUnits units).1.parentErrors c u = [] ↔ c.ParentFits units u := by
  rw [parentErrors_eq_nil_iff, Compiler.ParentFits]
  simp only [get?_types_eq_some_iff hn, get?_types_eq_none_iff, and_assoc]

theorem referenceErrors_ofUnits_iff (hn : ((SourceUnit.types units).map (·.name)).Nodup)
    {u : TypeUnit} :
    (ofUnits units).1.referenceErrors c u = [] ↔
      ∀ f ∈ u.fields, ∀ layers target, f.type = PropertyType.wrap layers (.reference target) →
        c.IsNodeType units target := by
  rw [referenceErrors_eq_nil_iff]
  simp only [PropertyType.referenced?_eq_some_iff, isNodeType_ofUnits_iff hn, forall_exists_index]
  exact forall₂_congr fun _ _ => forall_comm

/-- A compiled type has the properties that are declared by the units above it. -/
theorem mem_property_names_ofUnits_iff (hf : Resolved units)
    (ha : (ofUnits units).1.lineage.Acyclic) {u : TypeUnit} (hu : u ∈ SourceUnit.types units)
    {t : CompiledType} (ht : ((ofUnits units).1.compiled c).get? u.name = some t) {p : String} :
    p ∈ t.properties.map (·.name) ↔
      ∃ above, Relation.ReflTransGen (Extends units) u above ∧ ∃ f ∈ above.fields, f.name = p := by
  rw [mem_property_names_iff (keyed_ofUnits units) ha ht]
  constructor
  · rintro ⟨x, a, hreach, hget, hfield⟩
    obtain ⟨a', hchain, rfl⟩ := (hf.reaches_iff hu).mp hreach
    obtain ⟨hmem, hname⟩ := (get?_types_eq_some_iff hf.names).mp hget
    obtain rfl := hf.eq_of_name hmem (mem_of_chain hu hchain) hname
    exact ⟨a, hchain, hfield⟩
  · rintro ⟨a, hchain, hfield⟩
    exact ⟨a.name, a, (hf.reaches_iff hu).mpr ⟨a, hchain, rfl⟩,
      (get?_types_eq_some_iff hf.names).mpr ⟨mem_of_chain hu hchain, rfl⟩, hfield⟩

/-- No view lists an unknown property. -/
theorem viewErrors_ofUnits_iff (hf : Resolved units) (ha : (ofUnits units).1.lineage.Acyclic) :
    (ofUnits units).1.viewErrors ((ofUnits units).1.compiled c) = [] ↔
      ∀ u ∈ SourceUnit.types units, ∀ v ∈ u.views, ∀ p ∈ v.properties,
        isSystemProperty p = true ∨
          ∃ above, Relation.ReflTransGen (Extends units) u above ∧
            ∃ f ∈ above.fields, f.name = p := by
  rw [viewErrors_eq_nil_iff]
  constructor
  · intro h u hu v hv p hp
    have hget := (get?_types_eq_some_iff hf.names).mpr ⟨hu, rfl⟩
    obtain ⟨t, ht⟩ : ∃ t, ((ofUnits units).1.compiled c).get? u.name = some t :=
      ⟨_, by rw [get?_compiled, hget, Option.map_some]⟩
    have hlist := unknownInViews_eq_nil_iff.mp (h hget ht) v hv p hp
    exact (isViewable_iff.mp hlist).imp_right (mem_property_names_ofUnits_iff hf ha hu ht).mp
  · intro h name u t hget ht
    obtain ⟨hu, rfl⟩ := (get?_types_eq_some_iff hf.names).mp hget
    exact unknownInViews_eq_nil_iff.mpr fun v hv p hp => isViewable_iff.mpr
      ((h u hu v hv p hp).imp_right (mem_property_names_ofUnits_iff hf ha hu ht).mpr)

end Batch

/-! ### Acceptance -/

namespace Compiler

variable {c : Compiler} {units : List SourceUnit}

theorem Fits.resolved (h : c.Fits units) : Resolved units := .of_parentFits h.names h.parents

theorem WellFormed.resolved (h : c.WellFormed units) : Resolved units := h.fits.resolved

/-- What is found wrong before anything is built: nothing exactly if the batch fits. -/
theorem fits_iff :
    c.Fits units ↔ (Batch.ofUnits units).2 = [] ∧
      (Batch.ofUnits units).1.structureErrors c = [] := by
  rw [Batch.leftOut_eq_nil_iff, Batch.structureErrors_eq_nil_iff (Batch.keyed_ofUnits units)]
  constructor
  · intro h
    refine ⟨⟨h.names, h.owners⟩, ?_, ?_, h.resolved.acyclic_iff.mpr h.acyclic⟩
    · intro kind owner h' hh
      obtain ⟨hmem, hkey⟩ := (Batch.get?_helpers_eq_some_iff h.owners).mp hh
      obtain ⟨u, hu, hown⟩ := h.owned h' hmem
      obtain ⟨hkind, hname⟩ := Prod.mk.inj (hown.symm.trans hkey)
      exact ⟨u, (Batch.get?_types_eq_some_iff h.names).mpr ⟨hu, hname⟩, hkind⟩
    · intro name u hget
      obtain ⟨hu, -⟩ := (Batch.get?_types_eq_some_iff h.names).mp hget
      refine ⟨?_, ?_, ?_⟩
      · exact (Batch.referenceErrors_ofUnits_iff h.names).mpr (h.references u hu)
      · exact Batch.endpointErrors_eq_nil_iff.mpr fun e he => (h.endpoints u hu e he).imp
          (Batch.isNodeType_ofUnits_iff h.names).mpr (Batch.isNodeType_ofUnits_iff h.names).mpr
      · exact (Batch.parentErrors_ofUnits_iff h.names).mpr (h.parents u hu)
  · rintro ⟨⟨hn, howners⟩, horphans, hchecks, hacyclic⟩
    have hcheck : ∀ u ∈ SourceUnit.types units, _ := fun u hu =>
      hchecks u.name u ((Batch.get?_types_eq_some_iff hn).mpr ⟨hu, rfl⟩)
    have hparents := fun u hu => (Batch.parentErrors_ofUnits_iff hn).mp (hcheck u hu).2.2
    exact
      { names := hn
        owners := howners
        owned := fun h' hh => by
          obtain ⟨u, hu, hkind⟩ := horphans h'.ownerKind h'.owner h'
            ((Batch.get?_helpers_eq_some_iff howners).mpr ⟨hh, rfl⟩)
          obtain ⟨hmem, hname⟩ := (Batch.get?_types_eq_some_iff hn).mp hu
          exact ⟨u, hmem, by rw [HelperUnit.key, hkind, hname]⟩
        parents := hparents
        acyclic := (Resolved.of_parentFits hn hparents).acyclic_iff.mp hacyclic
        references := fun u hu => (Batch.referenceErrors_ofUnits_iff hn).mp (hcheck u hu).1
        endpoints := fun u hu e he =>
          (Batch.endpointErrors_eq_nil_iff.mp (hcheck u hu).2.1 e he).imp
            (Batch.isNodeType_ofUnits_iff hn).mp (Batch.isNodeType_ofUnits_iff hn).mp }

/-- An accepted batch passes every check, so it is well-formed. -/
theorem wellFormed_of_compile {types : SortedMap String CompiledType}
    (h : c.compile units = .ok types) : c.WellFormed units := by
  obtain ⟨hleft, hstructure, hviews, -⟩ := compile_eq_ok_iff.mp h
  have hfits : c.Fits units := fits_iff.mpr ⟨hleft, hstructure⟩
  have hacyclic := hfits.resolved.acyclic_iff.mpr hfits.acyclic
  exact { hfits with views := (Batch.viewErrors_ofUnits_iff hfits.resolved hacyclic).mp hviews }

/-- A well-formed batch is accepted: every list of errors is empty. -/
theorem compile_of_wellFormed (h : c.WellFormed units) :
    c.compile units = .ok ((Batch.ofUnits units).1.compiled c) := by
  obtain ⟨hleft, hstructure⟩ := fits_iff.mp h.fits
  have hacyclic := h.resolved.acyclic_iff.mpr h.acyclic
  exact compile_eq_ok_iff.mpr
    ⟨hleft, hstructure, (Batch.viewErrors_ofUnits_iff h.resolved hacyclic).mpr h.views, rfl⟩

/-- The types of an accepted batch are its type units, each under its name. -/
theorem keys_perm_of_compile {types : SortedMap String CompiledType}
    (h : c.compile units = .ok types) :
    types.keys.Perm ((SourceUnit.types units).map (·.name)) := by
  have hn := (wellFormed_of_compile h).names
  obtain ⟨-, -, -, rfl⟩ := compile_eq_ok_iff.mp h
  refine (List.perm_ext_iff_of_nodup (SortedMap.keys_nodup _) hn).mpr fun name => ?_
  rw [Batch.compiled, SortedMap.keys_mapValues, SortedMap.mem_keys_iff, List.mem_map]
  simp only [Batch.get?_types_eq_some_iff hn]

/-- **A batch is accepted exactly when it is well-formed**, and then the result has one entry for
each of its types, under the name of the type. -/
theorem compile_ok_iff_wellFormed (c : Compiler) (units : List SourceUnit) :
    ((∃ types, c.compile units = .ok types) ↔ c.WellFormed units) ∧
      ∀ types, c.compile units = .ok types →
        types.keys.Perm ((SourceUnit.types units).map (·.name)) ∧
          ∀ name t, types.get? name = some t → t.name = name := by
  refine ⟨⟨fun ⟨types, h⟩ => wellFormed_of_compile h, fun h => ⟨_, compile_of_wellFormed h⟩⟩, ?_⟩
  intro types h
  refine ⟨keys_perm_of_compile h, fun name t ht => ?_⟩
  have hw := wellFormed_of_compile h
  obtain ⟨-, -, -, rfl⟩ := compile_eq_ok_iff.mp h
  exact Batch.compiled_name (Batch.keyed_ofUnits units) (hw.resolved.acyclic_iff.mpr hw.acyclic) ht

/-- Two node types, one extending the other and declaring one of its properties anew, and helper
code of the second. -/
def shapes : List SourceUnit :=
  [.type ⟨"Circle", .node, some "Shape",
      [⟨"radius", .double, false, false, false⟩, ⟨"label", .string, true, false, true⟩],
      [⟨"summary", ["radius", "id"]⟩], none, false, false⟩,
    .helper ⟨"_CircleHelper", "Circle", .node, "area()", 7⟩,
    .type ⟨"Shape", .node, some "NodeInterface",
      [⟨"label", .string, false, false, false⟩,
        ⟨"inside", .reference "Shape", false, false, false⟩],
      [⟨"summary", ["id", "label"]⟩], none, false, true⟩]

theorem shapes_accepted :
    ({} : Compiler).WellFormed shapes ∧
      ∃ types, ({} : Compiler).compile shapes = .ok types ∧
        types.keys.Perm ["Circle", "Shape"] := by
  obtain ⟨hiff, hentries⟩ := compile_ok_iff_wellFormed {} shapes
  have hok : ({} : Compiler).compile shapes = .ok ((Batch.ofUnits shapes).1.compiled {}) := by
    rfl
  exact ⟨hiff.mp ⟨_, hok⟩, _, hok, (hentries _ hok).1⟩

end Compiler

end LiveSchema
