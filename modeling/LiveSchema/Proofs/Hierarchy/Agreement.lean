import LiveSchema.Proofs.Compile.Violations
import LiveSchema.Proofs.Generation
import LiveSchema.Proofs.Hierarchy

/-!
# LiveSchema.Proofs.Hierarchy.Agreement

The compiler and the reports about node types agree. They read the extends relation off the same
definitions in two ways: the compiler among the units of all types, where a parent has to be of the
kind of its child, and the report among the node definitions alone. Where no two definitions have
the same name, the second relation is the first one, restricted to the names of node types
(`restricts_lineage`). A restriction to names that are left by no chain has the same chains
(`Lineage.Restricts`), so depths and circles agree.

* `Batch.depthUpTo_eq` — the depth of a type is the number of its compiled ancestors.
* `count_ends_eq` — the ends of the relationship definitions are those of the compiled relationship
  types.
* `report_agrees` — what is reported is what is compiled, and the circles are those that the
  compiler finds.
-/

namespace LiveSchema

/-! ### Restricting a lineage -/

/-- A lineage is another one, restricted to names that no chain leaves. -/
structure Lineage.Restricts (l whole : Lineage) (kept : String → Prop) : Prop where
  parent?_eq : ∀ {name}, kept name → l.parent? name = whole.parent? name
  kept_parent : ∀ {name parent}, kept name → whole.parent? name = some parent → kept parent
  kept_child : ∀ {name parent}, l.parent? name = some parent → kept name

namespace Lineage.Restricts

variable {l whole : Lineage} {kept : String → Prop} {name : String}

theorem ascend_eq (h : l.Restricts whole kept) (hname : kept name) (n : Nat) :
    l.ascend n name = whole.ascend n name := by
  induction n generalizing name with
  | zero => rfl
  | succ n ih =>
      rw [ascend_succ, ascend_succ, h.parent?_eq hname]
      cases hparent : whole.parent? name with
      | none => rfl
      | some parent => exact ih (h.kept_parent hname hparent)

theorem reaches_iff (h : l.Restricts whole kept) (hname : kept name) {above : String} :
    l.Reaches name above ↔ whole.Reaches name above := by
  unfold Reaches
  simp only [h.ascend_eq hname]

theorem onCycle_iff (h : l.Restricts whole kept) :
    l.OnCycle name ↔ whole.OnCycle name ∧ kept name := by
  unfold OnCycle
  constructor
  · rintro ⟨n, hn⟩
    obtain ⟨parent, hparent, -⟩ := Option.bind_eq_some_iff.mp hn
    have hname := h.kept_child hparent
    exact ⟨⟨n, h.ascend_eq hname _ ▸ hn⟩, hname⟩
  · rintro ⟨⟨n, hn⟩, hname⟩
    exact ⟨n, by rw [h.ascend_eq hname, hn]⟩

theorem kept_of_reaches (h : l.Restricts whole kept) (hname : kept name) {above : String}
    (hreach : whole.Reaches name above) : kept above := by
  obtain ⟨n, hn⟩ := hreach
  induction n generalizing name with
  | zero => exact Option.some.inj hn ▸ hname
  | succ n ih =>
      obtain ⟨parent, hparent, hrest⟩ := Option.bind_eq_some_iff.mp hn
      exact ih (h.kept_parent hname hparent) hrest

/-- The circles of the restriction are those of the whole whose members are all kept. -/
theorem isCircle_iff (h : l.Restricts whole kept) {circle : List String} :
    l.IsCircle circle ↔ whole.IsCircle circle ∧ ∀ m ∈ circle, kept m := by
  constructor
  · rintro ⟨name, members, hcycle, hmem, rfl⟩
    obtain ⟨hwhole, hname⟩ := h.onCycle_iff.mp hcycle
    have hmem' (x : String) : x ∈ members ↔ whole.Reaches name x :=
      (hmem x).trans (h.reaches_iff hname)
    refine ⟨⟨name, members, hwhole, hmem', rfl⟩, fun m hm => ?_⟩
    exact h.kept_of_reaches hname ((hmem' m).mp (NameSet.mem_keys_ofNames.mp hm))
  · rintro ⟨⟨name, members, hcycle, hmem, rfl⟩, hkept⟩
    have hname : kept name :=
      hkept name (NameSet.mem_keys_ofNames.mpr ((hmem name).mpr (Reaches.refl name)))
    refine ⟨name, members, h.onCycle_iff.mpr ⟨hcycle, hname⟩, fun x => ?_, rfl⟩
    rw [hmem, h.reaches_iff hname]

theorem depthUpTo_eq (h : l.Restricts whole kept) (hname : kept name) (limit : Nat) :
    l.depthUpTo limit name = whole.depthUpTo limit name := by
  induction limit generalizing name with
  | zero => rfl
  | succ limit ih =>
      rw [depthUpTo, depthUpTo, h.parent?_eq hname]
      cases hparent : whole.parent? name with
      | none => rfl
      | some parent =>
          dsimp only
          rw [ih (h.kept_parent hname hparent)]

end Lineage.Restricts

/-! ### The two readings of the definitions -/

namespace Hierarchy

variable {ds : List Definition} {units : List SourceUnit}

/-- The name is that of a node definition. -/
def IsNode (ds : List Definition) (name : String) : Prop := ∃ d ∈ ds, d.name = name ∧ d.kind = .node

theorem contains_nodes {name : String} : (nodes ds).contains name = true ↔ IsNode ds name := by
  rw [contains_nodes_iff]
  exact exists_congr fun d => and_congr_right fun _ => and_comm

/-- With distinct names the node definition of a name is the one that has it. -/
theorem get?_nodes_eq_some_iff (hn : (ds.map (·.name)).Nodup) {name : String} {d : Definition} :
    (nodes ds).get? name = some d ↔ d ∈ ds ∧ d.name = name ∧ d.kind = .node := by
  have hkeys : (((ds.filter (·.kind = .node)).map fun d => (d.name, d)).reverse.map
      Prod.fst).Nodup := by
    rw [List.map_reverse, List.nodup_reverse, List.map_map]
    exact hn.sublist (List.filter_sublist.map _)
  rw [nodes, SortedMap.get?_ofList, Option.map_eq_some_iff]
  simp only [Batch.find?_eq_some_iff_of_nodup hkeys, List.mem_reverse, List.mem_map,
    List.mem_filter, decide_eq_true_eq]
  constructor
  · rintro ⟨e, ⟨⟨d', ⟨hd, hkind⟩, rfl⟩, hname⟩, rfl⟩
    exact ⟨hd, hname, hkind⟩
  · rintro ⟨hd, hname, hkind⟩
    exact ⟨(d.name, d), ⟨⟨d, ⟨hd, hkind⟩, rfl⟩, hname⟩, rfl⟩

theorem lineage_parent?_eq_some_iff {nodes : SortedMap String Definition} {name above : String} :
    (lineage nodes).parent? name = some above ↔
      ∃ d, nodes.get? name = some d ∧ d.parent = some above ∧ nodes.contains above = true := by
  unfold lineage
  simp only [Option.bind_eq_bind, Option.bind_eq_some_iff]
  constructor
  · rintro ⟨d, hd, parent, hparent, hkept⟩
    split at hkept
    next hcontains =>
      obtain rfl := Option.some.inj hkept
      exact ⟨d, hd, hparent, hcontains⟩
    next => cases hkept
  · rintro ⟨d, hd, hparent, hcontains⟩
    exact ⟨d, hd, above, hparent, if_pos hcontains⟩

/-- The lineage of the node definitions stays among them. -/
theorem closed_lineage (nodes : SortedMap String Definition) : (lineage nodes).Closed where
  child_mem h := by
    obtain ⟨d, hd, -, -⟩ := lineage_parent?_eq_some_iff.mp h
    exact SortedMap.mem_keys_iff.mpr ⟨d, hd⟩
  parent_mem h := by
    obtain ⟨-, -, -, hcontains⟩ := lineage_parent?_eq_some_iff.mp h
    exact SortedMap.mem_keys_iff.mpr (SortedMap.contains_iff.mp hcontains)

/-- With distinct names the batch of the definitions has the unit of each under its name. -/
theorem get?_types_iff (h : emitAll ds = .ok units) (hn : (ds.map (·.name)).Nodup) {name : String}
    {u : TypeUnit} :
    (Batch.ofUnits units).1.types.get? name = some u ↔
      ∃ d ∈ ds, d.name = name ∧ Emission.typeUnit d = u := by
  have htypes := types_of_emitAll h
  have hnames : ((SourceUnit.types units).map (·.name)).Nodup := by
    rw [htypes, List.map_map]
    exact hn
  rw [Batch.get?_types_eq_some_iff hnames, htypes, List.mem_map]
  constructor
  · rintro ⟨⟨d, hd, rfl⟩, hname⟩
    exact ⟨d, hd, hname, rfl⟩
  · rintro ⟨d, hd, hname, rfl⟩
    exact ⟨⟨d, hd, rfl⟩, hname⟩

/-- In the batch a definition extends another one if that has the name of its parent, and its
kind. -/
theorem batch_parent?_eq_some_iff (h : emitAll ds = .ok units) (hn : (ds.map (·.name)).Nodup)
    {name above : String} :
    (Batch.ofUnits units).1.lineage.parent? name = some above ↔
      ∃ d ∈ ds, d.name = name ∧ d.parent = some above ∧
        ∃ p ∈ ds, p.name = above ∧ p.kind = d.kind := by
  rw [Batch.lineage_parent?_eq_some_iff]
  constructor
  · rintro ⟨u, q, hu, hq, rfl⟩
    obtain ⟨d, hd, rfl, rfl⟩ := (get?_types_iff h hn).mp hu
    obtain ⟨parent, hparent, hget, hkind⟩ := Batch.parentUnit?_eq_some_iff.mp hq
    obtain ⟨p, hp, rfl, rfl⟩ := (get?_types_iff h hn).mp hget
    exact ⟨d, hd, rfl, hparent, p, hp, rfl, hkind⟩
  · rintro ⟨d, hd, rfl, hparent, p, hp, rfl, hkind⟩
    refine ⟨Emission.typeUnit d, Emission.typeUnit p, (get?_types_iff h hn).mpr ⟨d, hd, rfl, rfl⟩,
      Batch.parentUnit?_eq_some_iff.mpr ⟨p.name, hparent, ?_, hkind⟩, rfl⟩
    exact (get?_types_iff h hn).mpr ⟨p, hp, rfl, rfl⟩

/-- The extends relation of the node definitions is that of the batch, restricted to node types. -/
theorem restricts_lineage (h : emitAll ds = .ok units) (hn : (ds.map (·.name)).Nodup) :
    (lineage (nodes ds)).Restricts (Batch.ofUnits units).1.lineage (IsNode ds) := by
  have hunique {d d' : Definition} (hd : d ∈ ds) (hd' : d' ∈ ds) (hname : d'.name = d.name) :
      d' = d := List.inj_on_of_nodup_map hn hd' hd hname
  refine { parent?_eq := ?parent?_eq, kept_parent := ?kept_parent, kept_child := ?kept_child }
  case parent?_eq =>
    rintro name ⟨d, hd, rfl, hkind⟩
    refine Option.ext fun above => ?_
    rw [lineage_parent?_eq_some_iff, batch_parent?_eq_some_iff h hn, contains_nodes]
    constructor
    · rintro ⟨d', hd', hparent, p, hp, hname, hnode⟩
      obtain ⟨hmem, hsame, -⟩ := (get?_nodes_eq_some_iff hn).mp hd'
      obtain rfl := hunique hd hmem hsame
      exact ⟨d', hd, rfl, hparent, p, hp, hname, hnode.trans hkind.symm⟩
    · rintro ⟨d', hd', hsame, hparent, p, hp, hname, hnode⟩
      obtain rfl := hunique hd hd' hsame
      exact ⟨d', (get?_nodes_eq_some_iff hn).mpr ⟨hd, rfl, hkind⟩, hparent, p, hp, hname,
        hnode.trans hkind⟩
  case kept_parent =>
    rintro name parent ⟨d, hd, rfl, hkind⟩ hparent
    obtain ⟨d', hd', hsame, -, p, hp, hname, hnode⟩ := (batch_parent?_eq_some_iff h hn).mp hparent
    obtain rfl := hunique hd hd' hsame
    exact ⟨p, hp, hname, hnode.trans hkind⟩
  case kept_child =>
    intro name parent hparent
    obtain ⟨d, hd, -, -⟩ := lineage_parent?_eq_some_iff.mp hparent
    exact contains_nodes.mp (SortedMap.contains_iff.mpr ⟨d, hd⟩)

end Hierarchy

/-! ### Depths -/

/-- The depth of a type is the number of its compiled ancestors, up to the limit. -/
theorem Batch.depthUpTo_eq {b : Batch} {c : Compiler} (hk : b.Keyed) (ha : b.lineage.Acyclic)
    {name : String} {t : CompiledType} (ht : (b.compiled c).get? name = some t) (limit : Nat) :
    b.lineage.depthUpTo limit name = min limit t.ancestors.length := by
  refine compiled_induction hk ha (motive := fun name t =>
    ∀ limit, b.lineage.depthUpTo limit name = min limit t.ancestors.length) ?_ ?_ ht limit
  · intro name u hu hp limit
    cases limit with
    | zero => rfl
    | succ limit =>
        rw [Lineage.depthUpTo, lineage_parent?_of_get? hu, hp]
        rfl
  · intro name u p above hu hp _ ih limit
    have hchain : (b.build c (some above) u).ancestors = above.name :: above.ancestors := rfl
    cases limit with
    | zero => rw [Lineage.depthUpTo, Nat.zero_min]
    | succ limit =>
        rw [Lineage.depthUpTo, lineage_parent?_of_get? hu, hp, Option.map_some, hchain,
          List.length_cons]
        dsimp only
        rw [ih limit]
        omega

/-! ### Relationship ends -/

/-- How many relationship types among some compiled types have a name at one of their ends. -/
def relationshipsAt (types : SortedMap String CompiledType) (side : Endpoints → String)
    (name : String) : Nat :=
  types.values.countP fun t => t.kind = .relationship ∧ t.endpoints.map side = some name

namespace Hierarchy

variable {ds : List Definition}

/-- The ends of relationship definitions are their sources and their targets. -/
theorem count_ends (ds : List Definition) (name : String) :
    (ends ds).count name =
      (ds.countP fun d => d.kind = .relationship ∧ d.endpoints.map (·.source) = some name) +
        ds.countP fun d => d.kind = .relationship ∧ d.endpoints.map (·.target) = some name := by
  induction ds with
  | nil => rfl
  | cons d rest ih =>
      have hends : ends (d :: rest) = ends [d] ++ ends rest := by
        unfold ends
        rw [← List.flatMap_append, ← List.filter_append, List.singleton_append]
      have hone : (ends [d]).count name =
          (if d.kind = .relationship ∧ d.endpoints.map (·.source) = some name then 1 else 0) +
            if d.kind = .relationship ∧ d.endpoints.map (·.target) = some name then 1 else 0 := by
        cases hkind : d.kind with
        | node => simp [ends, hkind]
        | relationship =>
            cases hends : d.endpoints with
            | none => simp [ends, hkind, hends]
            | some e => simp [ends, hkind, hends, List.count_cons, Nat.add_comm]
      rw [hends, List.count_append, hone, ih, List.countP_cons, List.countP_cons]
      simp only [decide_eq_true_eq]
      omega

/-- Counting compiled types counts the definitions that they come from. -/
theorem countP_values_eq {types : SortedMap String CompiledType}
    (hkeys : types.keys.Perm (ds.map (·.name))) {p : Definition → Bool} {q : CompiledType → Bool}
    (h : ∀ d ∈ ds, ∀ t, types.get? d.name = some t → q t = p d) :
    types.values.countP q = ds.countP p := by
  have hvalues : types.values.countP q =
      types.keys.countP fun name => (types.get? name).any q := by
    rw [SortedMap.values, SortedMap.keys, List.countP_map, List.countP_map]
    refine List.countP_congr fun e he => ?_
    have hget := (SortedMap.mem_entries_iff types e.1 e.2).mp he
    simp [hget]
  rw [hvalues, hkeys.countP_eq, List.countP_map]
  refine List.countP_congr fun d hd => ?_
  obtain ⟨t, ht⟩ := SortedMap.mem_keys_iff.mp
    (hkeys.mem_iff.mpr (List.mem_map.mpr ⟨d, hd, rfl⟩))
  simp [ht, h d hd t ht]

/-- The ends of the relationship definitions are those of the compiled relationship types. -/
theorem count_ends_eq {c : Compiler} {units : List SourceUnit}
    {types : SortedMap String CompiledType} (hemit : emitAll ds = .ok units)
    (h : c.compile units = .ok types) (name : String) :
    (ends ds).count name = relationshipsAt types (·.source) name +
      relationshipsAt types (·.target) name := by
  have hkeys := Compiler.keys_perm_of_compile h
  have hnames := (Compiler.wellFormed_of_compile h).names
  rw [types_of_emitAll hemit, List.map_map] at hkeys hnames
  have hside (side : Endpoints → String) : relationshipsAt types side name =
      ds.countP fun d => d.kind = .relationship ∧ d.endpoints.map side = some name := by
    refine countP_values_eq hkeys fun d hd t ht => ?_
    obtain ⟨u, hu, hname, hbuild⟩ := Compiler.eq_build_of_compile h ht
    rw [types_of_emitAll hemit] at hu
    obtain ⟨d', hd', rfl⟩ := List.mem_map.mp hu
    obtain rfl : d' = d := List.inj_on_of_nodup_map hnames hd' hd hname
    rw [hbuild]
    rfl
  rw [count_ends, hside, hside]

/-! ### The agreement -/

/-- The node definitions are those whose compiled types are node types. -/
theorem contains_nodes_iff_compiled {c : Compiler} {units : List SourceUnit}
    {types : SortedMap String CompiledType} (hemit : emitAll ds = .ok units)
    (h : c.compile units = .ok types) {name : String} :
    (nodes ds).contains name = true ↔ ∃ t, types.get? name = some t ∧ t.kind = .node := by
  have hkeys := Compiler.keys_perm_of_compile h
  have hnames := (Compiler.wellFormed_of_compile h).names
  rw [types_of_emitAll hemit, List.map_map] at hkeys hnames
  have hkind {d : Definition} (hd : d ∈ ds) {t : CompiledType} (ht : types.get? d.name = some t) :
      t.kind = d.kind := by
    obtain ⟨u, hu, hname, rfl⟩ := Compiler.eq_build_of_compile h ht
    rw [types_of_emitAll hemit] at hu
    obtain ⟨d', hd', rfl⟩ := List.mem_map.mp hu
    obtain rfl : d' = d := List.inj_on_of_nodup_map hnames hd' hd hname
    rfl
  have hmem : name ∈ ds.map (·.name) ↔ ∃ t, types.get? name = some t :=
    hkeys.mem_iff.symm.trans SortedMap.mem_keys_iff
  rw [contains_nodes]
  constructor
  · rintro ⟨d, hd, rfl, hnode⟩
    obtain ⟨t, ht⟩ := hmem.mp (List.mem_map.mpr ⟨d, hd, rfl⟩)
    exact ⟨t, ht, (hkind hd ht).trans hnode⟩
  · rintro ⟨t, ht, hnode⟩
    obtain ⟨d, hd, rfl⟩ := List.mem_map.mp (hmem.mpr ⟨t, ht⟩)
    exact ⟨d, hd, rfl, (hkind hd ht).symm.trans hnode⟩

/-- What is reported about definitions that compile is what is compiled. -/
theorem report_of_compile {c : Compiler} {types : SortedMap String CompiledType}
    (h : c.compileDefinitions ds = .ok types) (limit : Nat) :
    (report limit ds).cycles = [] ∧ ∀ name, (report limit ds).annotations.get? name =
      ((types.get? name).filter (·.kind = .node)).map fun t =>
        ⟨min limit t.ancestors.length,
          relationshipsAt types (·.source) name + relationshipsAt types (·.target) name⟩ := by
  obtain ⟨units, hemit, hcompile⟩ := Compiler.compileDefinitions_eq_ok_iff.mp h
  have hn : (ds.map (·.name)).Nodup := by
    have hnames := (Compiler.wellFormed_of_compile hcompile).names
    rw [types_of_emitAll hemit, List.map_map] at hnames
    exact hnames
  have ha := Compiler.acyclic_of_compile hcompile
  have hrestricts := restricts_lineage hemit hn
  refine ⟨?_, fun name => ?_⟩
  · refine (closed_lineage (nodes ds)).cycles_eq_nil_iff.mpr fun name hcycle => ?_
    exact ha name (hrestricts.onCycle_iff.mp hcycle).1
  · have hentry : (report limit ds).annotations.get? name =
        ((nodes ds).get? name).map fun _ =>
          ⟨(lineage (nodes ds)).depthUpTo limit name, (ends ds).count name⟩ :=
      SortedMap.get?_mapValues _ _ name
    have hnode : (nodes ds).contains name = true ↔ _ := contains_nodes_iff_compiled hemit hcompile
    rw [hentry]
    cases hd : (nodes ds).get? name with
    | some d =>
        have hcontains : (nodes ds).contains name = true := SortedMap.contains_iff.mpr ⟨d, hd⟩
        obtain ⟨t, ht, hkind⟩ := hnode.mp hcontains
        have hdepth := Batch.depthUpTo_eq (Batch.keyed_ofUnits units) ha
          (Compiler.eq_compiled_of_compile hcompile ▸ ht) limit
        rw [hrestricts.depthUpTo_eq (contains_nodes.mp hcontains), hdepth,
          count_ends_eq hemit hcompile, ht]
        simp [hkind]
    | none =>
        have hnone : ¬ ∃ t, types.get? name = some t ∧ t.kind = .node := by
          rw [← hnode, SortedMap.contains_iff, hd]
          nofun
        symm
        rw [Option.map_none, Option.map_eq_none_iff, Option.filter_eq_none_iff]
        intro t ht hkind
        exact hnone ⟨t, ht, of_decide_eq_true hkind⟩

/-- **The compiler and the reports about node types agree.** -/
theorem report_agrees (c : Compiler) (limit : Nat) (ds : List Definition) :
    (∀ types, c.compileDefinitions ds = .ok types →
      (report limit ds).cycles = [] ∧ ∀ name, (report limit ds).annotations.get? name =
        ((types.get? name).filter (·.kind = .node)).map fun t =>
          ⟨min limit t.ancestors.length,
            relationshipsAt types (·.source) name + relationshipsAt types (·.target) name⟩) ∧
    ∀ units, emitAll ds = .ok units → (ds.map (·.name)).Nodup → ∀ circle,
      circle ∈ (report limit ds).cycles ↔
        (∃ errors, c.compile units = .error errors ∧ .inheritanceCycle circle ∈ errors) ∧
          ∀ m ∈ circle, ∃ d ∈ ds, d.name = m ∧ d.kind = .node := by
  refine ⟨fun types h => report_of_compile h limit, ?_⟩
  intro units hemit hn circle
  have hclosed := Batch.Keyed.closed (Batch.keyed_ofUnits units)
  rw [Compiler.circle_error_iff, hclosed.mem_cycles_iff]
  exact (closed_lineage (nodes ds)).mem_cycles_iff.trans (restricts_lineage hemit hn).isCircle_iff

/-- A chain of three types with a relationship type from one end to itself, and two types that
extend each other beside one that extends nothing that is defined. -/
theorem report_agrees_people :
    let people := [.node "Person", (Definition.node "Employee").extending "Person",
      (Definition.node "Manager").extending "Employee",
      .relationship "Knows" ⟨"Person", "Person", "KNOWS"⟩]
    let tangled := [(Definition.node "Hen").extending "Egg",
      (Definition.node "Egg").extending "Hen",
      (Definition.node "Orphan").extending "Nobody"]
    (∃ types, ({} : Compiler).compileDefinitions people = .ok types ∧
      (report 1 people).annotations.get? "Manager" = some ⟨1, 0⟩ ∧
      (report 1 people).annotations.get? "Person" = some ⟨0, 2⟩) ∧
    ∃ units errors, emitAll tangled = .ok units ∧ ({} : Compiler).compile units = .error errors ∧
      .inheritanceCycle ["Egg", "Hen"] ∈ errors := by
  intro people tangled
  constructor
  · have hentries : (({} : Compiler).compileDefinitions people).map (fun types =>
        ["Manager", "Person"].map fun name =>
          ((types.get? name).filter (·.kind = .node)).map fun t => HierarchyEntry.mk
            (min 1 t.ancestors.length)
            (relationshipsAt types (·.source) name + relationshipsAt types (·.target) name)) =
        .ok [some ⟨1, 0⟩, some ⟨0, 2⟩] := by
      decide
    cases hok : ({} : Compiler).compileDefinitions people with
    | error errors =>
        rw [hok] at hentries
        cases hentries
    | ok types =>
        rw [hok] at hentries
        simp only [Except.map, List.map_cons, List.map_nil, Except.ok.injEq, List.cons.injEq,
          and_true] at hentries
        obtain ⟨-, hreport⟩ := (report_agrees {} 1 people).1 types hok
        exact ⟨types, rfl, (hreport "Manager").trans hentries.1,
          (hreport "Person").trans hentries.2⟩
  · have hemit : emitAll tangled = .ok (tangled.map fun d => .type (Emission.typeUnit d)) := by
      decide
    obtain ⟨⟨errors, herrors, hmem⟩, -⟩ :=
      ((report_agrees {} 1 tangled).2 _ hemit (by decide) ["Egg", "Hen"]).mp (by decide)
    exact ⟨_, errors, hemit, herrors, hmem⟩

end Hierarchy

end LiveSchema
