import LiveSchema.Proofs.Definition.Store
import LiveSchema.Proofs.Hierarchy

/-!
# LiveSchema.Proofs.Hierarchy.Delivery

One list of definitions can reach the report as it stands, or through a store that keeps the last
definition of each kind and name and hands them out in an order of its own. The order makes no
difference, and a node definition that a later one replaces makes none either: the report looks up
node definitions by name. Relationship definitions it counts one by one, so a relationship that is
recorded twice counts twice as the list stands, and once after the store.

* `nodes_definitions` — the report sees the node definitions that the store holds.
* `count_ends_eq_stored` — the ends of a list are those that the store hands out and those of the
  superseded definitions.
* `report_of_stored` — the two reports differ by the latter, and by nothing else.
-/

namespace LiveSchema

theorem HierarchyReport.eq_of_parts {r r' : HierarchyReport}
    (hannotations : r.annotations = r'.annotations) (hcycles : r.cycles = r'.cycles) : r = r' := by
  cases r
  cases r'
  exact congr (congrArg HierarchyReport.mk hannotations) hcycles

namespace Hierarchy

/-! ### Node definitions -/

/-- The node definitions that are handed out are those that the store holds. -/
theorem nodes_definitions (ds : List Definition) :
    nodes (Store.ofDefinitions ds).definitions = nodes ds := by
  have hstored (es : List Definition) (name : String) :
      (nodes es).get? name = (Store.ofDefinitions es).definition? .node name := by
    rw [get?_nodes, Store.definition?_ofDefinitions]
  refine SortedMap.ext_get? fun name => ?_
  rw [hstored, hstored, Store.definition?_ofDefinitions_definitions (Store.keyed_ofDefinitions ds)]

/-! ### Relationship ends -/

/-- Definitions in another order have the same ends. -/
theorem ends_perm {ds ds' : List Definition} (h : ds.Perm ds') : (ends ds).Perm (ends ds') :=
  (h.filter _).flatMap_right _

theorem ends_append (ds ds' : List Definition) : ends (ds ++ ds') = ends ds ++ ends ds' := by
  rw [ends, ends, ends, List.filter_append, List.flatMap_append]

/-- A list has the ends that a store of it hands out, and those of its superseded definitions. -/
theorem count_ends_eq_stored (ds : List Definition) (name : String) :
    (ends ds).count name = (ends (Store.ofDefinitions ds).definitions).count name +
      (ends (Definition.superseded ds)).count name := by
  have hlisted : (ends ds).Perm
      (ends (Definition.lasting ds) ++ ends (Definition.superseded ds)) := by
    rw [← ends_append]
    exact ends_perm (Definition.perm_lasting_append_superseded ds)
  have hstored := ends_perm (Store.definitions_ofDefinitions_perm ds)
  rw [hlisted.count_eq, List.count_append, hstored.count_eq]

/-! ### The two reports -/

/-- Circles are circles of node definitions. -/
theorem cycles_definitions (limit : Nat) (ds : List Definition) :
    (report limit (Store.ofDefinitions ds).definitions).cycles = (report limit ds).cycles := by
  show (lineage (nodes _)).cycles = (lineage (nodes ds)).cycles
  rw [nodes_definitions]

/-- The list reports on the same node types with the same depths, and counts the ends of superseded
definitions besides. -/
theorem annotations_eq_stored (limit : Nat) (ds : List Definition) (name : String) :
    (report limit ds).annotations.get? name =
      ((report limit (Store.ofDefinitions ds).definitions).annotations.get? name).map fun entry =>
        ⟨entry.depth,
          entry.relationshipCount + (ends (Definition.superseded ds)).count name⟩ := by
  rw [get?_annotations, get?_annotations, nodes_definitions, count_ends_eq_stored, Option.map_map]
  rfl

/-- The reports are equal exactly if nothing is counted besides. -/
theorem report_definitions_eq_iff (limit : Nat) (ds : List Definition) :
    report limit (Store.ofDefinitions ds).definitions = report limit ds ↔
      ∀ d ∈ ds, d.kind = .node → d.name ∉ ends (Definition.superseded ds) := by
  constructor
  · intro hsame d hd hnode hmem
    -- a node type has a report, and its count would be more than itself
    have hreported : (report limit ds).annotations.contains d.name = true :=
      contains_annotations_iff.mpr ⟨d, hd, hnode, rfl⟩
    obtain ⟨⟨depth, count⟩, hentry⟩ := SortedMap.contains_iff.mp hreported
    have hcount := annotations_eq_stored limit ds d.name
    rw [hsame, hentry, Option.map_some, Option.some.injEq, HierarchyEntry.mk.injEq] at hcount
    have hpos := List.count_pos_iff.mpr hmem
    dsimp only at hcount
    omega
  · intro hnone
    refine HierarchyReport.eq_of_parts (SortedMap.ext_get? fun name => ?_) (cycles_definitions ..)
    have hname := annotations_eq_stored limit ds name
    cases hentry : (report limit (Store.ofDefinitions ds).definitions).annotations.get? name with
    | none =>
        rw [hentry] at hname
        exact hname.symm
    | some entry =>
        rw [hentry, Option.map_some] at hname
        obtain ⟨d, hd, hnode, rfl⟩ := contains_annotations_iff.mp
          (SortedMap.contains_iff.mpr ⟨_, hname⟩)
        rw [hname, List.count_eq_zero.mpr (hnone d hd hnode)]
        rfl

/-- **A store takes the ends of superseded definitions out of the report, and nothing else.** The
depths and the circles are the same, and so is the whole report exactly if no superseded definition
connects a node type. -/
theorem report_of_stored (limit : Nat) (ds : List Definition) :
    ∃ kept stored, (Store.ofDefinitions ds).load = .ok (kept, stored) ∧
      (report limit kept).cycles = (report limit ds).cycles ∧
      (∀ name, (report limit ds).annotations.get? name =
        ((report limit kept).annotations.get? name).map fun entry =>
          ⟨entry.depth,
            entry.relationshipCount + (ends (Definition.superseded ds)).count name⟩) ∧
      (report limit kept = report limit ds ↔
        ∀ d ∈ ds, d.kind = .node → d.name ∉ ends (Definition.superseded ds)) := by
  have hload := Store.load_of_available (Store.available_ofDefinitions ds)
  exact ⟨_, _, hload, cycles_definitions limit ds, annotations_eq_stored limit ds,
    report_definitions_eq_iff limit ds⟩

/-- A node type, and a relationship type of which there are two records. -/
def knowsTwice : List Definition :=
  [.node "Person", .relationship "Knows" ⟨"Person", "Person", "KNOWS"⟩,
    .relationship "Knows" ⟨"Person", "Person", "KNOWS"⟩]

/-- The two ways in which the definitions can be delivered make no difference. -/
def ReportedAlike (limit : Nat) (ds : List Definition) : Prop :=
  ∀ kept stored, (Store.ofDefinitions ds).load = .ok (kept, stored) →
    report limit kept = report limit ds

/-- The second record counts where the list is taken as it stands. -/
theorem second_record_counts : ¬ ReportedAlike defaultDepthLimit knowsTwice := by
  intro halike
  have hsame := halike _ _ (Store.load_of_available (Store.available_ofDefinitions knowsTwice))
  have hentry := congrArg (fun r => (r.annotations.get? "Person").map (·.relationshipCount)) hsame
  revert hentry
  decide

end Hierarchy

end LiveSchema
