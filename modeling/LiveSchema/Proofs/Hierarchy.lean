import LiveSchema.Hierarchy
import LiveSchema.Proofs.SortedMap

/-!
# LiveSchema.Proofs.Hierarchy

What the reports about node types say. There is a report about exactly the node types that are
defined (`contains_annotations_iff`). It depends on the node definitions, of which the last of a name
counts (`get?_nodes`), and on the number of relationship ends that meet in the type
(`get?_annotations`).
-/

namespace LiveSchema

namespace Hierarchy

/-- Of several node definitions of a name the last one counts. -/
theorem get?_nodes (ds : List Definition) (name : String) :
    (nodes ds).get? name = ds.reverse.find? fun d => d.kind = .node ∧ d.name = name := by
  rw [nodes, SortedMap.get?_ofList, ← List.map_reverse, List.find?_map, Option.map_map,
    ← List.filter_reverse, List.find?_filter]
  have hname : (Prod.snd ∘ fun d : Definition => (d.name, d)) = id := rfl
  simp [hname]

theorem contains_nodes_iff {ds : List Definition} {name : String} :
    (nodes ds).contains name = true ↔ ∃ d ∈ ds, d.kind = .node ∧ d.name = name := by
  rw [nodes, SortedMap.contains_ofList]
  constructor
  · rintro ⟨d, hpair⟩
    obtain ⟨d, hd, heq⟩ := List.mem_map.mp hpair
    obtain ⟨hmem, hkind⟩ := List.mem_filter.mp hd
    exact ⟨d, hmem, of_decide_eq_true hkind, congrArg Prod.fst heq⟩
  · rintro ⟨d, hd, hkind, rfl⟩
    exact ⟨d, List.mem_map.mpr ⟨d, List.mem_filter.mpr ⟨hd, decide_eq_true hkind⟩, rfl⟩⟩

/-- There is a report about exactly the node types that are defined. -/
theorem contains_annotations_iff {depthLimit : Nat} {ds : List Definition} {name : String} :
    (report depthLimit ds).annotations.contains name = true ↔
      ∃ d ∈ ds, d.kind = .node ∧ d.name = name := by
  rw [← contains_nodes_iff]
  unfold report SortedMap.contains
  dsimp only
  rw [SortedMap.get?_mapValues, Option.isSome_map]

/-- The report about a node type is its depth and the number of ends that meet in it. -/
theorem get?_annotations (limit : Nat) (ds : List Definition) (name : String) :
    (report limit ds).annotations.get? name = ((nodes ds).get? name).map fun _ =>
      ⟨(lineage (nodes ds)).depthUpTo limit name, (ends ds).count name⟩ :=
  SortedMap.get?_mapValues _ _ name

end Hierarchy

end LiveSchema
