import LiveSchema.Proofs.Hierarchy.Agreement
import Mathlib.Data.ENat.Lattice
import Mathlib.Order.CompletePartialOrder

/-!
# LiveSchema.Proofs.Hierarchy.Chains

The report about node types against the chains of their definitions. Here a chain is a list of names
each of which extends the next (`Hierarchy.Extends`), so nothing below depends on how the report
walks: a chain can be longer than the limit of the report, end at a name that is not defined, point
at its own beginning or lead into a circle that it does not begin on.

* `le_height_iff` — the chains from a name are as long as the walk from it can be continued.
* `height_eq_top_iff` — they are of every length exactly when the name is on or below a circle.
* `report_exact` — depths are the lengths of chains up to the limit, and the circles are the classes
  of the names that are reached from each other.
-/

namespace LiveSchema.Hierarchy

open Relation (TransGen ReflTransGen)

variable {ds : List Definition} {name parent : String}

/-- The definition of a node type: of several node definitions of a name, the last. -/
def definition? (ds : List Definition) (name : String) : Option Definition :=
  ds.reverse.find? fun d => d.kind = .node ∧ d.name = name

/-- A node type extends another node type, or itself: its definition says so. -/
def Extends (ds : List Definition) (name parent : String) : Prop :=
  (∃ d, definition? ds name = some d ∧ d.parent = some parent) ∧ IsNode ds parent

/-- How many times extends can be followed from a name: the length of the longest chain above it. -/
noncomputable def height (ds : List Definition) (name : String) : ℕ∞ :=
  ⨆ above : {above : List String // List.IsChain (Extends ds) (name :: above)},
    (above.1.length : ℕ∞)

/-- A name is on a circle, or below one. -/
def Circular (ds : List Definition) (name : String) : Prop :=
  ∃ above, ReflTransGen (Extends ds) name above ∧ TransGen (Extends ds) above above

/-- A report is what the definitions say, with depths up to a limit. -/
structure Exact (limit : Nat) (ds : List Definition) (r : HierarchyReport) : Prop where
  /-- There is an entry for exactly the names of node definitions. -/
  annotated : ∀ name, r.annotations.contains name = true ↔ IsNode ds name
  /-- The depth of a type is the number of times that extends can be followed, up to the limit. -/
  depth : ∀ {name entry}, r.annotations.get? name = some entry →
    (entry.depth : ℕ∞) = min (limit : ℕ∞) (height ds name)
  /-- On and below a circle the depth is the limit. -/
  depth_circular : ∀ {name entry}, r.annotations.get? name = some entry → Circular ds name →
    entry.depth = limit
  /-- Relationship definitions count at their source and at their target. -/
  relationshipCount : ∀ {name entry}, r.annotations.get? name = some entry →
    entry.relationshipCount =
      (ds.countP fun d => d.kind = .relationship ∧ d.endpoints.map (·.source) = some name) +
        ds.countP fun d => d.kind = .relationship ∧ d.endpoints.map (·.target) = some name
  /-- The circles are listed in order. -/
  cycles_sorted : r.cycles.Pairwise (· < ·)
  /-- So are the members of each. -/
  members_sorted : ∀ circle ∈ r.cycles, circle.Pairwise (· < ·)
  /-- No two circles have a name in common. -/
  cycles_disjoint : r.cycles.Pairwise List.Disjoint
  /-- A name is on a circle if following extends from it comes back to it. -/
  mem_cycle_iff : ∀ name, (∃ circle ∈ r.cycles, name ∈ circle) ↔ TransGen (Extends ds) name name
  /-- Two names are on one circle if each is reached from the other. -/
  same_cycle_iff : ∀ name other, (∃ circle ∈ r.cycles, name ∈ circle ∧ other ∈ circle) ↔
    TransGen (Extends ds) name other ∧ TransGen (Extends ds) other name

/-! ### Chains and walks -/

theorem get?_nodes_eq_definition? (ds : List Definition) (name : String) :
    (nodes ds).get? name = definition? ds name := get?_nodes ds name

/-- The walk of the report follows extends. -/
theorem parent?_eq_some_iff_extends :
    (lineage (nodes ds)).parent? name = some parent ↔ Extends ds name parent := by
  rw [lineage_parent?_eq_some_iff, contains_nodes, get?_nodes_eq_definition?]
  constructor
  · rintro ⟨d, hd, hparent, hnode⟩
    exact ⟨⟨d, hd, hparent⟩, hnode⟩
  · rintro ⟨⟨d, hd, hparent⟩, hnode⟩
    exact ⟨d, hd, hparent, hnode⟩

theorem parent?_eq_extends :
    (fun name parent => (lineage (nodes ds)).parent? name = some parent) = Extends ds :=
  funext fun _ => funext fun _ => propext parent?_eq_some_iff_extends

/-- A walk of some length is a chain of that length. -/
theorem exists_ascend_iff {n : Nat} :
    (∃ top, (lineage (nodes ds)).ascend n name = some top) ↔
      ∃ above : List String, above.length = n ∧ List.IsChain (Extends ds) (name :: above) := by
  induction n generalizing name with
  | zero =>
      refine ⟨fun _ => ⟨[], rfl, .singleton name⟩, fun _ => ⟨name, rfl⟩⟩
  | succ n ih =>
      constructor
      · rintro ⟨top, htop⟩
        obtain ⟨parent, hparent, hrest⟩ := Option.bind_eq_some_iff.mp htop
        obtain ⟨above, rfl, hchain⟩ := ih.mp ⟨top, hrest⟩
        exact ⟨parent :: above, rfl,
          hchain.cons_cons (parent?_eq_some_iff_extends.mp hparent)⟩
      · rintro ⟨_ | ⟨parent, above⟩, hlength, hchain⟩
        · cases hlength
        · obtain ⟨hparent, hchain⟩ := List.isChain_cons_cons.mp hchain
          obtain ⟨top, htop⟩ := ih.mpr ⟨above, Nat.succ.inj hlength, hchain⟩
          refine ⟨top, ?_⟩
          rw [Lineage.ascend_succ, parent?_eq_some_iff_extends.mpr hparent, Option.bind_some, htop]

/-- The chains from a name are as long as the walk from it can be continued. -/
theorem le_height_iff {n : Nat} :
    (n : ℕ∞) ≤ height ds name ↔ ∃ top, (lineage (nodes ds)).ascend n name = some top := by
  constructor
  · intro h
    cases n with
    | zero => exact ⟨name, rfl⟩
    | succ n =>
        rw [Nat.cast_succ, ENat.add_one_le_iff (ENat.natCast_ne_top n), height, lt_iSup_iff] at h
        obtain ⟨⟨above, hchain⟩, hlt⟩ := h
        obtain ⟨top, htop⟩ := exists_ascend_iff.mpr ⟨above, rfl, hchain⟩
        exact Lineage.exists_ascend_of_le htop (Nat.cast_lt.mp hlt)
  · intro h
    obtain ⟨above, rfl, hchain⟩ := exists_ascend_iff.mp h
    exact le_iSup_of_le ⟨above, hchain⟩ le_rfl

/-- There are chains of every length exactly on and below circles. -/
theorem height_eq_top_iff : height ds name = ⊤ ↔ Circular ds name := by
  rw [ENat.eq_top_iff_forall_ge]
  simp only [le_height_iff]
  rw [(closed_lineage (nodes ds)).endless_iff]
  simp only [Lineage.reaches_iff_reflTransGen, Lineage.onCycle_iff, parent?_eq_extends]
  rfl

/-- The reported depth is the length of the longest chain, up to the limit. -/
theorem depthUpTo_eq_min_height (limit : Nat) (name : String) :
    ((lineage (nodes ds)).depthUpTo limit name : ℕ∞) = min (limit : ℕ∞) (height ds name) := by
  refine ENat.eq_of_forall_natCast_le_iff fun n => ?_
  rw [le_min_iff, le_height_iff, Nat.cast_le, Nat.cast_le, Lineage.le_depthUpTo_iff]

/-! ### The report -/

theorem same_cycle_iff_transGen {limit : Nat} {other : String} :
    (∃ circle ∈ (report limit ds).cycles, name ∈ circle ∧ other ∈ circle) ↔
      TransGen (Extends ds) name other ∧ TransGen (Extends ds) other name := by
  rw [← parent?_eq_extends, Lineage.transGen_and_back_iff]
  exact (closed_lineage (nodes ds)).exists_mem_cycles_iff

/-- **The report is exact on every list of definitions**, whatever chains they make: the entries are
those of the node definitions, with the depths that the chains have and the relationship ends that
the definitions have, and the circles are the classes of names that are reached from each other. -/
theorem report_exact (limit : Nat) (ds : List Definition) :
    Exact limit ds (report limit ds) ∧
      ∀ name, height ds name = ⊤ ↔ Circular ds name := by
  have hentry {name : String} {entry : HierarchyEntry}
      (h : (report limit ds).annotations.get? name = some entry) :
      ⟨(lineage (nodes ds)).depthUpTo limit name, (ends ds).count name⟩ = entry := by
    rw [get?_annotations] at h
    obtain ⟨-, -, hentry⟩ := Option.map_eq_some_iff.mp h
    exact hentry
  have hdepth {name : String} {entry : HierarchyEntry}
      (h : (report limit ds).annotations.get? name = some entry) :
      (entry.depth : ℕ∞) = min (limit : ℕ∞) (height ds name) := by
    rw [← hentry h, depthUpTo_eq_min_height]
  have hclosed := closed_lineage (nodes ds)
  have hsorted : (report limit ds).cycles.Pairwise (· < ·) :=
    Lineage.pairwise_cycles (SortedMap.keys_sorted (nodes ds))
  refine ⟨{ annotated := fun name => ?annotated, depth := hdepth, depth_circular := ?depth_circular,
            relationshipCount := ?relationshipCount, cycles_sorted := hsorted,
            members_sorted := ?members_sorted, cycles_disjoint := ?cycles_disjoint,
            mem_cycle_iff := fun name => ?mem_cycle_iff,
            same_cycle_iff := fun _ _ => same_cycle_iff_transGen },
    fun _ => height_eq_top_iff⟩
  case annotated =>
    rw [contains_annotations_iff, ← contains_nodes_iff, contains_nodes]
  case depth_circular =>
    intro name entry h hcircular
    have hmin := hdepth h
    rw [height_eq_top_iff.mpr hcircular, min_top_right] at hmin
    exact Nat.cast_inj.mp hmin
  case relationshipCount =>
    intro name entry h
    rw [← hentry h, count_ends]
  case members_sorted =>
    intro circle hcircle
    obtain ⟨-, members, -, -, rfl⟩ := hclosed.mem_cycles_iff.mp hcircle
    exact SortedMap.keys_sorted _
  case cycles_disjoint =>
    -- circles that meet are the same, and no circle is listed twice
    refine hsorted.imp_of_mem fun {circle circle'} hcircle hcircle' hlt name hname hname' => ?_
    have heq := (hclosed.mem_cycles_iff.mp hcircle).eq_of_mem
      (hclosed.mem_cycles_iff.mp hcircle') hname hname'
    exact lt_irrefl circle' (heq ▸ hlt)
  case mem_cycle_iff =>
    have hself : (∃ circle ∈ (report limit ds).cycles, name ∈ circle ∧ name ∈ circle) ↔ _ :=
      same_cycle_iff_transGen
    simpa only [and_self] using hself

/-- A type that extends itself, a chain that leads into a circle of two, a chain that is longer than
the limit, and one that ends at a name that only a relationship type has. -/
example :
    let ds := [(Definition.node "Self").extending "Self",
      (Definition.node "Hen").extending "Egg", (Definition.node "Egg").extending "Hen",
      (Definition.node "Chick").extending "Egg",
      .node "A", (Definition.node "B").extending "A", (Definition.node "C").extending "B",
      (Definition.node "D").extending "C", (Definition.node "Orphan").extending "Likes",
      .relationship "Likes" ⟨"Hen", "Hen", "LIKES"⟩]
    (report 2 ds).annotations.entries =
        [("A", ⟨0, 0⟩), ("B", ⟨1, 0⟩), ("C", ⟨2, 0⟩), ("Chick", ⟨2, 0⟩), ("D", ⟨2, 0⟩),
          ("Egg", ⟨2, 0⟩), ("Hen", ⟨2, 2⟩), ("Orphan", ⟨0, 0⟩), ("Self", ⟨2, 0⟩)] ∧
      (report 2 ds).cycles = [["Egg", "Hen"], ["Self"]] := by
  decide

end LiveSchema.Hierarchy
