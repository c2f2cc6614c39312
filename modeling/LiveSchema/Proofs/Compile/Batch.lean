import LiveSchema.Compile.Batch
import LiveSchema.Proofs.Lineage

/-!
# LiveSchema.Proofs.Compile.Batch

What a batch of units holds, and when nothing is wrong with its structure.

Units are added one by one, and a unit whose place is taken is left out. So a batch holds the first
type unit of each name and the first piece of helper code of each kind and owner
(`get?_types_ofUnits`, `get?_helpers_ofUnits`), and nothing is left out exactly when names and
owners are pairwise distinct (`leftOut_eq_nil_iff`). The checks of a batch that is built this way
each come to a condition on its units (`structureErrors_eq_nil_iff`).
-/

namespace LiveSchema

namespace SourceUnit

@[simp] theorem types_nil : types [] = [] := rfl

@[simp] theorem types_type (u : TypeUnit) (rest : List SourceUnit) :
    types (.type u :: rest) = u :: types rest := rfl

@[simp] theorem types_helper (h : HelperUnit) (rest : List SourceUnit) :
    types (.helper h :: rest) = types rest := rfl

@[simp] theorem helpers_nil : helpers [] = [] := rfl

@[simp] theorem helpers_type (u : TypeUnit) (rest : List SourceUnit) :
    helpers (.type u :: rest) = helpers rest := rfl

@[simp] theorem helpers_helper (h : HelperUnit) (rest : List SourceUnit) :
    helpers (.helper h :: rest) = h :: helpers rest := rfl

end SourceUnit

/-- The type that a piece of helper code belongs to: its kind and its name. -/
def HelperUnit.key (h : HelperUnit) : Kind × String := (h.ownerKind, h.owner)

namespace Batch

variable {b : Batch} {c : Compiler}

/-! ### Adding one unit -/

@[simp] theorem types_setHelpers (b : Batch) (kind : Kind) (hs : SortedMap String HelperUnit) :
    (b.setHelpers kind hs).types = b.types := by
  cases kind <;> rfl

@[simp] theorem helpers_setHelpers (b : Batch) (kind kind' : Kind)
    (hs : SortedMap String HelperUnit) :
    (b.setHelpers kind hs).helpers kind' = if kind = kind' then hs else b.helpers kind' := by
  cases kind <;> cases kind' <;> rfl

@[simp] theorem helpers_withTypes (b : Batch) (ts : SortedMap String TypeUnit) (kind : Kind) :
    ({ b with types := ts } : Batch).helpers kind = b.helpers kind := by
  cases kind <;> rfl

/-- A type unit is left out if its name is taken. -/
theorem addAll_type (b : Batch) (u : TypeUnit) (rest : List SourceUnit) :
    b.addAll (.type u :: rest) =
      match b.types.get? u.name with
      | some _ => ((b.addAll rest).1, .duplicateType u.name :: (b.addAll rest).2)
      | none => { b with types := b.types.insert u.name u }.addAll rest := by
  rw [addAll, add, SortedMap.contains]
  cases b.types.get? u.name <;> rfl

/-- Helper code is left out if its owner has some already. -/
theorem addAll_helper (b : Batch) (h : HelperUnit) (rest : List SourceUnit) :
    b.addAll (.helper h :: rest) =
      match (b.helpers h.ownerKind).get? h.owner with
      | some _ => ((b.addAll rest).1, .duplicateHelper h.name :: (b.addAll rest).2)
      | none =>
        (b.setHelpers h.ownerKind ((b.helpers h.ownerKind).insert h.owner h)).addAll rest := by
  rw [addAll, add, SortedMap.contains]
  cases (b.helpers h.ownerKind).get? h.owner <;> rfl

/-! ### What a batch holds -/

/-- Of the type units of a name the first stays. -/
theorem get?_types_addAll (b : Batch) (units : List SourceUnit) (name : String) :
    (b.addAll units).1.types.get? name =
      (b.types.get? name).or ((SourceUnit.types units).find? (·.name = name)) := by
  induction units generalizing b with
  | nil => simp [addAll]
  | cons unit rest ih =>
      cases unit with
      | type u =>
          rw [addAll_type, SourceUnit.types_type, List.find?_cons]
          cases hu : b.types.get? u.name with
          | some other =>
              -- the unit is left out, and the one before it is found first
              rw [ih]
              by_cases hn : u.name = name
              · rw [← hn, hu, Option.some_or, Option.some_or]
              · simp [hn]
          | none =>
              rw [ih]
              by_cases hn : u.name = name
              · subst hn
                simp [hu]
              · simp [hn, SortedMap.get?_insert_ne _ _ hn]
      | helper h =>
          rw [addAll_helper, SourceUnit.types_helper]
          cases (b.helpers h.ownerKind).get? h.owner with
          | some other => exact ih b
          | none => rw [ih, types_setHelpers]

/-- Of the helper code of a kind and owner the first stays. -/
theorem get?_helpers_addAll (b : Batch) (units : List SourceUnit) (kind : Kind) (owner : String) :
    ((b.addAll units).1.helpers kind).get? owner =
      ((b.helpers kind).get? owner).or
        ((SourceUnit.helpers units).find? (·.key = (kind, owner))) := by
  induction units generalizing b with
  | nil => simp [addAll]
  | cons unit rest ih =>
      cases unit with
      | type u =>
          rw [addAll_type, SourceUnit.helpers_type]
          cases b.types.get? u.name with
          | some other => exact ih b
          | none => rw [ih, helpers_withTypes]
      | helper h =>
          rw [addAll_helper, SourceUnit.helpers_helper, List.find?_cons]
          by_cases hk : h.key = (kind, owner)
          · obtain ⟨rfl, rfl⟩ : h.ownerKind = kind ∧ h.owner = owner := by
              simpa [HelperUnit.key] using hk
            cases hh : (b.helpers h.ownerKind).get? h.owner with
            | some other => rw [ih, hh, Option.some_or, Option.some_or]
            | none => simp [ih, hk]
          · cases hh : (b.helpers h.ownerKind).get? h.owner with
            | some other => simp [ih, hk]
            | none =>
                rw [ih, helpers_setHelpers]
                by_cases hkind : h.ownerKind = kind
                · subst hkind
                  have howner : h.owner ≠ owner := fun e => hk (by rw [HelperUnit.key, e])
                  simp [hk, SortedMap.get?_insert_ne _ _ howner]
                · simp [hk, hkind]

theorem get?_types_ofUnits (units : List SourceUnit) (name : String) :
    (ofUnits units).1.types.get? name = (SourceUnit.types units).find? (·.name = name) := by
  rw [ofUnits, get?_types_addAll, SortedMap.get?_empty, Option.none_or]

theorem get?_helpers_ofUnits (units : List SourceUnit) (kind : Kind) (owner : String) :
    ((ofUnits units).1.helpers kind).get? owner =
      (SourceUnit.helpers units).find? (·.key = (kind, owner)) := by
  have hempty : (({} : Batch).helpers kind).get? owner = none := by cases kind <;> rfl
  rw [ofUnits, get?_helpers_addAll, hempty, Option.none_or]

/-- Once `x` has taken its place, the others find a free place exactly when they had one before and
none of them wants the place of `x`. -/
theorem nodup_and_free_cons_iff {α β : Type} {key : α → β} {free free' : α → Prop} {x : α}
    {rest : List α} (hx : free x) (h : ∀ y, free' y ↔ key y ≠ key x ∧ free y) :
    ((rest.map key).Nodup ∧ ∀ y ∈ rest, free' y) ↔
      ((x :: rest).map key).Nodup ∧ ∀ y ∈ x :: rest, free y := by
  rw [List.map_cons, List.nodup_cons, List.forall_mem_cons]
  simp only [h]
  constructor
  · rintro ⟨hnodup, hfree⟩
    refine ⟨⟨fun hmem => ?_, hnodup⟩, hx, fun y hy => (hfree y hy).2⟩
    obtain ⟨y, hy, hkey⟩ := List.mem_map.mp hmem
    exact (hfree y hy).1 hkey
  · rintro ⟨⟨hnew, hnodup⟩, -, hfree⟩
    exact ⟨hnodup, fun y hy => ⟨fun e => hnew (List.mem_map.mpr ⟨y, hy, e⟩), hfree y hy⟩⟩

/-- A name is free after a type unit was added if it was free before and is not the unit's. -/
theorem get?_insert_type_eq_none_iff (b : Batch) (u v : TypeUnit) :
    (b.types.insert u.name u).get? v.name = none ↔
      v.name ≠ u.name ∧ b.types.get? v.name = none := by
  rw [SortedMap.get?_insert]
  by_cases hn : u.name = v.name
  · simp [hn]
  · simp [hn, Ne.symm hn]

theorem get?_setHelpers_eq_none_iff (b : Batch) (h h' : HelperUnit) :
    ((b.setHelpers h.ownerKind ((b.helpers h.ownerKind).insert h.owner h)).helpers
        h'.ownerKind).get? h'.owner = none ↔
      h'.key ≠ h.key ∧ (b.helpers h'.ownerKind).get? h'.owner = none := by
  rw [helpers_setHelpers]
  by_cases hkind : h.ownerKind = h'.ownerKind
  · rw [if_pos hkind, SortedMap.get?_insert]
    by_cases howner : h.owner = h'.owner
    · simp [howner, hkind, HelperUnit.key]
    · simp [howner, Ne.symm howner, hkind, HelperUnit.key]
  · simp [hkind, Ne.symm hkind, HelperUnit.key]

/-- Nothing is left out exactly when all places are new and different. -/
theorem leftOut_addAll_eq_nil_iff (b : Batch) (units : List SourceUnit) :
    (b.addAll units).2 = [] ↔
      (((SourceUnit.types units).map (·.name)).Nodup ∧
        ∀ u ∈ SourceUnit.types units, b.types.get? u.name = none) ∧
      ((SourceUnit.helpers units).map HelperUnit.key).Nodup ∧
        ∀ h ∈ SourceUnit.helpers units, (b.helpers h.ownerKind).get? h.owner = none := by
  induction units generalizing b with
  | nil => simp [addAll]
  | cons unit rest ih =>
      cases unit with
      | type u =>
          rw [addAll_type]
          cases hu : b.types.get? u.name with
          | some other => simp [hu]
          | none =>
              dsimp only
              rw [ih, SourceUnit.types_type, SourceUnit.helpers_type]
              simp only [helpers_withTypes]
              exact and_congr_left fun _ =>
                nodup_and_free_cons_iff hu (get?_insert_type_eq_none_iff b u)
      | helper h =>
          rw [addAll_helper]
          cases hh : (b.helpers h.ownerKind).get? h.owner with
          | some other => simp [hh]
          | none =>
              dsimp only
              rw [ih, SourceUnit.types_helper, SourceUnit.helpers_helper, types_setHelpers]
              exact and_congr_right fun _ =>
                nodup_and_free_cons_iff hh (get?_setHelpers_eq_none_iff b h)

/-- No unit is left out exactly when type names, and kinds and owners of helper code, are pairwise
distinct. -/
theorem leftOut_eq_nil_iff (units : List SourceUnit) :
    (ofUnits units).2 = [] ↔
      ((SourceUnit.types units).map (·.name)).Nodup ∧
        ((SourceUnit.helpers units).map HelperUnit.key).Nodup := by
  rw [ofUnits, leftOut_addAll_eq_nil_iff]
  have hempty : ∀ kind owner, (({} : Batch).helpers kind).get? owner = none := by
    intro kind owner
    cases kind <;> rfl
  simp [hempty]

theorem find?_eq_some_iff_of_nodup {α β : Type} [DecidableEq β] {key : α → β} {l : List α}
    (h : (l.map key).Nodup) {k : β} {a : α} :
    l.find? (key · = k) = some a ↔ a ∈ l ∧ key a = k := by
  induction l with
  | nil => simp
  | cons x rest ih =>
      obtain ⟨hx, hrest⟩ := List.nodup_cons.mp h
      rw [List.find?_cons]
      by_cases hk : key x = k
      · have hout : ∀ a ∈ rest, key a ≠ k := fun a ha e =>
          hx (List.mem_map.mpr ⟨a, ha, e.trans hk.symm⟩)
        simp only [hk, decide_true, Option.some.injEq, List.mem_cons]
        constructor
        · rintro rfl
          exact ⟨Or.inl rfl, hk⟩
        · rintro ⟨rfl | ha, hak⟩
          · rfl
          · exact absurd hak (hout a ha)
      · simp only [hk, decide_false, ih hrest, List.mem_cons]
        constructor
        · exact fun ⟨ha, hak⟩ => ⟨Or.inr ha, hak⟩
        · rintro ⟨rfl | ha, hak⟩
          · exact absurd hak hk
          · exact ⟨ha, hak⟩

/-- With distinct names a batch holds every type unit. -/
theorem get?_types_eq_some_iff {units : List SourceUnit}
    (h : ((SourceUnit.types units).map (·.name)).Nodup) {name : String} {u : TypeUnit} :
    (ofUnits units).1.types.get? name = some u ↔ u ∈ SourceUnit.types units ∧ u.name = name := by
  rw [get?_types_ofUnits]
  exact find?_eq_some_iff_of_nodup h

/-- With distinct owners a batch holds every piece of helper code. -/
theorem get?_helpers_eq_some_iff {units : List SourceUnit}
    (hu : ((SourceUnit.helpers units).map HelperUnit.key).Nodup) {kind : Kind} {owner : String}
    {h : HelperUnit} :
    ((ofUnits units).1.helpers kind).get? owner = some h ↔
      h ∈ SourceUnit.helpers units ∧ h.key = (kind, owner) := by
  rw [get?_helpers_ofUnits]
  exact find?_eq_some_iff_of_nodup hu

theorem get?_types_eq_none_iff {units : List SourceUnit} {name : String} :
    (ofUnits units).1.types.get? name = none ↔ ∀ u ∈ SourceUnit.types units, u.name ≠ name := by
  rw [get?_types_ofUnits, List.find?_eq_none]
  simp

/-! ### Batches keyed by name -/

/-- Every type of the batch stands under its own name. -/
def Keyed (b : Batch) : Prop := ∀ {name u}, b.types.get? name = some u → u.name = name

theorem keyed_ofUnits (units : List SourceUnit) : (ofUnits units).1.Keyed := by
  intro name u h
  rw [get?_types_ofUnits] at h
  simpa using List.find?_some h

theorem parentUnit?_eq_some_iff {u p : TypeUnit} :
    b.parentUnit? u = some p ↔
      ∃ name, u.parent = some name ∧ b.types.get? name = some p ∧ p.kind = u.kind := by
  rw [parentUnit?]
  cases hp : u.parent with
  | none => simp
  | some name =>
      cases hq : b.types.get? name with
      | none => simp [hq]
      | some q =>
          by_cases hkind : q.kind = u.kind
          · simp only [Option.bind_some, hq, if_pos hkind, Option.some.injEq]
            constructor
            · rintro rfl
              exact ⟨name, rfl, hq, hkind⟩
            · rintro ⟨_, rfl, hq', -⟩
              exact Option.some.inj (hq.symm.trans hq')
          · simp only [Option.bind_some, hq, if_neg hkind, reduceCtorEq, false_iff,
              Option.some.injEq]
            rintro ⟨_, rfl, hq', hkind'⟩
            obtain rfl := Option.some.inj (hq.symm.trans hq')
            exact hkind hkind'

/-- One type is above another in the lineage of the batch if it is the parent of its unit. -/
theorem lineage_parent?_eq_some_iff {name above : String} :
    b.lineage.parent? name = some above ↔
      ∃ u p, b.types.get? name = some u ∧ b.parentUnit? u = some p ∧ p.name = above := by
  simp only [lineage, Option.map_eq_some_iff, Option.bind_eq_some_iff]
  constructor
  · rintro ⟨p, ⟨u, hu, hp⟩, rfl⟩
    exact ⟨u, p, hu, hp, rfl⟩
  · rintro ⟨u, p, hu, hp, rfl⟩
    exact ⟨p, ⟨u, hu, hp⟩, rfl⟩

theorem mem_lineage_names_iff {name : String} :
    name ∈ b.lineage.names ↔ ∃ u, b.types.get? name = some u := SortedMap.mem_keys_iff

/-- The lineage of a batch stays within the batch. -/
theorem Keyed.closed (hk : b.Keyed) : b.lineage.Closed where
  child_mem h := by
    obtain ⟨u, p, hu, -, -⟩ := lineage_parent?_eq_some_iff.mp h
    exact mem_lineage_names_iff.mpr ⟨u, hu⟩
  parent_mem h := by
    obtain ⟨u, p, -, hp, rfl⟩ := lineage_parent?_eq_some_iff.mp h
    obtain ⟨name, -, hget, -⟩ := parentUnit?_eq_some_iff.mp hp
    exact mem_lineage_names_iff.mpr ⟨p, hk hget ▸ hget⟩

/-! ### When nothing is wrong with the structure -/

theorem isNodeType_iff {name : String} :
    b.isNodeType c name = true ↔
      (∃ u, b.types.get? name = some u ∧ u.kind = .node) ∨
        (b.types.get? name = none ∧ c.baseKind? name = some .node) := by
  rw [isNodeType]
  cases b.types.get? name <;> simp

theorem orphansOf_eq_nil_iff {kind : Kind} :
    b.orphansOf kind = [] ↔
      ∀ owner h, (b.helpers kind).get? owner = some h →
        ∃ u, b.types.get? owner = some u ∧ u.kind = kind := by
  simp only [orphansOf, List.filterMap_eq_nil_iff, Prod.forall, SortedMap.mem_entries_iff]
  refine forall_congr' fun owner => forall_congr' fun h => imp_congr_right fun _ => ?_
  rw [ite_eq_left_iff]
  simp only [reduceCtorEq, imp_false, not_not, Option.map_eq_some_iff]

theorem referenceErrors_eq_nil_iff {u : TypeUnit} :
    b.referenceErrors c u = [] ↔
      ∀ f ∈ u.fields, ∀ target, f.type.referenced? = some target →
        b.isNodeType c target = true := by
  rw [referenceErrors, List.filterMap_eq_nil_iff]
  refine forall_congr' fun f => imp_congr_right fun _ => ?_
  cases f.type.referenced? with
  | none => simp
  | some target => simp

theorem endpointErrors_eq_nil_iff {u : TypeUnit} :
    b.endpointErrors c u = [] ↔
      ∀ e, u.endpoints = some e →
        b.isNodeType c e.source = true ∧ b.isNodeType c e.target = true := by
  rw [endpointErrors]
  cases u.endpoints with
  | none => simp
  | some e =>
      rw [List.map_eq_nil_iff, List.filter_eq_nil_iff]
      simp

theorem parentErrors_eq_nil_iff {u : TypeUnit} :
    b.parentErrors c u = [] ↔
      ∀ name, u.parent = some name →
        (∃ p, b.types.get? name = some p ∧ p.kind = u.kind) ∨
          (b.types.get? name = none ∧ c.baseKind? name = some u.kind) := by
  rw [parentErrors]
  cases u.parent with
  | none => simp
  | some name =>
      cases hp : b.types.get? name with
      | some p => simp [hp]
      | none => cases hbase : c.baseKind? name <;> simp [hp, hbase]

/-- Nothing is wrong with the structure of a batch when every piece of helper code has its owner,
every reference, endpoint and parent is what it has to be, and no type is above itself. -/
theorem structureErrors_eq_nil_iff (hk : b.Keyed) :
    b.structureErrors c = [] ↔
      (∀ kind owner h, (b.helpers kind).get? owner = some h →
        ∃ u, b.types.get? owner = some u ∧ u.kind = kind) ∧
      (∀ name u, b.types.get? name = some u →
        b.referenceErrors c u = [] ∧ b.endpointErrors c u = [] ∧ b.parentErrors c u = []) ∧
      b.lineage.Acyclic := by
  rw [structureErrors, List.append_eq_nil_iff, List.append_eq_nil_iff, List.map_eq_nil_iff,
    hk.closed.cycles_eq_nil_iff, orphans, List.append_eq_nil_iff, orphansOf_eq_nil_iff,
    orphansOf_eq_nil_iff, List.flatMap_eq_nil_iff, and_assoc]
  refine and_congr ?_ (and_congr_left fun _ => ?_)
  · constructor
    · rintro ⟨hnode, hrel⟩ kind
      cases kind with
      | node => exact hnode
      | relationship => exact hrel
    · exact fun h => ⟨h .node, h .relationship⟩
  · simp only [SortedMap.mem_values_iff, List.append_eq_nil_iff, and_assoc]
    exact ⟨fun h name u hu => h u ⟨name, hu⟩, fun h u ⟨name, hu⟩ => h name u hu⟩

end Batch

end LiveSchema
