import LiveSchema.Proofs.Compile.Acceptance
import Mathlib.Data.List.Sort

/-!
# LiveSchema.Proofs.Compile.Violations

Everything that is wrong with the structure of a batch, said of its units alone. Of the units for
one place the first is kept (`SourceUnit.kept`), and each of the others is a violation. The rest is
about the units that are kept: helper code without an owner, references, endpoints and parents that
do not fit (`Compiler.violations`), and circles of types of one kind (`SourceUnit.IsCircle`).

The compiler finds these in four passes over maps, each of which goes on after the errors of those
before it. That makes no difference: if there is any violation at all, what the compiler reports is
one error for each of them and nothing else (`Compiler.structure_report_exact`).
-/

namespace LiveSchema

open SourceUnit

/-! ### The units that are kept -/

/-- What a unit takes up in a batch: the name of a type, or the helper code of a type. -/
inductive Place where
  | type (name : String)
  | helper (kind : Kind) (owner : String)
deriving DecidableEq

namespace SourceUnit

/-- The place of a unit. -/
def place : SourceUnit → Place
  | .type u => .type u.name
  | .helper h => .helper h.ownerKind h.owner

/-- The units that find their place free, where some places are taken: of several for one place the
first. -/
def keptFrom (taken : List Place) : List SourceUnit → List SourceUnit
  | [] => []
  | unit :: rest =>
    if unit.place ∈ taken then keptFrom taken rest
    else unit :: keptFrom (unit.place :: taken) rest

/-- The units whose place is taken, or was by an earlier one of them. -/
def repeatedFrom (taken : List Place) : List SourceUnit → List SourceUnit
  | [] => []
  | unit :: rest =>
    if unit.place ∈ taken then unit :: repeatedFrom taken rest
    else repeatedFrom (unit.place :: taken) rest

/-- The first unit for each place. -/
def kept (units : List SourceUnit) : List SourceUnit := keptFrom [] units

/-- The units that are not the first for their place. -/
def repeated (units : List SourceUnit) : List SourceUnit := repeatedFrom [] units

/-- What is said of a unit whose place was taken earlier. -/
def duplicateError : SourceUnit → CompileError
  | .type u => .duplicateType u.name
  | .helper h => .duplicateHelper h.name

/-- A circle of types of one kind: the names of a type that comes back to itself and of those that
lie on its way, in order. -/
def IsCircle (units : List SourceUnit) (circle : List String) : Prop :=
  ∃ u, Relation.TransGen (Continues units) u u ∧ circle.Pairwise (· < ·) ∧
    ∀ name, name ∈ circle ↔ ∃ a, a.name = name ∧ Relation.ReflTransGen (Continues units) u a ∧
      Relation.ReflTransGen (Continues units) a u

end SourceUnit

/-! ### What is wrong with them -/

/-- Helper code belongs to a type of the batch. -/
def HelperUnit.Owned (units : List SourceUnit) (h : HelperUnit) : Prop :=
  ∃ u ∈ types units, (u.kind, u.name) = h.key

instance (units : List SourceUnit) (h : HelperUnit) : Decidable (h.Owned units) :=
  inferInstanceAs (Decidable (∃ u ∈ types units, _))

/-- What is said of helper code without an owner. -/
def HelperUnit.orphanError (h : HelperUnit) : CompileError :=
  .orphanHelper h.name h.owner h.ownerKind

namespace Compiler

variable (c : Compiler) (units : List SourceUnit)

instance (name : String) : Decidable (c.IsNodeType units name) :=
  inferInstanceAs (Decidable (_ ∨ _))

/-- A name is that of something of another kind: a type of the batch or, where there is none of the
name, a base. -/
def IsOfOtherKind (kind : Kind) (name : String) : Prop :=
  (∃ p ∈ types units, p.name = name ∧ p.kind ≠ kind) ∨
    ((∀ p ∈ types units, p.name ≠ name) ∧ ∃ other ∈ c.baseKind? name, other ≠ kind)

instance (kind : Kind) (name : String) : Decidable (c.IsOfOtherKind units kind name) :=
  inferInstanceAs (Decidable (_ ∨ _))

/-- A name is that of nothing. -/
def IsUnknown (name : String) : Prop :=
  (∀ p ∈ types units, p.name ≠ name) ∧ c.baseKind? name = none

instance (name : String) : Decidable (c.IsUnknown units name) :=
  inferInstanceAs (Decidable (_ ∧ _))

/-- The properties of a type that refer to something else than a node type. -/
def unresolvedReferences (u : TypeUnit) : List CompileError :=
  u.fields.flatMap fun f =>
    (f.type.referenced?.toList.filter (¬ c.IsNodeType units ·)).map
      (.unresolvedReference u.name f.name)

/-- The endpoints of a type that are no node types. -/
def unresolvedEndpoints (u : TypeUnit) : List CompileError :=
  u.endpoints.toList.flatMap fun e =>
    ([e.source, e.target].filter (¬ c.IsNodeType units ·)).map (.unresolvedEndpoint u.name)

/-- What a type extends, if that is of another kind. -/
def kindMismatches (u : TypeUnit) : List CompileError :=
  (u.parent.toList.filter (c.IsOfOtherKind units u.kind ·)).map (.kindMismatch u.name u.kind)

/-- What a type extends, if there is no such thing. -/
def unresolvedParents (u : TypeUnit) : List CompileError :=
  (u.parent.toList.filter (c.IsUnknown units ·)).map (.unresolvedParent u.name)

/-- Everything that is wrong with one type. -/
def typeViolations (u : TypeUnit) : List CompileError :=
  c.unresolvedReferences units u ++ c.unresolvedEndpoints units u ++ c.kindMismatches units u ++
    c.unresolvedParents units u

/-- Everything that is wrong with the structure of a batch, circles apart: the units that are not
kept, and what is wrong with those that are. -/
def violations : List CompileError :=
  (repeated units).map duplicateError ++
    ((helpers (kept units)).filter (¬ ·.Owned (kept units))).map HelperUnit.orphanError ++
    (types (kept units)).flatMap (c.typeViolations (kept units))

end Compiler

/-! ### A batch is that of the units it keeps -/

namespace Batch

variable {b : Batch}

/-- There is a unit of the batch in a place. -/
def Taken (b : Batch) : Place → Prop
  | .type name => ∃ u, b.types.get? name = some u
  | .helper kind owner => ∃ h, (b.helpers kind).get? owner = some h

theorem not_taken_empty (p : Place) : ¬ ({} : Batch).Taken p := by
  cases p with
  | type name => exact fun ⟨_, h⟩ => nomatch h
  | helper kind owner => cases kind <;> exact fun ⟨_, h⟩ => nomatch h

theorem taken_insert_iff (b : Batch) (u : TypeUnit) (p : Place) :
    ({ b with types := b.types.insert u.name u } : Batch).Taken p ↔
      p = .type u.name ∨ b.Taken p := by
  cases p with
  | type name =>
      by_cases hn : u.name = name
      · simp [Taken, hn]
      · simp [Taken, Ne.symm hn, SortedMap.get?_insert_ne _ _ hn]
  | helper kind owner => simp [Taken]

theorem taken_setHelpers_iff (b : Batch) (h : HelperUnit) (p : Place) :
    (b.setHelpers h.ownerKind ((b.helpers h.ownerKind).insert h.owner h)).Taken p ↔
      p = .helper h.ownerKind h.owner ∨ b.Taken p := by
  cases p with
  | type name => simp [Taken]
  | helper kind owner =>
      by_cases hkind : h.ownerKind = kind
      · subst hkind
        by_cases howner : h.owner = owner
        · simp [Taken, howner]
        · simp [Taken, Ne.symm howner, SortedMap.get?_insert_ne _ _ howner]
      · simp [Taken, hkind, Ne.symm hkind]

/-- A unit is refused if its place is taken, and else takes it. -/
theorem add_cases (b : Batch) (unit : SourceUnit) :
    (b.Taken unit.place ∧ b.add unit = .error unit.duplicateError) ∨
      (¬ b.Taken unit.place ∧ ∃ b', b.add unit = .ok b' ∧
        ∀ p, b'.Taken p ↔ p = unit.place ∨ b.Taken p) := by
  cases unit with
  | type u =>
      rw [add]
      cases hu : b.types.get? u.name with
      | some other =>
          rw [SortedMap.contains_iff.mpr ⟨other, hu⟩]
          exact .inl ⟨⟨other, hu⟩, rfl⟩
      | none =>
          rw [SortedMap.contains_eq_false_iff.mpr hu]
          refine .inr ⟨?_, _, rfl, taken_insert_iff b u⟩
          rintro ⟨_, h⟩
          cases hu.symm.trans h
  | helper h =>
      rw [add]
      cases hh : (b.helpers h.ownerKind).get? h.owner with
      | some other =>
          rw [SortedMap.contains_iff.mpr ⟨other, hh⟩]
          exact .inl ⟨⟨other, hh⟩, rfl⟩
      | none =>
          rw [SortedMap.contains_eq_false_iff.mpr hh]
          refine .inr ⟨?_, _, rfl, taken_setHelpers_iff b h⟩
          rintro ⟨_, h'⟩
          cases hh.symm.trans h'

/-- Adding units is adding those that find their place free, of which none is left out. -/
theorem addAll_eq {taken : List Place} (units : List SourceUnit)
    (h : ∀ p, b.Taken p ↔ p ∈ taken) :
    b.addAll units =
        ((b.addAll (keptFrom taken units)).1, (repeatedFrom taken units).map duplicateError) ∧
      (b.addAll (keptFrom taken units)).2 = [] := by
  -- on the units that are left: a unit that is added takes its place in the batch and in the list
  induction units generalizing b taken with
  | nil => exact ⟨rfl, rfl⟩
  | cons unit rest ih =>
      rw [keptFrom, repeatedFrom]
      rcases b.add_cases unit with ⟨htaken, hadd⟩ | ⟨hfree, b', hadd, hplaces⟩
      · have hmem : unit.place ∈ taken := (h _).mp htaken
        obtain ⟨heq, hnone⟩ := ih h
        rw [if_pos hmem, if_pos hmem, addAll, hadd]
        dsimp only
        rw [heq]
        exact ⟨rfl, hnone⟩
      · have hmem : unit.place ∉ taken := fun hin => hfree ((h _).mpr hin)
        have htaken : ∀ p, b'.Taken p ↔ p ∈ unit.place :: taken := fun p => by
          rw [hplaces, h, List.mem_cons]
        obtain ⟨heq, hnone⟩ := ih htaken
        rw [if_neg hmem, if_neg hmem, addAll, addAll, hadd]
        exact ⟨heq, hnone⟩

/-- The batch of some units is that of the units that are kept, and the others are left out. -/
theorem ofUnits_eq (units : List SourceUnit) :
    ofUnits units = ((ofUnits (kept units)).1, (repeated units).map duplicateError) ∧
      (ofUnits (kept units)).2 = [] :=
  addAll_eq units fun p => iff_of_false (not_taken_empty p) List.not_mem_nil

/-- Names and owners of the units that are kept are pairwise distinct. -/
theorem nodup_kept (units : List SourceUnit) :
    ((SourceUnit.types (kept units)).map (·.name)).Nodup ∧
      ((SourceUnit.helpers (kept units)).map HelperUnit.key).Nodup :=
  (leftOut_eq_nil_iff (kept units)).mp (ofUnits_eq units).2

/-! ### The checks of a batch -/

section Checks

variable {units : List SourceUnit} {c : Compiler}

/-- The types of a batch are its type units. -/
theorem values_types_perm (hn : ((SourceUnit.types units).map (·.name)).Nodup) :
    (ofUnits units).1.types.values.Perm (SourceUnit.types units) :=
  SortedMap.values_perm (keyed_ofUnits units) hn.of_map fun _ =>
    (get?_types_eq_some_iff hn).trans (and_iff_left rfl)

/-- The helper code of a batch for a kind is that of its helper units of the kind. -/
theorem values_helpers_perm (ho : ((SourceUnit.helpers units).map HelperUnit.key).Nodup)
    (kind : Kind) :
    ((ofUnits units).1.helpers kind).values.Perm
      ((SourceUnit.helpers units).filter (·.ownerKind = kind)) := by
  refine SortedMap.values_perm (f := HelperUnit.owner) (fun h => ?_) (ho.of_map.filter _)
    fun h => ?_
  · obtain ⟨-, hkey⟩ := (get?_helpers_eq_some_iff ho).mp h
    exact (Prod.mk.inj hkey).2
  · rw [get?_helpers_eq_some_iff ho, List.mem_filter, decide_eq_true_eq]
    simp [HelperUnit.key]

/-- Helper code is an orphan where no type of the batch is its owner. -/
theorem owned_iff (hn : ((SourceUnit.types units).map (·.name)).Nodup) {h : HelperUnit} :
    ((ofUnits units).1.types.get? h.owner).map (·.kind) = some h.ownerKind ↔ h.Owned units := by
  simp only [Option.map_eq_some_iff, get?_types_eq_some_iff hn, HelperUnit.Owned, HelperUnit.key,
    Prod.mk.injEq]
  refine exists_congr fun u => ?_
  rw [and_assoc]
  exact and_congr_right fun _ => and_comm

theorem orphansOf_perm (hn : ((SourceUnit.types units).map (·.name)).Nodup)
    (ho : ((SourceUnit.helpers units).map HelperUnit.key).Nodup) (kind : Kind) :
    ((ofUnits units).1.orphansOf kind).Perm
      ((((SourceUnit.helpers units).filter (·.ownerKind = kind)).filter
        (¬ ·.Owned units)).map HelperUnit.orphanError) := by
  have howner : ∀ {owner h}, ((ofUnits units).1.helpers kind).get? owner = some h →
      h.owner = owner := fun h => (Prod.mk.inj ((get?_helpers_eq_some_iff ho).mp h).2).2
  refine .trans (.of_eq ?_) (((values_helpers_perm ho kind).filter _).map _)
  rw [orphansOf, SortedMap.entries_eq_map howner, List.filterMap_map, ← List.filterMap_eq_map,
    List.filterMap_filter]
  refine List.filterMap_congr fun h hh => ?_
  obtain ⟨-, hkind⟩ := List.mem_filter.mp ((values_helpers_perm ho kind).mem_iff.mp hh)
  obtain rfl := of_decide_eq_true hkind
  rw [Function.comp_apply]
  dsimp only
  by_cases howned : h.Owned units
  · rw [if_pos ((owned_iff hn).mpr howned)]
    simp [howned]
  · rw [if_neg (mt (owned_iff hn).mp howned)]
    simp [howned, HelperUnit.orphanError]

/-- The orphans of a batch are its helper units without an owner. -/
theorem orphans_perm (hn : ((SourceUnit.types units).map (·.name)).Nodup)
    (ho : ((SourceUnit.helpers units).map HelperUnit.key).Nodup) :
    (ofUnits units).1.orphans.Perm
      (((SourceUnit.helpers units).filter (¬ ·.Owned units)).map HelperUnit.orphanError) := by
  have hsplit : (SourceUnit.helpers units).filter (·.ownerKind = .relationship) =
      (SourceUnit.helpers units).filter (fun h => !decide (h.ownerKind = .node)) :=
    List.filter_congr fun h _ => by cases h.ownerKind <;> rfl
  -- the batch goes through the kinds one after the other, so the order of the units is lost here
  refine ((orphansOf_perm hn ho .node).append (orphansOf_perm hn ho .relationship)).trans ?_
  rw [← List.map_append, ← List.filter_append, hsplit]
  exact ((List.filter_append_perm _ _).filter _).map _

theorem referenceErrors_eq (hn : ((SourceUnit.types units).map (·.name)).Nodup) (u : TypeUnit) :
    (ofUnits units).1.referenceErrors c u = c.unresolvedReferences units u := by
  rw [referenceErrors, Compiler.unresolvedReferences, List.filterMap_eq_flatMap_toList]
  congr 1
  funext f
  cases f.type.referenced? with
  | none => rfl
  | some target =>
      by_cases hnode : c.IsNodeType units target
      · simp [isNodeType_ofUnits_iff hn, hnode]
      · simp [isNodeType_ofUnits_iff hn, hnode]

theorem endpointErrors_eq (hn : ((SourceUnit.types units).map (·.name)).Nodup) (u : TypeUnit) :
    (ofUnits units).1.endpointErrors c u = c.unresolvedEndpoints units u := by
  have hnode : ∀ name, (!(ofUnits units).1.isNodeType c name) =
      decide (¬ c.IsNodeType units name) := fun name => by
    simp only [← isNodeType_ofUnits_iff hn, Bool.not_eq_true, Bool.decide_eq_false]
  rw [endpointErrors, Compiler.unresolvedEndpoints]
  simp only [hnode]
  cases u.endpoints with
  | none => rfl
  | some e => exact (List.append_nil _).symm

theorem isUnknown_iff (units : List SourceUnit) (c : Compiler) (name : String) :
    (((ofUnits units).1.types.get? name).map (·.kind) <|> c.baseKind? name) = none ↔
      c.IsUnknown units name := by
  rw [Compiler.IsUnknown, ← get?_types_eq_none_iff]
  cases (ofUnits units).1.types.get? name <;> simp

theorem isOfOtherKind_iff (hn : ((SourceUnit.types units).map (·.name)).Nodup) (c : Compiler)
    (kind : Kind) (name : String) :
    (∃ other, (((ofUnits units).1.types.get? name).map (·.kind) <|> c.baseKind? name) =
        some other ∧ other ≠ kind) ↔
      c.IsOfOtherKind units kind name := by
  rw [Compiler.IsOfOtherKind, ← get?_types_eq_none_iff]
  simp only [← and_assoc, ← get?_types_eq_some_iff hn]
  cases (ofUnits units).1.types.get? name <;> simp

/-- What is wrong with a parent: it is of another kind, or it is not there. -/
theorem parentErrors_eq (hn : ((SourceUnit.types units).map (·.name)).Nodup) (u : TypeUnit) :
    (ofUnits units).1.parentErrors c u =
      c.kindMismatches units u ++ c.unresolvedParents units u := by
  rw [parentErrors, Compiler.kindMismatches, Compiler.unresolvedParents]
  cases u.parent with
  | none => rfl
  | some name =>
      have hunknown := isUnknown_iff units c name
      have hother := isOfOtherKind_iff hn c u.kind name
      dsimp only
      cases hkind : ((ofUnits units).1.types.get? name).map (·.kind) <|> c.baseKind? name with
      | none =>
          have hu : c.IsUnknown units name := hunknown.mp hkind
          have ho : ¬ c.IsOfOtherKind units u.kind name := fun h => by
            obtain ⟨other, hsome, -⟩ := hother.mpr h
            cases hkind.symm.trans hsome
          simp [hu, ho]
      | some kind =>
          have hu : ¬ c.IsUnknown units name := fun h => by cases hkind.symm.trans (hunknown.mpr h)
          have ho : c.IsOfOtherKind units u.kind name ↔ kind ≠ u.kind := by
            rw [← hother, hkind]
            simp
          by_cases hsame : kind = u.kind
          · simp [hu, ho, hsame]
          · simp [hu, ho, hsame]

/-- What is wrong with the structure of a batch of distinct names and owners. -/
theorem structureErrors_perm (hn : ((SourceUnit.types units).map (·.name)).Nodup)
    (ho : ((SourceUnit.helpers units).map HelperUnit.key).Nodup) :
    ((ofUnits units).1.structureErrors c).Perm
      (((SourceUnit.helpers units).filter (¬ ·.Owned units)).map HelperUnit.orphanError ++
        (SourceUnit.types units).flatMap (c.typeViolations units) ++
        (ofUnits units).1.lineage.cycles.map .inheritanceCycle) := by
  have htype : ∀ u, (ofUnits units).1.referenceErrors c u ++ (ofUnits units).1.endpointErrors c u ++
      (ofUnits units).1.parentErrors c u = c.typeViolations units u := fun u => by
    rw [referenceErrors_eq hn, endpointErrors_eq hn, parentErrors_eq hn, ← List.append_assoc,
      Compiler.typeViolations]
  rw [structureErrors]
  simp only [htype]
  exact ((orphans_perm hn ho).append ((values_types_perm hn).flatMap_right _)).append_right _

/-- From a type that comes back to itself a chain of the batch reaches the types of its circle. -/
theorem reaches_ofUnits_iff_of_circle (hn : ((SourceUnit.types units).map (·.name)).Nodup)
    {u : TypeUnit} (hcircle : Relation.TransGen (Continues units) u u) {name : String} :
    (ofUnits units).1.lineage.Reaches u.name name ↔
      ∃ a, a.name = name ∧ Relation.ReflTransGen (Continues units) u a ∧
        Relation.ReflTransGen (Continues units) a u := by
  have hu := mem_of_onCycle hcircle
  have hround := (onCycle_ofUnits_iff hn hu).mpr hcircle
  constructor
  · intro hreach
    obtain ⟨a, hua, rfl⟩ := (reaches_ofUnits_iff hn hu).mp hreach
    have ha := mem_of_continues hu hua
    obtain ⟨u', hback, hname⟩ := (reaches_ofUnits_iff hn ha).mp (hround.reaches_back hreach)
    -- the way back ends in a type of this name, and there is only one
    obtain rfl := List.inj_on_of_nodup_map hn (mem_of_continues ha hback) hu hname
    exact ⟨a, rfl, hua, hback⟩
  · rintro ⟨a, rfl, hua, -⟩
    exact (reaches_ofUnits_iff hn hu).mpr ⟨a, hua, rfl⟩

/-- The circles of a batch are those of its units. -/
theorem isCircle_ofUnits_iff (hn : ((SourceUnit.types units).map (·.name)).Nodup)
    {circle : List String} :
    (ofUnits units).1.lineage.IsCircle circle ↔ IsCircle units circle := by
  constructor
  · rintro ⟨name, members, hround, hmem, rfl⟩
    obtain ⟨u, hu, rfl⟩ := exists_unit_of_onCycle hn hround
    have hcircle := (onCycle_ofUnits_iff hn hu).mp hround
    refine ⟨u, hcircle, SortedMap.keys_sorted _, fun name => ?_⟩
    rw [NameSet.mem_keys_ofNames, hmem, reaches_ofUnits_iff_of_circle hn hcircle]
  · rintro ⟨u, hcircle, hsorted, hmem⟩
    have hround := (onCycle_ofUnits_iff hn (mem_of_onCycle hcircle)).mpr hcircle
    refine ⟨u.name, circle, hround, fun name => ?_, ?_⟩
    · rw [hmem, reaches_ofUnits_iff_of_circle hn hcircle]
    · exact hsorted.eq_of_mem_iff (SortedMap.keys_sorted _) fun _ => NameSet.mem_keys_ofNames.symm

end Checks

end Batch

/-! ### The report -/

namespace Compiler

variable {c : Compiler} {units : List SourceUnit}

/-- What is found before anything is built, in whatever order: one error for each violation and one
for each circle. -/
theorem found_perm (c : Compiler) (units : List SourceUnit) :
    ((Batch.ofUnits units).2 ++ (Batch.ofUnits units).1.structureErrors c).Perm
      (c.violations units ++
        (Batch.ofUnits (kept units)).1.lineage.cycles.map .inheritanceCycle) := by
  obtain ⟨hn, ho⟩ := Batch.nodup_kept units
  rw [(Batch.ofUnits_eq units).1, violations, List.append_assoc, List.append_assoc]
  refine .append_left _ ?_
  rw [← List.append_assoc]
  exact Batch.structureErrors_perm hn ho

/-- What is found in a batch besides circles and the unknown properties of views. -/
theorem not_mem_violations {error : CompileError}
    (h : (∃ circle, error = .inheritanceCycle circle) ∨
      ∃ typeName view property, error = .unknownViewProperty typeName view property) :
    error ∉ c.violations units := by
  have hdup : ∀ unit : SourceUnit, unit.duplicateError ≠ error := by
    rintro (_ | _) rfl
    all_goals simp [duplicateError] at h
  obtain ⟨circle, rfl⟩ | ⟨typeName, view, property, rfl⟩ := h
  all_goals
    simp [violations, typeViolations, unresolvedReferences, unresolvedEndpoints, kindMismatches,
      unresolvedParents, HelperUnit.orphanError, hdup]

/-- A circle is among the errors of the compiler exactly when it is one of the batch, whatever else
is wrong. -/
theorem circle_error_iff {circle : List String} :
    (∃ errors, c.compile units = .error errors ∧ .inheritanceCycle circle ∈ errors) ↔
      circle ∈ (Batch.ofUnits units).1.lineage.cycles := by
  have hfound : .inheritanceCycle circle ∈
      (Batch.ofUnits units).2 ++ (Batch.ofUnits units).1.structureErrors c ↔
      circle ∈ (Batch.ofUnits units).1.lineage.cycles := by
    rw [(found_perm c units).mem_iff, List.mem_append,
      or_iff_right (not_mem_violations (.inl ⟨circle, rfl⟩)), (Batch.ofUnits_eq units).1]
    simp
  simp only [compile_eq_error_iff]
  constructor
  · rintro ⟨errors, ⟨-, rfl | ⟨-, rfl⟩⟩, hmem⟩
    · exact hfound.mp hmem
    · -- nothing but views is looked at when types are built
      obtain ⟨name, u, t, -, -, herror⟩ := Batch.mem_viewErrors_iff.mp hmem
      obtain ⟨view, -, p, -, -, heq⟩ := Batch.mem_unknownInViews_iff.mp herror
      cases heq
  · exact fun h => ⟨_, ⟨List.ne_nil_of_mem (hfound.mpr h), .inl rfl⟩, hfound.mpr h⟩

/-- **The report on the structure of a batch is exact.** If there is any violation or circle, the
batch is rejected, with one error for each violation and one for each circle, and no other. -/
theorem structure_report_exact (c : Compiler) (units : List SourceUnit) :
    ∃ circles : List (List String), circles.Nodup ∧
      (∀ circle, circle ∈ circles ↔ IsCircle (kept units) circle) ∧
      (c.violations units ++ circles.map .inheritanceCycle ≠ [] →
        ∃ errors, c.compile units = .error errors ∧
          errors.Perm (c.violations units ++ circles.map .inheritanceCycle)) := by
  have hclosed := Batch.Keyed.closed (Batch.keyed_ofUnits (kept units))
  refine ⟨(Batch.ofUnits (kept units)).1.lineage.cycles,
    Lineage.nodup_cycles (SortedMap.keys_nodup _), fun circle => ?_, fun hsome => ?_⟩
  · rw [hclosed.mem_cycles_iff, Batch.isCircle_ofUnits_iff (Batch.nodup_kept units).1]
  · have hfound : (Batch.ofUnits units).2 ++ (Batch.ofUnits units).1.structureErrors c ≠ [] :=
      fun hnone => hsome (List.perm_nil.mp (hnone ▸ (found_perm c units).symm))
    exact ⟨_, compile_eq_error_iff.mpr ⟨hfound, .inl rfl⟩, found_perm c units⟩

/-- Two circles with a type below one of them, and one thing wrong of every other sort. -/
def tangle : List SourceUnit :=
  [.type ⟨"Cat", .node, some "Dog", [], [], none, false, false⟩,
    .type ⟨"Dog", .node, some "Cat", [], [], none, false, false⟩,
    .type ⟨"Kitten", .node, some "Cat", [], [⟨"main", ["ghost"]⟩], none, false, false⟩,
    .type ⟨"Egg", .node, some "Hen", [], [], none, false, false⟩,
    .type ⟨"Hen", .node, some "Egg", [], [], none, false, false⟩,
    .type ⟨"Dog", .relationship, some "Nothing", [], [], none, false, false⟩,
    .helper ⟨"_CatHelper", "Cat", .node, "purr()", 1⟩,
    .helper ⟨"_CatHelper", "Cat", .node, "meow()", 2⟩,
    .helper ⟨"_HenHelper", "Hen", .relationship, "cluck()", 3⟩,
    .type ⟨"CHASES", .relationship, some "Dog",
      [⟨"prey", .reference "Mouse", false, false, false⟩], [], some ⟨"Dog", "Mouse", "CHASES"⟩,
      false, false⟩,
    .type ⟨"Fox", .node, some "Missing", [], [], none, false, false⟩]

theorem tangle_report :
    ∃ (circles : List (List String)) (errors : List CompileError),
      (∀ circle, circle ∈ circles ↔ IsCircle (kept tangle) circle) ∧
        ({} : Compiler).compile tangle = .error errors ∧
        errors.Perm (({} : Compiler).violations tangle ++ circles.map .inheritanceCycle) ∧
        errors = [.duplicateType "Dog", .duplicateHelper "_CatHelper",
          .orphanHelper "_HenHelper" "Hen" .relationship,
          .unresolvedReference "CHASES" "prey" "Mouse", .unresolvedEndpoint "CHASES" "Mouse",
          .kindMismatch "CHASES" .relationship "Dog", .unresolvedParent "Fox" "Missing",
          .inheritanceCycle ["Cat", "Dog"], .inheritanceCycle ["Egg", "Hen"]] := by
  obtain ⟨circles, -, hmem, hreport⟩ := structure_report_exact {} tangle
  have hviolations : ({} : Compiler).violations tangle ≠ [] := by decide +kernel
  obtain ⟨errors, hcompile, hperm⟩ := hreport fun h => hviolations (List.append_eq_nil_iff.mp h).1
  exact ⟨circles, errors, hmem, hcompile, hperm, Except.error.inj (hcompile.symm.trans (by rfl))⟩

end Compiler

end LiveSchema
