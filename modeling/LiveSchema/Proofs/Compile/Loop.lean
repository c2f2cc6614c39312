import LiveSchema.Proofs.Compile.Building

/-!
# LiveSchema.Proofs.Compile.Loop

Building as a loop. `Batch.compiled` follows the chain of every type anew; types can as well be
built one after the other, each below what was built for its parent, if the build order is kept. In
a batch without errors of structure both come to the same:

* `Batch.exists_parent_of_built` — when the turn of a type comes, its parent was built.
* `Batch.buildLoop_eq` — the loop ends with the compiled types, and has noted what their views list
  and nobody knows.
* `Compiler.compile_eq_buildLoop` — so a batch can be compiled by the loop.
-/

namespace LiveSchema

namespace Batch

variable {b : Batch} {c : Compiler} {order : List String}

/-- One round of the loop: the type of a name is built below what was built for its parent, and its
views are looked through. -/
def buildNext (b : Batch) (c : Compiler)
    (built : SortedMap String CompiledType × List CompileError) (name : String) :
    SortedMap String CompiledType × List CompileError :=
  match b.types.get? name with
  | none => built
  | some unit =>
    let t := b.build c (unit.parent.bind built.1.get?) unit
    (built.1.insert name t, built.2 ++ unknownInViews t.properties unit)

/-- Build some types, one after the other. -/
def buildLoop (b : Batch) (c : Compiler) (order : List String) :
    SortedMap String CompiledType × List CompileError :=
  order.foldl (b.buildNext c) (.empty, [])

theorem buildLoop_concat (order : List String) (name : String) :
    b.buildLoop c (order ++ [name]) = b.buildNext c (b.buildLoop c order) name := by
  rw [buildLoop, List.foldl_append]
  rfl

/-- What the views of one type list and nobody knows. -/
def viewErrorsOf (b : Batch) (compiled : SortedMap String CompiledType) (name : String) :
    List CompileError :=
  match b.types.get? name, compiled.get? name with
  | some unit, some t => unknownInViews t.properties unit
  | _, _ => []

/-- After some rounds, the loop has the compiled types of the names so far, and their errors. -/
structure Built (b : Batch) (c : Compiler) (order : List String) : Prop where
  types : ∀ name, (b.buildLoop c order).1.get? name =
    if name ∈ order then (b.compiled c).get? name else none
  errors : (b.buildLoop c order).2 = order.flatMap (b.viewErrorsOf (b.compiled c))

/-- What the batch has as a parent of the right kind is all that it has as a parent. -/
theorem parentUnit?_eq_bind (hstructure : b.structureErrors c = []) (hk : b.Keyed)
    {name : String} {u : TypeUnit} (hu : b.types.get? name = some u) :
    b.parentUnit? u = u.parent.bind b.types.get? := by
  obtain ⟨-, hunits, -⟩ := (structureErrors_eq_nil_iff hk).mp hstructure
  have hparent := parentErrors_eq_nil_iff.mp (hunits name u hu).2.2
  rw [parentUnit?]
  cases habove : u.parent with
  | none => rfl
  | some above =>
      rw [Option.bind_some]
      rcases hparent above habove with ⟨p, hp, hkind⟩ | ⟨hnone, -⟩
      · rw [hp]
        exact if_pos hkind
      · rw [hnone]

/-- What the loop has for the parent of a type is the compiled parent, if its turn has come. -/
theorem Built.bind_parent (h : b.Built c order) (hstructure : b.structureErrors c = [])
    (hk : b.Keyed) {name : String} {u : TypeUnit} (hu : b.types.get? name = some u)
    (hbefore : ∀ p, b.parentUnit? u = some p → p.name ∈ order) :
    u.parent.bind (b.buildLoop c order).1.get? =
      (b.parentUnit? u).map (b.compileUnit c b.types.size) := by
  have hparent := parentUnit?_eq_bind hstructure hk hu
  cases habove : u.parent with
  | none =>
      rw [hparent, habove]
      rfl
  | some above =>
      rw [habove, Option.bind_some] at hparent
      rw [Option.bind_some, h.types]
      cases hp : b.types.get? above with
      | none =>
          rw [hparent, get?_compiled, hp]
          exact ite_self none
      | some p =>
          obtain rfl := hk hp
          rw [if_pos (hbefore p (hparent.trans hp)), hparent, get?_compiled, hp]

/-- A round adds the compiled type of its name, and the errors of its views. -/
theorem Built.concat (h : b.Built c order) (hstructure : b.structureErrors c = [])
    (hk : b.Keyed) {name : String} {u : TypeUnit} (hu : b.types.get? name = some u)
    (hbefore : ∀ p, b.parentUnit? u = some p → p.name ∈ order) :
    b.Built c (order ++ [name]) := by
  obtain ⟨-, -, hacyclic⟩ := (structureErrors_eq_nil_iff hk).mp hstructure
  have hcompiled : (b.compiled c).get? name = some (b.compileUnit c b.types.size u) := by
    rw [get?_compiled, hu, Option.map_some]
  have hround : b.buildLoop c (order ++ [name]) =
      ((b.buildLoop c order).1.insert name (b.compileUnit c b.types.size u),
        (b.buildLoop c order).2 ++
          unknownInViews (b.compileUnit c b.types.size u).properties u) := by
    rw [buildLoop_concat, buildNext, hu]
    dsimp only
    rw [h.bind_parent hstructure hk hu hbefore, ← compileUnit_eq_build hk hacyclic hu]
  refine { types := fun other => ?types, errors := ?errors }
  case types =>
    rw [hround, SortedMap.get?_insert]
    by_cases hself : name = other
    · rw [if_pos hself, ← hself, hcompiled, if_pos (List.mem_append_right _ List.mem_cons_self)]
    · have hmem : other ∈ order ++ [name] ↔ other ∈ order := by
        simp [Ne.symm hself]
      rw [if_neg hself, h.types]
      simp only [hmem]
  case errors =>
    rw [hround, List.flatMap_append, h.errors, List.flatMap_singleton, viewErrorsOf, hu, hcompiled]

theorem mem_buildOrder_of_parentUnit? (hk : b.Keyed) (ha : b.lineage.Acyclic)
    {before after : List String} {name : String} {u p : TypeUnit}
    (horder : b.lineage.buildOrder = before ++ name :: after)
    (hu : b.types.get? name = some u) (hp : b.parentUnit? u = some p) : p.name ∈ before := by
  refine hk.closed.parent_mem_of_buildOrder ha horder ?_
  rw [lineage_parent?_of_get? hu, hp, Option.map_some]

theorem built_up_to (hstructure : b.structureErrors c = []) (hk : b.Keyed)
    {before after : List String} (horder : b.lineage.buildOrder = before ++ after) :
    b.Built c before := by
  obtain ⟨-, -, hacyclic⟩ := (structureErrors_eq_nil_iff hk).mp hstructure
  -- on the rounds so far, the last one first
  induction before using List.reverseRecOn generalizing after with
  | nil => exact ⟨fun _ => rfl, rfl⟩
  | append_singleton earlier name ih =>
      rw [List.append_assoc, List.singleton_append] at horder
      have hname : name ∈ b.lineage.names := by
        rw [← Lineage.mem_buildOrder_iff, horder]
        exact List.mem_append_right _ List.mem_cons_self
      obtain ⟨u, hu⟩ := mem_lineage_names_iff.mp hname
      exact (ih horder).concat hstructure hk hu fun p hp =>
        mem_buildOrder_of_parentUnit? hk hacyclic horder hu hp

/-- When the turn of a type comes, its parent was built, and is what it will be in the end. -/
theorem exists_parent_of_built (hstructure : b.structureErrors c = []) (hk : b.Keyed)
    {before after : List String} {name : String}
    (horder : b.lineage.buildOrder = before ++ name :: after) {u p : TypeUnit}
    (hu : b.types.get? name = some u) (hp : b.parentUnit? u = some p) :
    ∃ t, (b.buildLoop c before).1.get? p.name = some t ∧
      (b.compiled c).get? p.name = some t := by
  obtain ⟨-, -, hacyclic⟩ := (structureErrors_eq_nil_iff hk).mp hstructure
  have hbefore := mem_buildOrder_of_parentUnit? hk hacyclic horder hu hp
  have hcompiled : (b.compiled c).get? p.name = some (b.compileUnit c b.types.size p) := by
    rw [get?_compiled, hk.get?_parent hp, Option.map_some]
  refine ⟨_, ?_, hcompiled⟩
  rw [(built_up_to hstructure hk horder).types, if_pos hbefore, hcompiled]

/-- The loop over the build order ends with the compiled types and the errors of their views. -/
theorem buildLoop_eq (hstructure : b.structureErrors c = []) (hk : b.Keyed) :
    b.buildLoop c b.lineage.buildOrder = (b.compiled c, b.viewErrors (b.compiled c)) := by
  have hbuilt := @built_up_to b c hstructure hk b.lineage.buildOrder [] (List.append_nil _).symm
  refine Prod.ext (SortedMap.ext_get? fun name => ?_) hbuilt.errors
  rw [hbuilt.types]
  split
  next => rfl
  next hout =>
    -- a name that the order does not have is that of no type
    rw [Lineage.mem_buildOrder_iff, mem_lineage_names_iff, not_exists] at hout
    rw [get?_compiled, Option.eq_none_iff_forall_ne_some.mpr hout]
    rfl

end Batch

/-- A batch without errors of structure can be compiled by the loop. -/
theorem Compiler.compile_eq_buildLoop (c : Compiler) (units : List SourceUnit) :
    c.compile units =
      match (Batch.ofUnits units).2 ++ (Batch.ofUnits units).1.structureErrors c with
      | [] =>
        match (Batch.ofUnits units).1.buildLoop c (Batch.ofUnits units).1.lineage.buildOrder with
        | (types, []) => .ok types
        | (_, errors) => .error errors
      | errors => .error errors := by
  rw [compile]
  dsimp only
  cases herrors : (Batch.ofUnits units).2 ++ (Batch.ofUnits units).1.structureErrors c with
  | cons error errors => rfl
  | nil =>
      have hstructure := (List.append_eq_nil_iff.mp herrors).2
      dsimp only
      rw [Batch.buildLoop_eq hstructure (Batch.keyed_ofUnits units)]
      cases (Batch.ofUnits units).1.viewErrors ((Batch.ofUnits units).1.compiled c) <;> rfl

end LiveSchema
