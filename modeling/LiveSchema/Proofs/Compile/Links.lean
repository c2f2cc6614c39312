import LiveSchema.Proofs.Compile.Inheritance

/-!
# LiveSchema.Proofs.Compile.Links

What a type extends, told by names. A link leads from the name of a unit to the name that the unit
extends, be it that of a type of the batch or that of a base (`SourceUnit.Link`). Following links is
all there is to being below a name (`SourceUnit.Below`): a compiled type keeps the chain above it and
the base at the end of the chain, and that is exactly what the links reach
(`Compiler.extends?_iff_below`).

The links of an accepted batch make an order. A name has one link at most, so the names above it
form a chain (`below_total`), and no chain of links comes back (`eq_of_below_of_below`). A chain that
leaves the types of the batch ends there, in a base (`exists_base_of_below`).
-/

namespace LiveSchema

open SourceUnit

namespace SourceUnit

variable {units : List SourceUnit}

/-- The unit of a name extends another name, that of a type or that of a base. -/
def Link (units : List SourceUnit) (name above : String) : Prop :=
  ∃ u ∈ types units, u.name = name ∧ u.parent = some above

/-- A name is another, or links lead from it to the other. -/
def Below (units : List SourceUnit) : String → String → Prop := Relation.ReflTransGen (Link units)

theorem Below.refl (name : String) : Below units name name := Relation.ReflTransGen.refl

theorem Below.trans {a b c : String} (hab : Below units a b) (hbc : Below units b c) :
    Below units a c := Relation.ReflTransGen.trans hab hbc

/-- No link leaves a name that no unit has. -/
theorem eq_of_below_of_free {name above : String} (hfree : ∀ u ∈ types units, u.name ≠ name)
    (h : Below units name above) : name = above := by
  cases Relation.ReflTransGen.cases_head h with
  | inl heq => exact heq
  | inr hlink =>
      obtain ⟨next, ⟨u, hu, hname, -⟩, -⟩ := hlink
      exact absurd hname (hfree u hu)

section Names

variable (hn : ((types units).map (·.name)).Nodup)

include hn

/-- The link of a unit's name is the one that the unit says. -/
theorem link_iff {u : TypeUnit} (hu : u ∈ types units) {above : String} :
    Link units u.name above ↔ u.parent = some above := by
  constructor
  · intro h
    obtain ⟨u', hu', hname, hparent⟩ := h
    rwa [List.inj_on_of_nodup_map hn hu' hu hname] at hparent
  · exact fun h => ⟨u, hu, rfl, h⟩

/-- A name has one link at most. -/
theorem rightUnique_link : Relator.RightUnique (Link units) := by
  intro name a b ha hb
  obtain ⟨u, hu, rfl, hparent⟩ := ha
  exact Option.some.inj (hparent.symm.trans ((link_iff hn hu).mp hb))

/-- What is above a unit's name is the name, or is above what the unit extends. -/
theorem below_iff {u : TypeUnit} (hu : u ∈ types units) {above : String} :
    Below units u.name above ↔
      u.name = above ∨ ∃ parent, u.parent = some parent ∧ Below units parent above := by
  unfold Below
  rw [Relation.ReflTransGen.cases_head_iff]
  simp only [link_iff hn hu]

/-- Where a unit extends no unit, its link is the last one. -/
theorem below_iff_of_root {u : TypeUnit} (hu : u ∈ types units)
    (hroot : ∀ parent, u.parent = some parent → ∀ a ∈ types units, a.name ≠ parent)
    {above : String} : Below units u.name above ↔ u.name = above ∨ u.parent = some above := by
  rw [below_iff hn hu]
  refine or_congr_right ⟨fun h => ?_, fun hparent => ⟨above, hparent, Below.refl above⟩⟩
  obtain ⟨parent, hparent, hbelow⟩ := h
  rwa [eq_of_below_of_free (hroot parent hparent) hbelow] at hparent

/-- The names above a name form a chain. -/
theorem below_total {a b c : String} (hab : Below units a b) (hac : Below units a c) :
    Below units b c ∨ Below units c b :=
  Relation.ReflTransGen.total_of_right_unique (rightUnique_link hn) hab hac

/-- Links that lead from one unit's name to another's lead through the units between. -/
theorem chain_of_below {u a : TypeUnit} (hu : u ∈ types units) (ha : a ∈ types units)
    (h : Below units u.name a.name) : Relation.ReflTransGen (Extends units) u a := by
  have hchain : ∀ above, Below units u.name above → ∀ a ∈ types units, a.name = above →
      Relation.ReflTransGen (Extends units) u a := by
    intro above h
    induction h with
    | refl =>
        intro a ha hname
        rw [List.inj_on_of_nodup_map hn ha hu hname]
    | tail _ hlink ih =>
        intro a ha hname
        obtain ⟨b, hb, hbetween, hparent⟩ := hlink
        exact (ih b hb hbetween).tail ⟨hb, ha, hname ▸ hparent⟩
  exact hchain a.name h a ha rfl

/-- Where no unit is above itself, no two names are below each other. -/
theorem eq_of_below_of_below (hacyclic : ∀ u, ¬ Relation.TransGen (Extends units) u u)
    {a b : String} (hab : Below units a b) (hba : Below units b a) : a = b := by
  cases Relation.ReflTransGen.cases_head hab with
  | inl heq => exact heq
  | inr hlink =>
      -- the unit of `a` would be above itself
      obtain ⟨next, ⟨u, hu, rfl, hparent⟩, hrest⟩ := hlink
      obtain ⟨last, hto, p, hp, rfl, hback⟩ := Relation.TransGen.tail'_iff.mp
        (Relation.TransGen.head' ⟨u, hu, rfl, hparent⟩ (hrest.trans hba))
      refine absurd (Relation.TransGen.tail' (chain_of_below hn hu hp hto) ?_) (hacyclic u)
      exact ⟨hp, hu, hback⟩

end Names

end SourceUnit

namespace CompiledType

theorem extends?_iff {t : CompiledType} {above : String} :
    t.extends? above = true ↔
      above ∈ t.name :: t.ancestors ∨ t.builtinBase = some above := by
  simp [extends?, eq_comm (a := above)]

end CompiledType

namespace Compiler

variable {c : Compiler} {units : List SourceUnit} {types : SortedMap String CompiledType}

/-- Induction on compiled types along the links: a type is built from its unit alone if its link
leads to no unit, and from the type that its link leads to otherwise. -/
theorem compiled_induction_links (h : c.compile units = .ok types)
    {motive : String → CompiledType → Prop}
    (root : ∀ u ∈ SourceUnit.types units,
      (∀ parent, u.parent = some parent → ∀ a ∈ SourceUnit.types units, a.name ≠ parent) →
        motive u.name ((Batch.ofUnits units).1.build c none u))
    (child : ∀ u ∈ SourceUnit.types units, ∀ parent above, u.parent = some parent →
      motive parent above → motive u.name ((Batch.ofUnits units).1.build c (some above) u))
    {name : String} {t : CompiledType} (ht : types.get? name = some t) : motive name t := by
  have hw := wellFormed_of_compile h
  rw [eq_compiled_of_compile h] at ht
  refine Batch.compiled_induction (Batch.keyed_ofUnits units) (acyclic_of_compile h) ?_ ?_ ht
  · intro name u hu hroot
    obtain ⟨hmem, rfl⟩ := (Batch.get?_types_eq_some_iff hw.names).mp hu
    refine root u hmem fun parent hparent => ?_
    rw [hw.resolved.parentUnit?_eq hmem, hparent, Option.bind_some] at hroot
    exact Batch.get?_types_eq_none_iff.mp hroot
  · intro name u p above hu hp _ ih
    obtain ⟨hmem, rfl⟩ := (Batch.get?_types_eq_some_iff hw.names).mp hu
    exact child u hmem p.name above ((hw.resolved.parentUnit?_iff hmem).mp hp).2.2 ih

/-- **A compiled type extends the names that the links reach from its own.** -/
theorem extends?_iff_below (h : c.compile units = .ok types) {name : String} {t : CompiledType}
    (ht : types.get? name = some t) {above : String} :
    t.extends? above = true ↔ Below units name above := by
  have hn := (wellFormed_of_compile h).names
  refine compiled_induction_links h (motive := fun name t =>
    t.extends? above = true ↔ Below units name above) ?_ ?_ ht
  · intro u hu hroot
    rw [below_iff_of_root hn hu hroot]
    simp [CompiledType.extends?_iff, Batch.build, eq_comm (a := above)]
  · intro u hu parent t hparent ih
    rw [below_iff hn hu]
    simp [CompiledType.extends?_iff, Batch.build, eq_comm (a := above), or_assoc, hparent, ← ih]

/-- A compiled type offers the views that are declared where the links lead from its name. -/
theorem view?_isSome_iff_below (h : c.compile units = .ok types) {name : String}
    {t : CompiledType} (ht : types.get? name = some t) {view : String} :
    (t.view? view).isSome = true ↔
      ∃ a ∈ SourceUnit.types units, Below units name a.name ∧ ∃ v ∈ a.views, v.name = view := by
  have hn := (wellFormed_of_compile h).names
  refine compiled_induction_links h (motive := fun name t => (t.view? view).isSome = true ↔
    ∃ a ∈ SourceUnit.types units, Below units name a.name ∧ ∃ v ∈ a.views, v.name = view)
    ?_ ?_ ht
  · intro u hu hroot
    rw [Batch.isSome_view?_build]
    constructor
    · intro hoffered
      exact ⟨u, hu, .refl u.name, by simpa using hoffered⟩
    · intro hdeclared
      obtain ⟨a, ha, hbelow, hview⟩ := hdeclared
      cases (below_iff_of_root hn hu hroot).mp hbelow with
      | inl hname =>
          obtain rfl := List.inj_on_of_nodup_map hn hu ha hname
          exact .inl hview
      | inr hparent => exact absurd rfl (hroot a.name hparent a ha)
  · intro u hu parent t hparent ih
    rw [Batch.isSome_view?_build, Option.bind_some, ih]
    constructor
    · intro hoffered
      cases hoffered with
      | inl hview => exact ⟨u, hu, .refl u.name, hview⟩
      | inr habove =>
          obtain ⟨a, ha, hbelow, hview⟩ := habove
          exact ⟨a, ha, (below_iff hn hu).mpr (.inr ⟨parent, hparent, hbelow⟩), hview⟩
    · intro hdeclared
      obtain ⟨a, ha, hbelow, hview⟩ := hdeclared
      cases (below_iff hn hu).mp hbelow with
      | inl hname =>
          obtain rfl := List.inj_on_of_nodup_map hn hu ha hname
          exact .inl hview
      | inr hup =>
          obtain ⟨next, hnext, hbelow⟩ := hup
          obtain rfl := Option.some.inj (hparent.symm.trans hnext)
          exact .inr ⟨a, ha, hbelow, hview⟩

/-- There is a compiled type for the name of each unit. -/
theorem contains_iff_of_compile (h : c.compile units = .ok types) {name : String} :
    types.contains name = true ↔ ∃ u ∈ SourceUnit.types units, u.name = name := by
  rw [SortedMap.contains_iff, ← SortedMap.mem_keys_iff, (keys_perm_of_compile h).mem_iff,
    List.mem_map]

/-- A chain of links that leaves the types of the batch ends in a base. -/
theorem exists_base_of_below (h : c.compile units = .ok types) {name above : String}
    (hbelow : Below units name above) (hname : types.contains name = true)
    (hout : types.contains above = false) : ∃ kind, c.baseKind? above = some kind := by
  have hfree : ¬ ∃ u ∈ SourceUnit.types units, u.name = above := by
    rw [← contains_iff_of_compile h, hout]
    exact Bool.false_ne_true
  cases Relation.ReflTransGen.cases_tail hbelow with
  | inl heq =>
      rw [heq, hname] at hout
      cases hout
  | inr hlast =>
      obtain ⟨last, -, u, hu, -, hparent⟩ := hlast
      cases (wellFormed_of_compile h).parents u hu above hparent with
      | inl hdefined =>
          obtain ⟨p, hp, hsame, -⟩ := hdefined
          exact absurd ⟨p, hp, hsame⟩ hfree
      | inr hbase => exact ⟨u.kind, hbase.2⟩

end Compiler

end LiveSchema
