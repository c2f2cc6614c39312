import LiveSchema.Proofs.Entity

/-!
# LiveSchema.Proofs.Entity.Substitution

When a type can stand in for one that it extends. The chain of an ancestor is the end of the chain
of the type, and what the type says of a property is what the nearest declaration on its chain says.
So where no type below the ancestor declares a property, the two say the same of it
(`property?_eq_of_not_declaredBelow`). The names that matter are those that the ancestor knows: an
entity that it accepts has no others. A system property that it does not declare counts among them,
since a declaration further down would narrow what it takes.

Views need no such care, since a type only appends to them (`view?_extends`).

* `Batch.of_mem_chain` — what holds of an ancestor and is kept by each step down holds of the type.
* `Compiler.substitutes_of_not_redeclared` — a type that leaves what an ancestor knows alone can
  stand in for it.
-/

namespace LiveSchema

/-- A type on the chain of `t` below the type `a`, maybe `t` itself, declares a property. -/
def DeclaredBelow (units : List SourceUnit) (t : CompiledType) (a property : String) : Prop :=
  ∃ x ∈ (t.name :: t.ancestors).takeWhile (· ≠ a), ∃ u ∈ SourceUnit.types units,
    u.name = x ∧ ∃ f ∈ u.fields, f.name = property

/-- Wherever `a` says yes to an entity `t` does too, with the same values. -/
structure Substitutes (t a : CompiledType) : Prop where
  validate : ∀ e, a.validate e = [] → t.validate e = []
  validateUpdate : ∀ e, a.validateUpdate e = [] → t.validateUpdate e = []
  getValue : ∀ e name found, a.getValue e name = .ok found → t.getValue e name = .ok found
  /-- Both have the views of `a`, and what `a` shows `t` shows too. -/
  serializeView : ∀ view, (a.view? view).isSome = true → ∀ e, ∃ less more,
    a.serializeView view e = .ok less ∧ t.serializeView view e = .ok more ∧
      ∀ key ∈ less.keys, more.get? key = less.get? key

namespace CompiledType

variable {t a : CompiledType}

/-- It is enough that both have the same property under every name that `a` knows, and that the
views of `t` extend those of `a`. -/
theorem substitutes_of_agree
    (hproperty : ∀ name, a.Knows name → t.property? name = a.property? name)
    (hview : ∀ view members, a.view? view = some members →
      ∃ more, t.view? view = some (members ++ more)) : Substitutes t a := by
  have hknows : ∀ name, a.Knows name → t.Knows name := by
    intro name h
    rwa [Knows, hproperty name h]
  have hvalue : ∀ name value, a.valueError? name value = none →
      t.valueError? name value = none := by
    intro name value h
    obtain ⟨hknown, hfits⟩ := valueError?_eq_none_iff.mp h
    refine valueError?_eq_none_iff.mpr ⟨hknows name hknown, ?_⟩
    rwa [hproperty name hknown]
  refine ⟨fun e h => ?_, fun e h => ?_, fun e name found h => ?_, fun view h e => ?_⟩
  · rw [validate_eq_nil_iff] at h ⊢
    exact fun name value hfound => hvalue name value (h name value hfound)
  · rw [validateUpdate_eq_nil_iff] at h ⊢
    intro name value hfound
    obtain ⟨hfits, hwritable⟩ := updateError?_eq_none_iff.mp (h name value hfound)
    refine updateError?_eq_none_iff.mpr ⟨hvalue name value hfits, ?_⟩
    rwa [hproperty name (valueError?_eq_none_iff.mp hfits).1]
  · rw [getValue_eq_ok_iff] at h ⊢
    exact ⟨hknows name h.1, h.2⟩
  · obtain ⟨members, hmembers⟩ := Option.isSome_iff_exists.mp h
    obtain ⟨more, hmore⟩ := hview view members hmembers
    refine ⟨_, _, serializeView_of_view? hmembers e, serializeView_of_view? hmore e, ?_⟩
    intro key hkey
    obtain ⟨value, hshown⟩ := SortedMap.mem_keys_iff.mp hkey
    have hmem : key ∈ members := Entity.mem_of_get?_project hshown
    rw [Entity.get?_project_of_mem hmem, Entity.get?_project_of_mem (List.mem_append_left _ hmem)]

end CompiledType

namespace Batch

variable {b : Batch} {c : Compiler}

/-! ### Down a chain -/

/-- What holds of an ancestor, and of every type that is built below one of which it holds, holds of
all types that extend the ancestor. -/
theorem of_mem_chain (hk : b.Keyed) (ha : b.lineage.Acyclic) {x : String} {a : CompiledType}
    (hx : (b.compiled c).get? x = some a) {P : CompiledType → Prop} (self : P a)
    (step : ∀ u above, P above → P (b.build c (some above) u)) {name : String} {t : CompiledType}
    (ht : (b.compiled c).get? name = some t) (hmem : x ∈ t.name :: t.ancestors) : P t := by
  refine compiled_induction hk ha (motive := fun name t =>
    (b.compiled c).get? name = some t → x ∈ t.name :: t.ancestors → P t) ?_ ?_ ht ht hmem
  · intro name u hu _ hself hmem
    obtain rfl : x = u.name := List.mem_singleton.mp hmem
    rw [hk hu, hself] at hx
    exact Option.some.inj hx ▸ self
  · intro name u p above hu _ habove ih hself hmem
    cases List.mem_cons.mp hmem with
    | inl heq =>
        rw [heq, build_name, hk hu, hself] at hx
        exact Option.some.inj hx ▸ self
    | inr hup => exact step u above (ih habove hup)

/-- The chain of an ancestor is the end of the chain. -/
theorem chain_suffix (hk : b.Keyed) (ha : b.lineage.Acyclic) {x : String} {a : CompiledType}
    (hx : (b.compiled c).get? x = some a) {name : String} {t : CompiledType}
    (ht : (b.compiled c).get? name = some t) (hmem : x ∈ t.name :: t.ancestors) :
    (a.name :: a.ancestors) <:+ (t.name :: t.ancestors) := by
  refine of_mem_chain hk ha hx (P := fun t => (a.name :: a.ancestors) <:+ (t.name :: t.ancestors))
    (List.suffix_refl _) ?_ ht hmem
  intro u above h
  exact h.trans (List.suffix_cons u.name _)

/-- The chain is what is below an ancestor, followed by the chain of the ancestor. -/
theorem chain_eq_below_append (hk : b.Keyed) (ha : b.lineage.Acyclic) {x : String}
    {a : CompiledType} (hx : (b.compiled c).get? x = some a) {name : String} {t : CompiledType}
    (ht : (b.compiled c).get? name = some t) (hmem : x ∈ t.name :: t.ancestors) :
    t.name :: t.ancestors =
      (t.name :: t.ancestors).takeWhile (· ≠ x) ++ (a.name :: a.ancestors) := by
  obtain ⟨below, hbelow⟩ := chain_suffix hk ha hx ht hmem
  have hnodup := nodup_chain hk ha ht
  have hname := compiled_name hk ha hx
  rw [← hbelow, List.nodup_append] at hnodup
  have hnot : ∀ y ∈ below, decide (y ≠ x) = true := by
    intro y hy
    exact decide_eq_true (hname ▸ hnodup.2.2 y hy a.name List.mem_cons_self)
  rw [← hbelow, List.takeWhile_append_of_pos hnot, List.takeWhile_cons_of_neg (by simp [hname]),
    List.append_nil]

/-- A type extends the views of its ancestors. -/
theorem view?_extends (hk : b.Keyed) (ha : b.lineage.Acyclic) {x : String} {a : CompiledType}
    (hx : (b.compiled c).get? x = some a) {name : String} {t : CompiledType}
    (ht : (b.compiled c).get? name = some t) (hmem : x ∈ t.name :: t.ancestors) {view : String}
    {members : List String} (hmembers : a.view? view = some members) :
    ∃ more, t.view? view = some (members ++ more) := by
  refine of_mem_chain hk ha hx (P := fun t => ∃ more, t.view? view = some (members ++ more))
    ⟨[], by rw [hmembers, List.append_nil]⟩ ?_ ht hmem
  intro u above h
  obtain ⟨more, habove⟩ := h
  rw [view?_build, Option.bind_some, habove, Option.getD_some]
  split
  next => exact ⟨_, by rw [List.append_assoc]⟩
  next => exact ⟨more, rfl⟩

end Batch

namespace Compiler

variable {c : Compiler} {units : List SourceUnit} {types : SortedMap String CompiledType}

/-- A property that is declared below no ancestor is that of the ancestor. -/
theorem property?_eq_of_not_declaredBelow (h : c.compile units = .ok types) {name : String}
    {t : CompiledType} (ht : types.get? name = some t) {x : String} {a : CompiledType}
    (hx : types.get? x = some a) (hmem : x ∈ t.name :: t.ancestors) {property : String}
    (hnot : ¬ DeclaredBelow units t x property) :
    t.property? property = a.property? property := by
  have hk : (Batch.ofUnits units).1.Keyed := Batch.keyed_ofUnits units
  have ha := acyclic_of_compile h
  have hn := (wellFormed_of_compile h).names
  rw [eq_compiled_of_compile h] at ht hx
  have hbelow : ((t.name :: t.ancestors).takeWhile (· ≠ x)).findSome?
      (fun y => (Batch.ofUnits units).1.declaredBy? y property) = none := by
    refine List.findSome?_eq_none_iff.mpr fun y hy => ?_
    rw [Batch.declaredBy?]
    cases hget : (Batch.ofUnits units).1.types.get? y with
    | none => rfl
    | some u =>
        obtain ⟨hu, hname⟩ := (Batch.get?_types_eq_some_iff hn).mp hget
        rw [Option.bind_some, Option.eq_none_iff_forall_ne_some]
        intro p hp
        have hfield := Batch.declaration?_isSome_iff.mp (Option.isSome_of_mem hp)
        exact hnot ⟨y, hy, u, hu, hname, hfield⟩
  rw [Batch.property?_eq_findSome? hk ha ht, Batch.property?_eq_findSome? hk ha hx,
    Batch.chain_eq_below_append hk ha hx ht hmem, List.findSome?_append, hbelow, Option.none_or]

/-- **A type can stand in for an ancestor whose properties it leaves alone.** No type below the
ancestor may declare a property that the ancestor has, nor a system property. -/
theorem substitutes_of_not_redeclared (h : c.compile units = .ok types) {name : String}
    {t : CompiledType} (ht : types.get? name = some t) {ancestor : String} {a : CompiledType}
    (ha : types.get? ancestor = some a) (hmem : ancestor ∈ t.ancestors)
    (hleft : ∀ property, DeclaredBelow units t ancestor property →
      a.property? property = none ∧ isSystemProperty property = false) :
    Substitutes t a := by
  have hchain : ancestor ∈ t.name :: t.ancestors := List.mem_cons_of_mem _ hmem
  refine CompiledType.substitutes_of_agree (fun property hknown => ?_) fun view members => ?_
  · refine property?_eq_of_not_declaredBelow h ht ha hchain fun hbelow => ?_
    obtain ⟨hnone, hsystem⟩ := hleft property hbelow
    cases hknown with
    | inl hknown => rw [hsystem] at hknown; cases hknown
    | inr hknown => rw [hnone] at hknown; cases hknown
  · have hk : (Batch.ofUnits units).1.Keyed := Batch.keyed_ofUnits units
    have hacyclic := acyclic_of_compile h
    rw [eq_compiled_of_compile h] at ht ha
    exact Batch.view?_extends hk hacyclic ha ht hchain

/-- A type that adds a property, and lists it in the view that its parent has. -/
def figures : List SourceUnit :=
  [.type ⟨"Circle", .node, some "Shape", [⟨"radius", .double, false, false, false⟩],
      [⟨"summary", ["radius"]⟩], none, false, false⟩,
    .type ⟨"Shape", .node, some "NodeInterface",
      [⟨"label", .string, false, false, false⟩, ⟨"inside", .reference "Shape", false, false, true⟩],
      [⟨"summary", ["id", "label"]⟩], none, false, false⟩]

theorem circle_stands_in_for_shape :
    ∃ types t a, ({} : Compiler).compile figures = .ok types ∧ types.get? "Circle" = some t ∧
      types.get? "Shape" = some a ∧ "Shape" ∈ t.ancestors ∧
        (∀ property, DeclaredBelow figures t "Shape" property →
          a.property? property = none ∧ isSystemProperty property = false) ∧
          Substitutes t a := by
  have hok : ({} : Compiler).compile figures = .ok ((Batch.ofUnits figures).1.compiled {}) := by
    rfl
  obtain ⟨t, ht⟩ : ∃ t, ((Batch.ofUnits figures).1.compiled {}).get? "Circle" = some t := ⟨_, rfl⟩
  obtain ⟨a, ha⟩ : ∃ a, ((Batch.ofUnits figures).1.compiled {}).get? "Shape" = some a := ⟨_, rfl⟩
  have hmem : "Shape" ∈ t.ancestors := by
    obtain rfl := Option.some.inj ht
    decide
  have hleft : ∀ property, DeclaredBelow figures t "Shape" property →
      a.property? property = none ∧ isSystemProperty property = false := by
    intro property hbelow
    obtain ⟨x, hx, u, hu, hname, f, hf, rfl⟩ := hbelow
    have hchain : (t.name :: t.ancestors).takeWhile (· ≠ "Shape") = ["Circle"] := by
      obtain rfl := Option.some.inj ht
      decide
    rw [hchain, List.mem_singleton] at hx
    -- the fields of the circle are its radius
    have hradius : ∀ u ∈ SourceUnit.types figures, u.name = "Circle" →
        ∀ f ∈ u.fields, f.name = "radius" := by decide
    rw [hradius u hu (hname.trans hx) f hf]
    obtain rfl := Option.some.inj ha
    decide
  exact ⟨_, t, a, hok, ht, ha, hmem, hleft, substitutes_of_not_redeclared hok ht ha hmem hleft⟩

end Compiler

end LiveSchema
