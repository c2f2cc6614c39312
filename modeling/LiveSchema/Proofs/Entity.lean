import LiveSchema.Entity
import LiveSchema.Proofs.Compile.Inheritance

/-!
# LiveSchema.Proofs.Entity

What the types of an accepted batch say about entities. A type knows a name if it has a property of
that name or if the name is that of a system property; reading needs no more than that, and what is
wrong with an entity is found entry by entry, so every operation has a condition on single names.

Views are looked up blindly when an entity is shown. That goes well because of how types are built:
a type keeps every name that its parent knows, and a view takes in no name that its type does not
know (`knows_of_mem_view?`). The rest holds of any list of names that a type knows.

* `CompiledType.getValue_eq_ok_iff`, `CompiledType.validate_eq_nil_iff`,
  `CompiledType.validateUpdate_eq_nil_iff` — when an operation succeeds.
* `Batch.knows_of_mem_view?` — the members of a view are known.
* `Compiler.views_show_known_names` — what the views of an accepted batch show.
-/

namespace LiveSchema

namespace CompiledType

variable {t : CompiledType} {e : Entity} {name view : String} {members : List String}

/-- The names under which entities of a type can have values. -/
def Knows (t : CompiledType) (name : String) : Prop :=
  isSystemProperty name = true ∨ (t.property? name).isSome = true

theorem isViewable_iff_knows : Batch.isViewable t.properties name = true ↔ t.Knows name := by
  rw [Batch.isViewable_iff, Knows, property?_isSome_iff_mem]

/-! ### Single values -/

/-- A value fits if the name is known and the property of that name, if there is one, takes it. -/
theorem valueError?_eq_none_iff {value : Json} :
    t.valueError? name value = none ↔ t.Knows name ∧
      ∀ p, t.property? name = some p → (value.isNull || p.type.accepts value) = true := by
  rw [valueError?, Knows]
  cases t.property? name with
  | none => simp
  | some p => cases value.isNull <;> simp

/-- A value can be written if it fits and its property is not read-only. -/
theorem updateError?_eq_none_iff {value : Json} :
    t.updateError? name value = none ↔ t.valueError? name value = none ∧
      ∀ p, t.property? name = some p → p.readOnly = false := by
  rw [updateError?]
  cases t.valueError? name value with
  | some error => simp
  | none => cases t.property? name <;> simp

/-- `null` fits wherever a value can. -/
theorem valueError?_null (h : t.Knows name) : t.valueError? name .null = none :=
  valueError?_eq_none_iff.mpr ⟨h, fun _ _ => rfl⟩

/-! ### Whole entities -/

theorem validate_eq_nil_iff :
    t.validate e = [] ↔
      ∀ name value, e.get? name = some value → t.valueError? name value = none := by
  simp only [validate, List.filterMap_eq_nil_iff, Prod.forall, SortedMap.mem_entries_iff]

theorem validateUpdate_eq_nil_iff :
    t.validateUpdate e = [] ↔
      ∀ name value, e.get? name = some value → t.updateError? name value = none := by
  simp only [validateUpdate, List.filterMap_eq_nil_iff, Prod.forall, SortedMap.mem_entries_iff]

/-- Reading succeeds under the names that are known, and gives what the entity has. -/
theorem getValue_eq_ok_iff {found : Option Json} :
    t.getValue e name = .ok found ↔ t.Knows name ∧ e.get? name = found := by
  rw [getValue, Knows]
  cases t.property? name <;> cases isSystemProperty name <;> simp

end CompiledType

/-! ### Projections -/

namespace Entity

variable {e : Entity} {members : List String} {name : String}

/-- The values of an entity under some names, `null` where it has none. -/
def project (members : List String) (e : Entity) : Entity :=
  SortedMap.ofList (members.map fun m => (m, (e.get? m).getD .null))

theorem get?_project :
    (e.project members).get? name =
      if name ∈ members then some ((e.get? name).getD .null) else none :=
  SortedMap.get?_ofList_map members (fun m => (e.get? m).getD .null) name

theorem keys_project_perm (h : members.Nodup) : (e.project members).keys.Perm members :=
  SortedMap.keys_ofList_map_perm h _

theorem get?_project_of_mem (h : name ∈ members) :
    (e.project members).get? name = some ((e.get? name).getD .null) := by
  rw [get?_project, if_pos h]

theorem mem_of_get?_project {value : Json} (h : (e.project members).get? name = some value) :
    name ∈ members := by
  rw [get?_project] at h
  split at h
  next hmem => exact hmem
  next => cases h

/-- Projecting again changes nothing. -/
theorem project_project : (e.project members).project members = e.project members := by
  refine SortedMap.ext_get? fun name => ?_
  rw [get?_project, get?_project]
  by_cases h : name ∈ members
  · rw [if_pos h, if_pos h, Option.getD_some]
  · rw [if_neg h, if_neg h]

end Entity

namespace CompiledType

variable {t : CompiledType} {e : Entity} {name view : String} {members : List String}

theorem serializeView_of_view? (h : t.view? view = some members) (e : Entity) :
    t.serializeView view e = .ok (e.project members) := by
  rw [serializeView, h]
  rfl

/-- The projection of a valid entity on names that are known is valid: it has values of the entity,
which fit, and `null`, which fits too. -/
theorem validate_project (hknown : ∀ m ∈ members, t.Knows m) (h : t.validate e = []) :
    t.validate (e.project members) = [] := by
  refine validate_eq_nil_iff.mpr fun m value hvalue => ?_
  rw [Entity.get?_project] at hvalue
  split at hvalue
  next hm =>
    obtain rfl := Option.some.inj hvalue
    cases hfound : e.get? m with
    | none => exact valueError?_null (hknown m hm)
    | some value => exact validate_eq_nil_iff.mp h m value hfound
  next => cases hvalue

/-- What a view with these members shows of an entity. -/
structure Shows (t : CompiledType) (view : String) (members : List String) (e shown : Entity) :
    Prop where
  serialized : t.serializeView view e = .ok shown
  /-- The members are shown and nothing else. -/
  keys : shown.keys.Perm members
  /-- Every member can be read, and what is read is shown. -/
  values : ∀ m ∈ members, ∃ found, t.getValue e m = .ok found ∧
    shown.get? m = some (found.getD .null)
  valid : t.validate e = [] → t.validate shown = []
  /-- Showing what is shown changes nothing. -/
  again : t.serializeView view shown = .ok shown

theorem shows_project (hview : t.view? view = some members) (hnodup : members.Nodup)
    (hknown : ∀ m ∈ members, t.Knows m) (e : Entity) :
    t.Shows view members e (e.project members) where
  serialized := serializeView_of_view? hview e
  keys := Entity.keys_project_perm hnodup
  values m hm :=
    ⟨e.get? m, getValue_eq_ok_iff.mpr ⟨hknown m hm, rfl⟩, Entity.get?_project_of_mem hm⟩
  valid := validate_project hknown
  again := by rw [serializeView_of_view? hview, Entity.project_project]

end CompiledType

/-! ### The views of a batch -/

namespace Batch

variable {b : Batch} {c : Compiler}

theorem mem_of_mem_newNames {known names : List String} {name : String}
    (h : name ∈ newNames known names) : name ∈ names :=
  List.mem_of_mem_filter (List.mem_eraseDups.mp h)

/-- A type knows every name that its parent knows. -/
theorem knows_build {above : CompiledType} {name : String} (h : above.Knows name) (u : TypeUnit) :
    (b.build c (some above) u).Knows name := by
  refine h.imp_right fun hproperty => ?_
  rw [CompiledType.property?_isSome_iff_mem] at hproperty ⊢
  rw [names_build]
  exact List.mem_append_left _ hproperty

/-- The members that a type adds to a view are known to it, and so are those that its parent
knows. -/
theorem knows_of_mem_view?_build {parent : Option CompiledType} {u : TypeUnit} {view : String}
    (hparent : ∀ above ∈ parent, ∀ inherited, above.view? view = some inherited →
      ∀ m ∈ inherited, above.Knows m)
    {members : List String} (hview : (b.build c parent u).view? view = some members) :
    ∀ m ∈ members, (b.build c parent u).Knows m := by
  have hinherited : ∀ inherited, parent.bind (·.view? view) = some inherited →
      ∀ m ∈ inherited, (b.build c parent u).Knows m := by
    intro inherited hbind m hm
    obtain ⟨above, rfl, habove⟩ := Option.bind_eq_some_iff.mp hbind
    exact knows_build (hparent above rfl inherited habove m hm) u
  rw [view?_build] at hview
  split at hview
  next =>
    obtain rfl := Option.some.inj hview
    intro m hm
    cases List.mem_append.mp hm with
    | inl hold =>
        cases hbind : parent.bind (·.view? view) with
        | none => rw [hbind] at hold; cases hold
        | some inherited => exact hinherited inherited hbind m (by rwa [hbind] at hold)
    | inr hnew =>
        have hlisted := mem_of_mem_newNames hnew
        exact CompiledType.isViewable_iff_knows.mp (List.mem_filter.mp hlisted).2
  next => exact hinherited members hview

/-- **A type knows the members of its views**, wherever on its chain they were listed. -/
theorem knows_of_mem_view? (hk : b.Keyed) (ha : b.lineage.Acyclic) {name : String}
    {t : CompiledType} (ht : (b.compiled c).get? name = some t) {view : String}
    {members : List String} (hview : t.view? view = some members) :
    ∀ m ∈ members, t.Knows m := by
  refine compiled_induction hk ha (motive := fun _ t =>
    ∀ members, t.view? view = some members → ∀ m ∈ members, t.Knows m) ?_ ?_ ht members hview
  · intro name u _ _ members
    refine knows_of_mem_view?_build fun above habove => ?_
    cases habove
  · intro name u p above _ _ _ ih members
    refine knows_of_mem_view?_build fun other hother => ?_
    obtain rfl := Option.some.inj hother
    exact ih

end Batch

namespace Compiler

variable {c : Compiler} {units : List SourceUnit} {types : SortedMap String CompiledType}

/-- **The views of an accepted batch show what their types know.** The members of a view are
distinct and known to the type, and every entity can be shown. -/
theorem views_show_known_names (h : c.compile units = .ok types) {name : String}
    {t : CompiledType} (ht : types.get? name = some t) {view : String} {members : List String}
    (hview : t.view? view = some members) :
    members.Nodup ∧ (∀ m ∈ members, isSystemProperty m = true ∨ (t.property? m).isSome = true) ∧
      ∀ e, ∃ shown, t.Shows view members e shown := by
  have hk : (Batch.ofUnits units).1.Keyed := Batch.keyed_ofUnits units
  have ha := acyclic_of_compile h
  rw [eq_compiled_of_compile h] at ht
  have hnodup := Batch.nodup_of_view? hk ha ht hview
  have hknown := Batch.knows_of_mem_view? hk ha ht hview
  exact ⟨hnodup, hknown, fun e => ⟨_, CompiledType.shows_project hview hnodup hknown e⟩⟩

/-- The summary of a circle has what shapes list and then the radius. It can show a circle that has
neither a label nor a radius. -/
theorem summary_shown :
    ∃ types t shown, ({} : Compiler).compile shapes = .ok types ∧ types.get? "Circle" = some t ∧
      t.view? "summary" = some ["id", "label", "radius"] ∧
        t.Shows "summary" ["id", "label", "radius"]
          (.ofList [("id", .string "c1"), ("inside", .string "s1")]) shown := by
  have hok : ({} : Compiler).compile shapes = .ok ((Batch.ofUnits shapes).1.compiled {}) := by
    rfl
  obtain ⟨t, ht⟩ : ∃ t, ((Batch.ofUnits shapes).1.compiled {}).get? "Circle" = some t := ⟨_, rfl⟩
  have hview : t.view? "summary" = some ["id", "label", "radius"] := by
    obtain rfl := Option.some.inj ht
    decide
  obtain ⟨-, -, hshows⟩ := views_show_known_names hok ht hview
  obtain ⟨shown, hshown⟩ := hshows (.ofList [("id", .string "c1"), ("inside", .string "s1")])
  exact ⟨_, t, shown, hok, ht, hview, hshown⟩

end Compiler

end LiveSchema
