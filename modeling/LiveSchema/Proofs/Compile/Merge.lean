import LiveSchema.Compile.Batch
import LiveSchema.Proofs.SortedMap

/-!
# LiveSchema.Proofs.Compile.Merge

What a type adds to what it inherits. Properties and the members of views are merged by the same
rule: a name that is there already keeps its place, a new one goes to the end. Merging a list of
names therefore appends its new names in the order of their first occurrence, `newNames`
(`foldl_appendNew`), and both merges are instances of it:

* `names_mergeProperties`, `find?_mergeProperties` — the names and the lookups of merged properties;
* `get?_mergeViews` — the members of a merged view;
* `unknownInViews_eq_nil_iff` — when the views of a type list nothing unknown.
-/

namespace LiveSchema.Batch

/-! ### Appending names that are new -/

/-- The names of a list that are not known yet, in the order of their first occurrence. -/
def newNames (known names : List String) : List String :=
  (names.filter (fun name => !known.contains name)).eraseDups

@[simp] theorem newNames_nil (known : List String) : newNames known [] = [] := rfl

theorem appendNew_of_mem {members : List String} {name : String} (h : name ∈ members) :
    appendNew members name = members := by
  rw [appendNew, if_pos (List.contains_iff_mem.mpr h)]

theorem appendNew_of_not_mem {members : List String} {name : String} (h : name ∉ members) :
    appendNew members name = members ++ [name] := by
  rw [appendNew, if_neg (fun hc => h (List.contains_iff_mem.mp hc))]

/-- Appending names one after the other appends the new ones. -/
theorem foldl_appendNew (names members : List String) :
    names.foldl appendNew members = members ++ newNames members names := by
  induction names generalizing members with
  | nil => simp [newNames]
  | cons name rest ih =>
      rw [List.foldl_cons]
      by_cases h : name ∈ members
      · rw [appendNew_of_mem h, ih, newNames, newNames, List.filter_cons_of_neg (by simp [h])]
      · rw [appendNew_of_not_mem h, ih, newNames, newNames, List.filter_cons_of_pos (by simp [h]),
          List.eraseDups_cons, List.filter_filter, List.append_assoc, List.singleton_append]
        congr 3
        refine List.filter_congr fun other _ => ?_
        simp [Bool.and_comm, beq_eq_decide]

theorem nodup_appendNew {members : List String} (h : members.Nodup) (name : String) :
    (appendNew members name).Nodup := by
  by_cases hname : name ∈ members
  · rwa [appendNew_of_mem hname]
  · rw [appendNew_of_not_mem hname]
    exact List.nodup_append.mpr ⟨h, List.nodup_singleton name,
      fun a ha b hb hab => hname (by rwa [← List.mem_singleton.mp hb, ← hab])⟩

theorem nodup_foldl_appendNew {members : List String} (h : members.Nodup) (names : List String) :
    (names.foldl appendNew members).Nodup :=
  List.foldlRecOn (motive := List.Nodup) names appendNew h fun _ hacc name _ =>
    nodup_appendNew hacc name

/-! ### Properties -/

theorem names_mergeProperty (properties : List Property) (p : Property) :
    (mergeProperty properties p).map (·.name) = appendNew (properties.map (·.name)) p.name := by
  by_cases h : p.name ∈ properties.map (·.name)
  · have hany : properties.any (·.name = p.name) = true := by simpa using h
    rw [appendNew_of_mem h, mergeProperty, if_pos hany, List.map_map]
    refine List.map_congr_left fun q _ => ?_
    by_cases hq : q.name = p.name <;> simp [hq]
  · have hany : ¬ properties.any (·.name = p.name) = true := by simpa using h
    rw [appendNew_of_not_mem h, mergeProperty, if_neg hany, List.map_append, List.map_singleton]

/-- Putting a property in the place of those of its name changes the lookup of that name only. -/
theorem find?_replace (properties : List Property) (p : Property) (name : String) :
    (properties.map fun q => if q.name = p.name then p else q).find? (·.name = name) =
      if p.name = name then (properties.find? (·.name = name)).map fun _ => p
      else properties.find? (·.name = name) := by
  induction properties with
  | nil => simp
  | cons q rest ih =>
      rw [List.map_cons, List.find?_cons, List.find?_cons, ih]
      by_cases hq : q.name = p.name
      · by_cases hname : p.name = name <;> simp [hq, hname]
      · by_cases hname : p.name = name
        · have hne : q.name ≠ name := fun e => hq (e.trans hname.symm)
          simp [hname, hne]
        · simp [hq, hname]

/-- Merging changes the lookup of the merged name only. -/
theorem find?_mergeProperty (properties : List Property) (p : Property) (name : String) :
    (mergeProperty properties p).find? (·.name = name) =
      if p.name = name then some p else properties.find? (·.name = name) := by
  by_cases h : properties.any (·.name = p.name) = true
  · rw [mergeProperty, if_pos h, find?_replace]
    by_cases hname : p.name = name
    · subst hname
      obtain ⟨q, hq⟩ := Option.isSome_iff_exists.mp
        (List.find?_isSome.mpr (List.any_eq_true.mp h))
      rw [if_pos rfl, if_pos rfl, hq, Option.map_some]
    · rw [if_neg hname, if_neg hname]
  · rw [mergeProperty, if_neg h, List.find?_append, List.find?_singleton]
    by_cases hname : p.name = name
    · subst hname
      have hnone : properties.find? (·.name = p.name) = none :=
        List.find?_eq_none.mpr fun q hq hqn => h (List.any_eq_true.mpr ⟨q, hq, hqn⟩)
      simp [hnone]
    · simp [hname]

/-- Inherited properties keep their places; declared ones that are new follow. -/
theorem names_mergeProperties (inherited : List Property) (u : TypeUnit) :
    (mergeProperties inherited u).map (·.name) =
      inherited.map (·.name) ++ newNames (inherited.map (·.name)) (u.fields.map (·.name)) := by
  rw [mergeProperties, ← foldl_appendNew]
  induction u.fields generalizing inherited with
  | nil => rfl
  | cons f rest ih =>
      rw [List.map_cons, List.foldl_cons, ih, names_mergeProperty, List.map_cons, List.foldl_cons]
      rfl

theorem nodup_mergeProperties {inherited : List Property}
    (h : (inherited.map (·.name)).Nodup) (u : TypeUnit) :
    ((mergeProperties inherited u).map (·.name)).Nodup := by
  rw [names_mergeProperties, ← foldl_appendNew]
  exact nodup_foldl_appendNew h _

/-- The declaration that counts among the fields of a type: the last one of the name. -/
def declaration? (u : TypeUnit) (name : String) : Option Property :=
  (u.fields.reverse.find? (·.name = name)).map (propertyOf u)

theorem declaration?_isSome_iff {u : TypeUnit} {name : String} :
    (declaration? u name).isSome = true ↔ ∃ f ∈ u.fields, f.name = name := by
  simp [declaration?, List.find?_isSome]

/-- A declaration of the type counts before an inherited property. -/
theorem find?_mergeProperties (inherited : List Property) (u : TypeUnit) (name : String) :
    (mergeProperties inherited u).find? (·.name = name) =
      (declaration? u name).or (inherited.find? (·.name = name)) := by
  rw [mergeProperties, declaration?]
  induction u.fields generalizing inherited with
  | nil => simp
  | cons f rest ih =>
      rw [List.map_cons, List.foldl_cons, ih, find?_mergeProperty, List.reverse_cons,
        List.find?_append, List.find?_singleton]
      cases rest.reverse.find? (·.name = name) with
      | some found => simp
      | none => by_cases hf : f.name = name <;> simp [hf, propertyOf]

/-! ### Views -/

/-- The names that a type lists under a view, in order. -/
def listed (u : TypeUnit) (view : String) : List String :=
  (u.views.filter (·.name = view)).flatMap (·.properties)

theorem listed_eq_nil {u : TypeUnit} {view : String}
    (h : ¬ u.views.any (·.name = view) = true) : listed u view = [] := by
  have hnone : u.views.filter (·.name = view) = [] := by simpa using h
  rw [listed, hnone, List.flatMap_nil]

/-- A view of a type has the inherited members and then the new ones that the type lists; it exists
if it is inherited or declared. -/
theorem get?_mergeViews (properties : List Property) (declared : List ViewDeclaration)
    (inherited : SortedMap String (List String)) (view : String) :
    (declared.foldl (mergeView properties) inherited).get? view =
      if declared.any (·.name = view) then
        some ((((declared.filter (·.name = view)).flatMap (·.properties)).filter
          (isViewable properties)).foldl appendNew ((inherited.get? view).getD []))
      else inherited.get? view := by
  induction declared generalizing inherited with
  | nil => rfl
  | cons v rest ih =>
      rw [List.foldl_cons, ih, mergeView, SortedMap.get?_insert]
      by_cases hv : v.name = view
      · subst hv
        rw [if_pos rfl, Option.getD_some, List.filter_cons_of_pos (by simp), List.flatMap_cons,
          List.filter_append, List.foldl_append, List.any_cons]
        by_cases hrest : rest.any (·.name = v.name) = true
        · simp [hrest]
        · have hnil : rest.filter (·.name = v.name) = [] := by simpa using hrest
          simp [hrest, hnil]
      · rw [if_neg hv, List.filter_cons_of_neg (by simpa using hv), List.any_cons]
        simp [hv]

theorem isViewable_iff {properties : List Property} {name : String} :
    isViewable properties name = true ↔
      isSystemProperty name = true ∨ name ∈ properties.map (·.name) := by
  simp [isViewable]

theorem mem_unknownInViews_iff {properties : List Property} {u : TypeUnit} {error : CompileError} :
    error ∈ unknownInViews properties u ↔
      ∃ view ∈ u.views, ∃ p ∈ view.properties, isViewable properties p = false ∧
        error = .unknownViewProperty u.name view.name p := by
  simp only [unknownInViews, List.mem_flatMap, List.mem_map, List.mem_filter, Bool.not_eq_true',
    and_assoc, eq_comm (a := error)]

/-- The views of a type list nothing unknown. -/
theorem unknownInViews_eq_nil_iff {properties : List Property} {u : TypeUnit} :
    unknownInViews properties u = [] ↔
      ∀ v ∈ u.views, ∀ p ∈ v.properties, isViewable properties p = true := by
  simp [unknownInViews, List.flatMap_eq_nil_iff, List.filter_eq_nil_iff]

/-- Then all that is listed is kept. -/
theorem filter_listed {properties : List Property} {u : TypeUnit}
    (h : unknownInViews properties u = []) (view : String) :
    (listed u view).filter (isViewable properties) = listed u view := by
  refine List.filter_eq_self.mpr fun p hp => ?_
  obtain ⟨v, hv, hpv⟩ := List.mem_flatMap.mp hp
  exact unknownInViews_eq_nil_iff.mp h v (List.mem_of_mem_filter hv) p hpv

end LiveSchema.Batch
