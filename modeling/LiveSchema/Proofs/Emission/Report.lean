import LiveSchema.Proofs.Emission
import LiveSchema.Proofs.PropertyType.Reading

/-!
# LiveSchema.Proofs.Emission.Report

Which definitions are emitted, what becomes of them, and what is said of the others. A definition is
looked at in four spots: its name, its endpoints, each property and each view (`Definition.Spot`).
In each spot there can be one flaw (`Definition.Flaw`), which for a property is the first of three:
its name is no identifier, an earlier property has its name, or its type cannot be read.

`Definition.emit_exact` says that a sound definition is emitted as it stands (`Definition.Sound`,
`Definition.Emits`), and that for any other one the flaws are reported in the order of their spots,
each once (`Definition.Reports`).

The properties are checked in one pass that remembers the valid names it has met. For a valid name
these tell as much as all names of earlier properties (`Emission.fields_eq`), so the flaw of a
property is known from its spot alone.
-/

namespace LiveSchema

/-- An ASCII letter or an underscore, then ASCII letters, digits and underscores. -/
def IsIdentifier (name : String) : Prop := PropertyType.IsName name.toList

theorem isIdentifier_iff {name : String} : isIdentifier name = true ↔ IsIdentifier name :=
  PropertyType.isIdentifierChars_iff

theorem isIdentifier_eq_false_iff {name : String} :
    isIdentifier name = false ↔ ¬ IsIdentifier name := by
  rw [← isIdentifier_iff, Bool.not_eq_true]

namespace Definition

/-! ### Sound definitions -/

/-- Nothing is wrong with a definition, as far as it can be told without the others. -/
structure Sound (d : Definition) : Prop where
  name : IsIdentifier d.name
  endpoints : d.endpoints.isSome = true ↔ d.kind = .relationship
  propertyNames : ∀ p ∈ d.properties, IsIdentifier p.name
  distinct : (d.properties.map (·.name)).Nodup
  types : ∀ p ∈ d.properties, ∃ t, PropertyType.parse p.declaredType = .ok t
  viewNames : ∀ v ∈ d.views, IsIdentifier v.name

/-- The units of a sound definition. -/
structure Emits (d : Definition) (e : Emission) : Prop where
  name : e.primary.name = d.name
  kind : e.primary.kind = d.kind
  parent : e.primary.parent = d.parent
  /-- A field for each property, in the same order. -/
  fields : List.Forall₂ PropertyDeclaration.Declares d.properties e.primary.fields
  views : e.primary.views = d.views
  endpoints : e.primary.endpoints = d.endpoints
  builtin : e.primary.builtin = d.builtin
  nonIndexed : e.primary.nonIndexed = d.nonIndexed
  /-- A helper unit exactly for helper code. -/
  helper : ∀ unit, e.helper = some unit ↔ ∃ source, d.auxiliarySource = some source ∧
    unit = ⟨"_" ++ d.name ++ "Helper", d.name, d.kind, source, Checksum.ofText source⟩

/-! ### Flaws -/

/-- The spots of a definition that are looked at. -/
inductive Spot where
  | name
  | endpoints
  | property (index : Nat)
  | view (index : Nat)
deriving DecidableEq

/-- One spot is looked at before another. -/
def Spot.Before : Spot → Spot → Prop
  | .name, .name => False
  | .name, _ => True
  | .endpoints, .property _ => True
  | .endpoints, .view _ => True
  | .property i, .property j => i < j
  | .property _, .view _ => True
  | .view i, .view j => i < j
  | _, _ => False

/-- What is wrong in a spot. -/
inductive Flaw (d : Definition) : Spot → DefinitionError → Prop where
  | invalidTypeName (h : ¬ IsIdentifier d.name) : Flaw d .name (.invalidTypeName d.kind d.name)
  | missingEndpoints (hkind : d.kind = .relationship) (h : d.endpoints = none) :
      Flaw d .endpoints (.missingEndpoints d.name)
  | unexpectedEndpoints (hkind : d.kind = .node) (h : d.endpoints ≠ none) :
      Flaw d .endpoints (.unexpectedEndpoints d.name)
  | invalidPropertyName {i : Nat} {p : PropertyDeclaration} (hp : d.properties[i]? = some p)
      (h : ¬ IsIdentifier p.name) : Flaw d (.property i) (.invalidPropertyName d.name p.name)
  /-- An earlier property has the name, whether or not its type can be read. -/
  | duplicateProperty {i : Nat} {p : PropertyDeclaration} (hp : d.properties[i]? = some p)
      (hname : IsIdentifier p.name) (h : ∃ q ∈ d.properties.take i, q.name = p.name) :
      Flaw d (.property i) (.duplicateProperty d.name p.name)
  | malformedPropertyType {i : Nat} {p : PropertyDeclaration} {failure : TypeFailure}
      (hp : d.properties[i]? = some p) (hname : IsIdentifier p.name)
      (hnew : ∀ q ∈ d.properties.take i, q.name ≠ p.name)
      (h : PropertyType.parse p.declaredType = .error failure) :
      Flaw d (.property i) (.malformedPropertyType d.name p.name p.declaredType failure)
  | invalidViewName {i : Nat} {v : ViewDeclaration} (hv : d.views[i]? = some v)
      (h : ¬ IsIdentifier v.name) : Flaw d (.view i) (.invalidViewName d.name v.name)

/-- The flaws of a definition in the order of their spots, one for each spot that has one. -/
def Reports (d : Definition) (errors : List DefinitionError) : Prop :=
  ∃ found : List (Spot × DefinitionError), errors = found.map Prod.snd ∧
    (found.map Prod.fst).Pairwise Spot.Before ∧
      ∀ spot error, (spot, error) ∈ found ↔ d.Flaw spot error

end Definition

namespace Emission

/-! ### The pass over the properties -/

/-- Of the names met before, only whether the property's own is among them counts, and only if it is
valid. -/
theorem field_congr {typeName : String} {seen seen' : List String} {p : PropertyDeclaration}
    (h : isIdentifier p.name = true → (p.name ∈ seen ↔ p.name ∈ seen')) :
    field typeName seen p = field typeName seen' p := by
  unfold field
  cases hid : isIdentifier p.name with
  | false => rfl
  | true =>
      have hcontains : seen.contains p.name = seen'.contains p.name := by
        rw [Bool.eq_iff_iff, List.contains_iff_mem, List.contains_iff_mem, h hid]
      rw [hcontains]

/-- Each property is looked at with the names of all properties before it. -/
theorem fields_eq {typeName : String} {seen : List String} {before : List PropertyDeclaration}
    (rest : List PropertyDeclaration)
    (h : ∀ name, isIdentifier name = true → (name ∈ seen ↔ name ∈ before.map (·.name))) :
    fields typeName seen rest = (rest.zipIdx before.length).map fun e =>
      field typeName (((before ++ rest).take e.2).map (·.name)) e.1 := by
  induction rest generalizing seen before with
  | nil => rfl
  | cons p rest ih =>
      rw [fields, List.zipIdx_cons, List.map_cons]
      congr 1
      · rw [List.take_left]
        exact field_congr (h p.name)
      · have hseen : ∀ name, isIdentifier name = true →
            (name ∈ (if isIdentifier p.name then p.name :: seen else seen) ↔
              name ∈ (before ++ [p]).map (·.name)) := by
          intro name hid
          rw [List.map_append, List.mem_append, ← h name hid]
          by_cases hvalid : isIdentifier p.name = true
          · rw [if_pos hvalid, List.mem_cons, or_comm, List.map_singleton, List.mem_singleton]
          · have hne : name ≠ p.name := fun heq => hvalid (heq ▸ hid)
            rw [if_neg hvalid, List.map_singleton, List.mem_singleton, or_iff_left hne]
        have htail := ih hseen
        rw [List.length_append, List.append_assoc] at htail
        exact htail

/-- What a property is refused for. -/
theorem field_eq_error_iff {typeName : String} {seen : List String} {p : PropertyDeclaration}
    {error : DefinitionError} :
    field typeName seen p = .error error ↔
      (¬ IsIdentifier p.name ∧ error = .invalidPropertyName typeName p.name) ∨
      (IsIdentifier p.name ∧ p.name ∈ seen ∧ error = .duplicateProperty typeName p.name) ∨
      (IsIdentifier p.name ∧ p.name ∉ seen ∧ ∃ failure,
        PropertyType.parse p.declaredType = .error failure ∧
          error = .malformedPropertyType typeName p.name p.declaredType failure) := by
  rw [← isIdentifier_iff, ← List.contains_iff_mem]
  unfold field
  cases isIdentifier p.name <;> cases seen.contains p.name <;>
    cases PropertyType.parse p.declaredType <;> simp [eq_comm]

/-! ### The flaws that are found -/

open Definition

/-- What a check finds in the items of a list, each with its spot. -/
def flawsIn {α : Type} (spot : Nat → Spot) (check : Nat → α → Option DefinitionError)
    (items : List α) : List (Spot × DefinitionError) :=
  items.zipIdx.filterMap fun e => (check e.2 e.1).map fun error => (spot e.2, error)

section FlawsIn

variable {α : Type} {spot : Nat → Spot} {check : Nat → α → Option DefinitionError}
  {items : List α}

theorem map_snd_flawsIn :
    (flawsIn spot check items).map Prod.snd = items.zipIdx.filterMap fun e => check e.2 e.1 := by
  rw [flawsIn, List.map_filterMap]
  refine List.filterMap_congr fun e _ => ?_
  rw [Option.map_map]
  exact Option.map_id' ..

theorem mem_flawsIn_iff {found : Spot} {error : DefinitionError} :
    (found, error) ∈ flawsIn spot check items ↔
      ∃ i a, items[i]? = some a ∧ check i a = some error ∧ found = spot i := by
  rw [flawsIn, List.mem_filterMap]
  constructor
  · intro h
    obtain ⟨⟨a, i⟩, hmem, heq⟩ := h
    obtain ⟨found', hcheck, hpair⟩ := Option.map_eq_some_iff.mp heq
    obtain ⟨rfl, rfl⟩ := Prod.mk.inj hpair
    exact ⟨i, a, List.mem_zipIdx_iff_getElem?.mp hmem, hcheck, rfl⟩
  · intro h
    obtain ⟨i, a, ha, hcheck, rfl⟩ := h
    exact ⟨(a, i), List.mem_zipIdx_iff_getElem?.mpr ha, by rw [hcheck]; rfl⟩

theorem exists_spot_of_mem_flawsIn {found : Spot}
    (h : found ∈ (flawsIn spot check items).map Prod.fst) : ∃ i, found = spot i := by
  obtain ⟨⟨found, error⟩, hmem, rfl⟩ := List.mem_map.mp h
  obtain ⟨i, -, -, -, hspot⟩ := mem_flawsIn_iff.mp hmem
  exact ⟨i, hspot⟩

/-- Items are looked at in their order. -/
theorem pairwise_flawsIn (h : ∀ i j, i < j → (spot i).Before (spot j)) :
    ((flawsIn spot check items).map Prod.fst).Pairwise Spot.Before := by
  have horder : items.zipIdx.Pairwise fun a b => a.2 < b.2 := by
    rw [← List.pairwise_map (f := Prod.snd), List.zipIdx_map_snd]
    exact List.pairwise_lt_range'
  rw [List.pairwise_map, flawsIn, List.pairwise_filterMap]
  refine horder.imp fun {a b} hlt x hx y hy => ?_
  obtain ⟨_, -, rfl⟩ := Option.map_eq_some_iff.mp hx
  obtain ⟨_, -, rfl⟩ := Option.map_eq_some_iff.mp hy
  exact h a.2 b.2 hlt

end FlawsIn

variable {d : Definition}

/-- What is wrong with a property, by its spot. -/
def propertyCheck (d : Definition) (i : Nat) (p : PropertyDeclaration) : Option DefinitionError :=
  match field d.name ((d.properties.take i).map (·.name)) p with
  | .ok _ => none
  | .error error => some error

/-- What is wrong with a view. -/
def viewCheck (d : Definition) (_ : Nat) (v : ViewDeclaration) : Option DefinitionError :=
  if isIdentifier v.name then none else some (.invalidViewName d.name v.name)

/-- The flaws of a definition, each with its spot. -/
def flaws (d : Definition) : List (Spot × DefinitionError) :=
  (nameErrors d).map (Spot.name, ·) ++ (endpointErrors d).map (Spot.endpoints, ·) ++
    flawsIn .property (propertyCheck d) d.properties ++ flawsIn .view (viewCheck d) d.views

/-- What is reported are the flaws. -/
theorem errors_eq (d : Definition) : errors d = (flaws d).map Prod.snd := by
  have hproperties : failures (fields d.name [] d.properties) =
      d.properties.zipIdx.filterMap fun e => propertyCheck d e.2 e.1 := by
    have hfields := @fields_eq d.name [] [] d.properties fun _ _ => by simp
    rw [hfields, failures, List.filterMap_map]
    refine List.filterMap_congr fun e _ => ?_
    unfold propertyCheck
    dsimp only [Function.comp, List.nil_append]
    cases field d.name ((d.properties.take e.2).map (·.name)) e.1 <;> rfl
  have hviews : viewErrors d = d.views.zipIdx.filterMap fun e => viewCheck d e.2 e.1 := by
    calc viewErrors d
      _ = d.views.filterMap (viewCheck d 0) := by
          rw [viewErrors, ← List.filterMap_eq_map, List.filterMap_filter]
          refine List.filterMap_congr fun v _ => ?_
          unfold viewCheck
          cases isIdentifier v.name <;> rfl
      _ = (d.views.zipIdx.map Prod.fst).filterMap (viewCheck d 0) := by rw [List.zipIdx_map_fst]
      _ = _ := List.filterMap_map ..
  simp only [errors, flaws, List.map_append, map_snd_flawsIn, hproperties, hviews, List.map_map,
    Function.comp_def, List.map_id']

theorem flaw_name_iff {error : DefinitionError} :
    d.Flaw .name error ↔ error ∈ nameErrors d := by
  unfold nameErrors
  split
  next hid =>
    refine iff_of_false (fun h => ?_) List.not_mem_nil
    cases h with
    | invalidTypeName h => exact h (isIdentifier_iff.mp hid)
  next hid =>
    rw [List.mem_singleton]
    constructor
    · intro h
      cases h
      rfl
    · intro herror
      obtain rfl := herror
      exact .invalidTypeName fun h => hid (isIdentifier_iff.mpr h)

theorem flaw_endpoints_iff {error : DefinitionError} :
    d.Flaw .endpoints error ↔ error ∈ endpointErrors d := by
  unfold endpointErrors
  constructor
  · intro h
    cases h with
    | missingEndpoints hkind h => simp [hkind, h]
    | unexpectedEndpoints hkind h =>
        obtain ⟨e, he⟩ := Option.ne_none_iff_exists'.mp h
        simp [hkind, he]
  · intro h
    split at h
    next hkind hends =>
      obtain rfl := List.mem_singleton.mp h
      exact .missingEndpoints hkind hends
    next hkind hends =>
      obtain rfl := List.mem_singleton.mp h
      exact .unexpectedEndpoints hkind (by simp [hends])
    next => cases h

theorem propertyCheck_eq_some_iff {i : Nat} {p : PropertyDeclaration} {error : DefinitionError} :
    propertyCheck d i p = some error ↔
      field d.name ((d.properties.take i).map (·.name)) p = .error error := by
  unfold propertyCheck
  cases field d.name ((d.properties.take i).map (·.name)) p <;> simp

theorem flaw_property_iff {i : Nat} {error : DefinitionError} :
    d.Flaw (.property i) error ↔
      ∃ p, d.properties[i]? = some p ∧ propertyCheck d i p = some error := by
  simp only [propertyCheck_eq_some_iff, field_eq_error_iff, List.mem_map, not_exists, not_and]
  constructor
  · intro h
    cases h with
    | invalidPropertyName hp h => exact ⟨_, hp, .inl ⟨h, rfl⟩⟩
    | duplicateProperty hp hname h => exact ⟨_, hp, .inr (.inl ⟨hname, h, rfl⟩)⟩
    | malformedPropertyType hp hname hnew h =>
        exact ⟨_, hp, .inr (.inr ⟨hname, hnew, _, h, rfl⟩)⟩
  · intro h
    obtain ⟨p, hp, ⟨h, rfl⟩ | ⟨hname, h, rfl⟩ | ⟨hname, hnew, failure, h, rfl⟩⟩ := h
    · exact .invalidPropertyName hp h
    · exact .duplicateProperty hp hname h
    · exact .malformedPropertyType hp hname hnew h

theorem flaw_view_iff {i : Nat} {error : DefinitionError} :
    d.Flaw (.view i) error ↔ ∃ v, d.views[i]? = some v ∧ viewCheck d i v = some error := by
  unfold viewCheck
  constructor
  · intro h
    cases h with
    | invalidViewName hv h => exact ⟨_, hv, by rw [isIdentifier_eq_false_iff.mpr h]; rfl⟩
  · intro h
    obtain ⟨v, hv, h⟩ := h
    split at h
    next => cases h
    next hid =>
      obtain rfl := Option.some.inj h
      exact .invalidViewName hv fun h => hid (isIdentifier_iff.mpr h)

/-- What is found are the flaws. -/
theorem mem_flaws_iff {spot : Spot} {error : DefinitionError} :
    (spot, error) ∈ flaws d ↔ d.Flaw spot error := by
  simp only [flaws, List.mem_append, List.mem_map, Prod.mk.injEq, mem_flawsIn_iff]
  cases spot with
  | name => simp [flaw_name_iff]
  | endpoints => simp [flaw_endpoints_iff]
  | property i => simp [flaw_property_iff]
  | view i => simp [flaw_view_iff]

/-- The spots are looked at one after the other. -/
theorem pairwise_flaws (d : Definition) : ((flaws d).map Prod.fst).Pairwise Spot.Before := by
  have hname : (((nameErrors d).map (Spot.name, ·)).map Prod.fst).Pairwise Spot.Before := by
    unfold nameErrors
    split <;> simp
  have hendpoints :
      (((endpointErrors d).map (Spot.endpoints, ·)).map Prod.fst).Pairwise Spot.Before := by
    unfold endpointErrors
    split <;> simp
  have hfixed {spot a : Spot} {errors : List DefinitionError}
      (h : a ∈ (errors.map (spot, ·)).map Prod.fst) : a = spot := by
    obtain ⟨e, he, rfl⟩ := List.mem_map.mp h
    obtain ⟨error, -, rfl⟩ := List.mem_map.mp he
    rfl
  simp only [flaws, List.map_append, List.pairwise_append, List.mem_append]
  refine ⟨⟨⟨hname, hendpoints, ?_⟩, pairwise_flawsIn fun _ _ => id, ?_⟩,
    pairwise_flawsIn fun _ _ => id, ?_⟩
  · intro a ha b hb
    rw [hfixed ha, hfixed hb]
    trivial
  · intro a ha b hb
    obtain ⟨i, rfl⟩ := exists_spot_of_mem_flawsIn hb
    rcases ha with ha | ha <;> rw [hfixed ha] <;> trivial
  · intro a ha b hb
    obtain ⟨i, rfl⟩ := exists_spot_of_mem_flawsIn hb
    rcases ha with (ha | ha) | ha
    · rw [hfixed ha]
      trivial
    · rw [hfixed ha]
      trivial
    · obtain ⟨j, rfl⟩ := exists_spot_of_mem_flawsIn ha
      trivial

end Emission

namespace Definition

/-! ### Emission -/

variable {d : Definition}

/-- No name is declared twice if no property has the name of an earlier one. -/
theorem nodup_propertyNames_iff :
    (d.properties.map (·.name)).Nodup ↔
      ∀ i p, d.properties[i]? = some p → ∀ q ∈ d.properties.take i, q.name ≠ p.name := by
  rw [List.Nodup, List.pairwise_map, List.pairwise_iff_getElem]
  constructor
  · intro h j p hp q hq
    obtain ⟨hj, rfl⟩ := List.getElem?_eq_some_iff.mp hp
    obtain ⟨i, hi, rfl⟩ := List.mem_take_iff_getElem.mp hq
    exact h i j _ hj (by omega)
  · intro h i j hi hj hlt
    exact h j _ (List.getElem?_eq_getElem hj) _
      (List.mem_take_iff_getElem.mpr ⟨i, by omega, rfl⟩)

/-- A definition is sound if there is no flaw in any spot. -/
theorem sound_iff : d.Sound ↔ ∀ spot error, ¬ d.Flaw spot error := by
  constructor
  · intro h spot error hflaw
    cases hflaw with
    | invalidTypeName hname => exact hname h.name
    | missingEndpoints hkind hends =>
        have hsome := h.endpoints.mpr hkind
        rw [hends] at hsome
        cases hsome
    | unexpectedEndpoints hkind hends =>
        have hrelationship := h.endpoints.mp (Option.isSome_iff_ne_none.mpr hends)
        rw [hkind] at hrelationship
        cases hrelationship
    | invalidPropertyName hp hname => exact hname (h.propertyNames _ (List.mem_of_getElem? hp))
    | duplicateProperty hp hname hearlier =>
        obtain ⟨q, hq, hsame⟩ := hearlier
        exact nodup_propertyNames_iff.mp h.distinct _ _ hp q hq hsame
    | malformedPropertyType hp hname hnew hfailure =>
        obtain ⟨t, ht⟩ := h.types _ (List.mem_of_getElem? hp)
        rw [hfailure] at ht
        cases ht
    | invalidViewName hv hname => exact hname (h.viewNames _ (List.mem_of_getElem? hv))
  · intro h
    have hnames : ∀ p ∈ d.properties, IsIdentifier p.name := by
      intro p hp
      obtain ⟨i, hi⟩ := List.mem_iff_getElem?.mp hp
      exact by_contra fun hname => h _ _ (.invalidPropertyName hi hname)
    have hdistinct : ∀ i p, d.properties[i]? = some p →
        ∀ q ∈ d.properties.take i, q.name ≠ p.name := by
      intro i p hp q hq hsame
      exact h _ _ (.duplicateProperty hp (hnames p (List.mem_of_getElem? hp)) ⟨q, hq, hsame⟩)
    refine
      { name := by_contra fun hname => h _ _ (.invalidTypeName hname)
        endpoints := ?_
        propertyNames := hnames
        distinct := nodup_propertyNames_iff.mpr hdistinct
        types := ?_
        viewNames := ?_ }
    · cases hkind : d.kind with
      | node =>
          refine iff_of_false (fun hsome => ?_) nofun
          exact h _ _ (.unexpectedEndpoints hkind (Option.isSome_iff_ne_none.mp hsome))
      | relationship =>
          refine iff_of_true (Option.isSome_iff_ne_none.mpr fun hends => ?_) rfl
          exact h _ _ (.missingEndpoints hkind hends)
    · intro p hp
      obtain ⟨i, hi⟩ := List.mem_iff_getElem?.mp hp
      cases htype : PropertyType.parse p.declaredType with
      | ok t => exact ⟨t, rfl⟩
      | error failure =>
          exact (h _ _ (.malformedPropertyType hi (hnames p hp) (hdistinct i p hi) htype)).elim
    · intro v hv
      obtain ⟨i, hi⟩ := List.mem_iff_getElem?.mp hv
      exact by_contra fun hname => h _ _ (.invalidViewName hi hname)

/-- Nothing is reported of the sound definitions alone. -/
theorem errors_eq_nil_iff : Emission.errors d = [] ↔ d.Sound := by
  rw [Emission.errors_eq, List.map_eq_nil_iff, List.eq_nil_iff_forall_not_mem, sound_iff]
  simp only [Prod.forall, Emission.mem_flaws_iff]

theorem reports_errors (d : Definition) : d.Reports (Emission.errors d) :=
  ⟨Emission.flaws d, Emission.errors_eq d, Emission.pairwise_flaws d,
    fun _ _ => Emission.mem_flaws_iff⟩

theorem emits_of_errors (h : Emission.errors d = []) :
    d.Emits ⟨Emission.typeUnit d, Emission.helperUnit? d⟩ where
  name := rfl
  kind := rfl
  parent := rfl
  fields := (Emission.fields_of_errors h).1
  views := rfl
  endpoints := rfl
  builtin := rfl
  nonIndexed := rfl
  helper := by
    intro unit
    rw [Emission.helperUnit?, Option.map_eq_some_iff]
    exact exists_congr fun source => and_congr_right fun _ => eq_comm

theorem emit_eq_error {errors : List DefinitionError} (h : d.emit = .error errors) :
    errors = Emission.errors d := by
  unfold emit at h
  split at h
  next => cases h
  next => exact (Except.error.inj h).symm

/-- **Emission is exact.** The definitions that are emitted are the sound ones, and their units are
as they are declared. Of any other definition every flaw is reported, once, in the order of the
spots. -/
theorem emit_exact (d : Definition) :
    ((∃ e, d.emit = .ok e) ↔ d.Sound) ∧ (∀ e, d.emit = .ok e → d.Emits e) ∧
      ∀ errors, d.emit = .error errors → d.Reports errors := by
  refine ⟨?_, fun e he => ?_, fun errors he => ?_⟩
  · simp only [emit_eq_ok_iff, exists_and_left, exists_eq, and_true, errors_eq_nil_iff]
  · obtain ⟨hnone, rfl⟩ := emit_eq_ok_iff.mp he
    exact emits_of_errors hnone
  · rw [emit_eq_error he]
    exact reports_errors d

/-- A node type with the endpoints of a relationship. Its first property has a type that cannot be
read, and its second one has the same name. -/
def brokenFile : Definition :=
  { (((node "File").withProperty ⟨"size", "Lnog", false, false, false⟩).withProperty
      ⟨"size", "Long", false, false, false⟩).withProperty ⟨"1st", "Long", true, false, false⟩ with
    endpoints := some ⟨"File", "File", "OWNS"⟩ }

/-- The type of the first property and the name of the second are both reported. -/
theorem brokenFile_report :
    ¬ brokenFile.Sound ∧ brokenFile.Reports
      [.unexpectedEndpoints "File",
        .malformedPropertyType "File" "size" "Lnog" (.noType ['L', 'n', 'o', 'g']),
        .duplicateProperty "File" "size", .invalidPropertyName "File" "1st"] := by
  have hemit : brokenFile.emit = .error
      [.unexpectedEndpoints "File",
        .malformedPropertyType "File" "size" "Lnog" (.noType ['L', 'n', 'o', 'g']),
        .duplicateProperty "File" "size", .invalidPropertyName "File" "1st"] := by
    decide +kernel
  refine ⟨fun hsound => ?_, (emit_exact brokenFile).2.2 _ hemit⟩
  obtain ⟨e, he⟩ := (emit_exact brokenFile).1.mpr hsound
  rw [hemit] at he
  cases he

end Definition

end LiveSchema
