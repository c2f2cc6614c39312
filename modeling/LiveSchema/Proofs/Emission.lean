import LiveSchema.Emission
import LiveSchema.Proofs.Compile.Batch

/-!
# LiveSchema.Proofs.Emission

What definitions emit. Definitions are emitted one by one: all of them can be emitted exactly when
each can, and then the units are those of each in turn (`emitAll_eq_ok_iff`,
`exists_emitAll_iff`). So each type unit comes from one definition, and is named by an identifier
(`isIdentifier_of_mem_types`), which is why no type name has a dot (`dotless_of_isIdentifier`). It
has one field for each property that is declared (`Emission.fields_of_errors`), with the flags of
the declaration (`Emission.exists_field_iff`).
-/

namespace LiveSchema

theorem dotless_of_isIdentifier {name : String} (h : isIdentifier name = true) :
    '.' ∉ name.toList := by
  have hpart : ∀ c ∈ name.toList, isIdentifierPart c = true := by
    unfold isIdentifier isIdentifierChars at h
    cases hchars : name.toList with
    | nil => nofun
    | cons c rest =>
        rw [hchars, Bool.and_eq_true] at h
        intro d hd
        rcases List.mem_cons.mp hd with rfl | hd
        · exact isIdentifierPart_of_start h.1
        · exact List.all_eq_true.mp h.2 d hd
  intro hdot
  exact absurd (hpart '.' hdot) (by decide)

theorem Emission.isIdentifier_of_errors {d : Definition} (h : Emission.errors d = []) :
    isIdentifier d.name = true := by
  simp only [errors, List.append_eq_nil_iff] at h
  obtain ⟨⟨⟨hname, -⟩, -⟩, -⟩ := h
  unfold nameErrors at hname
  split at hname
  next hid => exact hid
  next => cases hname

/-- The field that a property declares. -/
structure PropertyDeclaration.Declares (p : PropertyDeclaration) (f : Field) : Prop where
  name : f.name = p.name
  type : PropertyType.parse p.declaredType = .ok f.type
  indexed : f.indexed = p.indexed
  indexedWhenEmpty : f.indexedWhenEmpty = p.indexedWhenEmpty
  readOnly : f.readOnly = p.readOnly

namespace Emission

theorem field_eq_ok {typeName : String} {seen : List String} {p : PropertyDeclaration} {f : Field}
    (h : field typeName seen p = .ok f) :
    isIdentifier p.name = true ∧ p.name ∉ seen ∧ p.Declares f := by
  unfold field at h
  split at h
  next => cases h
  next hid =>
    split at h
    next => cases h
    next hseen =>
      have hnew : p.name ∉ seen := fun hmem => hseen (List.contains_iff_mem.mpr hmem)
      split at h
      next type htype =>
        obtain rfl := Except.ok.inj h
        exact ⟨by simpa using hid, hnew, rfl, htype, rfl, rfl, rfl⟩
      next => cases h

/-- Where no property is refused, each has its field, and no name is declared twice. -/
theorem fields_of_failures {typeName : String} {seen : List String}
    {properties : List PropertyDeclaration}
    (h : failures (fields typeName seen properties) = []) :
    List.Forall₂ PropertyDeclaration.Declares properties
        (successes (fields typeName seen properties)) ∧
      (properties.map (·.name)).Nodup ∧ ∀ p ∈ properties, p.name ∉ seen := by
  -- the names before a property are seen when its turn comes
  induction properties generalizing seen with
  | nil => exact ⟨.nil, List.nodup_nil, nofun⟩
  | cons p rest ih =>
      rw [fields] at h ⊢
      cases hfield : field typeName seen p with
      | error e =>
          rw [hfield] at h
          cases h
      | ok f =>
          obtain ⟨hid, hnew, hdeclares⟩ := field_eq_ok hfield
          rw [hfield] at h
          rw [if_pos hid] at h ⊢
          obtain ⟨hfields, hnodup, hunseen⟩ := ih h
          refine ⟨.cons hdeclares hfields, List.nodup_cons.mpr ⟨?_, hnodup⟩, ?_⟩
          · intro hmem
            obtain ⟨q, hq, hsame⟩ := List.mem_map.mp hmem
            exact hunseen q hq (hsame ▸ List.mem_cons_self)
          · intro q hq
            rcases List.mem_cons.mp hq with rfl | hq
            · exact hnew
            · exact fun hmem => hunseen q hq (List.mem_cons_of_mem p.name hmem)

/-- The names and the flags of declared fields are those of the properties. -/
theorem map_fields_of_declares {properties : List PropertyDeclaration} {fields : List Field}
    (h : List.Forall₂ PropertyDeclaration.Declares properties fields) :
    fields.map (fun f => (f.name, f.indexed, f.indexedWhenEmpty)) =
      properties.map (fun p => (p.name, p.indexed, p.indexedWhenEmpty)) := by
  induction h with
  | nil => rfl
  | cons hf _ ih => rw [List.map_cons, List.map_cons, ih, hf.name, hf.indexed, hf.indexedWhenEmpty]

theorem fields_of_errors {d : Definition} (h : errors d = []) :
    List.Forall₂ PropertyDeclaration.Declares d.properties (typeUnit d).fields ∧
      (d.properties.map (·.name)).Nodup := by
  simp only [errors, List.append_eq_nil_iff] at h
  obtain ⟨⟨-, hfields⟩, -⟩ := h
  obtain ⟨hdeclares, hnodup, -⟩ := fields_of_failures hfields
  exact ⟨hdeclares, hnodup⟩

theorem nodup_fields {d : Definition} (h : errors d = []) :
    ((typeUnit d).fields.map (·.name)).Nodup := by
  obtain ⟨hdeclares, hnodup⟩ := fields_of_errors h
  have hnames := congrArg (List.map Prod.fst) (map_fields_of_declares hdeclares)
  rw [List.map_map, List.map_map] at hnames
  exact hnames ▸ hnodup

/-- A definition that is emitted has a field for each property, with its name and its flags. -/
theorem exists_field_iff {d : Definition} (h : errors d = [])
    (P : String × Bool × Bool → Prop) :
    (∃ f ∈ (typeUnit d).fields, P (f.name, f.indexed, f.indexedWhenEmpty)) ↔
      ∃ p ∈ d.properties, P (p.name, p.indexed, p.indexedWhenEmpty) := by
  have hmap := map_fields_of_declares (fields_of_errors h).1
  have hmem : (∃ e ∈ (typeUnit d).fields.map fun f => (f.name, f.indexed, f.indexedWhenEmpty),
      P e) ↔
        ∃ e ∈ d.properties.map fun p => (p.name, p.indexed, p.indexedWhenEmpty), P e := by
    rw [hmap]
  simpa only [List.mem_map, exists_exists_and_eq_and] using hmem

end Emission

/-- A definition is emitted exactly when nothing is wrong with it. -/
theorem Definition.emit_eq_ok_iff {d : Definition} {e : Emission} :
    d.emit = .ok e ↔
      Emission.errors d = [] ∧ e = ⟨Emission.typeUnit d, Emission.helperUnit? d⟩ := by
  unfold emit
  split
  next h =>
    simp only [h, true_and, Except.ok.injEq]
    exact eq_comm
  next h => exact ⟨nofun, fun he => absurd he.1 h⟩

theorem emitAll_eq_ok_iff {ds : List Definition} {units : List SourceUnit} :
    emitAll ds = .ok units ↔
      (∀ d ∈ ds, Emission.errors d = []) ∧
        units = ds.flatMap fun d =>
          (Emission.mk (Emission.typeUnit d) (Emission.helperUnit? d)).units := by
  rw [← List.flatMap_eq_nil_iff]
  unfold emitAll
  split
  next h =>
    simp only [h, true_and, Except.ok.injEq]
    exact eq_comm
  next h => exact ⟨nofun, fun he => absurd he.1 h⟩

/-- All definitions are emitted exactly when each is. -/
theorem exists_emitAll_iff {ds : List Definition} :
    (∃ units, emitAll ds = .ok units) ↔ ∀ d ∈ ds, ∃ e, d.emit = .ok e := by
  constructor
  · rintro ⟨units, h⟩ d hd
    exact ⟨_, Definition.emit_eq_ok_iff.mpr ⟨(emitAll_eq_ok_iff.mp h).1 d hd, rfl⟩⟩
  · intro h
    refine ⟨_, emitAll_eq_ok_iff.mpr ⟨fun d hd => ?_, rfl⟩⟩
    obtain ⟨e, he⟩ := h d hd
    exact (Definition.emit_eq_ok_iff.mp he).1

/-- The type units of emitted definitions, one for each. -/
theorem types_of_emitAll {ds : List Definition} {units : List SourceUnit}
    (h : emitAll ds = .ok units) : SourceUnit.types units = ds.map Emission.typeUnit := by
  obtain ⟨-, rfl⟩ := emitAll_eq_ok_iff.mp h
  clear h
  induction ds with
  | nil => rfl
  | cons d rest ih =>
      rw [List.flatMap_cons, SourceUnit.types, List.filterMap_append, List.map_cons]
      rw [SourceUnit.types] at ih
      rw [ih]
      unfold Emission.units
      cases Emission.helperUnit? d <;> rfl

theorem isIdentifier_of_mem_types {ds : List Definition} {units : List SourceUnit}
    (h : emitAll ds = .ok units) {u : TypeUnit} (hu : u ∈ SourceUnit.types units) :
    isIdentifier u.name = true := by
  rw [types_of_emitAll h] at hu
  obtain ⟨d, hd, rfl⟩ := List.mem_map.mp hu
  exact Emission.isIdentifier_of_errors ((emitAll_eq_ok_iff.mp h).1 d hd)

end LiveSchema
