import LiveSchema.Proofs.PropertyType.Reading

/-!
# LiveSchema.Proofs.PropertyType.RoundTrip

Writing a type and reading it again. A type can be read from elsewhere than from its written form,
so its enumerations and references may hold any texts; the written form brings it back exactly if
it is well-formed (`PropertyType.WellFormed`). Otherwise the text may be refused or be read as
another type, such as an enumeration of `a, b` as one of `a` and `b`. It is never read as the type
that was written, because whatever is read is well-formed (`Denotes.wellFormed`).

* `Denotes.chars` — the written form of a well-formed type denotes it.
* `reads_back_iff_wellFormed` — the round trip.
-/

namespace LiveSchema.PropertyType

theorem padded_toList {name : String} (h : IsName name.toList) : Padded name.toList name := by
  have hpadded := Padded.mk blanks_nil h blanks_nil
  rwa [List.nil_append, List.append_nil, String.ofList_toList] at hpadded

/-- Names are written with a comma and a blank between them. -/
theorem names_intercalate {values : List String} (hne : values ≠ [])
    (h : ∀ value ∈ values, IsName value.toList) :
    Names ([',', ' '].intercalate (values.map String.toList)) values := by
  induction values with
  | nil => exact absurd rfl hne
  | cons value values ih =>
      have hpadded := padded_toList (h value List.mem_cons_self)
      cases values with
      | nil =>
          rw [List.map_cons, List.map_nil, List.intercalate_singleton]
          exact .single hpadded
      | cons next values =>
          have hrest := ih (List.cons_ne_nil _ _) fun v hv => h v (List.mem_cons_of_mem value hv)
          have hblank : Blanks [' '] := by simp [Blanks, IsBlank]
          rw [List.map_cons, List.map_cons, List.intercalate_cons_cons, List.append_assoc]
          exact .cons hpadded (hrest.blanks_append hblank)

/-- The written form of a well-formed type denotes it. -/
theorem Denotes.chars {t : PropertyType} (h : t.WellFormed) : Denotes t.chars t := by
  induction t with
  | enumeration values =>
      have hbase := Base.enumeration blanks_nil (names_intercalate h.1 h.2)
      rw [List.append_nil] at hbase
      exact hbase.denotes
  | reference target =>
      have hbase := Base.reference blanks_nil (padded_toList h)
      rw [List.append_nil] at hbase
      exact hbase.denotes
  | collection items ih => exact (ih h).collection
  | string => exact (Base.scalar .string).denotes
  | integer => exact (Base.scalar .integer).denotes
  | long => exact (Base.scalar .long).denotes
  | double => exact (Base.scalar .double).denotes
  | boolean => exact (Base.scalar .boolean).denotes
  | date => exact (Base.scalar .date).denotes
  | json => exact (Base.scalar .json).denotes

theorem parse_render_eq_ok_iff {t : PropertyType} : parse t.render = .ok t ↔ t.WellFormed := by
  rw [parse, render, String.toList_ofList, parseChars_eq_ok_iff]
  exact ⟨Denotes.wellFormed, Denotes.chars⟩

theorem parse_render_of_parse {source : String} {t : PropertyType} (h : parse source = .ok t) :
    parse t.render = .ok t :=
  parse_render_eq_ok_iff.2 (parseChars_eq_ok_iff.1 h).wellFormed

/-- The written form brings a type back exactly if the type is well-formed. Types that were read are
among them, so they are told apart by how they are written. -/
theorem reads_back_iff_wellFormed :
    (∀ t : PropertyType, parse t.render = .ok t ↔ t.WellFormed) ∧
      (∀ source t, parse source = .ok t → parse t.render = .ok t) ∧
      ∀ source source' t t', parse source = .ok t → parse source' = .ok t' → t ≠ t' →
        t.render ≠ t'.render := by
  refine ⟨fun t => parse_render_eq_ok_iff, fun _ _ => parse_render_of_parse, ?_⟩
  intro source source' t t' ht ht' hne heq
  have hread := parse_render_of_parse ht
  rw [heq, parse_render_of_parse ht'] at hread
  exact hne (Except.ok.inj hread).symm

/-- A type that was read without blanks, and is written with them. -/
theorem reads_back_tags :
    parse "Enum(red,blue)[]" = .ok (.collection (.enumeration ["red", "blue"])) ∧
      parse (render (.collection (.enumeration ["red", "blue"]))) =
        .ok (.collection (.enumeration ["red", "blue"])) ∧
      render (.collection (.enumeration ["red", "blue"])) ≠ render (.reference "Tag") := by
  have htags : parse "Enum(red,blue)[]" = .ok (.collection (.enumeration ["red", "blue"])) := rfl
  have htag : parse " Ref ( Tag )" = .ok (.reference "Tag") := rfl
  exact ⟨htags, reads_back_iff_wellFormed.2.1 _ _ htags,
    reads_back_iff_wellFormed.2.2 _ _ _ _ htags htag (by decide)⟩

end LiveSchema.PropertyType
