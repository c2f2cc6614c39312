import Mathlib.Data.List.Induction
import Mathlib.Data.List.Infix

/-!
# LiveSchema.Proofs.History

What the events of a run say about the state at its end. A fact about the state often began to hold
at some event and was kept by every event after it. `Since` says so about the events themselves, and
`since_iff` is the induction that ties it to the state: it is enough to know what one more event
does to the fact.
-/

namespace LiveSchema

variable {α : Type} {began kept : List α → α → Prop}

/-- Something began at an event of a history, and every later event kept it. Both are asked of an
event and of what came before it. -/
def Since (began kept : List α → α → Prop) (history : List α) : Prop :=
  ∃ before a later, history = before ++ a :: later ∧ began before a ∧
    ∀ mid b, mid ++ [b] <+: later → kept (before ++ a :: mid) b

theorem not_since_nil : ¬ Since began kept [] := by
  intro h
  obtain ⟨before, a, later, heq, -⟩ := h
  simp at heq

/-- The last event began it, or it was there before and the last event kept it. -/
theorem since_concat_iff {history : List α} {last : α} :
    Since began kept (history ++ [last]) ↔
      began history last ∨ Since began kept history ∧ kept history last := by
  constructor
  · intro h
    obtain ⟨before, a, later, heq, hbegan, hkept⟩ := h
    cases later using List.reverseRecOn with
    | nil =>
        obtain ⟨rfl, hlast⟩ := List.append_inj' heq rfl
        obtain rfl := List.singleton_inj.mp hlast
        exact .inl hbegan
    | append_singleton later b =>
        rw [← List.cons_append, ← List.append_assoc] at heq
        obtain ⟨rfl, hlast⟩ := List.append_inj' heq rfl
        obtain rfl := List.singleton_inj.mp hlast
        refine .inr ⟨⟨before, a, later, rfl, hbegan, fun mid b hmid => ?_⟩, ?_⟩
        · exact hkept mid b (hmid.trans (List.prefix_append ..))
        · exact hkept later last (List.prefix_refl _)
  · intro h
    cases h with
    | inl hbegan =>
        refine ⟨history, last, [], rfl, hbegan, fun mid b hmid => ?_⟩
        simp at hmid
    | inr h =>
        obtain ⟨⟨before, a, later, rfl, hbegan, hkept⟩, hlast⟩ := h
        refine ⟨before, a, later ++ [last], by simp, hbegan, fun mid b hmid => ?_⟩
        cases List.prefix_concat_iff.mp hmid with
        | inl heq =>
            obtain ⟨rfl, hb⟩ := List.append_inj' heq rfl
            obtain rfl := List.singleton_inj.mp hb
            exact hlast
        | inr hmid => exact hkept mid b hmid

/-- A fact that does not hold at the start holds since it began, if one event begins it, keeps it or
ends it. -/
theorem since_iff (holds : List α → Prop) (nil : ¬ holds [])
    (concat : ∀ history a,
      holds (history ++ [a]) ↔ began history a ∨ holds history ∧ kept history a)
    (history : List α) : holds history ↔ Since began kept history := by
  induction history using List.reverseRecOn with
  | nil => exact iff_of_false nil not_since_nil
  | append_singleton history a ih => rw [concat, since_concat_iff, ih]

end LiveSchema
