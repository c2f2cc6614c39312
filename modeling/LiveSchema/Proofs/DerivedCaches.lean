import LiveSchema.DerivedCaches
import Mathlib.Data.Finset.Dedup
import Mathlib.Data.Finset.Card

/-!
# LiveSchema.Proofs.DerivedCaches

What a cache of answers holds. If the same question always has the same answer, a cache is described
by the questions that were kept since it was empty (`AnswerCache.Stores`): it finds the answers of
those and of no others, and it has one entry for each (`Stores.size_eq`). A lookup gives the right
answer, computes it only if the question was not kept before, and keeps the question if it is told
to (`Stores.ask`).
-/

namespace LiveSchema

namespace AnswerCache

variable {α : Type}

/-- The cache has the answers to the questions that were kept, each once. -/
structure Stores (c : AnswerCache α) (kept : List (Nat × String × String))
    (answer : Nat × String × String → α) : Prop where
  find?_eq : ∀ key, c.find? key = if key ∈ kept then some (answer key) else none
  nodup : (c.entries.map (·.1)).Nodup

theorem stores_empty (answer : Nat × String × String → α) :
    ({} : AnswerCache α).Stores [] answer := by
  refine ⟨fun key => ?_, List.nodup_nil⟩
  rw [if_neg List.not_mem_nil]
  rfl

theorem find?_isSome_iff {c : AnswerCache α} {key : Nat × String × String} :
    (c.find? key).isSome ↔ key ∈ c.entries.map (·.1) := by
  rw [find?, List.lookup_isSome_iff, List.mem_map]
  simp only [beq_iff_eq, eq_comm (a := key)]

/-- With each question stored once, the entries are what lookups find. -/
theorem find?_eq_some_iff {c : AnswerCache α} (hnodup : (c.entries.map (·.1)).Nodup)
    {key : Nat × String × String} {value : α} :
    c.find? key = some value ↔ (key, value) ∈ c.entries := by
  rw [find?, List.lookup_eq_some_iff]
  constructor
  · intro h
    obtain ⟨before, later, heq, -⟩ := h
    rw [heq]
    exact List.mem_append_right before List.mem_cons_self
  · intro h
    obtain ⟨before, later, heq⟩ := List.append_of_mem h
    refine ⟨before, later, heq, fun entry hentry => bne_iff_ne.2 fun hkey => ?_⟩
    -- an entry of the same question before it would be a second one
    rw [heq, List.map_append, List.nodup_append] at hnodup
    exact hnodup.2.2 entry.1 (List.mem_map_of_mem hentry) key List.mem_cons_self hkey.symm

/-- An answer that is not computed is the same whatever computing it would come to. -/
theorem ask_eq_of_not_computed {c : AnswerCache α} {key : Nat × String × String} {keep : Bool}
    {compute : Unit → α} (h : (c.ask key keep compute).computed = false) (other : Unit → α) :
    c.ask key keep other = c.ask key keep compute := by
  unfold ask at h ⊢
  cases hfind : c.find? key with
  | none => simp [hfind] at h
  | some value => rfl

namespace Stores

variable {c : AnswerCache α} {kept : List (Nat × String × String)}
  {answer : Nat × String × String → α}

theorem mem_keys_iff (h : c.Stores kept answer) {key : Nat × String × String} :
    key ∈ c.entries.map (·.1) ↔ key ∈ kept := by
  rw [← find?_isSome_iff, h.find?_eq]
  split <;> simp [*]

/-- The entries are the questions that were kept, with their answers. -/
theorem mem_entries_iff (h : c.Stores kept answer) {key : Nat × String × String} {value : α} :
    (key, value) ∈ c.entries ↔ key ∈ kept ∧ value = answer key := by
  rw [← find?_eq_some_iff h.nodup, h.find?_eq]
  split <;> simp [*, eq_comm]

/-- There is one entry for each question that was kept. -/
theorem size_eq (h : c.Stores kept answer) : c.size = kept.toFinset.card := by
  have hkeys : (c.entries.map (·.1)).toFinset = kept.toFinset := by
    ext key
    rw [List.mem_toFinset, List.mem_toFinset, h.mem_keys_iff]
  rw [← hkeys, List.toFinset_card_of_nodup h.nodup, List.length_map, size]

theorem congr (h : c.Stores kept answer) {kept' : List (Nat × String × String)}
    (hkept : ∀ key, key ∈ kept' ↔ key ∈ kept) : c.Stores kept' answer :=
  ⟨fun key => by simp only [h.find?_eq, hkept], h.nodup⟩

/-- A question that was not kept before is put in front. -/
theorem cons (h : c.Stores kept answer) {key : Nat × String × String} (hkey : key ∉ kept) :
    AnswerCache.Stores ⟨(key, answer key) :: c.entries⟩ (key :: kept) answer := by
  refine ⟨fun other => ?_, List.nodup_cons.2 ⟨fun hmem => hkey (h.mem_keys_iff.1 hmem), h.nodup⟩⟩
  by_cases heq : other = key
  · subst heq
    rw [if_pos List.mem_cons_self, find?, List.lookup_cons_self]
  · have hlookup : AnswerCache.find? ⟨(key, answer key) :: c.entries⟩ other = c.find? other := by
      rw [find?, List.lookup_cons, beq_eq_false_iff_ne.2 heq]
      rfl
    rw [hlookup, h.find?_eq]
    simp only [List.mem_cons, heq, false_or]

/-- A lookup answers right, and computes the answer only if it was not kept. -/
theorem ask (h : c.Stores kept answer) (key : Nat × String × String) (keep : Bool) :
    (c.ask key keep fun _ => answer key).value = answer key ∧
      ((c.ask key keep fun _ => answer key).computed = true ↔ key ∉ kept) ∧
      (c.ask key keep fun _ => answer key).cache.Stores (if keep then key :: kept else kept)
        answer := by
  unfold AnswerCache.ask
  rw [h.find?_eq]
  by_cases hmem : key ∈ kept
  · rw [if_pos hmem]
    refine ⟨rfl, by simp [hmem], ?_⟩
    cases keep with
    | true =>
        refine h.congr fun other => ⟨fun hother => ?_, List.mem_cons_of_mem key⟩
        rcases List.mem_cons.1 hother with rfl | hother
        · exact hmem
        · exact hother
    | false => exact h
  · rw [if_neg hmem]
    refine ⟨rfl, by simp [hmem], ?_⟩
    cases keep with
    | true => exact h.cons hmem
    | false => exact h

end Stores

end AnswerCache

end LiveSchema
