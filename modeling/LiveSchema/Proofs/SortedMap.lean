import LiveSchema.SortedMap
import Mathlib.Data.List.Nodup
import Mathlib.Data.String.Basic

/-!
# LiveSchema.Proofs.SortedMap

What the keys, the values and the bulk operations of a sorted map say about its lookups. Everything
is brought back to `get?`, so later proofs never look at the entries:

* `mem_keys_iff`, `mem_values_iff` — keys and values are what lookups find;
* `values_perm` — values that stand under their own keys are listed once each;
* `get?_ofList`, `get?_union` — of several values for a key the last counts;
* `NameSet.contains_ofNames` — a set of names contains the names it was made of.
-/

namespace LiveSchema

namespace SortedMap

variable {κ ν μ : Type} [Ord κ]

/-! ### Keys, values and size -/

theorem contains_iff {m : SortedMap κ ν} {k : κ} :
    m.contains k = true ↔ ∃ v, m.get? k = some v := by
  rw [contains, Option.isSome_iff_exists]

theorem contains_eq_false_iff {m : SortedMap κ ν} {k : κ} :
    m.contains k = false ↔ m.get? k = none := by
  rw [contains, Option.isSome_eq_false_iff, Option.isNone_iff_eq_none]

@[simp] theorem keys_mapValues (m : SortedMap κ ν) (f : κ → ν → μ) :
    (m.mapValues f).keys = m.keys := by
  simp only [keys, mapValues, List.map_map]
  rfl

theorem length_keys (m : SortedMap κ ν) : m.keys.length = m.size := by
  rw [keys, List.length_map, size]

variable [Std.LawfulEqOrd κ]

theorem mem_keys_iff {m : SortedMap κ ν} {k : κ} : k ∈ m.keys ↔ ∃ v, m.get? k = some v := by
  simp only [keys, List.mem_map, ← mem_entries_iff]
  constructor
  · rintro ⟨⟨k', v⟩, hmem, rfl⟩
    exact ⟨v, hmem⟩
  · rintro ⟨v, hmem⟩
    exact ⟨(k, v), hmem, rfl⟩

theorem mem_values_iff {m : SortedMap κ ν} {v : ν} : v ∈ m.values ↔ ∃ k, m.get? k = some v := by
  simp only [values, List.mem_map, ← mem_entries_iff]
  constructor
  · rintro ⟨⟨k, v'⟩, hmem, rfl⟩
    exact ⟨k, hmem⟩
  · rintro ⟨k, hmem⟩
    exact ⟨(k, v), hmem, rfl⟩

theorem contains_mapValues (m : SortedMap κ ν) (f : κ → ν → μ) (k : κ) :
    (m.mapValues f).contains k = m.contains k := by
  rw [contains, get?_mapValues, Option.isSome_map, contains]

/-- A test of keys lets through the keys that pass it. -/
theorem contains_filter_iff {m : SortedMap κ ν} {keep : κ → Bool} {k : κ} :
    (m.filter fun k _ => keep k).contains k = true ↔ m.contains k = true ∧ keep k = true := by
  rw [contains, get?_filter, contains]
  cases m.get? k <;> simp [Option.filter]

/-- No key occurs twice: keys strictly increase. -/
theorem keys_nodup (m : SortedMap κ ν) : m.keys.Nodup := by
  rw [keys, List.nodup_iff_pairwise_ne, List.pairwise_map]
  refine m.sorted.imp fun {a b} hlt hab => ?_
  have heq : compare a.1 b.1 = .eq := hab ▸ Std.ReflCmp.compare_self
  rw [heq] at hlt
  cases hlt

/-- Where every value stands under its own key, the values tell the entries. -/
theorem entries_eq_map {m : SortedMap κ ν} {f : ν → κ}
    (h : ∀ {k v}, m.get? k = some v → f v = k) :
    m.entries = m.values.map fun v => (f v, v) := by
  have hkey : ∀ e ∈ m.entries, (f e.2, e.2) = e := fun e he =>
    Prod.ext (h ((mem_entries_iff m e.1 e.2).mp he)) rfl
  rw [values, List.map_map]
  exact (List.map_id m.entries).symm.trans (List.map_congr_left fun e he => (hkey e he).symm)

theorem keys_eq_map {m : SortedMap κ ν} {f : ν → κ}
    (h : ∀ {k v}, m.get? k = some v → f v = k) : m.keys = m.values.map f := by
  rw [keys, entries_eq_map h, List.map_map]
  rfl

/-- The values are those of a list without repetition that has the same members. -/
theorem values_perm {m : SortedMap κ ν} {f : ν → κ}
    (h : ∀ {k v}, m.get? k = some v → f v = k) {l : List ν} (hl : l.Nodup)
    (hmem : ∀ v, m.get? (f v) = some v ↔ v ∈ l) : m.values.Perm l := by
  have hnodup : m.values.Nodup := .of_map f (keys_eq_map h ▸ m.keys_nodup)
  refine (List.perm_ext_iff_of_nodup hnodup hl).mpr fun v => ?_
  rw [← hmem, mem_values_iff]
  constructor
  · rintro ⟨k, hk⟩
    rwa [h hk]
  · exact fun hv => ⟨_, hv⟩

/-- Names that are keys stand in increasing order. -/
theorem keys_sorted (m : SortedMap String ν) : m.keys.Pairwise (· < ·) := by
  rw [keys, List.pairwise_map]
  exact m.sorted.imp fun h => compareOfLessAndEq_eq_lt.mp h

omit [Ord κ] [Std.LawfulEqOrd κ] in
/-- Lists that stand in the order of some names of their members are told by which members they
have. -/
theorem eq_of_names_sorted {name : κ → String} {l l' : List κ}
    (hl : (l.map name).Pairwise (· < ·)) (hl' : (l'.map name).Pairwise (· < ·))
    (h : ∀ a, a ∈ l ↔ a ∈ l') : l = l' := by
  rw [List.pairwise_map] at hl hl'
  have hne : ∀ {a b : κ}, name a < name b → a ≠ b := fun hlt heq =>
    absurd (congrArg name heq) hlt.ne
  have hperm : l.Perm l' := (List.perm_ext_iff_of_nodup (hl.imp hne) (hl'.imp hne)).mpr h
  exact hperm.eq_of_pairwise (fun _ _ _ _ hab hba => absurd hab hba.asymm) hl hl'

/-! ### Bulk insertion -/

variable [Std.TransOrd κ] [DecidableEq κ]

/-- Inserting pairs one after the other: the last pair of a key counts, and a key without a pair
keeps its value. -/
theorem get?_foldl_insert (pairs : List (κ × ν)) (m : SortedMap κ ν) (k : κ) :
    (pairs.foldl (fun m e => m.insert e.1 e.2) m).get? k =
      ((pairs.reverse.find? (·.1 = k)).map (·.2)).or (m.get? k) := by
  induction pairs generalizing m with
  | nil => simp
  | cons e rest ih =>
      rw [List.foldl_cons, ih, get?_insert, List.reverse_cons, List.find?_append]
      cases rest.reverse.find? (·.1 = k) with
      | some found => simp
      | none =>
          by_cases he : e.1 = k
          · simp [he]
          · simp [he]

/-- Of several pairs with one key the last counts. -/
theorem get?_ofList (pairs : List (κ × ν)) (k : κ) :
    (ofList pairs).get? k = (pairs.reverse.find? (·.1 = k)).map (·.2) := by
  rw [ofList, get?_foldl_insert, get?_empty, Option.or_none]

/-- A key has a value if there is a pair for it. -/
theorem contains_ofList {pairs : List (κ × ν)} {k : κ} :
    (ofList pairs).contains k = true ↔ ∃ v, (k, v) ∈ pairs := by
  rw [contains, get?_ofList, Option.isSome_map, List.find?_isSome]
  constructor
  · rintro ⟨⟨k', v⟩, hmem, hk⟩
    obtain rfl : k' = k := by simpa using hk
    exact ⟨v, List.mem_reverse.mp hmem⟩
  · rintro ⟨v, hmem⟩
    exact ⟨(k, v), List.mem_reverse.mpr hmem, by simp⟩

/-- A map that gives each of some keys its value. -/
theorem get?_ofList_map (keys : List κ) (f : κ → ν) (k : κ) :
    (ofList (keys.map fun k => (k, f k))).get? k = if k ∈ keys then some (f k) else none := by
  rw [get?_ofList, ← List.map_reverse, List.find?_map, Option.map_map]
  by_cases hk : k ∈ keys
  · rw [if_pos hk]
    have hfound : (keys.reverse.find? (· = k)).isSome := by
      rw [List.find?_isSome]
      exact ⟨k, List.mem_reverse.mpr hk, by simp⟩
    obtain ⟨other, hother⟩ := Option.isSome_iff_exists.mp hfound
    obtain rfl : other = k := by simpa using List.find?_some hother
    exact congrArg _ hother
  · rw [if_neg hk, Option.map_eq_none_iff, List.find?_eq_none]
    intro other hother heq
    obtain rfl : other = k := by simpa using heq
    exact hk (List.mem_reverse.mp hother)

theorem keys_ofList_map_perm {keys : List κ} (h : keys.Nodup) (f : κ → ν) :
    (ofList (keys.map fun k => (k, f k))).keys.Perm keys := by
  refine (List.perm_ext_iff_of_nodup (keys_nodup _) h).mpr fun k => ?_
  rw [mem_keys_iff, get?_ofList_map]
  by_cases hk : k ∈ keys <;> simp [hk]

/-- Where both maps have a key the second counts. -/
theorem get?_union (a b : SortedMap κ ν) (k : κ) :
    (a.union b).get? k = (b.get? k).or (a.get? k) := by
  rw [union, get?_foldl_insert]
  congr 1
  cases hb : b.get? k with
  | none =>
      have hnone : b.entries.reverse.find? (·.1 = k) = none := by
        refine List.find?_eq_none.mpr fun e he hek => ?_
        have hmem : (k, e.2) ∈ b.entries := by
          have : e.1 = k := by simpa using hek
          exact this ▸ List.mem_reverse.mp he
        rw [mem_entries_iff, hb] at hmem
        cases hmem
      rw [hnone, Option.map_none]
  | some v =>
      have hsome : (b.entries.reverse.find? (·.1 = k)).isSome := by
        rw [List.find?_isSome]
        exact ⟨(k, v), List.mem_reverse.mpr (mem_entries_iff b k v |>.mpr hb), by simp⟩
      obtain ⟨e, he⟩ := Option.isSome_iff_exists.mp hsome
      have hek : e.1 = k := by simpa using List.find?_some he
      have hmem : (k, e.2) ∈ b.entries := hek ▸ List.mem_reverse.mp (List.mem_of_find?_eq_some he)
      rw [mem_entries_iff, hb] at hmem
      rw [he, Option.map_some, Option.some.inj hmem]

theorem contains_union_iff {a b : SortedMap κ ν} {k : κ} :
    (a.union b).contains k = true ↔ a.contains k = true ∨ b.contains k = true := by
  rw [contains, get?_union, Option.isSome_or, Bool.or_eq_true, or_comm]
  rfl

end SortedMap

namespace NameSet

theorem contains_ofNames {names : List String} {name : String} :
    SortedMap.contains (ofNames names) name = true ↔ name ∈ names := by
  simp [ofNames, SortedMap.contains_ofList]

theorem mem_keys_ofNames {names : List String} {name : String} :
    name ∈ (ofNames names).keys ↔ name ∈ names := by
  rw [SortedMap.mem_keys_iff, ← SortedMap.contains_iff, contains_ofNames]

/-- Lists with the same names make the same set. -/
theorem ofNames_congr {names names' : List String} (h : ∀ name, name ∈ names ↔ name ∈ names') :
    ofNames names = ofNames names' := by
  refine SortedMap.ext_get? fun name => ?_
  have hcontains : SortedMap.contains (ofNames names) name =
      SortedMap.contains (ofNames names') name := by
    rw [Bool.eq_iff_iff, contains_ofNames, contains_ofNames, h]
  -- there is only one value, so a lookup says no more than whether the name is there
  unfold SortedMap.contains at hcontains
  cases hget : SortedMap.get? (ofNames names) name <;>
    cases hget' : SortedMap.get? (ofNames names') name <;> simp_all

end NameSet

end LiveSchema
