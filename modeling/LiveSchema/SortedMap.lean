/-!
# LiveSchema.SortedMap

Finite maps kept as one list of pairs with strictly increasing keys. Everything in this library
that is reported "in name order" is such a map, so the order of a report is part of the type and
needs no sorting step: `entries` is the view, and two maps with the same lookups are the same map
(`ext_get?`).

A set of names is a map to `Unit` (`NameSet`).
-/

namespace LiveSchema

/-- A finite map whose entries stand in strictly increasing key order. -/
structure SortedMap (κ : Type) (ν : Type) [Ord κ] where
  /-- The pairs, in key order. -/
  entries : List (κ × ν)
  /-- Keys strictly increase, so none occurs twice. -/
  sorted : entries.Pairwise (fun a b => compare a.1 b.1 = .lt)

namespace SortedMap

variable {κ ν μ : Type} [Ord κ]

instance [DecidableEq κ] [DecidableEq ν] : DecidableEq (SortedMap κ ν) := fun a b =>
  if h : a.entries = b.entries then
    isTrue (by cases a; cases b; simp_all)
  else isFalse (by intro e; exact h (e ▸ rfl))

theorem eq_of_entries {a b : SortedMap κ ν} (h : a.entries = b.entries) : a = b := by
  cases a; cases b; simp_all

/-- The map without entries. -/
def empty : SortedMap κ ν := ⟨[], .nil⟩

instance : EmptyCollection (SortedMap κ ν) := ⟨empty⟩
instance : Inhabited (SortedMap κ ν) := ⟨empty⟩

/-- The keys, in order. -/
def keys (m : SortedMap κ ν) : List κ := m.entries.map (·.1)

/-- The values, in the order of their keys. -/
def values (m : SortedMap κ ν) : List ν := m.entries.map (·.2)

/-- The number of entries. -/
def size (m : SortedMap κ ν) : Nat := m.entries.length

/-- Whether the map has no entry. -/
def isEmpty (m : SortedMap κ ν) : Bool := m.entries.isEmpty

/-! ### Lookup -/

/-- The value under `k` in a list of pairs, the first one if several have that key. -/
def lookup (k : κ) : List (κ × ν) → Option ν
  | [] => none
  | (k', v) :: rest => if compare k k' = .eq then some v else lookup k rest

/-- The value under a key. -/
def get? (m : SortedMap κ ν) (k : κ) : Option ν := lookup k m.entries

/-- Whether a key has a value. -/
def contains (m : SortedMap κ ν) (k : κ) : Bool := (m.get? k).isSome

/-! ### Insertion -/

/-- Put `v` under `k` into a sorted list of pairs, in place of the value that `k` had. -/
def insertEntry (k : κ) (v : ν) : List (κ × ν) → List (κ × ν)
  | [] => [(k, v)]
  | (k', v') :: rest =>
    match compare k k' with
    | .lt => (k, v) :: (k', v') :: rest
    | .eq => (k, v) :: rest
    | .gt => (k', v') :: insertEntry k v rest

theorem mem_insertEntry {k : κ} {v : ν} {e : κ × ν} {l : List (κ × ν)}
    (h : e ∈ insertEntry k v l) : e = (k, v) ∨ e ∈ l := by
  induction l with
  | nil => simpa [insertEntry] using h
  | cons head rest ih =>
    obtain ⟨k', v'⟩ := head
    simp only [insertEntry] at h
    split at h
    · simpa using h
    · rcases List.mem_cons.1 h with h | h
      · exact .inl h
      · exact .inr (List.mem_cons_of_mem _ h)
    · rcases List.mem_cons.1 h with h | h
      · exact .inr (h ▸ List.mem_cons_self ..)
      · exact (ih h).imp_right (List.mem_cons_of_mem _)

theorem pairwise_insertEntry [Std.TransOrd κ] [Std.LawfulEqOrd κ] {k : κ} {v : ν}
    {l : List (κ × ν)} (h : l.Pairwise (fun a b => compare a.1 b.1 = .lt)) :
    (insertEntry k v l).Pairwise (fun a b => compare a.1 b.1 = .lt) := by
  induction l with
  | nil => simp [insertEntry]
  | cons head rest ih =>
    obtain ⟨k', v'⟩ := head
    have ⟨hhead, hrest⟩ := List.pairwise_cons.1 h
    simp only [insertEntry]
    split
    · rename_i hlt
      refine List.pairwise_cons.2 ⟨fun e he => ?_, h⟩
      rcases List.mem_cons.1 he with rfl | he
      · exact hlt
      · exact Std.TransCmp.lt_trans hlt (hhead e he)
    · rename_i heq
      have : k = k' := Std.LawfulEqCmp.eq_of_compare heq
      subst this
      exact List.pairwise_cons.2 ⟨fun e he => hhead e he, hrest⟩
    · rename_i hgt
      refine List.pairwise_cons.2 ⟨fun e he => ?_, ih hrest⟩
      rcases mem_insertEntry he with rfl | he
      · exact Std.OrientedCmp.lt_of_gt hgt
      · exact hhead e he

/-- Put a value under a key, in place of the one it had. -/
def insert [Std.TransOrd κ] [Std.LawfulEqOrd κ] (m : SortedMap κ ν) (k : κ) (v : ν) :
    SortedMap κ ν :=
  ⟨insertEntry k v m.entries, pairwise_insertEntry m.sorted⟩

/-! ### Removal and rebuilding -/

/-- The entries that satisfy a test. -/
def filter (m : SortedMap κ ν) (keep : κ → ν → Bool) : SortedMap κ ν :=
  ⟨m.entries.filter (fun e => keep e.1 e.2), m.sorted.sublist List.filter_sublist⟩

/-- The map without a key. -/
def erase (m : SortedMap κ ν) (k : κ) : SortedMap κ ν :=
  m.filter (fun k' _ => compare k k' != .eq)

/-- The same keys with new values. -/
def mapValues (m : SortedMap κ ν) (f : κ → ν → μ) : SortedMap κ μ :=
  ⟨m.entries.map (fun e => (e.1, f e.1 e.2)), List.pairwise_map.2 m.sorted⟩

/-- The map of a list of pairs; of pairs with one key the last counts. -/
def ofList [Std.TransOrd κ] [Std.LawfulEqOrd κ] (pairs : List (κ × ν)) : SortedMap κ ν :=
  pairs.foldl (fun m e => m.insert e.1 e.2) empty

/-- Both maps together; where both have a key, the second counts. -/
def union [Std.TransOrd κ] [Std.LawfulEqOrd κ] (a b : SortedMap κ ν) : SortedMap κ ν :=
  b.entries.foldl (fun m e => m.insert e.1 e.2) a

/-! ### What lookups see -/

section Lookup

@[simp] theorem get?_empty (k : κ) : (empty : SortedMap κ ν).get? k = none := rfl

variable [Std.LawfulEqOrd κ]

theorem mem_of_lookup {k : κ} {v : ν} {l : List (κ × ν)} (h : lookup k l = some v) :
    (k, v) ∈ l := by
  induction l with
  | nil => simp [lookup] at h
  | cons head rest ih =>
    obtain ⟨k', v'⟩ := head
    simp only [lookup] at h
    split at h
    · rename_i heq
      have hk : k = k' := Std.LawfulEqCmp.eq_of_compare heq
      simp_all
    · exact List.mem_cons_of_mem _ (ih h)

theorem lookup_insertEntry_self (k : κ) (v : ν) (l : List (κ × ν)) :
    lookup k (insertEntry k v l) = some v := by
  induction l with
  | nil => simp [insertEntry, lookup, Std.ReflCmp.compare_self]
  | cons head rest ih =>
    obtain ⟨k', v'⟩ := head
    simp only [insertEntry]
    split
    · simp [lookup, Std.ReflCmp.compare_self]
    · simp [lookup, Std.ReflCmp.compare_self]
    · rename_i hgt
      simp [lookup, hgt, ih]

theorem lookup_insertEntry_ne {k k' : κ} (v : ν) (h : k ≠ k') (l : List (κ × ν)) :
    lookup k' (insertEntry k v l) = lookup k' l := by
  have hne : compare k' k ≠ .eq := fun e => h (Std.LawfulEqCmp.eq_of_compare e).symm
  induction l with
  | nil => simp [insertEntry, lookup, hne]
  | cons head rest ih =>
    obtain ⟨k'', v''⟩ := head
    simp only [insertEntry]
    split
    · simp [lookup, hne]
    · rename_i heq
      have : k = k'' := Std.LawfulEqCmp.eq_of_compare heq
      subst this
      simp [lookup, hne]
    · simp [lookup, ih]

theorem lookup_map (f : κ → ν → μ) (k : κ) (l : List (κ × ν)) :
    lookup k (l.map fun e => (e.1, f e.1 e.2)) = (lookup k l).map (f k) := by
  induction l with
  | nil => rfl
  | cons head rest ih =>
    obtain ⟨k', v'⟩ := head
    simp only [List.map_cons, lookup]
    split
    · rename_i heq
      have hk : k = k' := Std.LawfulEqCmp.eq_of_compare heq
      simp [hk]
    · exact ih

/-- New values under the same keys. -/
@[simp] theorem get?_mapValues (m : SortedMap κ ν) (f : κ → ν → μ) (k : κ) :
    (m.mapValues f).get? k = (m.get? k).map (f k) := lookup_map f k m.entries

/-- A key that lies below all keys of a list is not in it. -/
theorem lookup_eq_none_of_lt {k : κ} {l : List (κ × ν)}
    (h : ∀ e ∈ l, compare k e.1 = .lt) : lookup k l = none := by
  cases hl : lookup k l with
  | none => rfl
  | some v =>
    have hlt := h _ (mem_of_lookup hl)
    simp [Std.ReflCmp.compare_self] at hlt

theorem lookup_of_mem {k : κ} {v : ν} {l : List (κ × ν)}
    (hl : l.Pairwise (fun a b => compare a.1 b.1 = .lt)) (h : (k, v) ∈ l) :
    lookup k l = some v := by
  induction l with
  | nil => simp at h
  | cons head rest ih =>
    obtain ⟨k', v'⟩ := head
    have ⟨hhead, hrest⟩ := List.pairwise_cons.1 hl
    rcases List.mem_cons.1 h with h | h
    · cases h
      simp [lookup, Std.ReflCmp.compare_self]
    · have hlt : compare k' k = .lt := hhead _ h
      have hne : compare k k' ≠ .eq := fun e => by
        have hkk : k = k' := Std.LawfulEqCmp.eq_of_compare e
        simp [hkk, Std.ReflCmp.compare_self] at hlt
      simpa [lookup, hne] using ih hrest h

/-- The entries are what lookups find. -/
theorem mem_entries_iff (m : SortedMap κ ν) (k : κ) (v : ν) :
    (k, v) ∈ m.entries ↔ m.get? k = some v :=
  ⟨lookup_of_mem m.sorted, mem_of_lookup⟩

/-- Filtering keeps the lookups of the entries that pass. -/
theorem get?_filter (m : SortedMap κ ν) (keep : κ → ν → Bool) (k : κ) :
    (m.filter keep).get? k = (m.get? k).filter (keep k) := by
  apply Option.ext
  intro v
  rw [← mem_entries_iff, Option.filter_eq_some_iff, ← mem_entries_iff]
  exact List.mem_filter

/-- Removal changes the lookup of its own key only. -/
theorem get?_erase [DecidableEq κ] (m : SortedMap κ ν) (k k' : κ) :
    (m.erase k).get? k' = if k = k' then none else m.get? k' := by
  rw [erase, get?_filter]
  by_cases h : k = k'
  · simp [h, Std.ReflCmp.compare_self]
  · have hne : compare k k' ≠ .eq := fun e => h (Std.LawfulEqCmp.eq_of_compare e)
    have hb : (compare k k' != .eq) = true := bne_iff_ne.2 hne
    rw [if_neg h]
    cases m.get? k' <;> simp [Option.filter, hb]

variable [Std.TransOrd κ]

@[simp] theorem get?_insert_self (m : SortedMap κ ν) (k : κ) (v : ν) :
    (m.insert k v).get? k = some v := lookup_insertEntry_self k v m.entries

theorem get?_insert_ne (m : SortedMap κ ν) {k k' : κ} (v : ν) (h : k ≠ k') :
    (m.insert k v).get? k' = m.get? k' := lookup_insertEntry_ne v h m.entries

/-- Insertion changes the lookup of its own key only. -/
theorem get?_insert [DecidableEq κ] (m : SortedMap κ ν) (k k' : κ) (v : ν) :
    (m.insert k v).get? k' = if k = k' then some v else m.get? k' := by
  split
  · rename_i h; subst h; exact get?_insert_self m k v
  · rename_i h; exact get?_insert_ne m v h

theorem eq_of_lookup {a b : List (κ × ν)} (ha : a.Pairwise (fun x y => compare x.1 y.1 = .lt))
    (hb : b.Pairwise (fun x y => compare x.1 y.1 = .lt)) (h : ∀ k, lookup k a = lookup k b) :
    a = b := by
  induction a generalizing b with
  | nil =>
    cases b with
    | nil => rfl
    | cons head rest => simpa [lookup, Std.ReflCmp.compare_self] using h head.1
  | cons x xs ih =>
    have ⟨hx, hxs⟩ := List.pairwise_cons.1 ha
    cases b with
    | nil => simpa [lookup, Std.ReflCmp.compare_self] using h x.1
    | cons y ys =>
      have ⟨hy, hys⟩ := List.pairwise_cons.1 hb
      have hxy : compare x.1 y.1 = .eq := by
        cases hc : compare x.1 y.1 with
        | eq => rfl
        | lt =>
          have hn : lookup x.1 (y :: ys) = none := lookup_eq_none_of_lt fun e he => by
            rcases List.mem_cons.1 he with rfl | he
            · exact hc
            · exact Std.TransCmp.lt_trans hc (hy e he)
          have hs := h x.1
          rw [hn] at hs
          simp [lookup, Std.ReflCmp.compare_self] at hs
        | gt =>
          have hlt := Std.OrientedCmp.lt_of_gt hc
          have hn : lookup y.1 (x :: xs) = none := lookup_eq_none_of_lt fun e he => by
            rcases List.mem_cons.1 he with rfl | he
            · exact hlt
            · exact Std.TransCmp.lt_trans hlt (hx e he)
          have hs := h y.1
          rw [hn] at hs
          simp [lookup, Std.ReflCmp.compare_self] at hs
      have hk : x.1 = y.1 := Std.LawfulEqCmp.eq_of_compare hxy
      have hv : x.2 = y.2 := by
        have hs := h x.1
        simpa [lookup, Std.ReflCmp.compare_self, hxy] using hs
      have hrest : xs = ys := ih hxs hys fun k => by
        cases hc : compare k x.1 with
        | eq =>
          have hkx : k = x.1 := Std.LawfulEqCmp.eq_of_compare hc
          rw [hkx, lookup_eq_none_of_lt hx, hk, lookup_eq_none_of_lt hy]
        | lt => simpa [lookup, hc, ← hk] using h k
        | gt => simpa [lookup, hc, ← hk] using h k
      rw [hrest, Prod.ext hk hv]

/-- Two maps with the same lookups are the same map. -/
theorem ext_get? {a b : SortedMap κ ν} (h : ∀ k, a.get? k = b.get? k) : a = b :=
  eq_of_entries (eq_of_lookup a.sorted b.sorted h)

end Lookup

end SortedMap

/-- A finite set of names, listed in name order. -/
abbrev NameSet := SortedMap String Unit

namespace NameSet

/-- The set of the names of a list. -/
def ofNames (names : List String) : NameSet := SortedMap.ofList (names.map (·, ()))

end NameSet

end LiveSchema
