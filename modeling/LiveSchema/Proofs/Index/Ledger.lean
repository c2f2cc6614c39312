import LiveSchema.Index.Ledger
import LiveSchema.Proofs.Settings

/-!
# LiveSchema.Proofs.Index.Ledger

What the record says. A type name has no dot, so the key of a record can be read back, and different
indexes never have the same key (`keyOf?_eq_some_iff`, `key_injective`). So every question to the
record is a question about one setting (`Recorded`):

* `exists?_eq`, `mark_eq`, `clear_eq` — one index, over readable settings;
* `mem_listed_iff`, `pairwise_listed` — what a scan finds recorded, in order, over any settings;
* `exists_entries` — all of them, each once, over readable settings;
* `recorded_put_iff` — writing a record changes what is said of its index only.
-/

namespace LiveSchema

/-- The type of an index can be told from its key. -/
def IndexKey.Dotless (k : IndexKey) : Prop := '.' ∉ k.typeName.toList

namespace Ledger

/-! ### Keys -/

theorem toList_key (k : IndexKey) :
    (key k).toList = keyStart.toList ++ k.typeName.toList ++ '.' :: k.property.toList := by
  rw [key, String.toList_append, String.toList_append, String.toList_append, List.append_assoc]
  rfl

/-- A text without a dot, up to the first dot of what it begins. -/
theorem takeWhile_dotless {l : List Char} (h : '.' ∉ l) (rest : List Char) :
    (l ++ '.' :: rest).takeWhile (· != '.') = l ∧
      (l ++ '.' :: rest).dropWhile (· != '.') = '.' :: rest := by
  have hall : ∀ c ∈ l, (c != '.') = true := by
    intro c hc
    rw [bne_iff_ne]
    rintro rfl
    exact h hc
  rw [List.takeWhile_append_of_pos hall, List.dropWhile_append_of_pos hall,
    List.takeWhile_cons_of_neg (by simp), List.dropWhile_cons_of_neg (by simp), List.append_nil]
  exact ⟨rfl, rfl⟩

theorem keyOf?_key {k : IndexKey} (hk : k.Dotless) : keyOf? (key k) = some k := by
  have hstart : MemorySettings.beginsWith keyStart (key k) = true := by
    rw [MemorySettings.beginsWith_iff, toList_key, List.append_assoc]
    exact List.prefix_append ..
  have hdrop : (key k).toList.drop keyStart.length =
      k.typeName.toList ++ '.' :: k.property.toList := by
    rw [toList_key, List.append_assoc]
    exact List.drop_left
  obtain ⟨htake, hcut⟩ := takeWhile_dotless hk k.property.toList
  rw [keyOf?, if_pos hstart]
  dsimp only
  rw [hdrop, hcut, htake]
  simp only [String.ofList_toList]

/-- What is read of a text is the index whose key it is. -/
theorem eq_key_of_keyOf? {text : String} {k : IndexKey} (h : keyOf? text = some k) :
    k.Dotless ∧ text = key k := by
  unfold keyOf? at h
  split at h
  next hstart =>
    obtain ⟨rest, hrest⟩ := MemorySettings.beginsWith_iff.mp hstart
    have hdrop : text.toList.drop keyStart.length = rest := by
      rw [← hrest]
      exact List.drop_left
    rw [hdrop] at h
    dsimp only at h
    -- the rest is cut at its first dot
    have hsplit := List.takeWhile_append_dropWhile (p := (· != '.')) (l := rest)
    cases hcut : rest.dropWhile (· != '.') with
    | nil => rw [hcut] at h; cases h
    | cons c property =>
        rw [hcut] at h hsplit
        obtain rfl := Option.some.inj h
        obtain rfl : c = '.' := by
          have hhead := List.head_dropWhile_not (fun d => d != '.') (l := rest)
          simpa [hcut] using hhead
        have hdotless : '.' ∉ rest.takeWhile (· != '.') := fun hmem => by
          have := List.all_eq_true.mp List.all_takeWhile '.' hmem
          simp at this
        refine ⟨by simpa [IndexKey.Dotless] using hdotless, ?_⟩
        rw [← String.toList_inj, toList_key]
        simp only [String.toList_ofList]
        rw [← hrest, List.append_assoc, hsplit]
  next => cases h

/-- A key is read back as the index that it was made for, and nothing else is read. -/
theorem keyOf?_eq_some_iff {text : String} {k : IndexKey} :
    keyOf? text = some k ↔ k.Dotless ∧ text = key k := by
  constructor
  · exact eq_key_of_keyOf?
  · rintro ⟨hk, rfl⟩
    exact keyOf?_key hk

/-- Different indexes have different keys. -/
theorem key_injective {a b : IndexKey} (ha : a.Dotless) (hb : b.Dotless) (h : key a = key b) :
    a = b := by
  have hreadA := keyOf?_eq_some_iff.mpr ⟨ha, rfl⟩
  have hreadB := keyOf?_eq_some_iff.mpr ⟨hb, rfl⟩
  rw [h, hreadB] at hreadA
  exact (Option.some.inj hreadA).symm

/-- The keys of one type are those with the beginning of the type. -/
theorem prefix_key_iff {typeName : String} (h : '.' ∉ typeName.toList) {k : IndexKey}
    (hk : k.Dotless) :
    (keyStart ++ typeName ++ ".").toList <+: (key k).toList ↔ k.typeName = typeName := by
  have hstart : (keyStart ++ typeName ++ ".").toList =
      keyStart.toList ++ (typeName.toList ++ ['.']) := by
    rw [String.toList_append, String.toList_append, List.append_assoc]
    rfl
  rw [hstart, toList_key, List.append_assoc, List.prefix_append_right_inj]
  constructor
  · rintro ⟨rest, hrest⟩
    rw [List.append_assoc, List.singleton_append] at hrest
    have htake := (takeWhile_dotless h rest).1
    rw [hrest, (takeWhile_dotless hk k.property.toList).1] at htake
    exact String.toList_inj.mp htake
  · rintro rfl
    exact ⟨k.property.toList, by simp⟩

/-! ### Questions to the record -/

/-- Settings record an index. -/
def Recorded (s : Settings) (k : IndexKey) : Prop :=
  k.Dotless ∧ s.value? (key k) = some created

variable {s : Settings}

theorem exists?_eq (h : s.Readable) (k : IndexKey) :
    exists? s k = .ok (decide (s.value? (key k) = some created)) := by
  rw [exists?, Settings.get_eq h]
  rfl

theorem mark_eq (h : .set ∉ s.refused) (k : IndexKey) :
    mark s k = .ok { s with contents := s.contents.put (key k) (some created) } :=
  Settings.set_of_allowed h (key k) (some created)

theorem clear_eq (h : .set ∉ s.refused) (k : IndexKey) :
    clear s k = .ok { s with contents := s.contents.put (key k) none } :=
  Settings.set_of_allowed h (key k) none

theorem keyStart_prefix_key (k : IndexKey) : keyStart.toList <+: (key k).toList := by
  rw [toList_key, List.append_assoc]
  exact List.prefix_append ..

theorem mem_recorded_iff {pairs : List (String × String)} {k : IndexKey} :
    k ∈ recorded pairs ↔ k.Dotless ∧ (key k, created) ∈ pairs := by
  simp only [recorded, List.mem_filterMap, List.mem_filter, keyOf?_eq_some_iff, decide_eq_true_eq]
  constructor
  · rintro ⟨⟨text, value⟩, ⟨he, rfl⟩, hk, rfl⟩
    exact ⟨hk, he⟩
  · rintro ⟨hk, he⟩
    exact ⟨_, ⟨he, rfl⟩, hk, rfl⟩

/-! ### Scans of the record -/

/-- The indexes that a scan finds recorded, none if it fails. -/
def listed (s : Settings) (start : String) : List IndexKey :=
  match (s.scan start).map recorded with
  | .ok keys => keys
  | .error _ => []

section Listed

variable {start : String} {k : IndexKey}

theorem map_scan_eq_listed (h : s.Scans start) :
    (s.scan start).map recorded = .ok (listed s start) := by
  obtain ⟨pairs, hscan⟩ := h
  rw [listed, hscan]
  rfl

theorem listed_of_scan {pairs : List (String × String)} (h : s.scan start = .ok pairs) :
    listed s start = recorded pairs := by
  rw [listed, h]
  rfl

theorem exists_error_of_not_scans (h : ¬ s.Scans start) :
    (∃ error, (s.scan start).map recorded = .error error) ∧ listed s start = [] := by
  cases hscan : s.scan start with
  | ok pairs => exact absurd ⟨pairs, hscan⟩ h
  | error error =>
      rw [listed, hscan]
      exact ⟨⟨error, rfl⟩, rfl⟩

/-- A scan that answers finds the recorded indexes whose keys have the beginning. -/
theorem mem_listed_iff :
    k ∈ listed s start ↔ s.Scans start ∧ Recorded s k ∧ start.toList <+: (key k).toList := by
  by_cases hscans : s.Scans start
  · rw [and_iff_right hscans]
    obtain ⟨pairs, hscan⟩ := hscans
    rw [listed_of_scan hscan, mem_recorded_iff, Settings.mem_scan_iff hscan, Recorded, and_assoc]
  · rw [(exists_error_of_not_scans hscans).2]
    exact iff_of_false List.not_mem_nil fun h => hscans h.1

/-- Recorded indexes are found in the order of their keys. -/
theorem pairwise_listed (s : Settings) (start : String) :
    ((listed s start).map key).Pairwise (· < ·) := by
  by_cases hscans : s.Scans start
  · obtain ⟨pairs, hscan⟩ := hscans
    rw [listed_of_scan hscan, recorded, List.pairwise_map, List.pairwise_filterMap]
    have hsorted := List.pairwise_map.mp (Settings.pairwise_scan hscan)
    refine (hsorted.sublist List.filter_sublist).imp fun hlt k hk k' hk' => ?_
    rwa [← (eq_key_of_keyOf? hk).2, ← (eq_key_of_keyOf? hk').2]
  · rw [(exists_error_of_not_scans hscans).2]
    exact .nil

theorem nodup_listed (s : Settings) (start : String) : (listed s start).Nodup :=
  List.Nodup.of_map _ ((pairwise_listed s start).imp LT.lt.ne)

/-- All recorded indexes, each once. -/
theorem exists_entries (h : s.Readable) :
    ∃ keys, entries s = .ok keys ∧ keys.Nodup ∧ ∀ k, k ∈ keys ↔ Recorded s k := by
  refine ⟨listed s keyStart, map_scan_eq_listed (h.scans keyStart), nodup_listed s keyStart, ?_⟩
  intro k
  rw [mem_listed_iff, and_iff_right (h.scans keyStart), and_iff_left (keyStart_prefix_key k)]

end Listed

/-! ### Changes to the record -/

/-- Writing under the key of an index changes what is recorded of it alone. -/
theorem recorded_put_iff {k : IndexKey} (hk : k.Dotless) (value : Option String) (k' : IndexKey) :
    Recorded { s with contents := s.contents.put (key k) value } k' ↔
      if k' = k then value = some created else Recorded s k' := by
  rw [Recorded, Recorded, Settings.value?, SettingsContents.value?_put]
  by_cases hsame : k' = k
  · subst hsame
    simp [hk]
  · rw [if_neg hsame]
    refine and_congr_right fun hk' => ?_
    rw [if_neg fun e => hsame (key_injective hk' hk e), Settings.value?]

end Ledger

end LiveSchema
