import LiveSchema.Proofs.SortedMap
import LiveSchema.Proofs.Text.Bytes
import LiveSchema.Proofs.Text.Order
import LiveSchema.Settings.Basic
import Mathlib.Data.String.Basic

/-!
# LiveSchema.Proofs.Settings

What settings say, whichever store keeps them. `Settings.value?` is the text under a key; where the
backend does its work and all that it keeps is text (`Settings.Readable`), each operation is a
statement about it:

* `get_eq` — reading answers with it;
* `set_of_allowed`, `value?_put` — writing changes it under one key, and the settings stay readable;
* `pairwise_scan`, `mem_scan_iff` — a scan lists each key with the given beginning once, in order,
  and with its value.

A persistent store may hold entries that are no text. A scan does not care for those that it does
not meet (`PersistentSettings.exists_scan`), and fails as a whole if it meets one
(`PersistentSettings.exists_error_scan`).

A scan in memory reads one stretch of the keys. That is enough, because keys with a common beginning
stand together (`MemorySettings.scan_eq_filter`).
-/

namespace LiveSchema

namespace MemorySettings

theorem beginsWith_iff {start text : String} :
    beginsWith start text = true ↔ start.toList <+: text.toList :=
  List.isPrefixOf_iff_prefix

/-! ### Keys with a common beginning -/

/-- A text is not smaller than its beginning. -/
theorem prefix_not_lt {p k : List Char} (h : p <+: k) : ¬ k < p := by
  induction p generalizing k with
  | nil => exact List.not_lt_nil k
  | cons c p ih =>
      obtain ⟨rest, rfl⟩ := h
      rw [List.cons_append, List.cons_lt_cons_iff]
      rintro (hlt | ⟨-, hlt⟩)
      · exact lt_irrefl c hlt
      · exact ih (List.prefix_append p rest) hlt

/-- What stands between a beginning and a text that has it has it too. -/
theorem prefix_of_between {p k k' : List Char} (hk : ¬ k < p) (hlt : k < k')
    (h : p <+: k') : p <+: k := by
  induction p generalizing k k' with
  | nil => exact List.nil_prefix
  | cons c p ih =>
      obtain ⟨rest, rfl⟩ := h
      cases k with
      | nil => exact absurd (List.nil_lt_cons c p) hk
      | cons d ks =>
          rw [List.cons_append, List.cons_lt_cons_iff] at hlt
          rw [List.cons_lt_cons_iff] at hk
          rcases hlt with hdc | ⟨rfl, hks⟩
          · exact absurd (Or.inl hdc) hk
          · have hp : ¬ ks < p := fun h => hk (Or.inr ⟨rfl, h⟩)
            exact List.cons_prefix_cons.mpr ⟨rfl, ih hp hks (List.prefix_append p rest)⟩

theorem compare_eq_lt_iff {a b : String} : compare a b = .lt ↔ a.toList < b.toList := by
  rw [← String.lt_iff_toList_lt]
  exact compareOfLessAndEq_eq_lt

/-- Among keys that are not smaller than a beginning, those that have it come first. -/
theorem takeWhile_eq_filter {start : String} {l : List (String × String)}
    (hsorted : l.Pairwise (fun a b => compare a.1 b.1 = .lt))
    (hle : ∀ e ∈ l, ¬ e.1.toList < start.toList) :
    l.takeWhile (fun e => beginsWith start e.1) = l.filter (fun e => beginsWith start e.1) := by
  induction l with
  | nil => rfl
  | cons e rest ih =>
      obtain ⟨hhead, hrest⟩ := List.pairwise_cons.mp hsorted
      rw [List.takeWhile_cons, List.filter_cons]
      by_cases he : beginsWith start e.1 = true
      · rw [if_pos he, if_pos he, ih hrest fun e' he' => hle e' (List.mem_cons_of_mem e he')]
      · rw [if_neg he, if_neg he, eq_comm, List.filter_eq_nil_iff]
        intro e' he' hstart
        exact he (beginsWith_iff.mpr (prefix_of_between (hle e List.mem_cons_self)
          (compare_eq_lt_iff.mp (hhead e' he')) (beginsWith_iff.mp hstart)))

/-- A scan lists the entries whose keys have the beginning. -/
theorem scan_eq_filter (m : MemorySettings) (start : String) :
    m.scan start = m.entries.filter (fun e => beginsWith start e.1) := by
  rw [scan]
  have hsorted := m.sorted
  generalize m.entries = l at hsorted
  induction l with
  | nil => rfl
  | cons e rest ih =>
      obtain ⟨hhead, hrest⟩ := List.pairwise_cons.mp hsorted
      by_cases he : compare e.1 start = .lt
      · -- a smaller key does not have the beginning
        have hout : ¬ beginsWith start e.1 = true := fun h =>
          prefix_not_lt (beginsWith_iff.mp h) (compare_eq_lt_iff.mp he)
        rw [List.dropWhile_cons_of_pos (by simpa using he), List.filter_cons, if_neg hout, ih hrest]
      · rw [List.dropWhile_cons_of_neg (by simpa using he)]
        refine takeWhile_eq_filter hsorted fun e' he' hlt => he ?_
        rcases List.mem_cons.mp he' with rfl | he'
        · exact compare_eq_lt_iff.mpr hlt
        · exact Std.TransCmp.lt_trans (hhead e' he') (compare_eq_lt_iff.mpr hlt)

end MemorySettings

/-! ### What settings say -/

namespace SettingsContents

/-- The text under a key. -/
def value? : SettingsContents → String → Option String
  | .memory m, key => m.get? key
  | .persistent m, key => (m.get? (Text.toBytes key)).bind Text.ofBytes?

/-- All that is kept is text. -/
def IsText : SettingsContents → Prop
  | .memory _ => True
  | .persistent m => ∀ key value, m.get? key = some value →
      (∃ k, key = Text.toBytes k) ∧ ∃ v, value = Text.toBytes v

/-- Putting a value under a key changes nothing else. -/
theorem value?_put (contents : SettingsContents) (key : String) (value : Option String)
    (k : String) :
    (contents.put key value).value? k = if k = key then value else contents.value? k := by
  have hkeys : Text.toBytes key = Text.toBytes k ↔ k = key :=
    ⟨fun h => (Text.toBytes_injective h).symm, fun h => h ▸ rfl⟩
  cases contents with
  | memory m =>
      cases value with
      | some v =>
          rw [put, value?, value?, SortedMap.get?_insert]
          simp only [eq_comm]
      | none =>
          rw [put, value?, value?, SortedMap.get?_erase]
          simp only [eq_comm]
  | persistent m =>
      cases value with
      | some v =>
          rw [put, value?, value?, SortedMap.get?_insert]
          simp only [hkeys]
          split <;> simp
      | none =>
          rw [put, value?, value?, SortedMap.get?_erase]
          simp only [hkeys]
          split <;> simp

theorem IsText.put {contents : SettingsContents} (h : contents.IsText) (key : String)
    (value : Option String) : (contents.put key value).IsText := by
  cases contents with
  | memory m => cases value <;> trivial
  | persistent m =>
      cases value with
      | some v =>
          intro k w hw
          rw [SortedMap.get?_insert] at hw
          split at hw
          next hk =>
            obtain rfl := Option.some.inj hw
            exact ⟨⟨key, hk.symm⟩, v, rfl⟩
          next => exact h k w hw
      | none =>
          intro k w hw
          rw [SortedMap.get?_erase] at hw
          split at hw
          next => cases hw
          next => exact h k w hw

end SettingsContents

namespace PersistentSettings

theorem textOf_toBytes (key s : String) : textOf key (Text.toBytes s) = .ok s := by
  rw [textOf, Text.ofBytes?_toBytes]

/-- Where all is text, reading the pairs of a scan succeeds with what the pairs stand for. -/
theorem exists_readPairs (start : String) {l : List (Bytes × Bytes)}
    (h : ∀ e ∈ l, (∃ k, e.1 = Text.toBytes k) ∧ ∃ v, e.2 = Text.toBytes v) :
    ∃ pairs, readPairs start l = .ok pairs ∧
      l = pairs.map (fun e => (Text.toBytes e.1, Text.toBytes e.2)) := by
  induction l with
  | nil => exact ⟨[], rfl, rfl⟩
  | cons e rest ih =>
      obtain ⟨k, v⟩ := e
      obtain ⟨⟨key, rfl⟩, value, rfl⟩ := h _ List.mem_cons_self
      obtain ⟨pairs, hpairs, rfl⟩ := ih fun e he => h e (List.mem_cons_of_mem _ he)
      refine ⟨(key, value) :: pairs, ?_, rfl⟩
      simp only [readPairs, textOf_toBytes, hpairs]
      rfl

/-- Pairs of texts are told apart by their bytes. -/
theorem mem_map_toBytes_iff {pairs : List (String × String)} {key value : String} :
    (Text.toBytes key, Text.toBytes value) ∈
        pairs.map (fun e => (Text.toBytes e.1, Text.toBytes e.2)) ↔ (key, value) ∈ pairs := by
  rw [List.mem_map]
  constructor
  · rintro ⟨e, he, heq⟩
    obtain ⟨hk, hv⟩ := Prod.mk.inj heq
    rwa [← Text.toBytes_injective hk, ← Text.toBytes_injective hv]
  · exact fun h => ⟨_, h, rfl⟩

/-- The key or the value of an entry is no text. -/
def Unreadable (key value : Bytes) : Prop := Text.ofBytes? key = none ∨ Text.ofBytes? value = none

/-- Among the entries whose keys begin with a text there is an unreadable one. -/
def Marred (m : PersistentSettings) (start : String) : Prop :=
  ∃ key value, m.get? key = some value ∧ Text.toBytes start <+: key ∧ Unreadable key value

/-- What stands under a key, if anything does, is text. -/
def Legible (m : PersistentSettings) (key : String) : Prop :=
  ∀ value, m.get? (Text.toBytes key) = some value → ¬ Unreadable (Text.toBytes key) value

instance (key value : Bytes) : Decidable (Unreadable key value) :=
  inferInstanceAs (Decidable (_ = none ∨ _ = none))

instance (m : PersistentSettings) (start : String) : Decidable (m.Marred start) :=
  decidable_of_iff (∃ e ∈ m.entries, Text.toBytes start <+: e.1 ∧ Unreadable e.1 e.2) <| by
    simp only [Marred, Prod.exists, SortedMap.mem_entries_iff]

instance (m : PersistentSettings) (key : String) : Decidable (m.Legible key) :=
  decidable_of_iff (∀ value ∈ m.get? (Text.toBytes key), ¬ Unreadable (Text.toBytes key) value)
    Iff.rfl

theorem texts_of_not_unreadable {key value : Bytes} (h : ¬ Unreadable key value) :
    (∃ k, key = Text.toBytes k) ∧ ∃ v, value = Text.toBytes v := by
  obtain ⟨hkey, hvalue⟩ := not_or.mp h
  obtain ⟨k, hk⟩ := Option.ne_none_iff_exists'.mp hkey
  obtain ⟨v, hv⟩ := Option.ne_none_iff_exists'.mp hvalue
  exact ⟨⟨k, Text.ofBytes?_eq_some_iff.mp hk⟩, v, Text.ofBytes?_eq_some_iff.mp hv⟩

/-- Where all is text, no entry is unreadable. -/
theorem not_unreadable_of_isText {m : PersistentSettings}
    (h : (SettingsContents.persistent m).IsText) {key value : Bytes}
    (hget : m.get? key = some value) : ¬ Unreadable key value := by
  obtain ⟨⟨k, rfl⟩, v, rfl⟩ := h key value hget
  simp [Unreadable]

theorem nodup_of_map_toBytes {pairs : List (String × String)}
    (h : ((pairs.map fun e => (Text.toBytes e.1, Text.toBytes e.2)).map Prod.fst).Nodup) :
    (pairs.map Prod.fst).Nodup := by
  have hcomp : (pairs.map fun e => (Text.toBytes e.1, Text.toBytes e.2)).map Prod.fst =
      (pairs.map Prod.fst).map Text.toBytes := by
    rw [List.map_map, List.map_map]
    rfl
  rw [hcomp] at h
  exact List.Nodup.of_map _ h

/-- A scan that meets no unreadable entry lists each key that has the beginning once, with its
value. -/
theorem exists_scan {m : PersistentSettings} {start : String} (h : ¬ m.Marred start) :
    ∃ pairs, m.scan start = .ok pairs ∧ (pairs.map Prod.fst).Nodup ∧
      ∀ key value, (key, value) ∈ pairs ↔
        (m.get? (Text.toBytes key)).bind Text.ofBytes? = some value ∧
          start.toList <+: key.toList := by
  obtain ⟨pairs, hpairs, hdecode⟩ := exists_readPairs start
    (l := m.entries.filter fun e => (Text.toBytes start).isPrefixOf e.1) fun e he => by
      obtain ⟨hmem, hstart⟩ := List.mem_filter.mp he
      refine texts_of_not_unreadable fun hbad => h ⟨e.1, e.2, ?_, ?_, hbad⟩
      · exact (SortedMap.mem_entries_iff m e.1 e.2).mp hmem
      · exact List.isPrefixOf_iff_prefix.mp hstart
  refine ⟨pairs, hpairs, ?_, fun key value => ?_⟩
  · refine nodup_of_map_toBytes ?_
    rw [← hdecode]
    exact (SortedMap.keys_nodup m).sublist (List.filter_sublist.map Prod.fst)
  · rw [← mem_map_toBytes_iff, ← hdecode, List.mem_filter, SortedMap.mem_entries_iff,
      Text.isPrefixOf_toBytes, List.isPrefixOf_iff_prefix, Option.bind_eq_some_iff]
    simp only [Text.ofBytes?_eq_some_iff, exists_eq_right]

/-- An unreadable pair keeps all of them from being read. -/
theorem exists_error_readPairs (start : String) {l : List (Bytes × Bytes)}
    (h : ∃ e ∈ l, Unreadable e.1 e.2) : ∃ error, readPairs start l = .error error := by
  induction l with
  | nil =>
      obtain ⟨e, he, -⟩ := h
      cases he
  | cons e rest ih =>
      obtain ⟨k, v⟩ := e
      by_cases hbad : Unreadable k v
      · unfold readPairs textOf
        cases hk : Text.ofBytes? k with
        | none => exact ⟨_, rfl⟩
        | some key =>
            have hv : Text.ofBytes? v = none := hbad.resolve_left (by simp [hk])
            rw [hv]
            exact ⟨_, rfl⟩
      · obtain ⟨⟨key, rfl⟩, value, rfl⟩ := texts_of_not_unreadable hbad
        obtain ⟨e, he, hebad⟩ := h
        have hrest : e ∈ rest := by
          rcases List.mem_cons.mp he with rfl | hrest
          · exact absurd hebad hbad
          · exact hrest
        obtain ⟨error, herror⟩ := ih ⟨e, hrest, hebad⟩
        refine ⟨error, ?_⟩
        simp only [readPairs, textOf_toBytes, herror]
        rfl

/-- A scan that meets an unreadable entry fails as a whole. -/
theorem exists_error_scan {m : PersistentSettings} {start : String} (h : m.Marred start) :
    ∃ error, m.scan start = .error error := by
  obtain ⟨key, value, hget, hstart, hbad⟩ := h
  refine exists_error_readPairs start ⟨(key, value), List.mem_filter.mpr ⟨?_, ?_⟩, hbad⟩
  · exact (SortedMap.mem_entries_iff m key value).mpr hget
  · exact List.isPrefixOf_iff_prefix.mpr hstart

/-- What is read of entries stands for them. -/
theorem eq_map_of_readPairs {start : String} {l : List (Bytes × Bytes)}
    {pairs : List (String × String)} (h : readPairs start l = .ok pairs) :
    l = pairs.map fun e => (Text.toBytes e.1, Text.toBytes e.2) := by
  have htexts : ∀ e ∈ l, (∃ k, e.1 = Text.toBytes k) ∧ ∃ v, e.2 = Text.toBytes v := by
    intro e he
    refine texts_of_not_unreadable fun hbad => ?_
    obtain ⟨error, herror⟩ := exists_error_readPairs start ⟨e, he, hbad⟩
    rw [herror] at h
    cases h
  obtain ⟨pairs', hpairs', hdecode⟩ := exists_readPairs start htexts
  obtain rfl := Except.ok.inj (h.symm.trans hpairs')
  exact hdecode

end PersistentSettings

namespace Settings

/-- The text under a key. -/
def value? (s : Settings) (key : String) : Option String := s.contents.value? key

/-- The backend does what is asked of it, flushing apart, and all that it keeps is text. -/
structure Readable (s : Settings) : Prop where
  allowed : ∀ operation, operation ≠ .flush → operation ∉ s.refused
  text : s.contents.IsText

variable {s : Settings}

theorem checkAllowed_eq {operation : SettingsOperation} (h : operation ∉ s.refused) :
    s.checkAllowed operation = .ok () := by
  have hnot : ¬ s.refused.contains operation = true := fun hc => h (List.contains_iff_mem.mp hc)
  rw [checkAllowed, if_neg hnot]

/-- Reading a setting that is text answers with it, whatever else is stored. -/
theorem get_of_legible (h : .get ∉ s.refused) {m : PersistentSettings}
    (hc : s.contents = .persistent m) {key : String} (hkey : m.Legible key) :
    s.get key = .ok (s.value? key) := by
  rw [get, checkAllowed_eq h, value?, hc]
  cases hget : m.get? (Text.toBytes key) with
  | none =>
      simp only [SettingsContents.value?, hget]
      rfl
  | some bytes =>
      obtain ⟨-, v, rfl⟩ := PersistentSettings.texts_of_not_unreadable (hkey bytes hget)
      simp only [SettingsContents.value?, hget, PersistentSettings.textOf_toBytes,
        Option.bind_some, Text.ofBytes?_toBytes]
      rfl

/-- Reading a setting that is no text fails. -/
theorem exists_error_get (h : .get ∉ s.refused) {m : PersistentSettings}
    (hc : s.contents = .persistent m) {key : String} (hkey : ¬ m.Legible key) :
    ∃ error, s.get key = .error error := by
  simp only [PersistentSettings.Legible, not_forall, not_not] at hkey
  obtain ⟨value, hget, hbad⟩ := hkey
  have hvalue : Text.ofBytes? value = none := hbad.resolve_left (by simp)
  refine ⟨.invalidValue key, ?_⟩
  rw [get, checkAllowed_eq h, hc]
  simp only [hget, PersistentSettings.textOf, hvalue]
  rfl

/-- Reading a setting answers with it, if reading is allowed and the setting is text. -/
theorem get_eq_ok_iff {key : String} {value : Option String} :
    s.get key = .ok value ↔
      .get ∉ s.refused ∧ (∀ m, s.contents = .persistent m → m.Legible key) ∧
        s.value? key = value := by
  have hanswers (hallowed : .get ∉ s.refused)
      (hlegible : ∀ m, s.contents = .persistent m → m.Legible key) :
      s.get key = .ok (s.value? key) := by
    cases hc : s.contents with
    | memory m =>
        rw [get, checkAllowed_eq hallowed, value?, hc]
        rfl
    | persistent m => exact get_of_legible hallowed hc (hlegible m hc)
  constructor
  · intro h
    have hallowed : .get ∉ s.refused := by
      intro hrefused
      rw [get, checkAllowed, if_pos (List.contains_iff_mem.mpr hrefused)] at h
      cases h
    have hlegible : ∀ m, s.contents = .persistent m → m.Legible key := by
      intro m hc
      by_contra hkey
      obtain ⟨error, herror⟩ := exists_error_get hallowed hc hkey
      rw [h] at herror
      cases herror
    exact ⟨hallowed, hlegible, Except.ok.inj ((hanswers hallowed hlegible).symm.trans h)⟩
  · rintro ⟨hallowed, hlegible, rfl⟩
    exact hanswers hallowed hlegible

theorem get_eq (h : s.Readable) (key : String) : s.get key = .ok (s.value? key) := by
  refine get_eq_ok_iff.mpr ⟨h.allowed .get (by decide), fun m hc value hget => ?_, rfl⟩
  exact PersistentSettings.not_unreadable_of_isText (hc ▸ h.text) hget

/-- Writing puts the value under its key, whatever else is stored. -/
theorem set_of_allowed (h : .set ∉ s.refused) (key : String) (value : Option String) :
    s.set key value = .ok { s with contents := s.contents.put key value } := by
  rw [set, checkAllowed_eq h]
  rfl

theorem Readable.put (h : s.Readable) (key : String) (value : Option String) :
    ({ s with contents := s.contents.put key value } : Settings).Readable :=
  ⟨h.allowed, h.text.put key value⟩

theorem readable_persistent {stored : PersistentSettings}
    (ht : (SettingsContents.persistent stored).IsText) : (persistent stored).Readable :=
  ⟨fun _ _ => List.not_mem_nil, ht⟩

/-- Settings in a persistent store stay there. -/
theorem exists_persistent_put (stored : PersistentSettings) (key : String)
    (value : Option String) :
    ∃ stored', ({ persistent stored with
      contents := (persistent stored).contents.put key value } : Settings) =
        persistent stored' := by
  cases value <;> exact ⟨_, rfl⟩

/-! ### Scans -/

/-- A scan from a text answers. -/
def Scans (s : Settings) (start : String) : Prop := ∃ pairs, s.scan start = .ok pairs

section Scans

variable {start : String} {pairs : List (String × String)}

theorem scan_cases (h : s.scan start = .ok pairs) :
    (∃ m, s.contents = .memory m ∧ m.scan start = pairs) ∨
      ∃ m, s.contents = .persistent m ∧ m.scan start = .ok pairs := by
  rw [scan] at h
  cases hallowed : s.checkAllowed .scan with
  | error error =>
      rw [hallowed] at h
      cases h
  | ok _ =>
      rw [hallowed] at h
      cases hc : s.contents with
      | memory m =>
          rw [hc] at h
          exact .inl ⟨m, rfl, Except.ok.inj h⟩
      | persistent m =>
          rw [hc] at h
          exact .inr ⟨m, rfl, h⟩

/-- A scan fails only if it is refused or meets an unreadable entry. -/
theorem scans_iff :
    s.Scans start ↔
      .scan ∉ s.refused ∧ ∀ m, s.contents = .persistent m → ¬ m.Marred start := by
  constructor
  · rintro ⟨pairs, hscan⟩
    constructor
    · intro hrefused
      rw [scan, checkAllowed, if_pos (List.contains_iff_mem.mpr hrefused)] at hscan
      cases hscan
    · rintro m hc hmarred
      obtain ⟨error, herror⟩ := PersistentSettings.exists_error_scan hmarred
      rcases scan_cases hscan with ⟨m', hc', -⟩ | ⟨m', hc', hscan'⟩
      · rw [hc] at hc'
        cases hc'
      · rw [hc] at hc'
        obtain rfl := SettingsContents.persistent.inj hc'
        rw [herror] at hscan'
        cases hscan'
  · rintro ⟨hallowed, hreadable⟩
    rw [Scans, scan, checkAllowed_eq hallowed]
    cases hc : s.contents with
    | memory m => exact ⟨_, rfl⟩
    | persistent m =>
        obtain ⟨pairs, hpairs, -⟩ := PersistentSettings.exists_scan (hreadable m hc)
        exact ⟨pairs, hpairs⟩

/-- What a scan lists stands in the order of its keys, also where the keys are kept as bytes. -/
theorem pairwise_scan (h : s.scan start = .ok pairs) : (pairs.map Prod.fst).Pairwise (· < ·) := by
  rcases scan_cases h with ⟨m, -, rfl⟩ | ⟨m, -, hscan⟩
  · rw [MemorySettings.scan_eq_filter]
    exact (SortedMap.keys_sorted m).sublist (List.filter_sublist.map _)
  · have hsorted := m.sorted.sublist
      (List.filter_sublist (p := fun e => (Text.toBytes start).isPrefixOf e.1))
    rw [PersistentSettings.eq_map_of_readPairs hscan, List.pairwise_map] at hsorted
    rw [List.pairwise_map]
    refine hsorted.imp fun hlt => ?_
    rw [Text.compare_toBytes] at hlt
    exact compareOfLessAndEq_eq_lt.mp hlt

/-- What a scan lists is what stands under the keys that have the beginning. -/
theorem mem_scan_iff (h : s.scan start = .ok pairs) {key value : String} :
    (key, value) ∈ pairs ↔ s.value? key = some value ∧ start.toList <+: key.toList := by
  rcases scan_cases h with ⟨m, hc, rfl⟩ | ⟨m, hc, hscan⟩
  · rw [value?, hc, MemorySettings.scan_eq_filter, List.mem_filter, SortedMap.mem_entries_iff,
      MemorySettings.beginsWith_iff]
    rfl
  · have hreadable := (scans_iff.mp ⟨pairs, h⟩).2 m hc
    obtain ⟨pairs', hpairs', -, hmem⟩ := PersistentSettings.exists_scan hreadable
    obtain rfl := Except.ok.inj (hscan.symm.trans hpairs')
    rw [hmem, value?, hc]
    rfl

theorem Readable.scans (h : s.Readable) (start : String) : s.Scans start := by
  refine scans_iff.mpr ⟨h.allowed .scan (by decide), fun m hc => ?_⟩
  rintro ⟨key, value, hget, -, hbad⟩
  exact PersistentSettings.not_unreadable_of_isText (hc ▸ h.text) hget hbad

end Scans

end Settings

end LiveSchema
