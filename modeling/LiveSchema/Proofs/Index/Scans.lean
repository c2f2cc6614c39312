import LiveSchema.Proofs.Index.Ledger
import LiveSchema.Proofs.PropertyType.Reading

/-!
# LiveSchema.Proofs.Index.Scans

What a scan of the record finds is what reading it index by index finds. The settings may hold
anything besides, also keys that begin like those of the record and name no index, and properties
may contain dots.

* `Ledger.scans_agree_with_reads` — the indexes that are listed are those that exist, each once;
  those of one type are listed in the same order (`Ledger.Listing`); and to write the record of an
  index changes what is said of this index only (`Ledger.Written`).

Settings are listed in the order of their keys. Where types are named by identifiers this is the
order of types and then of properties, because every character of an identifier comes after the dot
that ends the name of a type (`Ledger.key_lt_key_iff`).
-/

namespace LiveSchema

open PropertyType in
/-- Every character of an identifier comes after the dot. -/
theorem dot_lt_of_isIdentifier {name : String} (h : isIdentifier name = true) :
    ∀ c ∈ name.toList, '.' < c := by
  intro c hc
  rcases (isIdentifierChars_iff.mp h).isNameChar hc with (⟨hle, -⟩ | ⟨hle, -⟩ | rfl) | ⟨hle, -⟩
  · exact lt_of_lt_of_le (by decide) hle
  · exact lt_of_lt_of_le (by decide) hle
  · decide
  · exact lt_of_lt_of_le (by decide) hle

namespace Ledger

/-! ### The order of keys -/

/-- Of two texts that are cut at a dot, the parts before it are compared first. -/
theorem append_dot_lt_iff {l l' : List Char} (hl : ∀ c ∈ l, '.' < c) (hl' : ∀ c ∈ l', '.' < c)
    (rest rest' : List Char) :
    l ++ '.' :: rest < l' ++ '.' :: rest' ↔ l < l' ∨ l = l' ∧ rest < rest' := by
  induction l generalizing l' with
  | nil =>
      cases l' with
      | nil => simp
      | cons d ds =>
          -- one part ends where the other goes on, with a character that comes after the dot
          have hd := hl' d List.mem_cons_self
          simp [List.cons_lt_cons_iff, hd]
  | cons c cs ih =>
      have hc := hl c List.mem_cons_self
      cases l' with
      | nil => simp [List.cons_lt_cons_iff, hc.asymm, hc.ne']
      | cons d ds =>
          rw [List.cons_append, List.cons_append, List.cons_lt_cons_iff, List.cons_lt_cons_iff,
            List.cons_eq_cons, ih (List.forall_mem_cons.mp hl).2 (List.forall_mem_cons.mp hl').2]
          tauto

/-- Keys are in the order of types and then of properties. -/
theorem key_lt_key_iff {a b : IndexKey} (ha : ∀ c ∈ a.typeName.toList, '.' < c)
    (hb : ∀ c ∈ b.typeName.toList, '.' < c) :
    key a < key b ↔
      a.typeName < b.typeName ∨ a.typeName = b.typeName ∧ a.property < b.property := by
  have hstart (x y : List Char) : keyStart.toList ++ x < keyStart.toList ++ y ↔ x < y := by
    simp [keyStart]
  rw [String.lt_iff_toList_lt, toList_key, toList_key, List.append_assoc, List.append_assoc, hstart,
    append_dot_lt_iff ha hb, String.lt_iff_toList_lt, String.lt_iff_toList_lt, String.toList_inj]

/-! ### Lists of a scan -/

variable {s : Settings}

/-- The recorded indexes of a type stand among all of them in the same order. -/
theorem listed_type_eq_filter (h : s.Readable) {typeName : String} (ht : '.' ∉ typeName.toList) :
    listed s (keyStart ++ typeName ++ ".") =
      (listed s keyStart).filter (·.typeName = typeName) := by
  refine SortedMap.eq_of_names_sorted (pairwise_listed s _)
    ((pairwise_listed s keyStart).sublist (List.filter_sublist.map key)) fun k => ?_
  rw [List.mem_filter, mem_listed_iff, mem_listed_iff, and_iff_right (h.scans _),
    and_iff_right (h.scans _), and_iff_left (keyStart_prefix_key k), decide_eq_true_iff]
  exact and_congr_right fun hk => prefix_key_iff ht hk.1

theorem exists?_eq_decide (h : s.Readable) {k : IndexKey} (hk : k.Dotless) :
    exists? s k = .ok (decide (k ∈ listed s keyStart)) := by
  rw [exists?_eq h, decide_eq_decide.mpr]
  rw [mem_listed_iff, and_iff_right (h.scans _), and_iff_left (keyStart_prefix_key k), Recorded,
    and_iff_right hk]

/-! ### What is written -/

/-- What it comes to that an index was put on the record, or was taken off it. -/
structure Written (before after : Settings) (k : IndexKey) (present : Bool) : Prop where
  readable : after.Readable
  /-- The index exists now, or does not. -/
  exists_self : exists? after k = .ok present
  /-- Any other one exists if it did before. -/
  exists_of_ne : ∀ k' : IndexKey, k'.Dotless → k' ≠ k → exists? after k' = exists? before k'
  /-- No key but that of the index is touched, whatever keys there are. -/
  get_of_ne : ∀ text, text ≠ key k → after.get text = before.get text

/-- Putting a value under the key of an index. -/
theorem written_put (h : s.Readable) {k : IndexKey} (hk : k.Dotless) (value : Option String) :
    Written s { s with contents := s.contents.put (key k) value } k (value = some created) := by
  have hafter : Settings.Readable { s with contents := s.contents.put (key k) value } :=
    ⟨h.allowed, h.text.put (key k) value⟩
  have hvalue : ∀ text, Settings.value? { s with contents := s.contents.put (key k) value } text =
      if text = key k then value else s.value? text := s.contents.value?_put (key k) value
  exact
    { readable := hafter
      exists_self := by rw [exists?_eq hafter, hvalue, if_pos rfl]
      exists_of_ne := fun k' hk' hne => by
        rw [exists?_eq hafter, exists?_eq h, hvalue, if_neg fun e => hne (key_injective hk' hk e)]
      get_of_ne := fun text hne => by
        rw [Settings.get_eq hafter, Settings.get_eq h, hvalue, if_neg hne] }

/-! ### The record as a whole -/

/-- What a list of the record says, and what can be done to the record. -/
structure Listing (s : Settings) (entries : List IndexKey) : Prop where
  /-- An index is listed exactly if it exists. -/
  exists_eq : ∀ k : IndexKey, k.Dotless → exists? s k = .ok (decide (k ∈ entries))
  /-- Nothing else is listed. -/
  dotless : ∀ k ∈ entries, k.Dotless
  nodup : entries.Nodup
  /-- What is listed of one type is what the whole list has of it. -/
  ofType : ∀ typeName : String, '.' ∉ typeName.toList →
    entriesForType s typeName = .ok (entries.filter (·.typeName = typeName))
  mark : ∀ k : IndexKey, k.Dotless → ∃ after, mark s k = .ok after ∧ Written s after k true
  clear : ∀ k : IndexKey, k.Dotless → ∃ after, clear s k = .ok after ∧ Written s after k false
  /-- By type and then by property. -/
  sorted : (∀ k ∈ entries, isIdentifier k.typeName = true) → entries.Pairwise fun a b =>
    a.typeName < b.typeName ∨ a.typeName = b.typeName ∧ a.property < b.property

/-- **Scans of the record agree with reads.** -/
theorem scans_agree_with_reads (h : s.Readable) :
    ∃ keys, entries s = .ok keys ∧ Listing s keys := by
  have hset : .set ∉ s.refused := h.allowed .set (by decide)
  refine ⟨listed s keyStart, map_scan_eq_listed (h.scans keyStart), ?_⟩
  exact
    { exists_eq := fun k hk => exists?_eq_decide h hk
      dotless := fun k hk => (mem_listed_iff.mp hk).2.1.1
      nodup := nodup_listed s keyStart
      ofType := fun typeName ht => by
        rw [entriesForType, map_scan_eq_listed (h.scans _), listed_type_eq_filter h ht]
      mark := fun k hk => ⟨_, mark_eq hset k, by simpa using written_put h hk (some created)⟩
      clear := fun k hk => ⟨_, clear_eq hset k, by simpa using written_put h hk none⟩
      sorted := fun hnames => by
        refine (List.pairwise_map.mp (pairwise_listed s keyStart)).imp_of_mem ?_
        intro a b ha hb hlt
        exact (key_lt_key_iff (dot_lt_of_isIdentifier (hnames a ha))
          (dot_lt_of_isIdentifier (hnames b hb))).mp hlt }

/-- Records of two types of which one's name begins the other's, and settings that are no records:
one without a property, one that says something else, and one with another beginning. -/
def mixedRecord : MemorySettings :=
  .ofList [("index.File.name", "true"), ("index.FileSystem.root", "true"), ("index.File", "true"),
    ("index.File.a.b", "true"), ("index.File.size", "false"), ("indexes.File.name", "true")]

theorem mixedRecord_listing :
    ∃ keys, entries (.inMemory mixedRecord) = .ok keys ∧ Listing (.inMemory mixedRecord) keys ∧
      keys = [⟨"File", "a.b"⟩, ⟨"File", "name"⟩, ⟨"FileSystem", "root"⟩] ∧
      entriesForType (.inMemory mixedRecord) "File" = .ok (keys.take 2) := by
  have hreadable : (Settings.inMemory mixedRecord).Readable :=
    ⟨fun _ _ => List.not_mem_nil, trivial⟩
  obtain ⟨keys, hkeys, hlisting⟩ := scans_agree_with_reads hreadable
  have hall : entries (.inMemory mixedRecord) =
      .ok [⟨"File", "a.b"⟩, ⟨"File", "name"⟩, ⟨"FileSystem", "root"⟩] := by decide
  obtain rfl := Except.ok.inj (hkeys.symm.trans hall)
  refine ⟨_, hkeys, hlisting, rfl, ?_⟩
  rw [hlisting.ofType "File" (by decide)]
  rfl

end Ledger

end LiveSchema
