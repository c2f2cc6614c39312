import LiveSchema.Proofs.Index.Sweep

/-!
# LiveSchema.Proofs.Index.Units

Bringing a list of indexes in line, one after the other. A unit asks for a statement or for none, by
what the record answers (`SweepUnit.asks`). Over readable settings that is what the record says of
its index (`SweepUnit.statement?`). No unit touches the record of another one, so what all of them
do is said of the settings and the catalog as they were before the first (`Swept`):

* `swept_converge` — one unit;
* `Swept.append` — two lists about different indexes;
* `swept_foldl` — any list about pairwise different indexes.
-/

namespace LiveSchema

/-- The statement that a unit asks for: one that creates a wanted index that is not recorded, or one
that drops a recorded index that is not wanted. -/
def SweepUnit.statement? (u : SweepUnit) (s : Settings) : Option IndexStatement :=
  match u.wanted, decide (s.value? (Ledger.key u.key) = some Ledger.created) with
  | true, false => some (.create u.key)
  | false, true => some (.drop u.key)
  | _, _ => none

namespace SweepUnit

variable {u : SweepUnit} {s s' : Settings}

theorem statement?_congr (h : s.value? (Ledger.key u.key) = s'.value? (Ledger.key u.key)) :
    u.statement? s = u.statement? s' := by
  rw [statement?, statement?, h]

theorem key_of_statement? {statement : IndexStatement} (h : u.statement? s = some statement) :
    statement.key = u.key ∧ statement.isCreate = u.wanted := by
  unfold statement? at h
  split at h
  next hw _ => cases h; exact ⟨rfl, hw.symm⟩
  next hw _ => cases h; exact ⟨rfl, hw.symm⟩
  next => cases h

/-- No statement is asked for exactly when the record is as it should be. -/
theorem statement?_eq_none_iff (hk : u.key.Dotless) :
    u.statement? s = none ↔ (Ledger.Recorded s u.key ↔ u.wanted = true) := by
  rw [statement?, Ledger.Recorded]
  cases u.wanted <;>
    by_cases h : s.value? (Ledger.key u.key) = some Ledger.created <;> simp [h, hk]

/-- A unit asks to create exactly an index that is wanted and not recorded. -/
theorem statement?_eq_create_iff (hk : u.key.Dotless) {k : IndexKey} :
    u.statement? s = some (.create k) ↔
      u.key = k ∧ u.wanted = true ∧ ¬ Ledger.Recorded s u.key := by
  rw [statement?, Ledger.Recorded]
  cases u.wanted <;>
    by_cases h : s.value? (Ledger.key u.key) = some Ledger.created <;> simp [h, hk]

/-- A unit asks to drop exactly an index that is recorded and not wanted. -/
theorem statement?_eq_drop_iff (hk : u.key.Dotless) {k : IndexKey} :
    u.statement? s = some (.drop k) ↔
      u.key = k ∧ u.wanted = false ∧ Ledger.Recorded s u.key := by
  rw [statement?, Ledger.Recorded]
  cases u.wanted <;>
    by_cases h : s.value? (Ledger.key u.key) = some Ledger.created <;> simp [h, hk]

end SweepUnit

/-- The statement that a unit asks for, by what the record answers: none if it cannot be read. -/
def SweepUnit.asks (s : Settings) (u : SweepUnit) : Option IndexStatement :=
  match Ledger.exists? s u.key with
  | .error _ => none
  | .ok recorded =>
    if recorded = u.wanted then none
    else some (if u.wanted then .create u.key else .drop u.key)

theorem SweepUnit.asks_eq_statement? {s : Settings} (h : s.Readable) (u : SweepUnit) :
    u.asks s = u.statement? s := by
  rw [asks, Ledger.exists?_eq h, statement?]
  cases u.wanted <;> cases decide (s.value? (Ledger.key u.key) = some Ledger.created) <;> rfl

/-- Looking at an index decides on what its unit asks for, and does nothing else but count. -/
theorem Sweep.lookAt_spec (s : Sweep) (settings : Settings) (u : SweepUnit)
    (hnone : s.statement = none) :
    (s.lookAt settings u).statement = u.asks settings ∧
      (s.lookAt settings u).request = s.request ∧
      (s.lookAt settings u).units = s.units ∧ (s.lookAt settings u).stages = s.stages := by
  rw [lookAt, SweepUnit.asks]
  cases Ledger.exists? settings u.key with
  | error error => exact ⟨hnone, rfl, rfl, rfl⟩
  | ok recorded =>
      cases u.wanted <;> cases recorded <;> first
        | exact ⟨rfl, rfl, rfl, rfl⟩
        | exact ⟨hnone, rfl, rfl, rfl⟩

/-- What became of some units: `p'` is what `p` was made by bringing them in line. -/
structure Swept (units : List SweepUnit) (p p' : Progress) : Prop where
  readable : p'.settings.Readable
  failing : p'.catalog.failing = p.catalog.failing
  /-- Each unit issued what it asked for. -/
  calls : p'.catalog.calls = p.catalog.calls ++ units.filterMap (·.statement? p.settings)
  /-- The record of an index is as wanted, unless its statements fail. -/
  recorded : ∀ u ∈ units, (Ledger.Recorded p'.settings u.key ↔
    if p.catalog.failing.contains u.key then Ledger.Recorded p.settings u.key
    else u.wanted = true)
  /-- Only the record of an index that was created or dropped has changed. -/
  value : ∀ text, (∀ u ∈ units, text = Ledger.key u.key →
      u.statement? p.settings = none ∨ p.catalog.failing.contains u.key = true) →
    p'.settings.value? text = p.settings.value? text
  has : ∀ u ∈ units, p'.catalog.has u.key =
    if (u.statement? p.settings).isSome && !p.catalog.failing.contains u.key then u.wanted
    else p.catalog.has u.key
  has_other : ∀ k, k ∉ units.map SweepUnit.key → p'.catalog.has k = p.catalog.has k
  sequence : p'.stats.sequence = p.stats.sequence ∧ p'.stats.cancelled = p.stats.cancelled
  created : p'.stats.created = p.stats.created + units.countP fun u =>
    u.wanted && (u.statement? p.settings).isSome && !p.catalog.failing.contains u.key
  dropped : p'.stats.dropped = p.stats.dropped + units.countP fun u =>
    !u.wanted && (u.statement? p.settings).isSome && !p.catalog.failing.contains u.key
  failed : p'.stats.failed = p.stats.failed + units.countP fun u =>
    (u.statement? p.settings).isSome && p.catalog.failing.contains u.key
  unchanged : p'.stats.unchanged = p.stats.unchanged + units.countP fun u =>
    (u.statement? p.settings).isNone

/-! ### One unit -/

namespace Progress

variable {p : Progress} {u : SweepUnit}

/-- A unit whose record can be read issues what it asks for. -/
theorem converge_eq (h : Ledger.exists? p.settings u.key =
      .ok (decide (p.settings.value? (Ledger.key u.key) = some Ledger.created))) :
    p.converge u =
      match u.statement? p.settings with
      | some statement => p.issue statement
      | none => p.leave := by
  rw [converge, h, SweepUnit.statement?]
  cases u.wanted <;>
    cases decide (p.settings.value? (Ledger.key u.key) = some Ledger.created) <;> rfl

/-- What carrying out a statement makes of the settings. -/
theorem record_eq {s : Settings} (h : .set ∉ s.refused) (statement : IndexStatement) :
    Sweep.record s statement =
      { s with
        contents := s.contents.put (Ledger.key statement.key)
          (if statement.isCreate then some Ledger.created else none) } := by
  unfold Sweep.record
  cases statement with
  | create k => simp only [Ledger.mark_eq h]; rfl
  | drop k => simp only [Ledger.clear_eq h]; rfl

theorem has_apply (c : Catalog) (statement : IndexStatement) (k : IndexKey) :
    (c.apply statement).has k = if k = statement.key then statement.isCreate else c.has k := by
  unfold Catalog.apply Catalog.has SortedMap.contains
  cases statement with
  | create key =>
      rw [SortedMap.get?_insert]
      by_cases h : key = k
      · simp [h, IndexStatement.key, IndexStatement.isCreate]
      · simp [h, Ne.symm h, IndexStatement.key]
  | drop key =>
      rw [SortedMap.get?_erase]
      by_cases h : key = k
      · simp [h, IndexStatement.key, IndexStatement.isCreate]
      · simp [h, Ne.symm h, IndexStatement.key]

end Progress

section OneUnit

variable {p : Progress} {u : SweepUnit} {statement : IndexStatement}

/-- A unit that asks for nothing finds its record as it should be. -/
theorem swept_leave (h : p.settings.Readable) (hk : u.key.Dotless)
    (hst : u.statement? p.settings = none) : Swept [u] p p.leave :=
  have hrecorded := (SweepUnit.statement?_eq_none_iff hk).mp hst
  { readable := h
    failing := rfl
    calls := by simp [Progress.leave, hst]
    recorded := by simp [Progress.leave, hrecorded]
    value := fun _ _ => rfl
    has := by simp [Progress.leave, hst]
    has_other := fun _ _ => rfl
    sequence := ⟨rfl, rfl⟩
    created := by simp [Progress.leave, hst]
    dropped := by simp [Progress.leave, hst]
    failed := by simp [Progress.leave, hst]
    unchanged := by simp [Progress.leave, hst] }

/-- A rejected statement changes nothing but the log and the count of failures. -/
theorem swept_rejected (h : p.settings.Readable) (hst : u.statement? p.settings = some statement)
    (hf : p.catalog.failing.contains u.key = true) : Swept [u] p (p.issue statement) := by
  have hissue : p.issue statement =
      { p with
        catalog := { p.catalog with calls := p.catalog.calls ++ [statement] }
        stats := { p.stats with failed := p.stats.failed + 1 } } := by
    rw [Progress.issue, (SweepUnit.key_of_statement? hst).1, if_pos hf]
  rw [hissue]
  exact
    { readable := h
      failing := rfl
      calls := by simp [hst]
      recorded := by simp [hf]
      value := fun _ _ => rfl
      has := by simp [hf, Catalog.has]
      has_other := fun _ _ => rfl
      sequence := ⟨rfl, rfl⟩
      created := by simp [hf]
      dropped := by simp [hf]
      failed := by simp [hst, hf]
      unchanged := by simp [hst] }

/-- A statement that is carried out is recorded, and the catalog follows. -/
theorem swept_carriedOut (h : p.settings.Readable) (hk : u.key.Dotless)
    (hst : u.statement? p.settings = some statement)
    (hf : ¬ p.catalog.failing.contains u.key = true) : Swept [u] p (p.issue statement) := by
  obtain ⟨hkey, hcreate⟩ := SweepUnit.key_of_statement? hst
  have hissue : p.issue statement =
      { settings :=
          { p.settings with
            contents := p.settings.contents.put (Ledger.key u.key)
              (if u.wanted then some Ledger.created else none) }
        catalog := { p.catalog with calls := p.catalog.calls ++ [statement] }.apply statement
        stats :=
          if u.wanted then { p.stats with created := p.stats.created + 1 }
          else { p.stats with dropped := p.stats.dropped + 1 } } := by
    rw [Progress.issue, hkey, if_neg hf, Progress.record_eq (h.allowed .set (by decide)), hkey,
      hcreate]
  rw [hissue]
  exact
    { readable := h.put _ _
      failing := by cases statement <;> rfl
      calls := by cases statement <;> simp [Catalog.apply, hst]
      recorded := by
        intro v hv
        obtain rfl := List.mem_singleton.mp hv
        rw [Ledger.recorded_put_iff hk, if_pos rfl, if_neg hf]
        cases v.wanted <;> simp
      value := by
        intro text htext
        have hne : text ≠ Ledger.key u.key := by
          intro heq
          rcases htext u List.mem_cons_self heq with hnone | hfail
          · rw [hst] at hnone; cases hnone
          · exact hf hfail
        rw [Settings.value?, SettingsContents.value?_put, if_neg hne, Settings.value?]
      has := by
        intro v hv
        obtain rfl := List.mem_singleton.mp hv
        rw [Progress.has_apply, if_pos hkey.symm, hcreate]
        simp [hst, hf]
      has_other := by
        intro k hother
        have hne : k ≠ statement.key := by
          rw [hkey]
          simpa using hother
        rw [Progress.has_apply, if_neg hne]
        rfl
      sequence := by cases u.wanted <;> exact ⟨rfl, rfl⟩
      created := by cases hw : u.wanted <;> simp [hst, hf, hw]
      dropped := by cases hw : u.wanted <;> simp [hst, hf, hw]
      failed := by cases u.wanted <;> simp [hf]
      unchanged := by cases u.wanted <;> simp [hst] }

/-- Bringing one index in line. -/
theorem swept_converge (h : p.settings.Readable) (hk : u.key.Dotless) :
    Swept [u] p (p.converge u) := by
  rw [Progress.converge_eq (Ledger.exists?_eq h u.key)]
  cases hst : u.statement? p.settings with
  | none => exact swept_leave h hk hst
  | some statement =>
      by_cases hf : p.catalog.failing.contains u.key = true
      · exact swept_rejected h hst hf
      · exact swept_carriedOut h hk hst hf

end OneUnit

/-! ### Many units -/

namespace Swept

variable {units more : List SweepUnit} {p p' p'' : Progress}

theorem nil (h : p.settings.Readable) : Swept [] p p where
  readable := h
  failing := rfl
  calls := by simp
  recorded := by simp
  value _ _ := rfl
  has := by simp
  has_other _ _ := rfl
  sequence := ⟨rfl, rfl⟩
  created := by simp
  dropped := by simp
  failed := by simp
  unchanged := by simp

/-- The setting of an index that no unit is about has not changed. -/
theorem value_key (h : Swept units p p') (hd : ∀ u ∈ units, u.key.Dotless) {k : IndexKey}
    (hk : k.Dotless) (hother : ∀ u ∈ units, u.key ≠ k) :
    p'.settings.value? (Ledger.key k) = p.settings.value? (Ledger.key k) :=
  h.value _ fun u hu heq =>
    absurd (Ledger.key_injective hk (hd u hu) heq).symm (hother u hu)

theorem recorded_other (h : Swept units p p') (hd : ∀ u ∈ units, u.key.Dotless) {k : IndexKey}
    (hother : ∀ u ∈ units, u.key ≠ k) :
    Ledger.Recorded p'.settings k ↔ Ledger.Recorded p.settings k :=
  and_congr_right fun hk => by rw [h.value_key hd hk hother]

/-- Units about other indexes ask for what they asked for before. -/
theorem statement?_eq (h : Swept units p p') (hd : ∀ u ∈ units, u.key.Dotless) {v : SweepUnit}
    (hv : v.key.Dotless) (hother : ∀ u ∈ units, u.key ≠ v.key) :
    v.statement? p'.settings = v.statement? p.settings :=
  SweepUnit.statement?_congr (h.value_key hd hv hother)

/-- Two lists of units about different indexes, one after the other. -/
theorem append (h : Swept units p p') (h' : Swept more p' p'')
    (hd : ∀ u ∈ units, u.key.Dotless) (hd' : ∀ v ∈ more, v.key.Dotless)
    (hne : ∀ u ∈ units, ∀ v ∈ more, u.key ≠ v.key) : Swept (units ++ more) p p'' := by
  have hsame : ∀ v ∈ more, v.statement? p'.settings = v.statement? p.settings := fun v hv =>
    h.statement?_eq hd (hd' v hv) fun u hu => hne u hu v hv
  have hcount : ∀ f : SweepUnit → Option IndexStatement → Bool,
      more.countP (fun v => f v (v.statement? p'.settings)) =
        more.countP (fun v => f v (v.statement? p.settings)) :=
    fun f => List.countP_congr fun v hv => by rw [hsame v hv]
  exact
    { readable := h'.readable
      failing := h'.failing.trans h.failing
      calls := by
        rw [h'.calls, h.calls, List.append_assoc, List.filterMap_append,
          List.filterMap_congr hsame]
      recorded := by
        intro u hu
        rcases List.mem_append.mp hu with hu | hu
        · rw [h'.recorded_other hd' fun v hv e => hne u hu v hv e.symm]
          exact h.recorded u hu
        · rw [h'.recorded u hu, h.failing, h.recorded_other hd fun v hv => hne v hv u hu]
      value := by
        intro text htext
        have hfirst := h.value text fun u hu => htext u (List.mem_append_left _ hu)
        rw [← hfirst]
        refine h'.value text fun v hv heq => ?_
        rw [hsame v hv, h.failing]
        exact htext v (List.mem_append_right _ hv) heq
      has := by
        intro u hu
        rcases List.mem_append.mp hu with hu | hu
        · rw [h'.has_other, h.has u hu]
          rw [List.mem_map]
          rintro ⟨v, hv, e⟩
          exact hne u hu v hv e.symm
        · rw [h'.has u hu, hsame u hu, h.failing, h.has_other]
          rw [List.mem_map]
          rintro ⟨v, hv, e⟩
          exact hne v hv u hu e
      has_other := by
        intro k hk
        rw [List.map_append, List.mem_append, not_or] at hk
        rw [h'.has_other k hk.2, h.has_other k hk.1]
      sequence := ⟨h'.sequence.1.trans h.sequence.1, h'.sequence.2.trans h.sequence.2⟩
      created := by
        rw [h'.created, h.created, List.countP_append, h.failing, Nat.add_assoc]
        exact congrArg _ (congrArg _ (hcount fun v statement =>
          v.wanted && statement.isSome && !p.catalog.failing.contains v.key))
      dropped := by
        rw [h'.dropped, h.dropped, List.countP_append, h.failing, Nat.add_assoc]
        exact congrArg _ (congrArg _ (hcount fun v statement =>
          !v.wanted && statement.isSome && !p.catalog.failing.contains v.key))
      failed := by
        rw [h'.failed, h.failed, List.countP_append, h.failing, Nat.add_assoc]
        exact congrArg _ (congrArg _ (hcount fun v statement =>
          statement.isSome && p.catalog.failing.contains v.key))
      unchanged := by
        rw [h'.unchanged, h.unchanged, List.countP_append, Nat.add_assoc]
        exact congrArg _ (congrArg _ (hcount fun _ statement => statement.isNone)) }

end Swept

/-- Bringing indexes in line one after the other, each once. -/
theorem swept_foldl {units : List SweepUnit} {p : Progress} (h : p.settings.Readable)
    (hn : (units.map SweepUnit.key).Nodup) (hd : ∀ u ∈ units, u.key.Dotless) :
    Swept units p (units.foldl Progress.converge p) := by
  induction units generalizing p with
  | nil => exact Swept.nil h
  | cons u rest ih =>
      obtain ⟨hu, hrest⟩ := List.nodup_cons.mp hn
      have hfirst := swept_converge h (hd u List.mem_cons_self)
      have hlast := ih hfirst.readable hrest fun v hv => hd v (List.mem_cons_of_mem u hv)
      refine hfirst.append hlast ?_ (fun v hv => hd v (List.mem_cons_of_mem u hv)) ?_
      · exact fun v hv => List.mem_singleton.mp hv ▸ hd u List.mem_cons_self
      · intro v hv w hw e
        obtain rfl := List.mem_singleton.mp hv
        exact hu (List.mem_map.mpr ⟨w, hw, e.symm⟩)

end LiveSchema
