import LiveSchema.Proofs.Index.Convergence
import LiveSchema.Proofs.Index.Queue

/-!
# LiveSchema.Proofs.Index.Upkeep

How far the worker is with the generation that is current. Where nothing is refused, a sweep takes
indexes that are as one generation wants them to indexes that are as its own wants them
(`Generation.isIndexed_outcome`), so between two sweeps the indexes are always in line with some
generation. Which one that is, and how the queue stands to the current one, is
`Synchronizer.Serves`: it holds of a new synchronizer, and is kept by

* `Serves.synchronize` — a newer generation becomes current and is asked for, whatever waits;
* `Serves.step` — the holder of the guard takes a step.

Its heart is that the request that waits is for the current generation, however many were folded
into it, and that a sweep for an older one only ever runs on after a newer one is in the queue.
-/

namespace LiveSchema

/-! ### In line with a generation -/

/-- The record and the catalog name the indexes that a generation wants and no others, and nothing
that is asked of them is refused. -/
structure Generation.IsIndexed (g : Generation) (settings : Settings) (catalog : Catalog) :
    Prop where
  readable : settings.Readable
  accepts : catalog.rejected = ∅
  recorded : ∀ k, Ledger.Recorded settings k ↔ k ∈ g.wantedIndexes
  has : ∀ k, catalog.has k = true ↔ k ∈ g.wantedIndexes

/-- A sweep takes indexes that are in line with one generation to another one, which it has then
completed. -/
theorem Generation.isIndexed_outcome {g older : Generation} (hg : g.Named) {db : Database}
    (h : older.IsIndexed db.settings db.catalog) (removed : NameSet) :
    g.IsIndexed ((Sweep.start ⟨g, removed⟩).outcome db).settings
        ((Sweep.start ⟨g, removed⟩).outcome db).catalog ∧
      ((Sweep.start ⟨g, removed⟩).outcome db).stats.sequence = g.sequence ∧
      ((Sweep.start ⟨g, removed⟩).outcome db).stats.cancelled = false := by
  obtain ⟨units, hunits, hswept⟩ :=
    exists_unitsOf hg removed h.readable fun k => (h.recorded k).symm
  have hrejected : (⟨db.settings, db.catalog, { sequence := g.sequence }⟩ :
      Progress).catalog.rejected = ∅ := h.accepts
  refine ⟨?_, hswept.sequence⟩
  exact
    { readable := hswept.readable
      accepts := by
        rw [Catalog.rejected, hswept.failing]
        exact h.accepts
      recorded := by
        intro k
        rw [hunits.recorded_iff hg hswept, hrejected]
        simp
      has := by
        intro k
        rw [hunits.has_eq hg hswept, hrejected]
        by_cases hdiffer : k ∈ symmDiff g.wantedIndexes older.wantedIndexes
        · simp [hdiffer]
        · -- an index on which both agree is left as it was
          have hagree : k ∈ g.wantedIndexes ↔ k ∈ older.wantedIndexes := by
            rw [Finset.mem_symmDiff] at hdiffer
            tauto
          simp only [Finset.sdiff_empty, hdiffer, if_false]
          rw [hagree]
          exact h.has k }

/-- A database without indexes and without a record of any, in which nothing is refused. -/
structure Database.Fresh (db : Database) : Prop where
  readable : db.settings.Readable
  unrecorded : Ledger.entries db.settings = .ok []
  accepts : db.catalog.failing = .empty
  unindexed : db.catalog.indexes = .empty

/-- Such a database is in line with the generation before the first reload, which wants nothing. -/
theorem Database.Fresh.isIndexed {db : Database} (h : db.Fresh) :
    Generation.empty.IsIndexed db.settings db.catalog := by
  obtain ⟨keys, hkeys, -, hmem⟩ := Ledger.exists_entries h.readable
  obtain rfl : keys = [] := Except.ok.inj (hkeys.symm.trans h.unrecorded)
  have hwanted : Generation.empty.wantedIndexes = ∅ := rfl
  exact
    { readable := h.readable
      accepts := by
        rw [Catalog.rejected, h.accepts]
        rfl
      recorded := by
        intro k
        rw [← hmem, hwanted]
        simp
      has := by
        intro k
        rw [Catalog.has, h.unindexed, hwanted]
        simp [SortedMap.contains, SortedMap.empty, SortedMap.get?, SortedMap.lookup] }

theorem Generation.named_empty : Generation.empty.Named := ⟨nofun, nofun, nofun⟩

/-- A request for a newer generation is for that generation also after it was folded into the one
that waits. -/
theorem SyncRequest.generation_coalesce {waiting arriving : SyncRequest}
    (h : waiting.generation.sequence ≤ arriving.generation.sequence) :
    (waiting.coalesce arriving).generation = arriving.generation := by
  unfold coalesce
  rw [if_pos h]

namespace Synchronizer

/-! ### Serving the current generation -/

/-- How a synchronizer that is only used through its queue stands to the current generation.
`target` is the generation that the indexes are in line with, or will be when the sweep under way
has ended. -/
structure Serves (s : Synchronizer) (db : Database) (current target : Generation) : Prop where
  isOpen : s.isShutDown = false
  named : current.Named
  /-- What waits is for the current generation, and somebody will look at the queue. -/
  waiting : ∀ request, s.pending = some request →
    request.generation = current ∧ s.activity ≠ none
  /-- If nothing waits, nothing newer than the target is current. -/
  newest : s.pending = none → target = current
  target_le : target.sequence ≤ current.sequence
  /-- Between two sweeps the indexes are in line with the target, and that is known. -/
  settled : (∀ sweeper sweep, s.activity ≠ some (.sweeping sweeper sweep)) →
    s.completed = target.sequence ∧ target.IsIndexed db.settings db.catalog
  /-- A sweep is the worker's, and will bring them in line. -/
  sweeping : ∀ sweeper sweep, s.activity = some (.sweeping sweeper sweep) →
    sweeper = .worker ∧ s.completed ≤ target.sequence ∧
      target.IsIndexed (sweep.outcome db).settings (sweep.outcome db).catalog ∧
      (sweep.outcome db).stats.sequence = target.sequence ∧
      (sweep.outcome db).stats.cancelled = false

namespace Serves

variable {s s' : Synchronizer} {db db' : Database} {current target : Generation}

/-- A new synchronizer serves the generation that the indexes are in line with. -/
theorem start (hnamed : current.Named) (hsequence : current.sequence = 0)
    (h : current.IsIndexed db.settings db.catalog) :
    ({} : Synchronizer).Serves db current current where
  isOpen := rfl
  named := hnamed
  waiting := nofun
  newest _ := rfl
  target_le := le_refl _
  settled _ := ⟨hsequence.symm, h⟩
  sweeping := nofun

/-- While a newer generation becomes current and is asked for, the target stays. -/
theorem synchronize (h : s.Serves db current target) {g : Generation} (hg : g.Named)
    (hnewer : current.sequence < g.sequence) (removed : NameSet) :
    (s.synchronize ⟨g, removed⟩).Serves db g target := by
  rw [synchronize_of_open h.isOpen]
  -- whatever waited was for a generation that is older now
  obtain ⟨waiting, hwaiting, hgeneration⟩ : ∃ waiting,
      (s.enqueue ⟨g, removed⟩).pending = some waiting ∧ waiting.generation = g := by
    unfold enqueue
    cases hpending : s.pending with
    | none => exact ⟨_, rfl, rfl⟩
    | some earlier =>
        refine ⟨_, rfl, SyncRequest.generation_coalesce ?_⟩
        rw [(h.waiting earlier hpending).1]
        exact hnewer.le
  have hsweeping (sweeper : Sweeper) (sweep : Sweep) :
      some (s.activity.getD .scheduled) = some (.sweeping sweeper sweep) ↔
        s.activity = some (.sweeping sweeper sweep) := by
    cases s.activity <;> simp
  exact
    { isOpen := h.isOpen
      named := hg
      waiting := by
        intro request hrequest
        obtain rfl := Option.some.inj (hwaiting.symm.trans hrequest)
        exact ⟨hgeneration, by simp⟩
      newest := by
        intro hnone
        cases hwaiting.symm.trans hnone
      target_le := h.target_le.trans hnewer.le
      settled := by
        intro hidle
        exact h.settled fun sweeper sweep => mt (hsweeping sweeper sweep).mpr (hidle sweeper sweep)
      sweeping := by
        intro sweeper sweep hactivity
        exact h.sweeping sweeper sweep ((hsweeping sweeper sweep).mp hactivity) }

/-- The worker looks at the queue: it turns to the current generation, or there is nothing to do. -/
theorem turn (h : s.Serves db current target) (hactivity : s.activity = some .scheduled) :
    ∃ target', s.turn.Serves db current target' := by
  obtain ⟨hcompleted, hindexed⟩ := h.settled (by simp [hactivity])
  rw [turn_eq, take?]
  cases hpending : s.pending with
  | none =>
      refine ⟨target, ?_⟩
      exact
        { isOpen := h.isOpen
          named := h.named
          waiting := fun request hrequest => by cases hpending.symm.trans hrequest
          newest := fun _ => h.newest hpending
          target_le := h.target_le
          settled := fun _ => ⟨hcompleted, hindexed⟩
          sweeping := by
            intro sweeper sweep hsweeping
            cases hsweeping }
  | some request =>
      obtain ⟨generation, removed⟩ := request
      obtain ⟨rfl, -⟩ := h.waiting _ hpending
      obtain ⟨hindexed', hsequence, hcancelled⟩ :=
        Generation.isIndexed_outcome h.named hindexed removed
      refine ⟨generation, ?_⟩
      exact
        { isOpen := h.isOpen
          named := h.named
          waiting := by
            intro request hrequest
            cases hrequest
          newest := fun _ => rfl
          target_le := le_refl _
          settled := fun hidle => absurd rfl (hidle _ _)
          sweeping := by
            intro sweeper sweep hsweeping
            cases hsweeping
            exact ⟨rfl, hcompleted ▸ h.target_le, hindexed', hsequence, hcancelled⟩ }

/-- A sweep goes on to what it will have come to. -/
theorem more (h : s.Serves db current target) {sweeper : Sweeper} {sweep next : Sweep}
    (hactivity : s.activity = some (.sweeping sweeper sweep))
    (hstep : sweep.step false db = .more next db') :
    (s.goOn (.sweeping sweeper next)).Serves db' current target :=
  { isOpen := h.isOpen
    named := h.named
    waiting := fun request hrequest => ⟨(h.waiting request hrequest).1, by simp⟩
    newest := h.newest
    target_le := h.target_le
    settled := fun hidle => absurd rfl (hidle _ _)
    sweeping := by
      intro _ _ hnext
      cases hnext
      rw [Sweep.outcome_step hstep]
      exact h.sweeping sweeper sweep hactivity }

/-- A sweep that has ended has brought the indexes in line with the target. -/
theorem finish (h : s.Serves db current target) {sweeper : Sweeper} {sweep : Sweep}
    {stats : SweepStats} (hactivity : s.activity = some (.sweeping sweeper sweep))
    (hstep : sweep.step false db = .finished stats) :
    ((s.publish stats).afterSweep sweeper).Serves db current target := by
  obtain ⟨rfl, hle, hindexed, hsequence, hcancelled⟩ := h.sweeping sweeper sweep hactivity
  rw [Sweep.outcome_of_finished hstep] at hindexed hsequence hcancelled
  dsimp only at hindexed hsequence hcancelled
  exact
    { isOpen := h.isOpen
      named := h.named
      waiting := fun request hrequest => ⟨(h.waiting request hrequest).1, nofun⟩
      newest := h.newest
      target_le := h.target_le
      settled := by
        intro _
        refine ⟨?_, hindexed⟩
        simp [publish, hcancelled, hsequence, hle]
      sweeping := nofun }

/-- The holder of the guard takes a step. -/
theorem step (h : s.Serves db current target) (hstep : s.step db = some (s', db')) :
    ∃ target', s'.Serves db' current target' := by
  rcases step_cases hstep with ⟨hactivity, rfl, rfl⟩ |
    ⟨sweeper, sweep, next, hactivity, hsweep, rfl⟩ |
    ⟨sweeper, sweep, stats, hactivity, hsweep, rfl, rfl⟩
  · exact h.turn hactivity
  · rw [h.isOpen] at hsweep
    exact ⟨target, h.more hactivity hsweep⟩
  · rw [h.isOpen] at hsweep
    exact ⟨target, h.finish hactivity hsweep⟩

/-- The gate opens and closes without a difference. -/
theorem gate (h : s.Serves db current target) (gate : Gate) :
    s.Serves { db with gate := gate } current target where
  isOpen := h.isOpen
  named := h.named
  waiting := h.waiting
  newest := h.newest
  target_le := h.target_le
  settled := h.settled
  sweeping := h.sweeping

/-- When nobody holds the guard, the indexes are in line with the current generation. -/
theorem idle (h : s.Serves db current target) (hactivity : s.activity = none) :
    s.completed = current.sequence ∧ current.IsIndexed db.settings db.catalog := by
  have hpending : s.pending = none := by
    cases hpending : s.pending with
    | none => rfl
    | some request => exact absurd hactivity (h.waiting request hpending).2
  obtain rfl := h.newest hpending
  exact h.settled (by simp [hactivity])

end Serves

/-! ### What has been completed -/

theorem completed_synchronize (s : Synchronizer) (request : SyncRequest) :
    (s.synchronize request).completed = s.completed := by
  unfold synchronize
  split
  · rfl
  · rw [wake_eq]
    rfl

/-- What has been completed stays so. -/
theorem completed_le_step {s s' : Synchronizer} {db db' : Database}
    (hstep : s.step db = some (s', db')) : s.completed ≤ s'.completed := by
  rcases step_cases hstep with ⟨-, rfl, -⟩ | ⟨sweeper, sweep, next, -, -, rfl⟩ |
    ⟨sweeper, sweep, stats, -, -, -, rfl⟩
  · rw [turn_eq, take?]
    cases s.pending <;> exact le_refl _
  · exact le_refl _
  · rw [completed_afterSweep]
    show s.completed ≤ if stats.cancelled then s.completed else max s.completed stats.sequence
    split
    · exact le_refl _
    · exact le_max_left _ _

end Synchronizer

end LiveSchema
