import LiveSchema.Proofs.Engine.Reachable
import LiveSchema.Proofs.Index.Upkeep
import Mathlib.Logic.Relation

/-!
# LiveSchema.Proofs.Engine.Indexes

The indexes of an engine are right whenever it is quiet. An engine starts over a database without
indexes and without a record of any, in which nothing is refused. Then its definitions are edited,
reloads are asked for and take their steps, and the worker takes its turns, in any order
(`Engine.Goes`). Some generations are never swept for, because a newer one became current before the
worker came to them; still, when nothing is under way, the record and the catalog are exactly what
the current generation wants (`Engine.indexes_right_when_quiet`).

`Engine.Upkept` is the invariant: the current generation is what the synchronizer serves
(`Synchronizer.Serves`).
-/

namespace LiveSchema

namespace Engine

/-! ### What can happen -/

/-- An event by which other hands do no more to the database than to open and close the gate of its
catalog, and by which the engine is not shut down. -/
def Event.Undisturbed (e : Engine) : Event → Prop
  | .changeDatabase db => ∃ gate, db = { e.db with gate := gate }
  | .shutDown => False
  | _ => True

/-- One such event. -/
def Goes (e e' : Engine) : Prop := ∃ event : Event, event.Undisturbed e ∧ e.after event = e'

/-- No reload is running, and no worker is scheduled or active. -/
def Quiet (e : Engine) : Prop :=
  e.coordinator.isReloading = false ∧ e.coordinator.synchronizer.isRunning = false

/-- Where the database is left alone the engine goes from one event to the next. -/
theorem goes_foldl {events : List Event} (h : ∀ event ∈ events, ∀ e, event.Undisturbed e)
    (e : Engine) : Relation.ReflTransGen Goes e (events.foldl after e) := by
  induction events generalizing e with
  | nil => exact .refl
  | cons event rest ih =>
      have hfirst : Goes e (e.after event) := ⟨event, h event List.mem_cons_self e, rfl⟩
      exact .head hfirst (ih (fun event' hmem => h event' (List.mem_cons_of_mem _ hmem)) _)

/-! ### The invariant -/

/-- An engine that is not in testing mode, and whose synchronizer serves its current generation. -/
structure Upkept (e : Engine) : Prop where
  sound : e.Sound
  watched : e.coordinator.config.testingMode = false
  serves : ∃ target, e.coordinator.synchronizer.Serves e.db e.coordinator.current target

/-- An engine that starts over a fresh database. -/
theorem upkept_start {config : EngineConfig} (htesting : config.testingMode = false)
    {source : DefinitionSource} (hk : source.store.Keyed) {db : Database} (hdb : db.Fresh) :
    Upkept { source := source, db := db, coordinator := Coordinator.ofConfig config } where
  sound := (Reachable.start config hk db).sound
  watched := htesting
  serves := ⟨_, .start Generation.named_empty rfl hdb.isIndexed⟩

/-- A run that takes a step keeps what is served, also when it makes a newer generation current. -/
theorem Upkept.stepRun {e : Engine} (h : e.Upkept) {place : Nat} {c : Coordinator}
    {s : DefinitionSource} (hstep : e.coordinator.stepRun place e.source = some (c, s)) :
    c.config.testingMode = false ∧
      e.coordinator.synchronizer.completed = c.synchronizer.completed ∧
      ∃ target, c.synchronizer.Serves e.db c.current target := by
  obtain ⟨target, hserves⟩ := h.serves
  obtain ⟨run, -, ⟨-, -, rfl⟩ | ⟨error, compiles, -, -, rfl⟩ | ⟨g, -, hg, -, rfl⟩⟩ :=
    Coordinator.stepRun_cases h.sound.flight h.sound.remembers hstep
  · exact ⟨h.watched, rfl, target, hserves⟩
  · exact ⟨h.watched, rfl, target, hserves⟩
  · have hsequence : g.sequence = e.coordinator.current.sequence + 1 := by
      obtain ⟨units, types, -, -, rfl⟩ := Generation.ofDefinitions_eq_ok_iff.mp hg
      rfl
    rw [Coordinator.followUp_eq (c := e.coordinator.committed g) h.watched]
    refine ⟨h.watched, (Synchronizer.completed_synchronize _ _).symm, target, ?_⟩
    exact hserves.synchronize (Generation.named_of_ofDefinitions hg) (by omega) _

/-- Whatever happens, the current generation is served, and what was completed stays so. -/
theorem Upkept.after {e : Engine} (h : e.Upkept) {event : Event} (hevent : event.Undisturbed e) :
    (e.after event).Upkept ∧
      e.coordinator.synchronizer.completed ≤
        (e.after event).coordinator.synchronizer.completed := by
  have hsound := h.sound.after event
  cases event with
  | edit edit => exact ⟨⟨hsound, h.watched, h.serves⟩, le_refl _⟩
  | changeDatabase db =>
      obtain ⟨gate, rfl⟩ := hevent
      obtain ⟨target, hserves⟩ := h.serves
      exact ⟨⟨hsound, h.watched, target, hserves.gate gate⟩, le_refl _⟩
  | registerOverride typeName base => exact ⟨⟨hsound, h.watched, h.serves⟩, le_refl _⟩
  | addBase base kind => exact ⟨⟨hsound, h.watched, h.serves⟩, le_refl _⟩
  | reload caller wait =>
      obtain ⟨retired, flight, callers, hframe, -⟩ := e.reload_frame caller wait
      rw [Engine.after, hframe] at hsound ⊢
      exact ⟨⟨hsound, h.watched, h.serves⟩, le_refl _⟩
  | dismiss caller =>
      obtain ⟨retired, flight, callers, hframe, -⟩ := e.dismiss_frame caller
      rw [Engine.after, hframe] at hsound ⊢
      exact ⟨⟨hsound, h.watched, h.serves⟩, le_refl _⟩
  | wake call => exact ⟨⟨hsound, h.watched, h.serves⟩, le_refl _⟩
  | stepRun place =>
      cases hstep : e.coordinator.stepRun place e.source with
      | none =>
          have hstay : e.after (.stepRun place) = e := by
            unfold Engine.after
            simp only [hstep]
          rw [hstay]
          exact ⟨h, le_refl _⟩
      | some next =>
          obtain ⟨hwatched, hcompleted, hserves⟩ := h.stepRun hstep
          have hmove : e.after (.stepRun place) =
              { e with coordinator := next.1, source := next.2 } := by
            unfold Engine.after
            simp only [hstep]
          rw [hmove] at hsound ⊢
          exact ⟨⟨hsound, hwatched, hserves⟩, hcompleted.le⟩
  | stepSweep =>
      cases hstep : e.coordinator.synchronizer.step e.db with
      | none =>
          have hstay : e.after .stepSweep = e := by
            unfold Engine.after
            simp only [hstep]
          rw [hstay]
          exact ⟨h, le_refl _⟩
      | some next =>
          obtain ⟨target, hserves⟩ := h.serves
          have hmove : e.after .stepSweep =
              { e.withCoordinator { e.coordinator with synchronizer := next.1 } with
                db := next.2 } := by
            unfold Engine.after
            simp only [hstep]
          rw [hmove] at hsound ⊢
          exact ⟨⟨hsound, h.watched, hserves.step hstep⟩, Synchronizer.completed_le_step hstep⟩
  | isSubtype child ancestor => exact ⟨⟨hsound, h.watched, h.serves⟩, le_refl _⟩
  | relationshipsBetween source target => exact ⟨⟨hsound, h.watched, h.serves⟩, le_refl _⟩
  | shutDown => exact absurd hevent id

/-- However the engine goes on. -/
theorem Upkept.goes {e later : Engine} (h : e.Upkept) (hgoes : Relation.ReflTransGen Goes e later) :
    later.Upkept ∧
      e.coordinator.synchronizer.completed ≤ later.coordinator.synchronizer.completed := by
  induction hgoes with
  | refl => exact ⟨h, le_refl _⟩
  | tail _ hstep ih =>
      obtain ⟨event, hevent, rfl⟩ := hstep
      obtain ⟨hnext, hle⟩ := ih.1.after hevent
      exact ⟨hnext, ih.2.trans hle⟩

/-- **The indexes are right whenever the engine is quiet.** However many requests were folded into
one another, the record and the catalog then name exactly the indexes that the current generation
wants, and a sweep has been completed for it. And at any time, what has been completed stays so. -/
theorem indexes_right_when_quiet {config : EngineConfig} (htesting : config.testingMode = false)
    {source : DefinitionSource} (hk : source.store.Keyed) {db : Database} (hdb : db.Fresh)
    {e : Engine} (h : Relation.ReflTransGen Goes
      { source := source, db := db, coordinator := Coordinator.ofConfig config } e) :
    (e.Quiet →
      e.coordinator.synchronizer.completed = e.coordinator.current.sequence ∧
      (∃ entries, Ledger.entries e.db.settings = .ok entries ∧ entries.Nodup ∧
        ∀ k, k ∈ entries ↔ k ∈ e.coordinator.current.wantedIndexes) ∧
      ∀ k, e.db.catalog.has k = true ↔ k ∈ e.coordinator.current.wantedIndexes) ∧
    ∀ later, Relation.ReflTransGen Goes e later →
      e.coordinator.synchronizer.completed ≤ later.coordinator.synchronizer.completed := by
  obtain ⟨hupkept, -⟩ := (upkept_start htesting hk hdb).goes h
  refine ⟨?_, fun later hlater => (hupkept.goes hlater).2⟩
  intro hquiet
  obtain ⟨target, hserves⟩ := hupkept.serves
  have hidle : e.coordinator.synchronizer.activity = none :=
    Option.isNone_iff_eq_none.mp (Option.isSome_eq_false_iff.mp hquiet.2)
  obtain ⟨hcompleted, hindexed⟩ := hserves.idle hidle
  obtain ⟨entries, hentries, hnodup, hmem⟩ := Ledger.exists_entries hindexed.readable
  exact ⟨hcompleted, ⟨entries, hentries, hnodup, fun k => (hmem k).trans (hindexed.recorded k)⟩,
    hindexed.has⟩

/-- While the worker sweeps for the first generation, a second and a third one become current. The
second is never swept for. -/
theorem indexes_right_after_reloads_during_sweep :
    let named := (Definition.node "Person").withProperty
      { name := "name", declaredType := "String", indexed := true }
    let aged := (Definition.node "Person").withProperty
      { name := "age", declaredType := "Integer", indexed := true }
    let reload : List Event := [.reload "owner" true, .stepRun, .stepRun]
    let events : List Event := List.flatten [[.edit (.define named)], reload,
      List.replicate 3 .stepSweep, reload, [.edit (.define aged)], reload,
      List.replicate 12 .stepSweep]
    let e := events.foldl after { coordinator := Coordinator.ofConfig .inMemory }
    e.Quiet ∧ e.coordinator.synchronizer.sweeps = 2 ∧ e.coordinator.synchronizer.completed = 3 ∧
      e.coordinator.current.wantedIndexes = {⟨"Person", "age"⟩} ∧
      ∀ k, e.db.catalog.has k = true ↔ k = ⟨"Person", "age"⟩ := by
  intro named aged reload events e
  have hundisturbed : ∀ event ∈ events, ∀ e, event.Undisturbed e := by
    simp [events, reload, Event.Undisturbed]
  have hfresh : ({} : Database).Fresh := ⟨⟨fun _ _ => List.not_mem_nil, trivial⟩, rfl, rfl, rfl⟩
  have hquiet : e.Quiet := by
    unfold Quiet
    decide +kernel
  have hstate : e.coordinator.synchronizer.sweeps = 2 ∧ e.coordinator.current.sequence = 3 ∧
      e.coordinator.current.wantedIndexes = {⟨"Person", "age"⟩} := by
    decide +kernel
  obtain ⟨hright, -⟩ := @indexes_right_when_quiet .inMemory rfl {} Store.keyed_empty {} hfresh e
    (goes_foldl hundisturbed _)
  obtain ⟨hcompleted, -, hhas⟩ := hright hquiet
  refine ⟨hquiet, hstate.1, hcompleted.trans hstate.2.1, hstate.2.2, fun k => ?_⟩
  rw [hhas, hstate.2.2, Finset.mem_singleton]

end Engine

end LiveSchema
