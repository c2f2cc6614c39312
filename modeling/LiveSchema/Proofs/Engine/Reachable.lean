import LiveSchema.Engine
import LiveSchema.Proofs.Reload.Run

/-!
# LiveSchema.Proofs.Engine.Reachable

The states of an engine that is handled through its coordinator alone. Meanwhile the owner of the
definitions may edit them, and the database may change by other hands; what nobody does is make a
generation current behind the coordinator's back.

* `Engine.Event`, `Engine.after` — what can happen, and what comes of it.
* `Engine.Reachable` — the states that an engine can come to, from a start over any definitions and
  any database. Events come in any order, so callers, runs and sweeps are interleaved freely.
* `Engine.Sound` — the invariant: definitions stand under their kinds and names, the flight of the
  runs is sound, and the run under way remembers the generation that is current. The last is why no
  commit is ever refused as stale.
-/

namespace LiveSchema

/-- What the owner of a source of definitions does to it. -/
inductive SourceEdit where
  | define (d : Definition)
  | remove (kind : Kind) (name : String)
  | setAvailable (available : Bool)
  /-- Have loading wait, or no longer. -/
  | hold (held : Bool)
  | refuseReports (refuses : Bool)
  /-- Hand out these definitions after the stored ones. -/
  | handOut (extra : List Definition)

/-- The source after an edit. -/
def DefinitionSource.edit (s : DefinitionSource) : SourceEdit → DefinitionSource
  | .define d => s.withStore (s.store.define d)
  | .remove kind name => s.withStore (s.store.remove kind name)
  | .setAvailable available => s.withStore { s.store with available := available }
  | .hold held => { s with held := held }
  | .refuseReports refuses => { s with refusesReports := refuses }
  | .handOut extra => { s with extra := extra }

theorem DefinitionSource.keyed_edit {s : DefinitionSource} (hk : s.store.Keyed)
    (edit : SourceEdit) : (s.edit edit).store.Keyed := by
  cases edit with
  | define d => exact hk.define d
  | remove kind name => exact hk.remove kind name
  | setAvailable available => exact hk
  | hold held => exact hk
  | refuseReports refuses => exact hk
  | handOut extra => exact hk

namespace Engine

/-- What can happen to an engine that is handled through its coordinator alone. -/
inductive Event where
  | edit (edit : SourceEdit)
  /-- The database changes by other hands. -/
  | changeDatabase (db : Database)
  | registerOverride (typeName base : String)
  /-- A base becomes known to the compiler. -/
  | addBase (base : String) (kind : Kind)
  /-- Somebody asks for a reload under a name, and joins one that is under way or not. -/
  | reload (caller : String) (wait : Bool)
  /-- Who waits under a name leaves. -/
  | dismiss (caller : String)
  /-- Somebody who has asked for a reload wakes; callers are counted in the order they came. -/
  | wake (call : Nat)
  /-- A run under way goes on by one part. -/
  | stepRun (place : Nat := 0)
  /-- Who holds the guard of the sweeps takes a step. -/
  | stepSweep
  | isSubtype (child ancestor : String)
  | relationshipsBetween (source target : String)
  | shutDown

/-- The engine with another coordinator. -/
def withCoordinator (e : Engine) (c : Coordinator) : Engine := { e with coordinator := c }

/-- The engine after an event. -/
def after (e : Engine) : Event → Engine
  | .edit edit => { e with source := e.source.edit edit }
  | .changeDatabase db => { e with db := db }
  | .registerOverride typeName base =>
    e.withCoordinator (e.coordinator.registerOverride typeName base)
  | .addBase base kind =>
    e.withCoordinator { e.coordinator with compiler := e.coordinator.compiler.addBase base kind }
  | .reload caller wait => e.reload caller wait
  | .dismiss caller => e.dismiss caller
  | .wake call => e.withCoordinator (e.coordinator.wake call)
  | .stepRun place =>
    match e.coordinator.stepRun place e.source with
    | some (c, source) => { e with coordinator := c, source := source }
    | none => e
  | .stepSweep =>
    match e.coordinator.synchronizer.step e.db with
    | some (synchronizer, db) =>
      { e.withCoordinator { e.coordinator with synchronizer := synchronizer } with db := db }
    | none => e
  | .isSubtype child ancestor =>
    e.withCoordinator
      { e.coordinator with registry := (e.coordinator.registry.isSubtype child ancestor).2 }
  | .relationshipsBetween source target =>
    e.withCoordinator
      { e.coordinator with
        registry := (e.coordinator.registry.relationshipsBetween source target).2 }
  | .shutDown => e.withCoordinator e.coordinator.shutDown

/-- The states that an engine can come to. It starts over a store with any content and history, and
over any database. -/
inductive Reachable : Engine → Prop where
  | start (config : EngineConfig) {source : DefinitionSource} (h : source.store.Keyed)
      (db : Database) :
      Reachable { source := source, db := db, coordinator := Coordinator.ofConfig config }
  | next {e : Engine} (h : Reachable e) (event : Event) : Reachable (e.after event)

/-- What holds of an engine in every state that it comes to. -/
structure Sound (e : Engine) : Prop where
  keyed : e.source.store.Keyed
  flight : e.coordinator.flight.Sound
  remembers : e.coordinator.RemembersCurrent

end Engine

/-! ### What a step of a run preserves -/

theorem DefinitionSource.keyed_ensureBuiltins {s s' : DefinitionSource} (hk : s.store.Keyed)
    {overrides : SortedMap String String} (h : s.ensureBuiltins overrides.entries = .ok s') :
    s'.store.Keyed := by
  cases ha : s.store.available with
  | true =>
      rw [ensureBuiltins_eq ha] at h
      obtain rfl := Except.ok.inj h
      exact (Store.ensured_withBuiltins s.store overrides).keyed hk
  | false =>
      rcases ensureBuiltins_of_unavailable ha overrides.entries with ⟨-, hok⟩ | ⟨cause, herror⟩
      · rw [hok] at h
        exact Except.ok.inj h ▸ hk
      · rw [herror] at h
        cases h

namespace Coordinator

/-- While there is no run nothing has to be remembered. -/
theorem remembersCurrent_of_none {c : Coordinator} (h : c.run = none) : c.RemembersCurrent := by
  intro previous hrun
  rw [h] at hrun
  cases hrun

/-- A step of a run keeps definitions under their kinds and names, has the flight stay sound, and
remembers what is current. -/
theorem sound_stepRun {c c' : Coordinator} {place : Nat} {s s' : DefinitionSource}
    (hk : s.store.Keyed) (hf : c.flight.Sound) (hr : c.RemembersCurrent)
    (h : c.stepRun place s = some (c', s')) :
    s'.store.Keyed ∧ c'.flight.Sound ∧ c'.RemembersCurrent := by
  obtain ⟨run, hrun, ⟨-, hens, rfl⟩ | ⟨error, compiles, -, hsource, rfl⟩ |
    ⟨g, -, -, rfl, rfl⟩⟩ := stepRun_cases hf hr h
  · refine ⟨DefinitionSource.keyed_ensureBuiltins hk hens, sound_begun hf hrun, ?_⟩
    intro previous hprevious
    rw [run_begun hf hrun] at hprevious
    cases hprevious
    rfl
  · refine ⟨?_, hf.finish (runs_of_run hf hrun) _, ?_⟩
    · rcases hsource with rfl | rfl <;> exact hk
    · exact remembersCurrent_of_none (ended_of_flight hf hrun rfl).1
  · obtain ⟨synchronizer, annotations, hframe, -⟩ :=
      (c.committed g).followUp_frame c.current g s.loaded
    rw [hframe]
    refine ⟨hk, hf.finish (runs_of_run hf hrun) _, ?_⟩
    exact remembersCurrent_of_none (ended_of_flight hf hrun rfl).1

/-- Where the runs are the same, the same is remembered. -/
theorem RemembersCurrent.withFlight {c : Coordinator} (h : c.RemembersCurrent) {flight : Flight}
    (hruns : flight.runs = c.flight.runs) :
    ({ c with flight := flight } : Coordinator).RemembersCurrent := by
  intro previous hrun
  refine h ?_
  rw [run, ← hruns]
  exact hrun

/-- A call starts a run that has not begun, or leaves the runs alone. -/
theorem sound_ask {c : Coordinator} (hf : c.flight.Sound) (hr : c.RemembersCurrent)
    (waits : Bool) : (c.ask waits).flight.Sound ∧ (c.ask waits).RemembersCurrent := by
  refine ⟨hf.ask waits, ?_⟩
  unfold ask
  cases hrunning : c.flight.compiling.isRunning with
  | false =>
      rw [Flight.Sound.ask_of_idle hrunning]
      intro previous hrun
      unfold run Flight.started at hrun
      rw [hf.runs_of_idle hrunning] at hrun
      cases hrun
  | true =>
      rw [hf.ask_of_running hrunning]
      exact hr.withFlight rfl

theorem sound_wake {c : Coordinator} (hf : c.flight.Sound) (hr : c.RemembersCurrent)
    (call : Nat) : (c.wake call).flight.Sound ∧ (c.wake call).RemembersCurrent := by
  refine ⟨hf.wake call, ?_⟩
  unfold wake
  rw [hf.wake_eq]
  exact hr.withFlight rfl

end Coordinator

namespace Engine

/-- Letting a caller go touches nothing but those who wait. -/
theorem dismiss_frame (e : Engine) (caller : String) :
    ∃ retired flight callers,
      e.dismiss caller =
        { e with
          retired := retired
          coordinator := { e.coordinator with flight := flight }
          callers := callers } ∧
      (flight = e.coordinator.flight ∨ ∃ call, flight = e.coordinator.flight.leave call) := by
  unfold dismiss
  cases e.callers.get? caller with
  | none => exact ⟨_, _, _, rfl, Or.inl rfl⟩
  | some entry =>
      dsimp only
      unfold modifyCoordinator
      split
      · exact ⟨_, _, _, rfl, Or.inl rfl⟩
      · exact ⟨_, _, _, rfl, Or.inr ⟨_, rfl⟩⟩

/-- A call touches nothing but the runs and those who wait for them. -/
theorem reload_frame (e : Engine) (caller : String) (wait : Bool) :
    ∃ retired flight callers,
      e.reload caller wait =
        { e with
          retired := retired
          coordinator := { e.coordinator with flight := flight.ask wait }
          callers := callers } ∧
      (flight = e.coordinator.flight ∨ ∃ call, flight = e.coordinator.flight.leave call) := by
  obtain ⟨retired, flight, callers, hdismiss, hflight⟩ := e.dismiss_frame caller
  unfold reload
  rw [hdismiss]
  exact ⟨_, flight, _, rfl, hflight⟩

/-- Whatever happens, the invariant is preserved. -/
theorem Sound.after {e : Engine} (h : e.Sound) (event : Event) : (e.after event).Sound := by
  have hleave {flight : Flight} (hflight : flight = e.coordinator.flight ∨
      ∃ call, flight = e.coordinator.flight.leave call) :
      flight.Sound ∧ ({ e.coordinator with flight := flight } : Coordinator).RemembersCurrent := by
    rcases hflight with rfl | ⟨call, rfl⟩
    · exact ⟨h.flight, h.remembers⟩
    · exact ⟨h.flight.leave call, h.remembers.withFlight rfl⟩
  cases event with
  | edit edit => exact ⟨DefinitionSource.keyed_edit h.keyed edit, h.flight, h.remembers⟩
  | changeDatabase db => exact ⟨h.keyed, h.flight, h.remembers⟩
  | registerOverride typeName base => exact ⟨h.keyed, h.flight, h.remembers⟩
  | addBase base kind => exact ⟨h.keyed, h.flight, h.remembers⟩
  | reload caller wait =>
      obtain ⟨retired, flight, callers, hframe, hflight⟩ := e.reload_frame caller wait
      obtain ⟨hbefore, hremembered⟩ := hleave hflight
      obtain ⟨hsound, hremembers⟩ := Coordinator.sound_ask hbefore hremembered wait
      rw [Engine.after, hframe]
      exact ⟨h.keyed, hsound, hremembers⟩
  | dismiss caller =>
      obtain ⟨retired, flight, callers, hframe, hflight⟩ := e.dismiss_frame caller
      obtain ⟨hsound, hremembers⟩ := hleave hflight
      rw [Engine.after, hframe]
      exact ⟨h.keyed, hsound, hremembers⟩
  | wake call =>
      obtain ⟨hsound, hremembers⟩ := Coordinator.sound_wake h.flight h.remembers call
      exact ⟨h.keyed, hsound, hremembers⟩
  | stepRun place =>
      unfold Engine.after
      dsimp only
      split
      next c source hstep =>
        obtain ⟨hkeyed, hsound, hremembers⟩ :=
          Coordinator.sound_stepRun h.keyed h.flight h.remembers hstep
        exact ⟨hkeyed, hsound, hremembers⟩
      next => exact h
  | stepSweep =>
      unfold Engine.after
      dsimp only
      split
      next => exact ⟨h.keyed, h.flight, h.remembers⟩
      next => exact h
  | isSubtype child ancestor => exact ⟨h.keyed, h.flight, h.remembers⟩
  | relationshipsBetween source target => exact ⟨h.keyed, h.flight, h.remembers⟩
  | shutDown => exact ⟨h.keyed, h.flight, h.remembers⟩

/-- The invariant holds in every state that an engine comes to. -/
theorem Reachable.sound {e : Engine} (h : e.Reachable) : e.Sound := by
  induction h with
  | start config hk db => exact ⟨hk, Flight.sound_empty, nofun⟩
  | next _ event ih => exact ih.after event

end Engine

end LiveSchema
