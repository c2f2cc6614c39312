import LiveSchema.Reload.Coordinator
import LiveSchema.Proofs.Definition.Store
import LiveSchema.Proofs.Generation
import LiveSchema.Proofs.Hierarchy
import LiveSchema.Proofs.Registry
import LiveSchema.Proofs.Reload.Flight

/-!
# LiveSchema.Proofs.Reload.Run

What one run of a reload comes to, as equations: which coordinator and which source it leaves, for
each of its ways to end. A run has two parts. The first makes sure of the built-in types
(`Coordinator.begun`, `Coordinator.prepared`); the second loads, compiles, commits and follows up
(`Coordinator.completeRun_cases`). Work on a run goes through what is left of both
(`Coordinator.workOnRun_of_available`, `Coordinator.workOnRun_of_unavailable`).

The second part compiles for the number after that of the generation which was current when the run
began. It is only refused by the registry if another generation has become current since; that this
generation still is the current one is a hypothesis here, and an invariant of the engine. So is that
the flight is sound, by which there is no more than one run to work on.
-/

namespace LiveSchema

namespace Coordinator

variable {c : Coordinator} {s : DefinitionSource}

/-! ### The commit -/

/-- The coordinator after a batch was compiled and its generation became current. -/
def committed (c : Coordinator) (g : Generation) : Coordinator :=
  { c with compiles := c.compiles + 1, registry := c.registry.publish g }

theorem commit_of_ok {sequence : Nat} {ds : List Definition} {g : Generation}
    (hnewer : c.current.sequence < sequence)
    (h : Generation.ofDefinitions c.compiler sequence ds = .ok g) :
    c.commit sequence ds = (.ok g, c.committed g) := by
  obtain ⟨units, types, hunits, htypes, rfl⟩ := Generation.ofDefinitions_eq_ok_iff.mp h
  unfold commit
  rw [hunits]
  dsimp only
  rw [htypes]
  dsimp only
  rw [Registry.commit_eq hnewer]
  rfl

/-- Definitions that are refused leave no trace but the count of compilations. -/
theorem commit_of_refused {sequence : Nat} {ds : List Definition}
    (h : ∀ g, Generation.ofDefinitions c.compiler sequence ds ≠ .ok g) :
    ∃ error compiles, c.commit sequence ds = (.error error, { c with compiles := compiles }) := by
  unfold commit
  cases hunits : emitAll ds with
  | error errors => exact ⟨_, c.compiles, rfl⟩
  | ok units =>
      dsimp only
      cases htypes : c.compiler.compile units with
      | error errors => exact ⟨_, c.compiles + 1, rfl⟩
      | ok types =>
          refine absurd ?_ (h ⟨sequence, types, Generation.viewNames ds, ds⟩)
          exact Generation.ofDefinitions_eq_ok_iff.mpr ⟨units, types, hunits, htypes, rfl⟩

/-! ### What follows it -/

theorem followUp_of_testing (h : c.config.testingMode = true) (previous g : Generation)
    (s : DefinitionSource) : c.followUp previous g s = (c, s) := by
  rw [followUp, if_pos h]

theorem followUp_eq (h : c.config.testingMode = false) (previous g : Generation)
    (s : DefinitionSource) :
    c.followUp previous g s =
      ({ c with synchronizer := c.synchronizer.synchronize ⟨g, previous.removedIn g⟩ },
        s.keepReports (Hierarchy.report c.config.depthLimit g.definitions).annotations) := by
  rw [followUp, if_neg (Bool.not_eq_true _ ▸ h)]

/-- What follows a commit touches the requests for sweeps and the reports, nothing else, and in
testing mode not even these. -/
theorem followUp_frame (c : Coordinator) (previous g : Generation) (s : DefinitionSource) :
    ∃ synchronizer annotations, c.followUp previous g s =
        ({ c with synchronizer := synchronizer },
          s.withStore { s.store with annotations := annotations }) ∧
      (c.config.testingMode = true →
        synchronizer = c.synchronizer ∧ annotations = s.store.annotations) ∧
      (c.config.testingMode = false →
        synchronizer = c.synchronizer.synchronize ⟨g, previous.removedIn g⟩) := by
  cases h : c.config.testingMode with
  | true =>
      rw [followUp_of_testing h]
      exact ⟨c.synchronizer, s.store.annotations, rfl, fun _ => ⟨rfl, rfl⟩, nofun⟩
  | false =>
      rw [followUp_eq h, DefinitionSource.keepReports_frame]
      exact ⟨_, _, rfl, nofun, fun _ => rfl⟩

/-- A store that keeps reports, and is all that definitions come from, has the report about every
node type of the generation afterwards. -/
theorem hierarchyEntry?_followUp {compiler : Compiler} {sequence : Nat} {g : Generation}
    (hg : Generation.ofDefinitions compiler sequence s.handedOut = .ok g) (hk : s.store.Keyed)
    (ha : s.store.available = true) (previous : Generation)
    (htesting : c.config.testingMode = false) (hr : s.refusesReports = false)
    (hextra : s.extra = []) {name : String} {t : CompiledType}
    (ht : g.types.get? name = some t) (hnode : t.kind = .node) :
    ∃ entry, (c.followUp previous g s).2.store.hierarchyEntry? name = some entry ∧
      (Hierarchy.report c.config.depthLimit g.definitions).annotations.get? name = some entry := by
  obtain ⟨d, hd, rfl, hkind⟩ := Generation.exists_definition_of_ofDefinitions hg ht
  rw [hnode] at hkind
  obtain ⟨entry, hentry⟩ : ∃ entry,
      (Hierarchy.report c.config.depthLimit g.definitions).annotations.get? d.name =
        some entry := by
    rw [← SortedMap.contains_iff, Hierarchy.contains_annotations_iff,
      Generation.definitions_of_ofDefinitions hg]
    exact ⟨d, hd, hkind, rfl⟩
  -- the type is that of a stored definition, so the store keeps the report about it
  have hstored : s.store.nodes.contains d.name = true := by
    rw [DefinitionSource.handedOut, hextra, List.append_nil, Store.mem_definitions_iff hk,
      hkind] at hd
    exact SortedMap.contains_iff.mpr ⟨d, hd⟩
  refine ⟨entry, ?_, hentry⟩
  rw [followUp_eq htesting]
  exact DefinitionSource.hierarchyEntry?_keepReports ha hr hentry hstored

/-! ### The second part -/

/-- What the second part of a run comes to, in each of its three ways to end. -/
theorem completeRun_cases (c : Coordinator) (s : DefinitionSource) :
    (s.store.available = false ∧
      ∃ error, c.completeRun c.current s = (.error error, c, s)) ∨
    (s.store.available = true ∧
      (∀ g, Generation.ofDefinitions c.compiler (c.current.sequence + 1) s.handedOut ≠ .ok g) ∧
      ∃ error compiles, c.completeRun c.current s =
        (.error error, { c with compiles := compiles }, s.loaded)) ∨
    (s.store.available = true ∧
      ∃ g, Generation.ofDefinitions c.compiler (c.current.sequence + 1) s.handedOut = .ok g ∧
        c.completeRun c.current s = (.ok g, (c.committed g).followUp c.current g s.loaded)) := by
  unfold completeRun
  cases ha : s.store.available with
  | false =>
      obtain ⟨cause, hload⟩ := DefinitionSource.load_of_unavailable ha
      rw [hload]
      exact Or.inl ⟨rfl, _, rfl⟩
  | true =>
      rw [DefinitionSource.load_eq ha]
      dsimp only
      by_cases hok : ∃ g,
          Generation.ofDefinitions c.compiler (c.current.sequence + 1) s.handedOut = .ok g
      · obtain ⟨g, hg⟩ := hok
        rw [commit_of_ok (Nat.lt_succ_self _) hg]
        exact Or.inr (Or.inr ⟨rfl, g, hg, rfl⟩)
      · have hnone := not_exists.mp hok
        obtain ⟨error, compiles, hcommit⟩ := commit_of_refused hnone
        rw [hcommit]
        exact Or.inr (Or.inl ⟨rfl, hnone, error, compiles, rfl⟩)

/-! ### What every part of a run keeps to -/

/-- A commit leaves the runs and their callers alone, hands at most one batch to the compiler, and
does not fail as if its run had vanished. -/
theorem commit_frame (c : Coordinator) (sequence : Nat) (ds : List Definition) :
    (c.commit sequence ds).2.flight = c.flight ∧
      (c.commit sequence ds).2.compiles ≤ c.compiles + 1 ∧
      (c.commit sequence ds).1 ≠ .error .aborted := by
  unfold commit
  split
  next => exact ⟨rfl, Nat.le_succ _, nofun⟩
  next =>
    dsimp only
    split
    next => exact ⟨rfl, le_refl _, nofun⟩
    next => split <;> exact ⟨rfl, le_refl _, nofun⟩

theorem completeRun_frame (c : Coordinator) (previous : Generation) (s : DefinitionSource) :
    (c.completeRun previous s).2.1.flight = c.flight ∧
      (c.completeRun previous s).2.1.compiles ≤ c.compiles + 1 ∧
      (c.completeRun previous s).1 ≠ .error .aborted := by
  unfold completeRun
  cases s.load with
  | error cause => exact ⟨rfl, Nat.le_succ _, nofun⟩
  | ok loaded =>
      obtain ⟨hflight, hcompiles, hwhole⟩ := c.commit_frame (previous.sequence + 1) loaded.1
      dsimp only
      cases hresult : (c.commit (previous.sequence + 1) loaded.1).1 with
      | error error =>
          rw [hresult] at hwhole
          exact ⟨hflight, hcompiles, hwhole⟩
      | ok g =>
          obtain ⟨synchronizer, annotations, hfollow, -⟩ :=
            followUp_frame (c.commit (previous.sequence + 1) loaded.1).2 previous g loaded.2
          dsimp only
          rw [hfollow]
          exact ⟨hflight, hcompiles, nofun⟩

/-- A part of a run leaves the runs and their callers alone. The run goes on, or it ends with a
result of its own. Only a part that ends it hands a batch to the compiler, and one at most. -/
theorem workOn?_cases {run : ReloadRun} {step : RunStep} {c' : Coordinator}
    {s' : DefinitionSource} (h : c.workOn? s run = some (step, c', s')) :
    c'.flight = c.flight ∧
      ((∃ next, step = .continues next ∧ c'.compiles = c.compiles) ∨
        ∃ result, step = .ends result ∧ c'.compiles ≤ c.compiles + 1 ∧
          result ≠ .error .aborted) := by
  cases run with
  | scheduled =>
      unfold workOn? beginRun at h
      cases hens : s.ensureBuiltins c.overrides.entries with
      | ok source =>
          rw [hens] at h
          cases h
          exact ⟨rfl, Or.inl ⟨_, rfl, rfl⟩⟩
      | error cause =>
          rw [hens] at h
          cases h
          exact ⟨rfl, Or.inr ⟨_, rfl, Nat.le_succ _, nofun⟩⟩
  | loading previous =>
      unfold workOn? at h
      dsimp only at h
      split at h
      next => cases h
      next =>
        cases h
        obtain ⟨hflight, hends⟩ := c.completeRun_frame previous s
        exact ⟨hflight, Or.inr ⟨_, rfl, hends⟩⟩

/-! ### The first part -/

/-- The overrides that the run under way has yet to make sure of. -/
def pendingOverrides (c : Coordinator) : SortedMap String String :=
  match c.run with
  | some .scheduled => c.overrides
  | _ => .empty

/-- The coordinator, with the first part of its run behind it. -/
def begun (c : Coordinator) : Coordinator :=
  { c with flight := c.flight.advance c.results.length (.loading c.current) }

/-- The coordinator, once its run has ended. -/
def finish (c : Coordinator) (result : RunResult) : Coordinator :=
  { c with flight := c.flight.finish c.results.length result }

/-- The source, with the first part of the run behind it. -/
def prepared (c : Coordinator) (s : DefinitionSource) : DefinitionSource :=
  s.withStore (s.store.withBuiltins c.pendingOverrides.entries)

/-- A run under way remembers the generation that is current. -/
def RemembersCurrent (c : Coordinator) : Prop :=
  ∀ ⦃previous⦄, c.run = some (.loading previous) → previous = c.current

theorem ensured_prepared (c : Coordinator) (s : DefinitionSource) :
    Store.Ensured c.pendingOverrides s.store (c.prepared s).store :=
  Store.ensured_withBuiltins s.store c.pendingOverrides

/-- The first part touches node definitions only. -/
theorem prepared_frame (c : Coordinator) (s : DefinitionSource) :
    ∃ nodes, c.prepared s = s.withStore { s.store with nodes := nodes } := by
  unfold prepared
  rw [Store.withBuiltins_eq]
  exact ⟨_, rfl⟩

theorem pendingOverrides_eq_empty {previous : Generation} (h : c.run = some (.loading previous)) :
    c.pendingOverrides = .empty := by
  rw [pendingOverrides, h]

/-! ### The run under way -/

/-- How far the run under way is says what there is in the list of runs. -/
theorem runs_of_run (h : c.flight.Sound) {run : ReloadRun} (hrun : c.run = some run) :
    c.flight.runs = [⟨c.results.length, run⟩] := by
  rcases h.runs with hnone | ⟨run', hruns⟩
  · rw [Coordinator.run, hnone] at hrun
    cases hrun
  · rw [Coordinator.run, hruns] at hrun
    cases hrun
    exact hruns

theorem exists_run (h : c.flight.Sound) (hrun : c.isReloading = true) :
    ∃ run, c.run = some run := by
  obtain ⟨run, hruns, -⟩ := h.runs_of_running hrun
  exact ⟨run, by rw [Coordinator.run, hruns]; rfl⟩

theorem begun_eq (h : c.flight.Sound) (hrun : c.run = some (.loading c.current)) :
    c.begun = c := by
  have hruns := runs_of_run h hrun
  unfold begun
  rw [Flight.Sound.advance_eq hruns, ← hruns]

theorem sound_begun (h : c.flight.Sound) {run : ReloadRun} (hrun : c.run = some run) :
    c.begun.flight.Sound :=
  h.advance (runs_of_run h hrun) _

theorem run_begun (h : c.flight.Sound) {run : ReloadRun} (hrun : c.run = some run) :
    c.begun.run = some (.loading c.current) := by
  unfold begun Coordinator.run
  rw [Flight.Sound.advance_eq (runs_of_run h hrun)]
  rfl

/-- Once the run has ended no run is under way, and there is one result more. -/
theorem ended_of_flight (h : c.flight.Sound) {run : ReloadRun} (hrun : c.run = some run)
    {c' : Coordinator} {result : RunResult}
    (hflight : c'.flight = c.flight.finish c.results.length result) :
    c'.run = none ∧ c'.isReloading = false ∧ c'.results = c.results ++ [result] := by
  have hruns := runs_of_run h hrun
  have hend := hflight.trans (h.finish_eq hruns result)
  refine ⟨?_, ?_, ?_⟩
  · rw [Coordinator.run, hend]
    rfl
  · rw [isReloading, hend]
    rfl
  · rw [Coordinator.results, hflight]
    exact h.results_finish hruns result

/-- How far a run has come does not matter when it ends. -/
theorem finish_of_begun {c' : Coordinator} (h : c'.flight = c.begun.flight) (result : RunResult) :
    c'.finish result = { c' with flight := c.flight.finish c.results.length result } := by
  unfold finish
  rw [Coordinator.results, h]
  exact congrArg (fun flight => { c' with flight := flight }) (Flight.finish_advance ..)

/-! ### Steps -/

/-- The coordinator and the source, with the second part of the run behind them. -/
def endRun (c : Coordinator) (s : DefinitionSource) : Coordinator × DefinitionSource :=
  ((c.completeRun c.current s).2.1.finish (c.completeRun c.current s).1,
    (c.completeRun c.current s).2.2)

theorem stepRun_of_none (hrun : c.flight.runs = []) (place : Nat) (s : DefinitionSource) :
    c.stepRun place s = none := by
  rw [stepRun, hrun]
  rfl

/-- Only the run under way can go on, and it does one of its parts. -/
theorem stepRun_of_run (h : c.flight.Sound) {run : ReloadRun} (hrun : c.run = some run)
    (s : DefinitionSource) :
    c.stepRun 0 s = (c.workOn? s run).map fun next =>
      ({ next.2.1 with flight := next.2.1.flight.record c.results.length next.1 }, next.2.2) := by
  rw [stepRun, runs_of_run h hrun]
  dsimp only [List.getElem?_cons_zero]
  cases c.workOn? s run <;> rfl

theorem stepRun_scheduled (h : c.flight.Sound) (hrun : c.run = some .scheduled)
    {s' : DefinitionSource} (hok : s.ensureBuiltins c.overrides.entries = .ok s') :
    c.stepRun 0 s = some (c.begun, s') := by
  rw [stepRun_of_run h hrun, workOn?, beginRun, hok]
  rfl

theorem stepRun_scheduled_of_error (h : c.flight.Sound) (hrun : c.run = some .scheduled)
    {cause : StoreError} (herror : s.ensureBuiltins c.overrides.entries = .error cause) :
    c.stepRun 0 s = some (c.finish (.error (.store cause)), s) := by
  rw [stepRun_of_run h hrun, workOn?, beginRun, herror]
  rfl

theorem stepRun_loading (h : c.flight.Sound) (hrun : c.run = some (.loading c.current))
    (s : DefinitionSource) :
    c.stepRun 0 s = if s.held then none else some (c.endRun s) := by
  rw [stepRun_of_run h hrun]
  unfold workOn? endRun
  dsimp only
  split
  next => rfl
  next =>
    have hflight := (c.completeRun_frame c.current s).1
    generalize c.completeRun c.current s = ended at hflight ⊢
    rw [finish, show ended.2.1.results = c.results from congrArg Flight.results hflight]
    rfl

/-- What the end of a run comes to, in each of its three ways. -/
theorem endRun_cases (c : Coordinator) (s : DefinitionSource) :
    (s.store.available = false ∧ ∃ error, c.endRun s = (c.finish (.error error), s)) ∨
    (s.store.available = true ∧
      (∀ g, Generation.ofDefinitions c.compiler (c.current.sequence + 1) s.handedOut ≠ .ok g) ∧
      ∃ error compiles, compiles ≤ c.compiles + 1 ∧
        c.endRun s = ({ c with compiles := compiles }.finish (.error error), s.loaded)) ∨
    (s.store.available = true ∧
      ∃ g, Generation.ofDefinitions c.compiler (c.current.sequence + 1) s.handedOut = .ok g ∧
        c.endRun s =
          (((c.committed g).followUp c.current g s.loaded).1.finish (.ok g),
            ((c.committed g).followUp c.current g s.loaded).2)) := by
  have hcompiles := (c.completeRun_frame c.current s).2.1
  unfold endRun
  rcases completeRun_cases c s with ⟨ha, error, h⟩ | ⟨ha, hnone, error, compiles, h⟩ |
    ⟨ha, g, hg, h⟩
  · rw [h]
    exact Or.inl ⟨ha, error, rfl⟩
  · rw [h] at hcompiles ⊢
    exact Or.inr (Or.inl ⟨ha, hnone, error, compiles, hcompiles, rfl⟩)
  · rw [h]
    exact Or.inr (Or.inr ⟨ha, g, hg, rfl⟩)

/-- Everything that a step of a run does: the first part is done, or the run has failed and left no
trace but the count of compilations, or it has made a newer generation current and asked for what
follows. -/
theorem stepRun_cases {place : Nat} {c' : Coordinator} {s' : DefinitionSource}
    (hs : c.flight.Sound) (hr : c.RemembersCurrent) (h : c.stepRun place s = some (c', s')) :
    ∃ run, c.run = some run ∧
      ((run = .scheduled ∧ s.ensureBuiltins c.overrides.entries = .ok s' ∧ c' = c.begun) ∨
      (∃ error compiles, compiles ≤ c.compiles + 1 ∧ (s' = s ∨ s' = s.loaded) ∧
        c' = { c with compiles := compiles }.finish (.error error)) ∨
      ∃ g, run = .loading c.current ∧
        Generation.ofDefinitions c.compiler (c.current.sequence + 1) s.handedOut = .ok g ∧
        s' = ((c.committed g).followUp c.current g s.loaded).2 ∧
        c' = ((c.committed g).followUp c.current g s.loaded).1.finish (.ok g)) := by
  cases hactive : c.flight.runs[place]? with
  | none =>
      rw [stepRun, hactive] at h
      cases h
  | some active =>
      obtain ⟨rfl, hruns⟩ := hs.runs_eq_of_getElem? hactive
      have hrun : c.run = some active.run := by
        rw [Coordinator.run, hruns]
        rfl
      refine ⟨active.run, hrun, ?_⟩
      cases hstage : active.run with
      | scheduled =>
          rw [hstage] at hrun
          cases hens : s.ensureBuiltins c.overrides.entries with
          | ok source =>
              rw [stepRun_scheduled hs hrun hens] at h
              cases h
              exact Or.inl ⟨rfl, rfl, rfl⟩
          | error cause =>
              rw [stepRun_scheduled_of_error hs hrun hens] at h
              cases h
              exact Or.inr (Or.inl ⟨_, c.compiles, Nat.le_succ _, Or.inl rfl, rfl⟩)
      | loading previous =>
          rw [hstage] at hrun
          obtain rfl := hr hrun
          rw [stepRun_loading hs hrun] at h
          split at h
          next => cases h
          next =>
            have hstep := Option.some.inj h
            rcases endRun_cases c s with ⟨-, error, hend⟩ |
              ⟨-, -, error, compiles, hle, hend⟩ | ⟨-, g, hg, hend⟩
            · rw [hend] at hstep
              cases hstep
              exact Or.inr (Or.inl ⟨error, c.compiles, Nat.le_succ _, Or.inl rfl, rfl⟩)
            · rw [hend] at hstep
              cases hstep
              exact Or.inr (Or.inl ⟨error, compiles, hle, Or.inr rfl, rfl⟩)
            · rw [hend] at hstep
              cases hstep
              exact Or.inr (Or.inr ⟨g, rfl, hg, rfl, rfl⟩)

/-! ### Both parts -/

/-- What is left of a run whose first part is done. -/
theorem workOnRun_loading (h : c.flight.Sound) (hrun : c.run = some (.loading c.current))
    (s : DefinitionSource) : c.workOnRun s = if s.held then (c, s) else c.endRun s := by
  unfold workOnRun
  rw [stepRun_loading h hrun]
  by_cases hheld : s.held = true
  · rw [if_pos hheld, if_pos hheld]
  · rw [if_neg hheld, if_neg hheld]
    dsimp only
    -- a run that has ended has no further step
    have hended : (c.endRun s).1.flight.runs = [] := by
      unfold endRun finish Coordinator.results
      rw [(c.completeRun_frame c.current s).1]
      exact congrArg Flight.runs (h.finish_eq (runs_of_run h hrun) _)
    rw [stepRun_of_none hended]
    rfl

theorem workOnRun_begun (h : c.flight.Sound) {run : ReloadRun} (hrun : c.run = some run)
    (s : DefinitionSource) :
    c.begun.workOnRun s = if s.held then (c.begun, s) else c.begun.endRun s :=
  workOnRun_loading (sound_begun h hrun) (run_begun h hrun) s

/-- A run that was not begun does its first part and goes on. -/
theorem workOnRun_scheduled (h : c.flight.Sound) (hrun : c.run = some .scheduled)
    {s' : DefinitionSource} (hok : s.ensureBuiltins c.overrides.entries = .ok s') :
    c.workOnRun s = c.begun.workOnRun s' := by
  rw [workOnRun_begun h hrun]
  unfold workOnRun
  rw [stepRun_scheduled h hrun hok]
  dsimp only
  rw [show c.begun.stepRun 0 s' = _ from
    stepRun_loading (sound_begun h hrun) (run_begun h hrun) s']
  by_cases hheld : s'.held = true
  · rw [if_pos hheld, if_pos hheld, Option.getD_none]
  · rw [if_neg hheld, if_neg hheld, Option.getD_some]

theorem workOnRun_scheduled_of_error (h : c.flight.Sound) (hrun : c.run = some .scheduled)
    {cause : StoreError} (herror : s.ensureBuiltins c.overrides.entries = .error cause) :
    c.workOnRun s = (c.finish (.error (.store cause)), s) := by
  unfold workOnRun
  rw [stepRun_scheduled_of_error h hrun herror]
  dsimp only
  rw [stepRun_of_none (congrArg Flight.runs (h.finish_eq (runs_of_run h hrun) _))]
  rfl

/-- Work on a run whose definitions can be reached does what is left of the first part. -/
theorem workOnRun_of_available (h : c.flight.Sound) (hrun : c.isReloading = true)
    (hprevious : c.RemembersCurrent) (ha : s.store.available = true) :
    c.workOnRun s = c.begun.workOnRun (c.prepared s) := by
  obtain ⟨run, hc⟩ := exists_run h hrun
  cases run with
  | scheduled =>
      refine workOnRun_scheduled h hc ?_
      rw [DefinitionSource.ensureBuiltins_eq ha, prepared, pendingOverrides, hc]
  | loading previous =>
      obtain rfl := hprevious hc
      rw [begun_eq h hc, prepared, pendingOverrides_eq_empty hc]
      rfl

theorem workOnRun_begun_of_unavailable (h : c.flight.Sound) {run : ReloadRun}
    (hrun : c.run = some run) (ha : s.store.available = false) :
    (∃ error, c.begun.workOnRun s = (c.finish (.error error), s)) ∨
      (s.held = true ∧ c.begun.workOnRun s = (c.begun, s)) := by
  rw [workOnRun_begun h hrun]
  by_cases hheld : s.held = true
  · rw [if_pos hheld]
    exact Or.inr ⟨hheld, rfl⟩
  · rw [if_neg hheld]
    rcases endRun_cases c.begun s with ⟨-, error, hend⟩ | ⟨ha', -⟩ | ⟨ha', -⟩
    · rw [hend, finish_of_begun rfl]
      exact Or.inl ⟨error, rfl⟩
    · rw [ha] at ha'
      cases ha'
    · rw [ha] at ha'
      cases ha'

/-- Work on a run whose definitions are out of reach ends in failure and leaves the source alone; a
run with nothing to make sure of may be kept waiting before it fails. -/
theorem workOnRun_of_unavailable (h : c.flight.Sound) (hrun : c.isReloading = true)
    (hprevious : c.RemembersCurrent) (ha : s.store.available = false) :
    (∃ error, c.workOnRun s = (c.finish (.error error), s)) ∨
      (s.held = true ∧ c.pendingOverrides = .empty ∧ c.workOnRun s = (c.begun, s)) := by
  obtain ⟨run, hc⟩ := exists_run h hrun
  -- it comes to the second part with nothing done, or it fails in the first
  have hparts : (c.pendingOverrides = .empty ∧ c.workOnRun s = c.begun.workOnRun s) ∨
      ∃ error, c.workOnRun s = (c.finish (.error error), s) := by
    cases run with
    | scheduled =>
        rcases DefinitionSource.ensureBuiltins_of_unavailable ha c.overrides.entries with
          ⟨hempty, hok⟩ | ⟨cause, herror⟩
        · refine Or.inl ⟨?_, workOnRun_scheduled h hc hok⟩
          rw [pendingOverrides, hc]
          exact SortedMap.eq_of_entries hempty
        · exact Or.inr ⟨.store cause, workOnRun_scheduled_of_error h hc herror⟩
    | loading previous =>
        obtain rfl := hprevious hc
        exact Or.inl ⟨pendingOverrides_eq_empty hc, by rw [begun_eq h hc]⟩
  rcases hparts with ⟨hpending, hwork⟩ | hfailed
  · rw [hwork]
    rcases workOnRun_begun_of_unavailable h hc ha with hfailed | ⟨hheld, hwaits⟩
    · exact Or.inl hfailed
    · exact Or.inr ⟨hheld, hpending, hwaits⟩
  · exact Or.inl hfailed

end Coordinator

end LiveSchema
