import LiveSchema.Proofs.Engine.Reachable
import LiveSchema.Proofs.Hierarchy

/-!
# LiveSchema.Proofs.Engine.Reload

A reload publishes what the store holds, compiled, or it changes nothing. In every state that an
engine comes to, work on the run under way either ends it or finds the source keeping it waiting
(`Engine.run_publishes_or_keeps`).

* `Engine.RunWaits` — a run that is kept waiting has made sure of the built-in types, no more.
* `Engine.RunEnds` — how a run ends: when it fails, and what it touches at most.
* `Engine.Kept` — what a run that fails leaves as it was.
* `Engine.Published` — what a run that succeeds leaves behind, all of it at once.

The definitions that count are those which the source hands out in the end: between the two parts of
a run its owner may edit them.
-/

namespace LiveSchema

namespace Engine

/-- Let the run under way go on until it ends or is kept waiting. -/
def workOnRun (e : Engine) : Engine :=
  { e with
    coordinator := (e.coordinator.workOnRun e.source).1
    source := (e.coordinator.workOnRun e.source).2 }

/-! ### How a run ends -/

/-- What a run leaves as it was when it fails. -/
structure Kept (e e' : Engine) : Prop where
  /-- The current generation, the caches, and the published views with their version. -/
  registry : e'.coordinator.registry = e.coordinator.registry
  /-- What is waiting to be swept, what is being swept, and what was. -/
  synchronizer : e'.coordinator.synchronizer = e.coordinator.synchronizer
  annotations : e'.source.store.annotations = e.source.store.annotations
  /-- The record of indexes, and the indexes. -/
  db : e'.db = e.db

/-- What a run leaves behind when it makes a generation current. -/
structure Published (e : Engine) (g : Generation) (e' : Engine) : Prop where
  current : e'.coordinator.current = g
  sequence : g.sequence = e.coordinator.current.sequence + 1
  definitions : g.definitions = e'.source.handedOut
  /-- The types are what the definitions emit, compiled. -/
  types : ∃ units, emitAll g.definitions = .ok units ∧
    e.coordinator.compiler.compile units = .ok g.types
  /-- The views are those of all definitions together. -/
  dynamicViews : ∀ view, g.dynamicViews.contains view = true ↔
    ∃ d ∈ g.definitions, view ∈ d.viewNames
  published : e'.coordinator.registry.views = g.dynamicViews
  viewsVersion : e'.coordinator.registry.viewsVersion =
    if e.coordinator.registry.views = g.dynamicViews then e.coordinator.registry.viewsVersion
    else e.coordinator.registry.viewsVersion + 1
  /-- The caches are empty, and ready for the answers of the new generation. -/
  caches : e'.coordinator.registry.caches = { current := g.sequence }
  /-- In testing mode nothing follows. -/
  testing : e.coordinator.config.testingMode = true →
    e'.coordinator.synchronizer = e.coordinator.synchronizer ∧
      e'.source.store.annotations = e.source.store.annotations
  /-- Otherwise a sweep is asked for, ... -/
  requested : e.coordinator.config.testingMode = false →
    e'.coordinator.synchronizer =
      e.coordinator.synchronizer.synchronize ⟨g, e.coordinator.current.removedIn g⟩
  /-- ... and a store that keeps reports, and hands out only what it holds, has the report about
  every node type of the generation. -/
  reported : e.coordinator.config.testingMode = false → e.source.refusesReports = false →
    e.source.extra = [] → ∀ {name t}, g.types.get? name = some t → t.kind = .node →
      ∃ entry, e'.source.store.hierarchyEntry? name = some entry ∧
        (Hierarchy.report e.coordinator.config.depthLimit g.definitions).annotations.get? name =
          some entry
  db : e'.db = e.db

/-- How a run ends, and with which result. -/
structure RunEnds (e : Engine) (result : RunResult) (e' : Engine) : Prop where
  /-- What the run touches at most. -/
  frame : e' = { e with
    coordinator := { e.coordinator with
      compiles := e'.coordinator.compiles
      registry := e'.coordinator.registry
      synchronizer := e'.coordinator.synchronizer
      flight := e.coordinator.flight.finish e.coordinator.results.length result }
    source := { e.source with
      store := { e.source.store with
        nodes := e'.source.store.nodes
        annotations := e'.source.store.annotations
        loads := e'.source.store.loads } } }
  /-- No run is under way any more, and the result is added to those of the runs before. -/
  ended : e'.coordinator.run = none ∧ e'.coordinator.isReloading = false ∧
    e'.coordinator.results = e.coordinator.results ++ [result]
  /-- The run fails exactly when the store is out of reach, a definition is not emitted, or what
  the definitions emit is not compiled. -/
  fails_iff : (∃ error, result = .error error) ↔
    e.source.store.available = false ∨ e.coordinator.compiler.Refuses e'.source.handedOut
  /-- The built-in types are made sure of in either case, ... -/
  ensured : e.source.store.available = true →
    Store.Ensured e.coordinator.pendingOverrides e.source.store e'.source.store
  /-- ... unless the store is out of reach. -/
  unreached : e.source.store.available = false → e'.source = e.source
  kept : ∀ error, result = .error error → Kept e e'
  published : ∀ g, result = .ok g → Published e g e'

/-- A run that is kept waiting has made sure of the built-in types, and has remembered what is
current. -/
structure RunWaits (e e' : Engine) : Prop where
  held : e.source.held = true
  frame : e' = { e with
    coordinator := { e.coordinator with
      flight := e.coordinator.flight.advance e.coordinator.results.length
        (.loading e.coordinator.current) }
    source := { e.source with store := { e.source.store with nodes := e'.source.store.nodes } } }
  run : e'.coordinator.run = some (.loading e.coordinator.current)
  ensured : Store.Ensured e.coordinator.pendingOverrides e.source.store e'.source.store

/-! ### Each way to end -/

section Ways

variable {e : Engine} {run : ReloadRun}

/-- The engine after work on its run has come to a coordinator and a source. -/
theorem workOnRun_of_eq {c : Coordinator} {s : DefinitionSource}
    (h : e.coordinator.workOnRun e.source = (c, s)) :
    e.workOnRun = { e with coordinator := c, source := s } := by
  rw [workOnRun, h]

theorem runEnds_of_unavailable (hs : e.coordinator.flight.Sound)
    (hrun : e.coordinator.run = some run) (ha : e.source.store.available = false)
    {error : ReloadError}
    (h : e.coordinator.workOnRun e.source = (e.coordinator.finish (.error error), e.source)) :
    RunEnds e (.error error) e.workOnRun := by
  rw [workOnRun_of_eq h]
  exact
    { frame := rfl
      ended := Coordinator.ended_of_flight hs hrun rfl
      fails_iff := iff_of_true ⟨error, rfl⟩ (Or.inl ha)
      ensured := fun ha' => by
        rw [ha] at ha'
        cases ha'
      unreached := fun _ => rfl
      kept := fun _ _ => ⟨rfl, rfl, rfl, rfl⟩
      published := nofun }

theorem runEnds_of_refused (hs : e.coordinator.flight.Sound)
    (hrun : e.coordinator.run = some run) (ha : e.source.store.available = true)
    {error : ReloadError} {compiles : Nat}
    (hnone : ∀ g, Generation.ofDefinitions e.coordinator.compiler
      (e.coordinator.current.sequence + 1) (e.coordinator.prepared e.source).handedOut ≠ .ok g)
    (h : e.coordinator.workOnRun e.source =
      ({ e.coordinator.begun with compiles := compiles }.finish (.error error),
        (e.coordinator.prepared e.source).loaded)) :
    RunEnds e (.error error) e.workOnRun := by
  have hensured := e.coordinator.ensured_prepared e.source
  obtain ⟨nodes, hprepared⟩ := e.coordinator.prepared_frame e.source
  have hfinish := @Coordinator.finish_of_begun e.coordinator
    { e.coordinator.begun with compiles := compiles } rfl (.error error)
  rw [workOnRun_of_eq h, hfinish]
  rw [hprepared] at hnone hensured ⊢
  exact
    { frame := rfl
      ended := Coordinator.ended_of_flight hs hrun rfl
      fails_iff := iff_of_true ⟨error, rfl⟩ (Or.inr (Generation.refuses_of_ofDefinitions hnone))
      ensured := fun _ => hensured.congr rfl rfl rfl
      unreached := fun ha' => by
        rw [ha] at ha'
        cases ha'
      kept := fun _ _ => ⟨rfl, rfl, rfl, rfl⟩
      published := nofun }

/-- The commit and what follows it leave everything in place for the new generation. -/
theorem published_of_followUp {s : DefinitionSource} {nodes : SortedMap String Definition}
    {loads : Nat}
    (hs : s = e.source.withStore { e.source.store with nodes := nodes, loads := loads })
    (hk : s.store.Keyed) (ha : s.store.available = true) {g : Generation}
    (hg : Generation.ofDefinitions e.coordinator.compiler (e.coordinator.current.sequence + 1)
      s.handedOut = .ok g) :
    Published e g
      { e with
        coordinator :=
          ((e.coordinator.begun.committed g).followUp e.coordinator.current g s).1.finish (.ok g)
        source := ((e.coordinator.begun.committed g).followUp e.coordinator.current g s).2 } := by
  have hdefinitions := Generation.definitions_of_ofDefinitions hg
  obtain ⟨units, types, hunits, htypes, hgeneration⟩ := Generation.ofDefinitions_eq_ok_iff.mp hg
  have hreported := Coordinator.hierarchyEntry?_followUp (c := e.coordinator.begun.committed g)
    hg hk ha e.coordinator.current
  obtain ⟨synchronizer, annotations, hframe, htesting, hrequested⟩ :=
    (e.coordinator.begun.committed g).followUp_frame e.coordinator.current g s
  rw [hframe] at hreported ⊢
  subst hs
  exact
    { current := rfl
      sequence := by rw [hgeneration]
      definitions := hdefinitions
      types := ⟨units, hdefinitions ▸ hunits, by rw [hgeneration]; exact htypes⟩
      dynamicViews := fun view => by rw [hgeneration]; exact Generation.contains_viewNames
      published := rfl
      viewsVersion := rfl
      caches := rfl
      testing := htesting
      requested := hrequested
      reported := hreported
      db := rfl }

theorem runEnds_of_accepted (hs : e.coordinator.flight.Sound)
    (hrun : e.coordinator.run = some run) (hk : e.source.store.Keyed)
    (ha : e.source.store.available = true) {g : Generation}
    (hg : Generation.ofDefinitions e.coordinator.compiler (e.coordinator.current.sequence + 1)
      (e.coordinator.prepared e.source).handedOut = .ok g)
    (h : e.coordinator.workOnRun e.source =
      (((e.coordinator.begun.committed g).followUp e.coordinator.current g
          (e.coordinator.prepared e.source).loaded).1.finish (.ok g),
        ((e.coordinator.begun.committed g).followUp e.coordinator.current g
          (e.coordinator.prepared e.source).loaded).2)) :
    RunEnds e (.ok g) e.workOnRun := by
  have hensured := e.coordinator.ensured_prepared e.source
  obtain ⟨nodes, hprepared⟩ := e.coordinator.prepared_frame e.source
  have hpublished := @published_of_followUp e (e.coordinator.prepared e.source).loaded nodes
    (e.source.store.loads + 1) (by rw [hprepared]; rfl) (hensured.keyed hk)
    (hensured.available.trans ha) g hg
  obtain ⟨synchronizer, annotations, hframe, -⟩ :=
    (e.coordinator.begun.committed g).followUp_frame e.coordinator.current g
      (e.coordinator.prepared e.source).loaded
  have hfinish := @Coordinator.finish_of_begun e.coordinator
    { e.coordinator.begun.committed g with synchronizer := synchronizer } rfl (.ok g)
  rw [workOnRun_of_eq h]
  rw [hframe] at hpublished ⊢
  rw [hfinish] at hpublished ⊢
  rw [hprepared] at hpublished hg hensured ⊢
  exact
    { frame := rfl
      ended := Coordinator.ended_of_flight hs hrun rfl
      fails_iff := by
        refine iff_of_false nofun ?_
        rw [ha]
        rintro (hfalse | hrefused)
        · cases hfalse
        · exact Generation.not_refuses_of_ofDefinitions hg hrefused
      ensured := fun _ => hensured.congr rfl rfl rfl
      unreached := fun ha' => by
        rw [ha] at ha'
        cases ha'
      kept := nofun
      published := fun g' hg' => by
        obtain rfl := Except.ok.inj hg'
        exact hpublished }

theorem runWaits_of_held (hs : e.coordinator.flight.Sound)
    (hrun : e.coordinator.run = some run) {s : DefinitionSource}
    {nodes : SortedMap String Definition}
    (hprepared : s = e.source.withStore { e.source.store with nodes := nodes })
    (hheld : e.source.held = true)
    (hensured : Store.Ensured e.coordinator.pendingOverrides e.source.store s.store)
    (h : e.coordinator.workOnRun e.source = (e.coordinator.begun, s)) :
    RunWaits e e.workOnRun := by
  rw [workOnRun_of_eq h]
  subst hprepared
  exact
    { held := hheld
      frame := rfl
      run := Coordinator.run_begun hs hrun
      ensured := hensured }

end Ways

/-- **A reload publishes what the store holds, compiled, or changes nothing.** -/
theorem run_publishes_or_keeps {e : Engine} (h : e.Reachable)
    (hrun : e.coordinator.isReloading = true) :
    (∃ result, RunEnds e result e.workOnRun) ∨ RunWaits e e.workOnRun := by
  obtain ⟨hk, hs, hremembers⟩ := h.sound
  obtain ⟨run, hc⟩ := Coordinator.exists_run hs hrun
  cases ha : e.source.store.available with
  | false =>
      rcases Coordinator.workOnRun_of_unavailable hs hrun hremembers ha with
        ⟨error, hfailed⟩ | ⟨hheld, hpending, hwaits⟩
      · exact Or.inl ⟨_, runEnds_of_unavailable hs hc ha hfailed⟩
      · refine Or.inr (@runWaits_of_held e run hs hc e.source _ rfl hheld ?_ hwaits)
        rw [hpending]
        exact Store.Ensured.refl _
  | true =>
      have hensured := e.coordinator.ensured_prepared e.source
      obtain ⟨nodes, hprepared⟩ := e.coordinator.prepared_frame e.source
      have hwork := Coordinator.workOnRun_of_available hs hrun hremembers ha
      rw [Coordinator.workOnRun_begun hs hc] at hwork
      by_cases hheld : (e.coordinator.prepared e.source).held = true
      · rw [if_pos hheld] at hwork
        rw [hprepared] at hheld
        exact Or.inr (runWaits_of_held hs hc hprepared hheld hensured hwork)
      · rw [if_neg hheld] at hwork
        refine Or.inl ?_
        rcases Coordinator.endRun_cases e.coordinator.begun (e.coordinator.prepared e.source)
          with ⟨ha', -⟩ | ⟨-, hnone, error, compiles, -, hfailed⟩ | ⟨-, g, hg, hok⟩
        · rw [hensured.available, ha] at ha'
          cases ha'
        · exact ⟨_, runEnds_of_refused hs hc ha hnone (hwork.trans hfailed)⟩
        · exact ⟨_, runEnds_of_accepted hs hc hk ha hg (hwork.trans hok)⟩

theorem run_publishes_person_and_user :
    let person := (Definition.node "Person").withProperty
      { name := "name", declaredType := "String", indexed := true }
    let start : Engine := { coordinator := Coordinator.ofConfig .inMemory }
    let e := ((start.after (.edit (.define person))).after
      (.registerOverride "User" "AbstractNode")).after (.reload "first" true)
    (∃ result, RunEnds e result e.workOnRun) ∧
      e.workOnRun.coordinator.current.sequence = 1 ∧
        e.workOnRun.coordinator.current.typeNames = ["Person", "User"] ∧
          e.workOnRun.source.store.hierarchyEntry? "User" = some ⟨0, 0⟩ := by
  intro person start e
  have hstart : start.Reachable := .start .inMemory Store.keyed_empty {}
  have hreachable : e.Reachable := ((hstart.next _).next _).next _
  refine ⟨?_, by decide, by decide, by decide⟩
  rcases run_publishes_or_keeps hreachable rfl with hends | hwaits
  · exact hends
  · exact absurd hwaits.held (by decide)

end Engine

end LiveSchema
