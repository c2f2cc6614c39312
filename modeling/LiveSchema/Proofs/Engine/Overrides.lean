import LiveSchema.Proofs.Engine.Reachable
import LiveSchema.Proofs.Registry.Subtyping
import Mathlib.Data.List.Induction

/-!
# LiveSchema.Proofs.Engine.Overrides

Overridden node types extend their bases in every generation. An override names a base for a node
type, and the one that was registered last counts (`Engine.registered?`). Whatever the owner has
made of the definition meanwhile, a reload begins by putting it right, and loads it after that.

* `Generation.Overridden` — what an override promises of a generation: the node type is there, and
  it extends its base, as does all that is below it.
* `Engine.Commits` — a reload that makes a generation current. Between its two steps anything may
  happen that leaves the definitions and the overrides alone.
* `Engine.overrides_hold` — after such a reload every override is kept, in the generation and in the
  store, and no other definition was touched.

An overridden type is a stored definition when the definitions are loaded. No definition of the
batch has its name besides, since the batch was accepted, so what holds of the links of the batch
holds of the type.
-/

namespace LiveSchema

/-! ### In a generation -/

/-- The node type of a name is built in and extends a base, and the types below it extend the base
too. They extend it as a type of the batch, or as the base at the end of the chain. -/
structure Generation.Overridden (g : Generation) (name base : String) : Prop where
  defined : ∃ t, g.types.get? name = some t ∧ t.kind = .node ∧ t.builtin = true ∧
    (base ∈ t.ancestors ∨ t.builtinBase = some base)
  below : ∀ {lower t}, g.types.get? lower = some t →
    Relation.ReflTransGen (Definition.Link g.definitions) lower name →
      base ∈ t.ancestors ∨ t.builtinBase = some base

namespace Compiler

variable {c : Compiler} {units : List SourceUnit} {types : SortedMap String CompiledType}

/-- What a link leads to is not below where the link begins. -/
theorem not_below_of_link (h : c.compile units = .ok types) {name above : String}
    (hlink : SourceUnit.Link units name above) : ¬ SourceUnit.Below units above name := by
  intro hback
  have hw := wellFormed_of_compile h
  obtain rfl := SourceUnit.eq_of_below_of_below hw.names hw.acyclic (.single hlink) hback
  obtain ⟨u, hu, hname, hparent⟩ := hlink
  exact hw.acyclic u (.single ⟨hu, hu, hname.symm ▸ hparent⟩)

/-- A type whose chain passes through a name extends what that name's link leads to. -/
theorem above_of_link (h : c.compile units = .ok types) {lower name above : String}
    {t : CompiledType} (ht : types.get? lower = some t)
    (hbelow : SourceUnit.Below units lower name) (hlink : SourceUnit.Link units name above) :
    above ∈ t.ancestors ∨ t.builtinBase = some above := by
  have hextends := (extends?_iff_below h ht).mpr (hbelow.tail hlink)
  rw [CompiledType.extends?_iff, List.mem_cons, or_assoc] at hextends
  refine hextends.resolve_left fun hself => ?_
  -- otherwise the link would lead back to the type itself
  obtain ⟨u, -, hname, hinherits⟩ := inherits_of_compile h ht
  rw [hself, hinherits.name, hname] at hlink
  exact not_below_of_link h hlink hbelow

end Compiler

/-- The definition of a node type that is built in and extends a base overrides it in the
generation. -/
theorem Generation.overridden_of_mem {c : Compiler} {sequence : Nat} {ds : List Definition}
    {g : Generation} (h : Generation.ofDefinitions c sequence ds = .ok g) {d : Definition}
    (hd : d ∈ ds) (hkind : d.kind = .node) (hbuiltin : d.builtin = true) {base : String}
    (hparent : d.parent = some base) : g.Overridden d.name base := by
  obtain ⟨units, types, hemit, htypes, rfl⟩ := Generation.ofDefinitions_eq_ok_iff.mp h
  have hu : Emission.typeUnit d ∈ SourceUnit.types units := by
    rw [types_of_emitAll hemit]
    exact List.mem_map_of_mem hd
  have hlink : SourceUnit.Link units d.name base := ⟨_, hu, rfl, hparent⟩
  obtain ⟨t, ht⟩ := SortedMap.contains_iff.mp
    ((Compiler.contains_iff_of_compile htypes).mpr ⟨_, hu, rfl⟩)
  have hbuild := Compiler.eq_build_of_mem htypes hu ht
  refine
    { defined := ⟨t, ht, ?_, ?_, Compiler.above_of_link htypes ht (.refl d.name) hlink⟩
      below := fun {lower t} hlower hbelow => ?_ }
  · rw [hbuild]
    exact hkind
  · rw [hbuild]
    exact hbuiltin
  · rw [← link_of_emitAll hemit] at hbelow
    exact Compiler.above_of_link htypes hlower hbelow hlink

/-! ### The steps of a run -/

namespace Coordinator

variable {c c' : Coordinator} {s s' : DefinitionSource}

/-- What a run has made sure of before it loads. -/
theorem ensured_of_ensureBuiltins {overrides : SortedMap String String}
    (h : s.ensureBuiltins overrides.entries = .ok s') :
    Store.Ensured overrides s.store s'.store := by
  cases ha : s.store.available with
  | true =>
      rw [DefinitionSource.ensureBuiltins_eq ha] at h
      obtain rfl := Except.ok.inj h
      exact Store.ensured_withBuiltins s.store overrides
  | false =>
      rcases DefinitionSource.ensureBuiltins_of_unavailable ha overrides.entries with
        ⟨hempty, hok⟩ | ⟨cause, herror⟩
      · rw [hok] at h
        obtain rfl := Except.ok.inj h
        obtain rfl : overrides = .empty := SortedMap.eq_of_entries hempty
        exact Store.Ensured.refl s.store
      · rw [herror] at h
        cases h

/-- The first step of a run that goes on to load makes sure of every override. -/
theorem ensured_stepRun {place : Nat} (hs : c.flight.Sound) (hr : c.RemembersCurrent)
    (h : c.stepRun place s = some (c', s')) (hrun : c.run = some .scheduled)
    {previous : Generation} (hloading : c'.run = some (.loading previous)) :
    Store.Ensured c.overrides s.store s'.store := by
  obtain ⟨run, hrun', ⟨-, hens, -⟩ | ⟨error, compiles, -, -, rfl⟩ | ⟨g, rfl, -⟩⟩ :=
    stepRun_cases hs hr h
  · exact ensured_of_ensureBuiltins hens
  · have hended : ({ c with compiles := compiles }.finish (.error error)).run = none :=
      (ended_of_flight hs hrun rfl).1
    rw [hended] at hloading
    cases hloading
  · rw [hrun] at hrun'
    cases hrun'

/-- A step that makes a generation current is the second part of a run. It compiles what the source
hands out, and leaves the definitions alone. -/
theorem stepRun_of_commit {place : Nat} (hs : c.flight.Sound) (hr : c.RemembersCurrent)
    (h : c.stepRun place s = some (c', s')) {g : Generation}
    (hresults : c'.results = c.results ++ [.ok g]) :
    c.run = some (.loading c.current) ∧
      Generation.ofDefinitions c.compiler (c.current.sequence + 1) s.handedOut = .ok g ∧
      c'.current = g ∧ ∀ kind, s'.store.ofKind kind = s.store.ofKind kind := by
  obtain ⟨run, hrun, ⟨-, -, rfl⟩ | ⟨error, compiles, -, -, rfl⟩ | ⟨g', rfl, hg, rfl, rfl⟩⟩ :=
    stepRun_cases hs hr h
  · have hsame : c.begun.results = c.results := rfl
    rw [hsame] at hresults
    simp at hresults
  · have hended : ({ c with compiles := compiles }.finish (.error error)).results =
        c.results ++ [.error error] := (ended_of_flight hs hrun rfl).2.2
    cases List.append_cancel_left (hended.symm.trans hresults)
  · obtain ⟨synchronizer, annotations, hframe, -⟩ :=
      (c.committed g').followUp_frame c.current g' s.loaded
    have hended : ({ c.committed g' with synchronizer := synchronizer }.finish (.ok g')).results =
        c.results ++ [.ok g'] := (ended_of_flight hs hrun rfl).2.2
    rw [hframe] at hresults ⊢
    cases List.append_cancel_left (hended.symm.trans hresults)
    exact ⟨hrun, hg, rfl, fun kind => by cases kind <;> rfl⟩

/-- A call begins no run that was not asked for before, since a run does not begin to load at
once. -/
theorem loading_of_ask {flight : Flight} (hs : flight.Sound) (waits : Bool)
    {previous : Generation}
    (h : ({ c with flight := flight.ask waits } : Coordinator).run = some (.loading previous)) :
    ({ c with flight := flight } : Coordinator).run = some (.loading previous) := by
  cases hrunning : flight.compiling.isRunning with
  | false =>
      rw [Flight.Sound.ask_of_idle hrunning] at h
      unfold run Flight.started at h
      rw [hs.runs_of_idle hrunning] at h
      cases h
  | true =>
      rw [hs.ask_of_running hrunning] at h
      exact h

end Coordinator

/-! ### In a history -/

namespace Engine

/-- The base that an event registers for a node type. -/
def Event.registers? (name : String) : Event → Option String
  | .registerOverride typeName base => if typeName = name then some base else none
  | _ => none

/-- The base that was registered last for a node type. -/
def registered? (events : List Event) (name : String) : Option String :=
  events.reverse.findSome? (·.registers? name)

/-- An event that registers no base, edits no definition and is no step of a run. -/
def Event.Apart : Event → Prop
  | .edit (.define _) | .edit (.remove _ _) | .registerOverride _ _ | .stepRun _ => False
  | _ => True

/-- An engine that is started over some definitions and a database, and what happens to it. -/
def ofHistory (config : EngineConfig) (source : DefinitionSource) (db : Database)
    (events : List Event) : Engine :=
  events.foldl after { source := source, db := db, coordinator := Coordinator.ofConfig config }

/-- The engine after the first step of a run, what happens then, and the second step. -/
def reloaded (e : Engine) (between : List Event) : Engine :=
  (between.foldl after (e.after .stepRun)).after .stepRun

/-- A reload that makes a generation current. It begins in the given state, and what happens between
its two steps is apart from it. -/
structure Commits (e : Engine) (between : List Event) (g : Generation) : Prop where
  begins : e.coordinator.run = some .scheduled
  apart : ∀ event ∈ between, event.Apart
  /-- The second step ends the run with the generation. -/
  commits : (e.reloaded between).coordinator.results =
    (between.foldl after (e.after .stepRun)).coordinator.results ++ [.ok g]

/-- Every override is kept, in a generation and in the store that it was loaded from. -/
structure OverridesHold (overrides : String → Option String) (before : Store) (g : Generation)
    (stored : Store) : Prop where
  generation : ∀ {name base}, overrides name = some base → g.Overridden name base
  /-- Of the definition only the parent and the mark have changed; one that was not there has
  nothing else. -/
  overridden : ∀ {name base}, overrides name = some base → stored.definition? .node name =
    some (Store.builtinDefinition (before.definition? .node name) name base)
  /-- No other definition has changed. -/
  others : ∀ {kind name}, (kind = .node → overrides name = none) →
    stored.definition? kind name = before.definition? kind name

theorem reachable_foldl {e : Engine} (h : e.Reachable) (events : List Event) :
    (events.foldl after e).Reachable :=
  List.foldlRecOn (motive := Reachable) events after h fun _ h event _ => h.next event

/-- Registrations alone touch the overrides. -/
theorem get?_overrides_after {e : Engine} (h : e.Reachable) (event : Event) (name : String) :
    (e.after event).coordinator.overrides.get? name =
      (event.registers? name).or (e.coordinator.overrides.get? name) := by
  cases event with
  | registerOverride typeName base =>
      show (e.coordinator.overrides.insert typeName base).get? name = _
      rw [SortedMap.get?_insert, Event.registers?]
      split <;> rfl
  | reload caller wait =>
      obtain ⟨retired, flight, callers, hframe, -⟩ := e.reload_frame caller wait
      rw [after, hframe]
      rfl
  | dismiss caller =>
      obtain ⟨retired, flight, callers, hframe, -⟩ := e.dismiss_frame caller
      rw [after, hframe]
      rfl
  | stepRun place =>
      unfold after
      dsimp only
      split
      next c source hstep =>
        obtain ⟨run, -, ⟨-, -, rfl⟩ | ⟨error, compiles, -, -, rfl⟩ | ⟨g, -, -, -, rfl⟩⟩ :=
          Coordinator.stepRun_cases h.sound.flight h.sound.remembers hstep
        · rfl
        · rfl
        · obtain ⟨synchronizer, annotations, hframe, -⟩ :=
            (e.coordinator.committed g).followUp_frame e.coordinator.current g e.source.loaded
          rw [hframe]
          rfl
      next => rfl
  | stepSweep =>
      unfold after
      dsimp only
      split <;> rfl
  | edit | changeDatabase | addBase | wake | isSubtype | relationshipsBetween | shutDown => rfl

/-- The overrides are the bases that were registered last. -/
theorem get?_overrides_ofHistory (config : EngineConfig) {source : DefinitionSource}
    (hk : source.store.Keyed) (db : Database) (events : List Event) (name : String) :
    (ofHistory config source db events).coordinator.overrides.get? name =
      registered? events name := by
  unfold ofHistory
  induction events using List.reverseRecOn with
  | nil => rfl
  | append_singleton earlier event ih =>
      have hreachable := reachable_foldl (.start config hk db) earlier
      rw [List.foldl_concat, get?_overrides_after hreachable, ih, registered?, registered?,
        List.reverse_concat, List.findSome?_cons]
      cases event.registers? name <;> rfl

/-- What is apart from a run begins none, and leaves the definitions alone. -/
theorem after_of_apart {e : Engine} (hsound : e.Sound) {event : Event} (h : event.Apart) :
    (∀ previous, (e.after event).coordinator.run = some (.loading previous) →
        e.coordinator.run = some (.loading previous)) ∧
      ∀ kind, (e.after event).source.store.ofKind kind = e.source.store.ofKind kind := by
  cases event with
  | edit edit =>
      cases edit with
      | define d => exact h.elim
      | remove kind name => exact h.elim
      | setAvailable | hold | refuseReports | handOut =>
          exact ⟨fun _ => id, fun kind => by cases kind <;> rfl⟩
  | registerOverride typeName base => exact h.elim
  | stepRun place => exact h.elim
  | reload caller wait =>
      obtain ⟨retired, flight, callers, hframe, hflight⟩ := e.reload_frame caller wait
      rw [after, hframe]
      refine ⟨fun previous hrun => ?_, fun _ => rfl⟩
      rcases hflight with rfl | ⟨call, rfl⟩
      · exact Coordinator.loading_of_ask hsound.flight wait hrun
      · exact Coordinator.loading_of_ask (hsound.flight.leave call) wait hrun
  | dismiss caller =>
      obtain ⟨retired, flight, callers, hframe, hflight⟩ := e.dismiss_frame caller
      rw [after, hframe]
      rcases hflight with rfl | ⟨call, rfl⟩ <;> exact ⟨fun _ => id, fun _ => rfl⟩
  | wake call =>
      have hruns : (e.coordinator.wake call).flight.runs = e.coordinator.flight.runs := by
        unfold Coordinator.wake
        rw [hsound.flight.wake_eq]
      refine ⟨fun previous hrun => ?_, fun _ => rfl⟩
      rw [Coordinator.run, ← hruns]
      exact hrun
  | stepSweep =>
      unfold after
      dsimp only
      split <;> exact ⟨fun _ => id, fun _ => rfl⟩
  | changeDatabase | addBase | isSubtype | relationshipsBetween | shutDown =>
      exact ⟨fun _ => id, fun _ => rfl⟩

theorem foldl_of_apart {e : Engine} (hsound : e.Sound) {events : List Event}
    (h : ∀ event ∈ events, event.Apart) :
    (∀ previous, (events.foldl after e).coordinator.run = some (.loading previous) →
        e.coordinator.run = some (.loading previous)) ∧
      ∀ kind, (events.foldl after e).source.store.ofKind kind = e.source.store.ofKind kind := by
  induction events generalizing e with
  | nil => exact ⟨fun _ => id, fun _ => rfl⟩
  | cons event rest ih =>
      obtain ⟨hrun, hkind⟩ := after_of_apart hsound (h event List.mem_cons_self)
      obtain ⟨hrunRest, hkindRest⟩ :=
        ih (hsound.after event) fun event' hmem => h event' (List.mem_cons_of_mem _ hmem)
      exact ⟨fun previous hloading => hrun previous (hrunRest previous hloading),
        fun kind => (hkindRest kind).trans (hkind kind)⟩

/-- A step of a run is one of its coordinator, or nothing. -/
theorem after_stepRun (e : Engine) :
    e.after .stepRun = e ∨ ∃ c s, e.coordinator.stepRun 0 e.source = some (c, s) ∧
      e.after .stepRun = { e with coordinator := c, source := s } := by
  unfold after
  dsimp only
  split
  next c s hstep => exact Or.inr ⟨c, s, hstep, rfl⟩
  next => exact Or.inl rfl

/-- A step that ends the run with a generation has compiled the definitions as they stand. -/
theorem commit_stepRun {e : Engine} (h : e.Reachable) {g : Generation}
    (hresults : (e.after .stepRun).coordinator.results = e.coordinator.results ++ [.ok g]) :
    e.coordinator.run = some (.loading e.coordinator.current) ∧
      (∃ c sequence, Generation.ofDefinitions c sequence e.source.handedOut = .ok g) ∧
      (e.after .stepRun).coordinator.current = g ∧
      ∀ kind, (e.after .stepRun).source.store.ofKind kind = e.source.store.ofKind kind := by
  rcases e.after_stepRun with hstay | ⟨c, s, hstep, hmove⟩
  · rw [hstay] at hresults
    simp at hresults
  · rw [hmove] at hresults ⊢
    obtain ⟨hloading, hg, hcurrent, hkind⟩ :=
      Coordinator.stepRun_of_commit h.sound.flight h.sound.remembers hstep hresults
    exact ⟨hloading, ⟨_, _, hg⟩, hcurrent, hkind⟩

/-- A step that makes a newer generation current ends the run with it. -/
theorem results_stepRun_of_lt {e : Engine} (h : e.Reachable)
    (hlt : e.coordinator.current.sequence < (e.after .stepRun).coordinator.current.sequence) :
    (e.after .stepRun).coordinator.results =
      e.coordinator.results ++ [.ok (e.after .stepRun).coordinator.current] := by
  rcases e.after_stepRun with hstay | ⟨c, s, hstep, hmove⟩
  · rw [hstay] at hlt
    exact absurd hlt (Nat.lt_irrefl _)
  · rw [hmove] at hlt ⊢
    obtain ⟨run, hrun, ⟨-, -, rfl⟩ | ⟨error, compiles, -, -, rfl⟩ | ⟨g, -, -, -, rfl⟩⟩ :=
      Coordinator.stepRun_cases h.sound.flight h.sound.remembers hstep
    · exact absurd hlt (Nat.lt_irrefl _)
    · exact absurd hlt (Nat.lt_irrefl _)
    · obtain ⟨synchronizer, annotations, hframe, -⟩ :=
        (e.coordinator.committed g).followUp_frame e.coordinator.current g e.source.loaded
      rw [hframe]
      exact (Coordinator.ended_of_flight h.sound.flight hrun rfl).2.2

/-- After a reload that makes a generation current the overrides hold that there were when it
began. -/
theorem Commits.overridesHold {e : Engine} (h : e.Reachable) {between : List Event}
    {g : Generation} (hcommits : e.Commits between g) :
    (e.reloaded between).coordinator.current = g ∧
      OverridesHold e.coordinator.overrides.get? e.source.store g
        (e.reloaded between).source.store := by
  obtain ⟨hbegins, hapart, hends⟩ := hcommits
  obtain ⟨hbegun, hbetween⟩ := foldl_of_apart (h.next .stepRun).sound hapart
  have hreachable := reachable_foldl (h.next .stepRun) between
  obtain ⟨hloading, ⟨c, sequence, hg⟩, hcurrent, hcommit⟩ := commit_stepRun hreachable hends
  have hensured : Store.Ensured e.coordinator.overrides e.source.store
      (e.after .stepRun).source.store := by
    have hloads := hbegun _ hloading
    rcases e.after_stepRun with hstay | ⟨c', s', hstep, hmove⟩
    · rw [hstay, hbegins] at hloads
      cases hloads
    · rw [hmove] at hloads ⊢
      exact Coordinator.ensured_stepRun h.sound.flight h.sound.remembers hstep hbegins hloads
  -- what was made sure of is what is loaded, and what is left
  have hloaded (kind : Kind) (name : String) :
      (between.foldl after (e.after .stepRun)).source.store.definition? kind name =
        (e.after .stepRun).source.store.definition? kind name := by
    rw [Store.definition?, Store.definition?, hbetween kind]
  have hleft (kind : Kind) (name : String) :
      (e.reloaded between).source.store.definition? kind name =
        (e.after .stepRun).source.store.definition? kind name := by
    rw [← hloaded kind name, Store.definition?, Store.definition?, ← hcommit kind]
    rfl
  refine ⟨hcurrent, ?_, ?_, ?_⟩
  · intro name base hbase
    have hstored := (hloaded .node name).trans (hensured.overridden hbase)
    obtain ⟨hkind, hname⟩ := hreachable.sound.keyed hstored
    have hmem := (Store.mem_definitions_iff hreachable.sound.keyed).mpr
      (by rw [hkind, hname]; exact hstored)
    have hoverridden := Generation.overridden_of_mem hg (List.mem_append_left _ hmem) hkind rfl rfl
    rwa [hname] at hoverridden
  · intro name base hbase
    rw [hleft, hensured.overridden hbase]
  · intro kind name hnone
    rw [hleft]
    cases kind with
    | node => exact hensured.node (hnone rfl)
    | relationship => exact congrArg (·.get? name) hensured.relationship

/-- **Overrides hold in every generation.** Whatever was registered, edited and reloaded before, a
reload that makes a generation current leaves every node type with a registered base overridden, in
the generation and in the store. -/
theorem overrides_hold (config : EngineConfig) {source : DefinitionSource}
    (hk : source.store.Keyed) (db : Database) (earlier between : List Event) {g : Generation}
    (h : (ofHistory config source db earlier).Commits between g) :
    ((ofHistory config source db earlier).reloaded between).coordinator.current = g ∧
      OverridesHold (registered? earlier) (ofHistory config source db earlier).source.store g
        ((ofHistory config source db earlier).reloaded between).source.store := by
  have hreachable : (ofHistory config source db earlier).Reachable :=
    reachable_foldl (.start config hk db) earlier
  obtain ⟨hcurrent, hhold⟩ := h.overridesHold hreachable
  rw [funext (get?_overrides_ofHistory config hk db earlier)] at hhold
  exact ⟨hcurrent, hhold⟩

/-- The owner replaces the definition of an overridden type that another one extends, and a new base
is registered for it. -/
def userEngine : Engine :=
  ofHistory .inMemory {} {}
    [.edit (.define ((Definition.node "Person").extending "User")),
      .registerOverride "User" "AbstractNode", .reload "first" true, .stepRun, .stepRun,
      .edit (.define
        ((Definition.node "User").withProperty ⟨"email", "String", true, false, true⟩)),
      .registerOverride "User" "Agent", .reload "second" true]

/-- While loading waits somebody else asks for a reload. -/
def userWaits : List Event := [.edit (.hold true), .reload "third" false, .edit (.hold false)]

theorem overrides_hold_of_user :
    ∃ g overrides, userEngine.Commits userWaits g ∧ overrides "User" = some "Agent" ∧
      OverridesHold overrides userEngine.source.store g
        (userEngine.reloaded userWaits).source.store ∧
      (g.types.get? "Person").map (fun t => (t.ancestors, t.builtinBase)) =
        some (["User"], some "Agent") := by
  have hreachable : userEngine.Reachable :=
    reachable_foldl (.start .inMemory Store.keyed_empty {}) _
  have hcommits : userEngine.Commits userWaits _ :=
    { begins := rfl
      apart := by simp [userWaits, Event.Apart]
      commits := results_stepRun_of_lt (reachable_foldl (hreachable.next .stepRun) userWaits)
        (by decide +kernel) }
  obtain ⟨-, hhold⟩ := overrides_hold .inMemory Store.keyed_empty {} _ userWaits hcommits
  exact ⟨_, _, hcommits, by decide +kernel, hhold, by decide +kernel⟩

end Engine

end LiveSchema
