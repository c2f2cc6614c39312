import LiveSchema.Proofs.Engine.Reload

/-!
# LiveSchema.Proofs.Engine.SingleFlight

Reloads are single-flight, and who joins one is told the truth, whenever he wakes. `Traffic` is an
engine with a log: of every call for a reload, with the runs that were under way at the time and the
runs that were started by it; and of every run that has ended, with the result that it came to. A
run is known by its number. What a caller is told comes out of the channel that he has held since he
called, which he may look at long after the slot has moved on to another run.

* `Traffic.SingleFlight` — who starts a run, who joins it, and what either of them is told.
* `Traffic.single_flight` — all of that holds whatever happens, in whatever order.

The invariant is `Traffic.Tallied`: every caller stands to the log as `LoggedCall.Stands` has it. It
rests on the soundness of the flight, which is where the guard and the slot come in.
-/

namespace LiveSchema

namespace Coordinator

variable {c c' : Coordinator} {s s' : DefinitionSource}

/-- The run that ends if the one at a place goes on, and the result that it comes to. -/
def ending? (c : Coordinator) (place : Nat) (s : DefinitionSource) : Option (Nat × RunResult) :=
  match c.flight.runs[place]? with
  | none => none
  | some active =>
    match c.workOn? s active.run with
    | some (.ends result, _, _) => some (active.channel, result)
    | _ => none

/-- A step of a run leaves the callers alone. If the run ends, its result is published and was the
one that it came to; only then a batch may have been handed to the compiler. -/
theorem stepRun_ending? {place : Nat} (hs : c.flight.Sound)
    (h : c.stepRun place s = some (c', s')) :
    c'.flight.callers = c.flight.callers ∧
      c'.flight.channels.length = c.flight.channels.length ∧
      ∃ published : Option RunResult,
        c.ending? place s = published.map (c.results.length, ·) ∧
        c'.results = c.results ++ published.toList ∧
        published ≠ some (.error .aborted) ∧
        c'.compiles ≤ c.compiles + published.toList.length := by
  unfold stepRun at h
  unfold ending?
  cases hactive : c.flight.runs[place]? with
  | none =>
      rw [hactive] at h
      cases h
  | some active =>
      obtain ⟨channel, run⟩ := active
      obtain ⟨-, hruns⟩ := hs.runs_eq_of_getElem? hactive
      obtain rfl := hs.channel_eq hruns
      rw [hactive] at h
      dsimp only at h ⊢
      cases hpart : c.workOn? s run with
      | none =>
          rw [hpart] at h
          cases h
      | some part =>
          obtain ⟨step, c₁, s₁⟩ := part
          rw [hpart] at h
          dsimp only at h
          obtain ⟨hflight, hends⟩ := workOn?_cases hpart
          rw [hflight] at h
          cases h
          rcases hends with ⟨next, rfl, hcompiles⟩ | ⟨result, rfl, hcompiles, hwhole⟩
          · exact ⟨rfl, rfl, none, rfl, (List.append_nil _).symm, nofun, hcompiles.le⟩
          · exact ⟨rfl, List.length_set, some result, rfl, hs.results_finish hruns result,
              fun haborted => hwhole (Option.some.inj haborted), hcompiles⟩

theorem ending?_of_stepRun_eq_none {place : Nat} (h : c.stepRun place s = none) :
    c.ending? place s = none := by
  unfold stepRun at h
  unfold ending?
  cases hactive : c.flight.runs[place]? with
  | none => rfl
  | some active =>
      rw [hactive] at h
      dsimp only at h ⊢
      cases hpart : c.workOn? s active.run with
      | none => rfl
      | some part =>
          rw [hpart] at h
          cases h

/-- Work on a run that nothing keeps waiting ends it. -/
theorem isReloading_workOnRun (hs : c.flight.Sound) (hr : c.RemembersCurrent)
    (hheld : s.held = false) : (c.workOnRun s).1.isReloading = false := by
  have hnot : ¬ s.held = true := by simp [hheld]
  cases hrunning : c.isReloading with
  | false =>
      rw [workOnRun, stepRun_of_none (hs.runs_of_idle hrunning)]
      exact hrunning
  | true =>
      obtain ⟨run, hrun⟩ := exists_run hs hrunning
      cases ha : s.store.available with
      | true =>
          rw [workOnRun_of_available hs hrunning hr ha, workOnRun_begun hs hrun,
            if_neg (show ¬ (c.prepared s).held = true from hnot)]
          rfl
      | false =>
          rcases workOnRun_of_unavailable hs hrunning hr ha with ⟨error, hfailed⟩ | ⟨hwaits, -⟩
          · rw [hfailed]
            rfl
          · exact absurd hwaits hnot

end Coordinator

namespace Engine

/-- The runs under way, by their numbers. -/
def runs (e : Engine) : List Nat := e.coordinator.flight.runs.map (·.channel)

/-- Whether an event is about the runs of reloads or those who wait for them. -/
def Event.isAboutReloads : Event → Bool
  | .reload .. | .dismiss _ | .wake _ | .stepRun _ => true
  | _ => false

/-- All other events leave the runs and those who wait for them alone. -/
theorem flight_after (e : Engine) (event : Event) (hother : event.isAboutReloads = false) :
    (e.after event).coordinator.flight = e.coordinator.flight ∧
      (e.after event).coordinator.compiles = e.coordinator.compiles := by
  cases event with
  | reload | dismiss | wake | stepRun => cases hother
  | stepSweep =>
      unfold Engine.after
      dsimp only
      split <;> exact ⟨rfl, rfl⟩
  | edit | changeDatabase | registerOverride | addBase | isSubtype | relationshipsBetween
  | shutDown => exact ⟨rfl, rfl⟩

/-- Work on a run is two of its steps, of which the second may find nothing to do. -/
theorem workOnRun_eq (e : Engine) : e.workOnRun = (e.after .stepRun).after .stepRun := by
  unfold workOnRun Coordinator.workOnRun
  cases hfirst : e.coordinator.stepRun 0 e.source with
  | none =>
      have hstay : e.after .stepRun = e := by
        unfold after
        dsimp only
        rw [hfirst]
      rw [hstay, hstay]
  | some first =>
      have hmove : e.after .stepRun = { e with coordinator := first.1, source := first.2 } := by
        unfold after
        dsimp only
        rw [hfirst]
      rw [hmove]
      unfold after
      dsimp only
      cases hsecond : first.1.stepRun 0 first.2 <;> rfl

end Engine

/-! ### The log -/

/-- A call for a reload that was made. -/
structure LoggedCall where
  /-- Whether the caller waits for a run that is under way. -/
  waits : Bool
  /-- The runs that were under way when he called. -/
  active : List Nat
  /-- The runs that his call has started. -/
  started : List Nat

/-- An engine, the calls for a reload that were made so far, and the runs that have ended. -/
structure Traffic where
  engine : Engine
  calls : List LoggedCall := []
  /-- Each run that has ended, with the result that it came to. -/
  ended : List (Nat × RunResult) := []

namespace Traffic

/-- The engine and the log after an event. -/
def after (t : Traffic) (event : Engine.Event) : Traffic where
  engine := t.engine.after event
  calls := match event with
    | .reload _ waits =>
      t.calls ++ [⟨waits, t.engine.runs,
        (t.engine.after event).runs.filter (· ∉ t.engine.runs)⟩]
    | _ => t.calls
  ended := match event with
    | .stepRun place => t.ended ++ (t.engine.coordinator.ending? place t.engine.source).toList
    | _ => t.ended

/-- What the caller of a logged call has been told. -/
def told (t : Traffic) (call : Nat) : Option ReloadOutcome := t.engine.coordinator.outcome? call

/-- The caller of a logged call has left without being told. -/
def HasLeft (t : Traffic) (call : Nat) : Prop :=
  t.engine.coordinator.flight.callers[call]? = some .left

/-- Reloads are single-flight, and everybody is told the truth about them. -/
structure SingleFlight (t : Traffic) : Prop where
  /-- No run is under way and nobody holds the guard; or one is, it holds the guard, and the slot
  has its channel. -/
  one_active : (t.engine.runs = [] ∧ t.engine.coordinator.isReloading = false) ∨
    ∃ n, t.engine.runs = [n] ∧ t.engine.coordinator.flight.compiling.holder = some n ∧
      t.engine.coordinator.flight.inFlight = some n
  /-- Every run was started by exactly one call, -/
  started_once : ∀ n, t.calls.countP (n ∈ ·.started) =
    if n ∈ t.engine.runs ∨ n ∈ t.ended.map Prod.fst then 1 else 0
  /-- and has not ended or has ended once. -/
  ended_once : (t.ended.map Prod.fst ++ t.engine.runs).Nodup
  /-- Who has started a run is told the result of this run. -/
  owner : ∀ {call : Nat} {r : LoggedCall} {n : Nat}, t.calls[call]? = some r → n ∈ r.started →
    ∀ outcome, t.told call = some outcome →
      ∃ result, (n, result) ∈ t.ended ∧ outcome = .ofOwnRun result
  /-- A call while no run is under way starts one, and its caller is never told that there was
  one. -/
  fresh : ∀ {call : Nat} {r : LoggedCall}, t.calls[call]? = some r → r.active = [] →
    (∃ n, r.started = [n]) ∧ t.told call ≠ some .alreadyInProgress ∧
      ∀ result, t.told call ≠ some (.joined result)
  /-- A call while a run is under way starts none. -/
  starts_none : ∀ {call : Nat} {r : LoggedCall} {n : Nat}, t.calls[call]? = some r →
    n ∈ r.active → r.started = []
  /-- Who waits for a run that was under way is told the result of this run, -/
  joiner : ∀ {call : Nat} {r : LoggedCall} {n : Nat}, t.calls[call]? = some r → n ∈ r.active →
    r.waits = true → ∀ outcome, t.told call = some outcome →
      ∃ result, (n, result) ∈ t.ended ∧ outcome = .joined result
  /-- and who does not want to wait is turned away at once. -/
  refused : ∀ {call : Nat} {r : LoggedCall} {n : Nat}, t.calls[call]? = some r → n ∈ r.active →
    r.waits = false → t.told call = some .alreadyInProgress
  /-- A call while a run is under way changes nothing but who waits, once the one is gone who waited
  under the same name. -/
  undisturbed : t.engine.coordinator.isReloading = true → ∀ caller waits,
    let e := t.engine.after (.dismiss caller)
    ∃ newcomer names, t.engine.after (.reload caller waits) =
      { e with
        coordinator := { e.coordinator with
          flight := { e.coordinator.flight with
            callers := e.coordinator.flight.callers ++ [newcomer] } }
        callers := names }
  /-- Nobody finds that his run has vanished, and has to ask again. -/
  kept : ∀ caller ∈ t.engine.coordinator.flight.callers,
    caller ≠ .retrying ∧ caller ≠ .told (.failed .aborted)
  /-- What has been told stays so. -/
  lasting : ∀ {call : Nat} {outcome}, t.told call = some outcome → ∀ events : List Engine.Event,
    (events.foldl after t).told call = some outcome
  /-- A run that nothing keeps waiting ends in two steps, and then everybody who wakes is told,
  unless he has left. -/
  ends : t.engine.source.held = false → ∀ call < t.calls.length, ¬ t.HasLeft call →
    ∃ outcome, (((t.after .stepRun).after .stepRun).after (.wake call)).told call = some outcome
  /-- No run compiles twice. -/
  compiles : t.engine.coordinator.compiles ≤ t.calls.countP (·.started ≠ [])

end Traffic

/-! ### What becomes of a caller -/

/-- How a caller stands to what is logged of his call, when so many runs were started and these are
the results of those that have ended. -/
inductive LoggedCall.Stands (results : List RunResult) (runs : Nat) :
    LoggedCall → Caller → Prop where
  | owns {waits n} (h : n < runs) : Stands results runs ⟨waits, [], [n]⟩ (.owning n)
  | owned {waits n result} (h : results[n]? = some result) :
      Stands results runs ⟨waits, [], [n]⟩ (.told (.ofOwnRun result))
  | deserts {waits n} : Stands results runs ⟨waits, [], [n]⟩ .left
  | joins {n} (h : n < runs) : Stands results runs ⟨true, [n], []⟩ (.joining n)
  | joined {n result} (h : results[n]? = some result) :
      Stands results runs ⟨true, [n], []⟩ (.told (.joined result))
  | gives_up {n} : Stands results runs ⟨true, [n], []⟩ .left
  | refused {n} : Stands results runs ⟨false, [n], []⟩ (.told .alreadyInProgress)

namespace LoggedCall.Stands

variable {results results' : List RunResult} {runs runs' : Nat} {r : LoggedCall} {caller : Caller}

/-- More runs may start, and more of them end. -/
theorem mono (h : r.Stands results runs caller) (hmore : results <+: results')
    (hle : runs ≤ runs') : r.Stands results' runs' caller := by
  obtain ⟨more, rfl⟩ := hmore
  have hresult {n : Nat} {result : RunResult} (hn : results[n]? = some result) :
      (results ++ more)[n]? = some result := by
    rw [List.getElem?_append_left (List.getElem?_eq_some_iff.mp hn).1, hn]
  cases h with
  | owns h => exact .owns (h.trans_le hle)
  | owned h => exact .owned (hresult h)
  | deserts => exact .deserts
  | joins h => exact .joins (h.trans_le hle)
  | joined h => exact .joined (hresult h)
  | gives_up => exact .gives_up
  | refused => exact .refused

theorem leave (h : r.Stands results runs caller) : r.Stands results runs caller.leave := by
  cases h with
  | owns h => exact .deserts
  | owned h => exact .owned h
  | deserts => exact .deserts
  | joins h => exact .gives_up
  | joined h => exact .joined h
  | gives_up => exact .gives_up
  | refused => exact .refused

/-- He hears of the run that he waits for, and of no other. -/
theorem hears {f : Flight} (h : r.Stands f.results runs caller) :
    r.Stands f.results runs (f.hears caller) := by
  cases h with
  | @owns _ n h =>
      unfold Flight.hears
      dsimp only
      cases hresult : f.results[n]? with
      | none => exact .owns h
      | some result => exact .owned hresult
  | owned h => exact .owned h
  | deserts => exact .deserts
  | @joins n h =>
      unfold Flight.hears
      dsimp only
      cases hresult : f.results[n]? with
      | none => exact .joins h
      | some result => exact .joined hresult
  | joined h => exact .joined h
  | gives_up => exact .gives_up
  | refused => exact .refused

/-- When all runs have ended, everybody hears something, unless he has left. -/
theorem exists_told {f : Flight} (h : r.Stands f.results f.results.length caller)
    (hstays : caller ≠ .left) : ∃ outcome, f.hears caller = .told outcome := by
  cases h with
  | owns h => exact ⟨_, by rw [Flight.hears, List.getElem?_eq_getElem h]; rfl⟩
  | owned h => exact ⟨_, rfl⟩
  | deserts => exact absurd rfl hstays
  | joins h => exact ⟨_, by rw [Flight.hears, List.getElem?_eq_getElem h]; rfl⟩
  | joined h => exact ⟨_, rfl⟩
  | gives_up => exact absurd rfl hstays
  | refused => exact ⟨_, rfl⟩

end LoggedCall.Stands

/-- Who stands to whom does not change if one of them stays as good as he was. -/
theorem forall₂_modify {α β : Type} {R : α → β → Prop} {as : List α} {bs : List β}
    (h : List.Forall₂ R as bs) {change : β → β} (hchange : ∀ {a b}, R a b → R a (change b))
    (place : Nat) : List.Forall₂ R as (bs.modify place change) := by
  induction h generalizing place with
  | nil => cases place <;> exact .nil
  | cons hfirst hrest ih =>
      cases place with
      | zero => exact .cons (hchange hfirst) hrest
      | succ place => exact .cons hfirst (ih place)

theorem exists_getElem?_of_forall₂ {α β : Type} {R : α → β → Prop} {as : List α} {bs : List β}
    (h : List.Forall₂ R as bs) {place : Nat} {a : α} (ha : as[place]? = some a) :
    ∃ b, bs[place]? = some b ∧ R a b := by
  induction h generalizing place with
  | nil => cases ha
  | cons hfirst hrest ih =>
      cases place with
      | zero =>
          cases ha
          exact ⟨_, rfl, hfirst⟩
      | succ place => exact ih ha

namespace Traffic

/-! ### The invariant -/

/-- How many runs were started. -/
def begun (t : Traffic) : Nat := t.engine.coordinator.flight.channels.length

/-- The log tallies with the flight. -/
structure Tallied (t : Traffic) : Prop where
  sound : t.engine.Sound
  ended : t.ended = t.engine.coordinator.results.zipIdx.map Prod.swap
  started : ∀ n, t.calls.countP (n ∈ ·.started) = if n < t.begun then 1 else 0
  starters : t.calls.countP (·.started ≠ []) = t.begun
  stands : List.Forall₂ (LoggedCall.Stands t.engine.coordinator.results t.begun) t.calls
    t.engine.coordinator.flight.callers
  whole : ∀ result ∈ t.engine.coordinator.results, result ≠ .error .aborted
  compiles : t.engine.coordinator.compiles ≤ t.engine.coordinator.results.length

variable {t : Traffic}

theorem tallied_start (config : EngineConfig) {source : DefinitionSource}
    (hk : source.store.Keyed) (db : Database) :
    Tallied { engine :=
      { source := source, db := db, coordinator := Coordinator.ofConfig config } } where
  sound := (Engine.Reachable.start config hk db).sound
  ended := rfl
  started _ := rfl
  starters := rfl
  stands := .nil
  whole := nofun
  compiles := le_refl 0

/-- The log tallies with other callers who stand to it. -/
theorem Tallied.congr (h : t.Tallied) {e : Engine} (hsound : e.Sound) {callers : List Caller}
    (hflight : e.coordinator.flight = { t.engine.coordinator.flight with callers := callers })
    (hcompiles : e.coordinator.compiles = t.engine.coordinator.compiles)
    (hstands : List.Forall₂ (LoggedCall.Stands t.engine.coordinator.results t.begun) t.calls
      callers) : Tallied { t with engine := e } := by
  have hresults : e.coordinator.results = t.engine.coordinator.results := by
    rw [Coordinator.results, hflight]
    rfl
  have hbegun : Traffic.begun { t with engine := e } = t.begun := by
    unfold Traffic.begun
    rw [hflight]
  have hcallers : e.coordinator.flight.callers = callers := by rw [hflight]
  exact
    { sound := hsound
      ended := by rw [hresults]; exact h.ended
      started := fun n => by rw [hbegun]; exact h.started n
      starters := by rw [hbegun]; exact h.starters
      stands := by rw [hresults, hbegun, hcallers]; exact hstands
      whole := by rw [hresults]; exact h.whole
      compiles := by rw [hresults, hcompiles]; exact h.compiles }

/-- Who leaves stands to the log, and so do all others. -/
theorem Tallied.dismiss (h : t.Tallied) (caller : String) :
    (t.after (.dismiss caller)).Tallied := by
  have hsound := h.sound.after (.dismiss caller)
  obtain ⟨retired, flight, names, hframe, hflight⟩ := t.engine.dismiss_frame caller
  show Tallied { t with engine := t.engine.dismiss caller }
  rw [Engine.after, hframe] at hsound
  rw [hframe]
  rcases hflight with rfl | ⟨call, rfl⟩
  · exact h.congr hsound rfl rfl h.stands
  · exact h.congr hsound rfl rfl (forall₂_modify h.stands (·.leave) call)

/-- Who wakes hears the truth. -/
theorem Tallied.wake (h : t.Tallied) (call : Nat) : (t.after (.wake call)).Tallied :=
  h.congr (h.sound.after (.wake call)) (h.sound.flight.wake_eq call) rfl
    (forall₂_modify h.stands (·.hears) call)

/-- The engine and the log after a call. -/
def called (t : Traffic) (waits : Bool) (e : Engine) : Traffic where
  engine := e
  calls := t.calls ++ [⟨waits, t.engine.runs, e.runs.filter (· ∉ t.engine.runs)⟩]
  ended := t.ended

/-- A call while no run is under way starts one. -/
theorem Tallied.start (h : t.Tallied) {e : Engine} (hsound : e.Sound) {waits : Bool}
    (hidle : t.engine.coordinator.flight.compiling.isRunning = false)
    (hask : e.coordinator.flight = t.engine.coordinator.flight.ask waits)
    (hcompiles : e.coordinator.compiles = t.engine.coordinator.compiles) :
    (t.called waits e).Tallied := by
  have hnone := h.sound.flight.runs_of_idle hidle
  rw [Flight.Sound.ask_of_idle hidle] at hask
  have hruns : t.engine.runs = [] := by rw [Engine.runs, hnone]; rfl
  have hstarted : e.runs = [t.begun] := by
    rw [Engine.runs, hask, Flight.started, hnone]
    rfl
  have hcalls : (t.called waits e).calls = t.calls ++ [⟨waits, [], [t.begun]⟩] := by
    rw [called, hruns, hstarted]
    rfl
  have hresults : e.coordinator.results = t.engine.coordinator.results := by
    rw [Coordinator.results, hask]
    simp [Flight.started, Flight.results, Coordinator.results]
  have hbegun : (t.called waits e).begun = t.begun + 1 := by
    show e.coordinator.flight.channels.length = t.begun + 1
    rw [hask]
    exact List.length_append
  have hcallers : e.coordinator.flight.callers =
      t.engine.coordinator.flight.callers ++ [.owning t.begun] := by
    rw [hask]
    rfl
  refine
    { sound := hsound
      ended := h.ended.trans (congrArg (fun results => results.zipIdx.map Prod.swap) hresults.symm)
      started := fun n => ?started
      starters := ?starters
      stands := ?stands
      whole := fun result hresult => h.whole result (hresults ▸ hresult)
      compiles := (hcompiles.trans_le h.compiles).trans_eq (congrArg List.length hresults.symm) }
  case started =>
    rw [hcalls, hbegun, List.countP_append, h.started n, List.countP_singleton]
    by_cases hn : n = t.begun
    · simp [hn]
    · have hlt : n < t.begun + 1 ↔ n < t.begun := by omega
      simp [hn, hlt]
  case starters =>
    rw [hcalls, hbegun, List.countP_append, h.starters]
    rfl
  case stands =>
    show List.Forall₂ (LoggedCall.Stands e.coordinator.results _) _ e.coordinator.flight.callers
    rw [hcalls, hbegun, hresults, hcallers]
    refine List.rel_append (h.stands.imp fun _ _ hstands => ?_)
      (.cons (.owns (Nat.lt_succ_self _)) .nil)
    exact hstands.mono (List.prefix_refl _) (Nat.le_succ _)

/-- A call while a run is under way is about that run. -/
theorem Tallied.join (h : t.Tallied) {e : Engine} (hsound : e.Sound) {waits : Bool}
    (hrunning : t.engine.coordinator.flight.compiling.isRunning = true)
    (hask : e.coordinator.flight = t.engine.coordinator.flight.ask waits)
    (hcompiles : e.coordinator.compiles = t.engine.coordinator.compiles) :
    (t.called waits e).Tallied := by
  obtain ⟨run, hrun, -⟩ := h.sound.flight.runs_of_running hrunning
  rw [h.sound.flight.ask_of_running hrunning] at hask
  have hruns : t.engine.runs = [t.engine.coordinator.results.length] := by
    rw [Engine.runs, hrun]
    rfl
  have hsame : e.runs = t.engine.runs := by
    rw [Engine.runs, hask]
    rfl
  have hcalls : (t.called waits e).calls =
      t.calls ++ [⟨waits, [t.engine.coordinator.results.length], []⟩] := by
    rw [called, hsame, hruns]
    simp
  have hresults : e.coordinator.results = t.engine.coordinator.results := by
    rw [Coordinator.results, hask]
    rfl
  have hbegun : (t.called waits e).begun = t.begun := by
    show e.coordinator.flight.channels.length = t.begun
    rw [hask]
    rfl
  have hcallers : e.coordinator.flight.callers = t.engine.coordinator.flight.callers ++
      [if waits then .joining t.engine.coordinator.results.length
        else .told .alreadyInProgress] := by
    rw [hask]
    rfl
  have hlt : t.engine.coordinator.results.length < t.begun := by
    show t.engine.coordinator.flight.results.length < t.engine.coordinator.flight.channels.length
    rw [h.sound.flight.length_channels, hrun]
    exact Nat.lt_succ_self _
  refine
    { sound := hsound
      ended := h.ended.trans (congrArg (fun results => results.zipIdx.map Prod.swap) hresults.symm)
      started := fun n => ?started
      starters := ?starters
      stands := ?stands
      whole := fun result hresult => h.whole result (hresults ▸ hresult)
      compiles := (hcompiles.trans_le h.compiles).trans_eq (congrArg List.length hresults.symm) }
  case started =>
    rw [hcalls, hbegun, List.countP_append, h.started n]
    rfl
  case starters =>
    rw [hcalls, hbegun, List.countP_append, h.starters]
    rfl
  case stands =>
    show List.Forall₂ (LoggedCall.Stands e.coordinator.results _) _ e.coordinator.flight.callers
    rw [hcalls, hbegun, hresults, hcallers]
    refine List.rel_append h.stands (.cons ?_ .nil)
    cases waits with
    | true => exact .joins hlt
    | false => exact .refused

theorem Tallied.reload (h : t.Tallied) (caller : String) (waits : Bool) :
    (t.after (.reload caller waits)).Tallied := by
  have hsound := h.sound.after (.reload caller waits)
  have hdismissed := h.dismiss caller
  -- who leaves under the name takes no run with him
  have hruns : (t.after (.dismiss caller)).engine.runs = t.engine.runs := by
    obtain ⟨retired, flight, names, hframe, hflight⟩ := t.engine.dismiss_frame caller
    show (t.engine.dismiss caller).runs = t.engine.runs
    rw [hframe]
    rcases hflight with rfl | ⟨call, rfl⟩ <;> rfl
  have hafter : t.after (.reload caller waits) =
      (t.after (.dismiss caller)).called waits (t.engine.after (.reload caller waits)) := by
    rw [called, hruns]
    rfl
  rw [hafter]
  cases hrunning :
      (t.after (.dismiss caller)).engine.coordinator.flight.compiling.isRunning with
  | false => exact hdismissed.start hsound hrunning rfl rfl
  | true => exact hdismissed.join hsound hrunning rfl rfl

/-- A step of a run keeps the tally, also when the run ends. -/
theorem Tallied.stepRun (h : t.Tallied) (place : Nat) : (t.after (.stepRun place)).Tallied := by
  have hsound := h.sound.after (.stepRun place)
  cases hstep : t.engine.coordinator.stepRun place t.engine.source with
  | none =>
      have hstay : t.after (.stepRun place) = t := by
        unfold after Engine.after
        dsimp only
        rw [hstep, Coordinator.ending?_of_stepRun_eq_none hstep, Option.toList_none,
          List.append_nil]
      rw [hstay]
      exact h
  | some moved =>
      obtain ⟨c, s⟩ := moved
      have hmove : t.engine.after (.stepRun place) =
          { t.engine with coordinator := c, source := s } := by
        unfold Engine.after
        dsimp only
        rw [hstep]
      obtain ⟨hcallers, hchannels, published, hending, hresults, hwhole, hcompiles⟩ :=
        Coordinator.stepRun_ending? h.sound.flight hstep
      have hafter : t.after (.stepRun place) =
          { engine := { t.engine with coordinator := c, source := s }
            calls := t.calls
            ended := t.ended ++ (t.engine.coordinator.ending? place t.engine.source).toList } := by
        rw [← hmove]
        rfl
      rw [hmove] at hsound
      rw [hafter, hending]
      refine
        { sound := hsound
          ended := ?ended
          started := fun n => by rw [h.started n, Traffic.begun, Traffic.begun, hchannels]
          starters := h.starters.trans hchannels.symm
          stands := ?stands
          whole := ?whole
          compiles := ?compiles }
      case ended =>
        show t.ended ++ _ = c.results.zipIdx.map Prod.swap
        rw [hresults, List.zipIdx_append, List.map_append, ← h.ended, Nat.zero_add]
        cases published <;> rfl
      case stands =>
        rw [Traffic.begun, hchannels, hresults, hcallers]
        exact h.stands.imp fun _ _ hstands =>
          hstands.mono (List.prefix_append _ _) (Nat.le_refl _)
      case whole =>
        rw [hresults]
        rintro result hresult rfl
        rcases List.mem_append.mp hresult with hold | hnew
        · exact h.whole _ hold rfl
        · exact hwhole (Option.mem_toList.mp hnew)
      case compiles =>
        rw [hresults, List.length_append]
        exact hcompiles.trans (Nat.add_le_add_right h.compiles _)

/-- Whatever happens, the log goes on tallying. -/
theorem Tallied.after (h : t.Tallied) (event : Engine.Event) : (t.after event).Tallied := by
  have hother := t.engine.flight_after event
  cases event with
  | reload caller waits => exact h.reload caller waits
  | dismiss caller => exact h.dismiss caller
  | wake call => exact h.wake call
  | stepRun place => exact h.stepRun place
  | edit | changeDatabase | registerOverride | addBase | stepSweep | isSubtype
  | relationshipsBetween | shutDown =>
      obtain ⟨hflight, hcompiles⟩ := hother rfl
      exact h.congr (h.sound.after _) hflight hcompiles h.stands

theorem Tallied.foldl (h : t.Tallied) (events : List Engine.Event) :
    (events.foldl Traffic.after t).Tallied := by
  induction events generalizing t with
  | nil => exact h
  | cons event events ih => exact ih (h.after event)

/-! ### What follows from it -/

/-- The runs are numbered in the order in which they were started, and end in this order. -/
theorem Tallied.numbers (h : t.Tallied) :
    t.ended.map Prod.fst ++ t.engine.runs = List.range t.begun := by
  have hended : t.ended.map Prod.fst = List.range t.engine.coordinator.results.length := by
    rw [h.ended, List.map_map, List.range_eq_range', ← List.zipIdx_map_snd]
    rfl
  have hlength := h.sound.flight.length_channels
  rw [hended, begun, hlength, Engine.runs]
  rcases h.sound.flight.runs with hnone | ⟨run, hrun⟩
  · rw [hnone]
    exact List.append_nil _
  · rw [hrun, List.map_singleton, List.length_singleton, List.range_succ]
    rfl

theorem Tallied.mem_ended (h : t.Tallied) {n : Nat} {result : RunResult}
    (hn : t.engine.coordinator.results[n]? = some result) : (n, result) ∈ t.ended := by
  rw [h.ended]
  exact List.mem_map.mpr ⟨(result, n), List.mem_zipIdx_iff_getElem?.mpr hn, rfl⟩

theorem told_eq_some {call : Nat} {outcome : ReloadOutcome} :
    t.told call = some outcome ↔
      t.engine.coordinator.flight.callers[call]? = some (.told outcome) := by
  show t.engine.coordinator.flight.outcome? call = some outcome ↔ _
  unfold Flight.outcome?
  split
  next told hcall => simp [hcall]
  next hcall =>
    refine iff_of_false nofun fun htold => hcall outcome htold

/-- The caller of a logged call stands to what is logged. -/
theorem Tallied.exists_caller (h : t.Tallied) {call : Nat} {r : LoggedCall}
    (hcall : t.calls[call]? = some r) :
    ∃ caller, t.engine.coordinator.flight.callers[call]? = some caller ∧
      r.Stands t.engine.coordinator.results t.begun caller :=
  exists_getElem?_of_forall₂ h.stands hcall

theorem Tallied.callers_stepRun (h : t.Tallied) (place : Nat) :
    (t.after (.stepRun place)).engine.coordinator.flight.callers =
      t.engine.coordinator.flight.callers := by
  show (t.engine.after (.stepRun place)).coordinator.flight.callers = _
  unfold Engine.after
  dsimp only
  split
  next hstep => exact (Coordinator.stepRun_ending? h.sound.flight hstep).1
  next => rfl

/-- Who has been told stands to what is logged as one who has been told. -/
theorem Tallied.stands_told (h : t.Tallied) {call : Nat} {r : LoggedCall} {outcome : ReloadOutcome}
    (hcall : t.calls[call]? = some r) (htold : t.told call = some outcome) :
    r.Stands t.engine.coordinator.results t.begun (.told outcome) := by
  obtain ⟨caller, hcaller, hstands⟩ := h.exists_caller hcall
  rw [told_eq_some.mp htold] at hcaller
  exact Option.some.inj hcaller ▸ hstands

/-- Nobody who has been told is told otherwise. -/
theorem Tallied.told_after (h : t.Tallied) {call : Nat} {outcome : ReloadOutcome}
    (htold : t.told call = some outcome) (event : Engine.Event) :
    (t.after event).told call = some outcome := by
  rw [told_eq_some] at htold ⊢
  have hleft {flight : Flight} (hflight : flight = t.engine.coordinator.flight ∨
      ∃ other, flight = t.engine.coordinator.flight.leave other) :
      flight.callers[call]? = some (.told outcome) := by
    rcases hflight with rfl | ⟨other, rfl⟩
    · exact htold
    · rw [Flight.leave, List.getElem?_modify, htold]
      split <;> rfl
  have hother := t.engine.flight_after event
  show (t.engine.after event).coordinator.flight.callers[call]? = _
  cases event with
  | reload caller waits =>
      obtain ⟨retired, flight, names, hframe, hflight⟩ := t.engine.reload_frame caller waits
      obtain ⟨newcomer, hask⟩ := flight.exists_callers_ask waits
      have hold := hleft hflight
      rw [Engine.after, hframe]
      show (flight.ask waits).callers[call]? = _
      rw [hask, List.getElem?_append_left (List.getElem?_eq_some_iff.mp hold).1]
      exact hold
  | dismiss caller =>
      obtain ⟨retired, flight, names, hframe, hflight⟩ := t.engine.dismiss_frame caller
      rw [Engine.after, hframe]
      exact hleft hflight
  | wake other =>
      show (t.engine.coordinator.flight.wake other).callers[call]? = _
      rw [h.sound.flight.wake_eq, List.getElem?_modify, htold]
      split <;> rfl
  | stepRun place => exact (congrArg (·[call]?) (h.callers_stepRun place)).trans htold
  | edit | changeDatabase | registerOverride | addBase | stepSweep | isSubtype
  | relationshipsBetween | shutDown =>
      rw [(hother rfl).1]
      exact htold

theorem Tallied.told_foldl (h : t.Tallied) {call : Nat} {outcome : ReloadOutcome}
    (htold : t.told call = some outcome) (events : List Engine.Event) :
    (events.foldl Traffic.after t).told call = some outcome := by
  induction events generalizing t with
  | nil => exact htold
  | cons event events ih => exact ih (h.after event) (h.told_after htold event)

theorem Tallied.one_active (h : t.Tallied) :
    (t.engine.runs = [] ∧ t.engine.coordinator.isReloading = false) ∨
      ∃ n, t.engine.runs = [n] ∧ t.engine.coordinator.flight.compiling.holder = some n ∧
        t.engine.coordinator.flight.inFlight = some n := by
  have hflight := h.sound.flight
  rcases hflight.runs with hnone | ⟨run, hrun⟩
  · refine Or.inl ⟨?_, hflight.isRunning_of_none hnone⟩
    rw [Engine.runs, hnone]
    rfl
  · have hheld := hflight.held
    rw [hrun] at hheld
    refine Or.inr ⟨_, ?_, hheld, hflight.slot _ (hrun ▸ List.mem_singleton_self _)⟩
    rw [Engine.runs, hrun]
    rfl

theorem Tallied.started_once (h : t.Tallied) (n : Nat) :
    t.calls.countP (n ∈ ·.started) =
      if n ∈ t.engine.runs ∨ n ∈ t.ended.map Prod.fst then 1 else 0 := by
  have hmem : n ∈ t.engine.runs ∨ n ∈ t.ended.map Prod.fst ↔ n < t.begun := by
    rw [or_comm, ← List.mem_append, h.numbers, List.mem_range]
  rw [h.started n]
  simp only [hmem]

theorem Tallied.owner (h : t.Tallied) {call : Nat} {r : LoggedCall} {n : Nat}
    (hcall : t.calls[call]? = some r) (hn : n ∈ r.started) (outcome : ReloadOutcome)
    (htold : t.told call = some outcome) :
    ∃ result, (n, result) ∈ t.ended ∧ outcome = .ofOwnRun result := by
  cases h.stands_told hcall htold with
  | owned hresult =>
      rw [List.mem_singleton.mp hn]
      exact ⟨_, h.mem_ended hresult, rfl⟩
  | joined | refused => cases hn

theorem Tallied.joiner (h : t.Tallied) {call : Nat} {r : LoggedCall} {n : Nat}
    (hcall : t.calls[call]? = some r) (hn : n ∈ r.active) (hwaits : r.waits = true)
    (outcome : ReloadOutcome) (htold : t.told call = some outcome) :
    ∃ result, (n, result) ∈ t.ended ∧ outcome = .joined result := by
  cases h.stands_told hcall htold with
  | owned => cases hn
  | joined hresult =>
      rw [List.mem_singleton.mp hn]
      exact ⟨_, h.mem_ended hresult, rfl⟩
  | refused => cases hwaits

/-- Who has started a run is not told that there was one already. -/
theorem Tallied.told_of_started (h : t.Tallied) {call : Nat} {r : LoggedCall} {n : Nat}
    (hcall : t.calls[call]? = some r) (hn : n ∈ r.started) :
    t.told call ≠ some .alreadyInProgress ∧ ∀ result, t.told call ≠ some (.joined result) := by
  have hown {outcome : ReloadOutcome} (htold : t.told call = some outcome) :
      outcome ≠ .alreadyInProgress ∧ ∀ result, outcome ≠ .joined result := by
    obtain ⟨result, -, rfl⟩ := h.owner hcall hn outcome htold
    cases result <;> exact ⟨nofun, nofun⟩
  exact ⟨fun htold => (hown htold).1 rfl, fun result htold => (hown htold).2 result rfl⟩

/-- What a call has started depends on what was under way. -/
theorem Tallied.started_of_active (h : t.Tallied) {call : Nat} {r : LoggedCall}
    (hcall : t.calls[call]? = some r) :
    (r.active = [] ∧ ∃ n, r.started = [n]) ∨ ∃ n, r.active = [n] ∧ r.started = [] := by
  obtain ⟨caller, -, hstands⟩ := h.exists_caller hcall
  cases hstands with
  | owns | owned | deserts => exact Or.inl ⟨rfl, _, rfl⟩
  | joins | joined | gives_up | refused => exact Or.inr ⟨_, rfl, rfl⟩

theorem Tallied.refused (h : t.Tallied) {call : Nat} {r : LoggedCall} {n : Nat}
    (hcall : t.calls[call]? = some r) (hn : n ∈ r.active) (hwaits : r.waits = false) :
    t.told call = some .alreadyInProgress := by
  obtain ⟨caller, hcaller, hstands⟩ := h.exists_caller hcall
  rw [told_eq_some]
  cases hstands with
  | owns | owned | deserts => cases hn
  | joins | joined | gives_up => cases hwaits
  | refused => exact hcaller

theorem Tallied.undisturbed (h : t.Tallied)
    (hrunning : t.engine.coordinator.isReloading = true) (caller : String) (waits : Bool) :
    let e := t.engine.after (.dismiss caller)
    ∃ newcomer names, t.engine.after (.reload caller waits) =
      { e with
        coordinator := { e.coordinator with
          flight := { e.coordinator.flight with
            callers := e.coordinator.flight.callers ++ [newcomer] } }
        callers := names } := by
  intro e
  have hsound : e.coordinator.flight.Sound := (h.dismiss caller).sound.flight
  have hstill : e.coordinator.flight.compiling.isRunning = true := by
    obtain ⟨retired, flight, names, hframe, hflight⟩ := t.engine.dismiss_frame caller
    show (t.engine.dismiss caller).coordinator.flight.compiling.isRunning = true
    rw [hframe]
    rcases hflight with rfl | ⟨call, rfl⟩ <;> exact hrunning
  have hask : t.engine.after (.reload caller waits) =
      { e with
        coordinator := { e.coordinator with flight := e.coordinator.flight.ask waits }
        callers := (t.engine.after (.reload caller waits)).callers } := rfl
  rw [hask, hsound.ask_of_running hstill]
  exact ⟨_, _, rfl⟩

theorem Tallied.kept (h : t.Tallied) :
    ∀ caller ∈ t.engine.coordinator.flight.callers,
      caller ≠ .retrying ∧ caller ≠ .told (.failed .aborted) := by
  intro caller hcaller
  obtain ⟨call, hcall⟩ := List.mem_iff_getElem?.mp hcaller
  obtain ⟨r, -, hstands⟩ := exists_getElem?_of_forall₂ h.stands.flip hcall
  cases hstands with
  | @owned _ _ result hresult =>
      refine ⟨nofun, fun haborted => ?_⟩
      have hwhole := h.whole result (List.mem_of_getElem? hresult)
      cases result with
      | ok g => cases haborted
      | error error =>
          cases haborted
          exact hwhole rfl
  | owns | deserts | joins | joined | gives_up | refused => exact ⟨nofun, nofun⟩

/-- Two steps end a run that nothing keeps waiting. Then a caller who wakes finds a result on his
channel. -/
theorem Tallied.ends (h : t.Tallied) (hheld : t.engine.source.held = false) {call : Nat}
    (hlt : call < t.calls.length) (hstays : ¬ t.HasLeft call) :
    ∃ outcome, (((t.after .stepRun).after .stepRun).after (.wake call)).told call =
      some outcome := by
  have hlast := (h.after .stepRun).after .stepRun
  have hcallers : ((t.after .stepRun).after .stepRun).engine.coordinator.flight.callers =
      t.engine.coordinator.flight.callers :=
    ((h.after .stepRun).callers_stepRun 0).trans (h.callers_stepRun 0)
  have hidle : ((t.after .stepRun).after .stepRun).engine.coordinator.isReloading = false := by
    show ((t.engine.after .stepRun).after .stepRun).coordinator.isReloading = false
    rw [← Engine.workOnRun_eq]
    exact Coordinator.isReloading_workOnRun h.sound.flight h.sound.remembers hheld
  obtain ⟨caller, hcaller, hstands⟩ := hlast.exists_caller (List.getElem?_eq_getElem hlt)
  have hbegun : ((t.after .stepRun).after .stepRun).begun =
      ((t.after .stepRun).after .stepRun).engine.coordinator.results.length := by
    rw [begun, hlast.sound.flight.length_channels, hlast.sound.flight.runs_of_idle hidle]
    rfl
  rw [hbegun] at hstands
  have hpresent : caller ≠ .left := by
    intro hleft
    rw [hcallers, hleft] at hcaller
    exact hstays hcaller
  obtain ⟨outcome, htold⟩ := LoggedCall.Stands.exists_told hstands hpresent
  refine ⟨outcome, told_eq_some.mpr ?_⟩
  show (((t.after .stepRun).after .stepRun).engine.coordinator.flight.wake call).callers[call]? = _
  rw [hlast.sound.flight.wake_eq, List.getElem?_modify_eq, hcaller]
  exact congrArg some htold

/-- All that is said about reloads and their callers follows from the tally. -/
theorem Tallied.singleFlight (h : t.Tallied) : t.SingleFlight where
  one_active := h.one_active
  started_once := h.started_once
  ended_once := h.numbers ▸ List.nodup_range
  owner := h.owner
  fresh hcall hnone := by
    rcases h.started_of_active hcall with ⟨-, n, hstarted⟩ | ⟨n, hone, -⟩
    · exact ⟨⟨n, hstarted⟩, h.told_of_started hcall (hstarted ▸ List.mem_singleton_self n)⟩
    · cases hnone.symm.trans hone
  starts_none hcall hn := by
    rcases h.started_of_active hcall with ⟨hnone, -⟩ | ⟨-, -, hstarted⟩
    · rw [hnone] at hn
      cases hn
    · exact hstarted
  joiner := h.joiner
  refused := h.refused
  undisturbed := h.undisturbed
  kept := h.kept
  lasting htold events := h.told_foldl htold events
  ends hheld call hlt hstays := h.ends hheld hlt hstays
  compiles := by
    have hlength := h.sound.flight.length_channels
    rw [h.starters, begun, hlength]
    exact h.compiles.trans (Nat.le_add_right _ _)

/-- Reloads are single-flight, and everybody is told the truth about them, whatever happens to an
engine and whenever its callers wake. -/
theorem single_flight (config : EngineConfig) {source : DefinitionSource}
    (hk : source.store.Keyed) (db : Database) (events : List Engine.Event) :
    (events.foldl Traffic.after { engine :=
      { source := source, db := db, coordinator := Coordinator.ofConfig config } }).SingleFlight :=
  ((tallied_start config hk db).foldl events).singleFlight

/-- The second caller joins the run of the first, and sleeps on. When he wakes that run has ended,
and the slot has the channel of another one, which the fourth caller has started. -/
theorem single_flight_of_four_calls :
    let events : List Engine.Event := [.edit (.define (Definition.node "Person")),
      .reload "first" true, .stepRun, .reload "second" true, .reload "third" false, .stepRun,
      .reload "fourth" false, .wake 1, .wake 0]
    let start : Engine := { coordinator := Coordinator.ofConfig .inMemory }
    let t := events.foldl Traffic.after { engine := start }
    t.SingleFlight ∧ t.engine.runs = [1] ∧ t.engine.coordinator.flight.inFlight = some 1 ∧
      t.calls.map (·.active) = [[], [0], [0], []] ∧
      t.calls.map (·.started) = [[0], [], [], [1]] ∧
      t.ended.map Prod.fst = [0] ∧
      (List.range 4).map (fun call => (t.told call).map ReloadOutcome.label) =
        [some "committed", some "joined (committed)", some "already in progress", none] := by
  intro events start t
  refine ⟨single_flight .inMemory Store.keyed_empty {} events, ?_, ?_, ?_, ?_, ?_, ?_⟩ <;> decide

end Traffic

end LiveSchema
