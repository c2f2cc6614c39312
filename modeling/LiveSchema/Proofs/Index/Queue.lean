import LiveSchema.Index.Synchronizer
import LiveSchema.Proofs.Index.Sweep

/-!
# LiveSchema.Proofs.Index.Queue

What becomes of the requests that are queued for a synchronizer. Callers and the holder of the guard
take turns in any order (`Synchronizer.Event`); `Synchronizer.Handling` remembers what was asked
for, and whether the latest request came while an inline sweep held the guard.

* `Handling.settled_unless_during_inline` — when nobody holds the guard, nothing waits and
  everything asked for is completed, unless the latest request came during an inline sweep. Even
  then nothing is lost: what is not completed is in the request that waits.
* `Handling.inline_sweep_strands_request` — that does happen: a request that finds the guard held
  relies on its holder to look at the queue again, and only the worker does.
* `Handling.settled_of_queue` — no request is left behind as long as no sweep is run inline.

What carries the proofs is `Handling.Accounted`, which every event keeps.
-/

namespace LiveSchema

/-! ### What a step of a sweep leaves alone -/

namespace Sweep

/-- Whatever a sweep counts, it counts it for the same generation. -/
theorem stats_issue (s : Sweep) (db : Database) (statement : IndexStatement) :
    (s.issue db statement).1.stats.sequence = s.stats.sequence ∧
      (s.issue db statement).1.stats.cancelled = s.stats.cancelled := by
  unfold issue count
  dsimp only
  split
  · exact ⟨rfl, rfl⟩
  · dsimp only
    split <;> exact ⟨rfl, rfl⟩

theorem stats_lookAt (s : Sweep) (settings : Settings) (unit : SweepUnit) :
    (s.lookAt settings unit).stats.sequence = s.stats.sequence ∧
      (s.lookAt settings unit).stats.cancelled = s.stats.cancelled := by
  unfold lookAt
  repeat' split
  all_goals exact ⟨rfl, rfl⟩

theorem stats_enter (s : Sweep) (settings : Settings) (stage : SweepStage) :
    (s.enter settings stage).stats.sequence = s.stats.sequence ∧
      (s.enter settings stage).stats.cancelled = s.stats.cancelled := by
  unfold enter
  repeat' split
  all_goals exact ⟨rfl, rfl⟩

theorem stats_step {s s' : Sweep} {db db' : Database} (h : s.step false db = .more s' db') :
    s'.stats.sequence = s.stats.sequence ∧ s'.stats.cancelled = s.stats.cancelled := by
  rcases step_cases h with ⟨statement, gate, -, -, hissue⟩ | ⟨unit, units, -, -, -, rfl⟩ |
    ⟨stage, stages, -, -, -, -, rfl⟩
  · have hstats := stats_issue { s with statement := none } { db with gate := gate } statement
    rw [hissue] at hstats
    exact hstats
  · exact stats_lookAt { s with units := units } db.settings unit
  · exact stats_enter { s with stages := stages } db.settings stage

end Sweep

theorem SyncRequest.sequence_coalesce (waiting arriving : SyncRequest) :
    (waiting.coalesce arriving).generation.sequence =
      max waiting.generation.sequence arriving.generation.sequence := by
  unfold coalesce
  by_cases hle : waiting.generation.sequence ≤ arriving.generation.sequence
  · simp only [if_pos hle, max_eq_right hle]
  · simp only [if_neg hle, max_eq_left (not_le.mp hle).le]

namespace Synchronizer

/-! ### What a step and a request come to -/

/-- Who holds the guard. -/
def holder (s : Synchronizer) : Option Sweeper :=
  s.activity.map fun
    | .scheduled => .worker
    | .sweeping sweeper _ => sweeper

/-- Whether a sweep for a generation, or a later one, has been completed, is under way for the
worker, or is what the waiting request asks for. -/
def Covers (s : Synchronizer) (n : Nat) : Prop :=
  n ≤ s.completed ∨
  (∃ waiting, s.pending = some waiting ∧ n ≤ waiting.generation.sequence) ∨
  ∃ sweep, s.activity = some (.sweeping .worker sweep) ∧ n ≤ sweep.stats.sequence

/-- What is covered while the worker does not sweep is completed or waits. -/
theorem Covers.of_not_sweeping {s : Synchronizer} {n : Nat} (h : s.Covers n)
    (hidle : ∀ sweep, s.activity ≠ some (.sweeping .worker sweep)) :
    n ≤ s.completed ∨
      ∃ waiting, s.pending = some waiting ∧ n ≤ waiting.generation.sequence := by
  rcases h with hdone | hwaits | ⟨sweep, hsweeping, -⟩
  · exact Or.inl hdone
  · exact Or.inr hwaits
  · exact absurd hsweeping (hidle sweep)

/-- A request that comes is put into the queue, and a guard that is free is taken for the worker. -/
theorem synchronize_of_open {s : Synchronizer} (hopen : s.isShutDown = false)
    (request : SyncRequest) :
    s.synchronize request =
      (s.enqueue request).goOn (s.activity.getD .scheduled) := by
  rw [synchronize, if_neg (by simp [hopen]), wake_eq]
  rfl

/-- The request that waits then asks for what came and for what waited before. -/
theorem synchronize_eq {s : Synchronizer} (hopen : s.isShutDown = false) (request : SyncRequest) :
    ∃ waiting,
      s.synchronize request =
        { s with pending := some waiting }.goOn (s.activity.getD .scheduled) ∧
      request.generation.sequence ≤ waiting.generation.sequence ∧
      ∀ earlier, s.pending = some earlier →
        earlier.generation.sequence ≤ waiting.generation.sequence := by
  rw [synchronize_of_open hopen, enqueue]
  refine ⟨_, rfl, ?_⟩
  cases s.pending with
  | none => exact ⟨le_refl _, fun _ h => nomatch h⟩
  | some earlier =>
      dsimp only
      rw [SyncRequest.sequence_coalesce]
      refine ⟨le_max_right _ _, fun earlier' h => ?_⟩
      rw [← Option.some.inj h]
      exact le_max_left _ _

/-- Everything that a step of the holder of the guard can do. -/
theorem step_cases {s s' : Synchronizer} {db db' : Database} (h : s.step db = some (s', db')) :
    (s.activity = some .scheduled ∧ s' = s.turn ∧ db' = db) ∨
    (∃ sweeper sweep sweep', s.activity = some (.sweeping sweeper sweep) ∧
      sweep.step s.isShutDown db = .more sweep' db' ∧
      s' = s.goOn (.sweeping sweeper sweep')) ∨
    (∃ sweeper sweep stats, s.activity = some (.sweeping sweeper sweep) ∧
      sweep.step s.isShutDown db = .finished stats ∧ db' = db ∧
      s' = (s.publish stats).afterSweep sweeper) := by
  unfold step at h
  split at h
  · cases h
  · next hactivity =>
      cases h
      exact Or.inl ⟨hactivity, rfl, rfl⟩
  · next sweeper sweep hactivity =>
      split at h
      · next sweep' db₁ hstep =>
          cases h
          exact Or.inr (Or.inl ⟨sweeper, sweep, sweep', hactivity, hstep, rfl⟩)
      · cases h
      · next stats hstep =>
          cases h
          exact Or.inr (Or.inr ⟨sweeper, sweep, stats, hactivity, hstep, rfl, rfl⟩)

/-! ### Handling a synchronizer -/

/-- What can happen to a synchronizer, in any order. -/
inductive Event where
  | synchronize (request : SyncRequest)
  /-- Somebody asks for an inline sweep, which starts unless the guard is held. -/
  | runInline (request : SyncRequest)
  /-- Who waits for an inline sweep leaves. -/
  | abandonInline
  /-- Who holds the guard takes a step. -/
  | step
  | shutDown
  /-- The database, or its gate, changes by other hands. -/
  | changeDatabase (db : Database)

/-- A synchronizer with the database that it works on, and what was asked of it. -/
structure Handling where
  synchronizer : Synchronizer := {}
  db : Database := {}
  /-- The generations that were asked for through the queue. -/
  asked : List Nat := []
  /-- Whether an inline sweep held the guard when the latest of them was asked for. -/
  duringInline : Bool := false

namespace Handling

/-- What comes of an event. -/
def after (h : Handling) : Event → Handling
  | .synchronize request =>
    { h with
      synchronizer := h.synchronizer.synchronize request
      asked := request.generation.sequence :: h.asked
      duringInline := h.synchronizer.holder = some .inline }
  | .runInline request =>
    match h.synchronizer.startInline? request with
    | some synchronizer => { h with synchronizer := synchronizer }
    | none => h
  | .abandonInline => { h with synchronizer := h.synchronizer.abandonInline }
  | .step =>
    match h.synchronizer.step h.db with
    | some (synchronizer, db) => { h with synchronizer := synchronizer, db := db }
    | none => h
  | .shutDown => { h with synchronizer := h.synchronizer.shutDown }
  | .changeDatabase db => { h with db := db }

/-- Nobody works, and work is not refused. -/
def Idle (h : Handling) : Prop :=
  h.synchronizer.activity = none ∧ h.synchronizer.isShutDown = false

/-- Nothing waits, and everything that was asked for is completed. -/
def Settled (h : Handling) : Prop :=
  h.synchronizer.pending = none ∧ ∀ n ∈ h.asked, n ≤ h.synchronizer.completed

/-- The invariant of a synchronizer that is not shut down. -/
structure Accounted (h : Handling) : Prop where
  runs : ∀ sweeper sweep, h.synchronizer.activity = some (.sweeping sweeper sweep) →
    sweep.stats.cancelled = false
  covers : ∀ n ∈ h.asked, h.synchronizer.Covers n
  /-- A request waits for nobody only if the latest one came during an inline sweep. -/
  unwatched : h.duringInline = true ↔
    h.synchronizer.pending ≠ none ∧ h.synchronizer.holder ≠ some .worker

/-! ### One event keeps the invariant -/

theorem isShutDown_synchronize (s : Synchronizer) (request : SyncRequest) :
    (s.synchronize request).isShutDown = s.isShutDown := by
  cases hopen : s.isShutDown with
  | true => rw [Synchronizer.synchronize, if_pos hopen, hopen]
  | false =>
      rw [synchronize_of_open hopen]
      exact hopen

theorem isShutDown_step {s s' : Synchronizer} {db db' : Database}
    (h : s.step db = some (s', db')) : s'.isShutDown = s.isShutDown := by
  rcases Synchronizer.step_cases h with ⟨-, rfl, -⟩ | ⟨_, _, _, -, -, rfl⟩ |
    ⟨_, _, _, -, -, -, rfl⟩
  · rw [turn_eq, take?]
    cases s.pending <;> rfl
  · rfl
  · exact isShutDown_afterSweep _ _

/-- Who is shut down stays so. -/
theorem not_isShutDown_of_after {h : Handling} {event : Event}
    (hopen : (h.after event).synchronizer.isShutDown = false) :
    h.synchronizer.isShutDown = false := by
  cases event with
  | synchronize request => rwa [after, isShutDown_synchronize] at hopen
  | runInline request =>
      unfold after at hopen
      dsimp only at hopen
      split at hopen
      next s hstart =>
        obtain ⟨-, rfl⟩ := enter?_eq_some hstart
        exact hopen
      next => exact hopen
  | abandonInline =>
      unfold after abandonInline at hopen
      dsimp only at hopen
      split at hopen <;> exact hopen
  | step =>
      unfold after at hopen
      cases hstep : h.synchronizer.step h.db with
      | none => simpa only [hstep] using hopen
      | some next =>
          simp only [hstep] at hopen
          rwa [isShutDown_step hstep] at hopen
  | shutDown => cases hopen
  | changeDatabase db => exact hopen

theorem accounted_start (db : Database) : Accounted { db := db } where
  runs _ _ hactivity := nomatch hactivity
  covers _ hn := nomatch hn
  unwatched := by simp

/-- A request that comes is covered because it waits; the worker is there to see it unless an inline
sweep holds the guard. -/
theorem Accounted.synchronize {h : Handling} (ha : h.Accounted)
    (hopen : h.synchronizer.isShutDown = false) (request : SyncRequest) :
    (h.after (.synchronize request)).Accounted := by
  obtain ⟨waiting, heq, hrequest, hearlier⟩ := synchronize_eq hopen request
  rw [after, heq]
  refine { runs := ?runs, covers := ?covers, unwatched := ?unwatched }
  case runs =>
    intro sweeper sweep hactivity
    cases hbefore : h.synchronizer.activity with
    | none => simp [hbefore] at hactivity
    | some activity => exact ha.runs sweeper sweep (by simpa [hbefore] using hactivity)
  case covers =>
    intro n hn
    rcases List.mem_cons.mp hn with rfl | hn
    · exact Or.inr (Or.inl ⟨waiting, rfl, hrequest⟩)
    · rcases ha.covers n hn with hdone | ⟨earlier, hpending, hle⟩ | ⟨sweep, hactivity, hle⟩
      · exact Or.inl hdone
      · exact Or.inr (Or.inl ⟨waiting, rfl, hle.trans (hearlier earlier hpending)⟩)
      · exact Or.inr (Or.inr ⟨sweep, by simp [hactivity], hle⟩)
  case unwatched =>
    -- a guard that was free is the worker's now, any other stays where it is
    unfold holder
    rcases h.synchronizer.activity with - | - | ⟨- | -, sweep⟩ <;> simp

/-- The worker looks at the queue: what waited is swept for. -/
theorem Accounted.turn {h : Handling} (ha : h.Accounted)
    (hactivity : h.synchronizer.activity = some .scheduled) :
    ({ h with synchronizer := h.synchronizer.turn } : Handling).Accounted := by
  have hwatched : h.duringInline = false := by
    rw [← Bool.not_eq_true, ha.unwatched]
    simp [holder, hactivity]
  have hcovers (n : Nat) (hn : n ∈ h.asked) :=
    (ha.covers n hn).of_not_sweeping (by simp [hactivity])
  rw [turn_eq, take?]
  cases hpending : h.synchronizer.pending with
  | none =>
      refine { runs := ?_, covers := ?_, unwatched := by simp [hwatched, hpending] }
      · intro sweeper sweep hsweeping
        cases hsweeping
      · intro n hn
        rcases hcovers n hn with hdone | ⟨waiting, hwaiting, -⟩
        · exact Or.inl hdone
        · rw [hpending] at hwaiting
          cases hwaiting
  | some request =>
      refine { runs := ?_, covers := ?_, unwatched := by simp [hwatched] }
      · intro sweeper sweep hsweeping
        cases hsweeping
        rfl
      · intro n hn
        rcases hcovers n hn with hdone | ⟨waiting, hwaiting, hle⟩
        · exact Or.inl hdone
        · rw [hpending] at hwaiting
          cases hwaiting
          exact Or.inr (Or.inr ⟨_, rfl, hle⟩)

/-- A sweep goes on for the generation that it was started for. -/
theorem Accounted.sweep {h : Handling} (ha : h.Accounted) {sweeper : Sweeper} {sweep next : Sweep}
    {db : Database} (hactivity : h.synchronizer.activity = some (.sweeping sweeper sweep))
    (hstep : sweep.step false h.db = .more next db) :
    ({ h with
        synchronizer := h.synchronizer.goOn (.sweeping sweeper next)
        db := db } : Handling).Accounted := by
  obtain ⟨hsequence, hcancelled⟩ := Sweep.stats_step hstep
  refine { runs := ?runs, covers := ?covers, unwatched := ?unwatched }
  case runs =>
    intro _ _ hnext
    cases hnext
    rw [hcancelled]
    exact ha.runs sweeper sweep hactivity
  case covers =>
    intro n hn
    rcases ha.covers n hn with hdone | hwaits | ⟨running, hrunning, hle⟩
    · exact Or.inl hdone
    · exact Or.inr (Or.inl hwaits)
    · rw [hactivity] at hrunning
      cases hrunning
      exact Or.inr (Or.inr ⟨next, rfl, hsequence ▸ hle⟩)
  case unwatched =>
    rw [ha.unwatched]
    simp [holder, hactivity]

/-- A sweep that has ended has completed its generation. -/
theorem Accounted.finish {h : Handling} (ha : h.Accounted) {sweeper : Sweeper} {sweep : Sweep}
    {stats : SweepStats} (hactivity : h.synchronizer.activity = some (.sweeping sweeper sweep))
    (hstep : sweep.step false h.db = .finished stats) :
    ({ h with synchronizer := (h.synchronizer.publish stats).afterSweep sweeper } :
      Handling).Accounted := by
  obtain ⟨-, -, -, rfl⟩ := Sweep.eq_of_finished hstep
  have hcompleted : ((h.synchronizer.publish sweep.stats).afterSweep sweeper).completed =
      max h.synchronizer.completed sweep.stats.sequence := by
    rw [completed_afterSweep, publish, ha.runs sweeper sweep hactivity]
    rfl
  refine { runs := ?runs, covers := ?covers, unwatched := ?unwatched }
  case runs =>
    intro _ _ hnext
    cases sweeper <;> cases hnext
  case covers =>
    intro n hn
    rcases ha.covers n hn with hdone | hwaits | ⟨running, hrunning, hle⟩
    · exact Or.inl (hdone.trans (hcompleted ▸ le_max_left _ _))
    · refine Or.inr (Or.inl ?_)
      dsimp only
      rwa [pending_afterSweep]
    · rw [hactivity] at hrunning
      cases hrunning
      exact Or.inl (hle.trans (hcompleted ▸ le_max_right _ _))
  case unwatched =>
    -- an inline sweep gives the guard back, but it was not the worker's before
    rw [ha.unwatched]
    cases sweeper <;> simp [holder, hactivity, afterSweep, publish]

/-- An inline sweep that begins or is abandoned changes nothing for what waits. -/
theorem Accounted.exchange {h : Handling} (ha : h.Accounted) {s : Synchronizer}
    (hbefore : h.synchronizer.holder ≠ some .worker)
    (hafter : s = h.synchronizer.giveBack ∨
      ∃ request, s = h.synchronizer.goOn (.sweeping .inline (Sweep.start request))) :
    ({ h with synchronizer := s } : Handling).Accounted := by
  have hcovers (n : Nat) (hn : n ∈ h.asked) := (ha.covers n hn).of_not_sweeping fun sweep hsweep =>
    hbefore (by rw [holder, hsweep]; rfl)
  rcases hafter with rfl | ⟨request, rfl⟩
  · exact
      { runs := fun _ _ hactivity => by cases hactivity
        covers := fun n hn => (hcovers n hn).imp_right Or.inl
        unwatched := by
          rw [ha.unwatched]
          exact and_congr_right fun _ => iff_of_true hbefore (by simp [holder]) }
  · exact
      { runs := fun _ _ hactivity => by cases hactivity; rfl
        covers := fun n hn => (hcovers n hn).imp_right Or.inl
        unwatched := by
          rw [ha.unwatched]
          exact and_congr_right fun _ => iff_of_true hbefore (by simp [holder]) }

theorem Accounted.runInline {h : Handling} (ha : h.Accounted) (request : SyncRequest) :
    (h.after (.runInline request)).Accounted := by
  unfold Handling.after
  dsimp only
  split
  next s hstart =>
    obtain ⟨hidle, hentered⟩ := enter?_eq_some hstart
    exact ha.exchange (by simp [holder, hidle]) (Or.inr ⟨request, hentered⟩)
  next => exact ha

theorem Accounted.abandonInline {h : Handling} (ha : h.Accounted) :
    (h.after .abandonInline).Accounted := by
  unfold Handling.after Synchronizer.abandonInline
  dsimp only
  split
  next sweep hactivity => exact ha.exchange (by simp [holder, hactivity]) (Or.inl rfl)
  next => exact ha

theorem Accounted.step {h : Handling} (ha : h.Accounted)
    (hopen : h.synchronizer.isShutDown = false) : (h.after .step).Accounted := by
  rw [Handling.after]
  cases hstep : h.synchronizer.step h.db with
  | none => exact ha
  | some next =>
      rcases Synchronizer.step_cases hstep with ⟨hactivity, hs, hdb⟩ |
        ⟨sweeper, sweep, sweep', hactivity, hsweep, hs⟩ |
        ⟨sweeper, sweep, stats, hactivity, hsweep, hdb, hs⟩
      · simp only [hs, hdb]
        exact ha.turn hactivity
      · rw [hopen] at hsweep
        simp only [hs]
        exact ha.sweep hactivity hsweep
      · rw [hopen] at hsweep
        simp only [hs, hdb]
        exact ha.finish hactivity hsweep

/-- Whatever happens to a synchronizer keeps the invariant, until it is shut down. -/
theorem accounted_after {h : Handling} (ha : h.synchronizer.isShutDown = false → h.Accounted)
    (event : Event) (hopen : (h.after event).synchronizer.isShutDown = false) :
    (h.after event).Accounted := by
  have hwas := not_isShutDown_of_after hopen
  cases event with
  | synchronize request => exact (ha hwas).synchronize hwas request
  | runInline request => exact (ha hwas).runInline request
  | abandonInline => exact (ha hwas).abandonInline
  | step => exact (ha hwas).step hwas
  | shutDown => cases hopen
  | changeDatabase db => exact ⟨(ha hwas).runs, (ha hwas).covers, (ha hwas).unwatched⟩

theorem accounted_foldl {h : Handling} (ha : h.synchronizer.isShutDown = false → h.Accounted)
    (events : List Event) (hopen : (events.foldl after h).synchronizer.isShutDown = false) :
    (events.foldl after h).Accounted := by
  induction events generalizing h with
  | nil => exact ha hopen
  | cons event rest ih => exact ih (accounted_after ha event) hopen

/-! ### Nobody works -/

/-- When nobody holds the guard, everything is settled unless a request was overlooked. -/
theorem Accounted.settled_iff {h : Handling} (ha : h.Accounted)
    (hactivity : h.synchronizer.activity = none) : h.Settled ↔ h.duringInline = false := by
  have hunwatched : h.duringInline = true ↔ h.synchronizer.pending ≠ none := by
    rw [ha.unwatched]
    simp [holder, hactivity]
  rw [← Bool.not_eq_true, hunwatched, not_not]
  constructor
  · intro hsettled
    exact hsettled.1
  · intro hpending
    refine ⟨hpending, fun n hn => ?_⟩
    rcases (ha.covers n hn).of_not_sweeping (by simp [hactivity]) with hdone | ⟨_, hwaiting, -⟩
    · exact hdone
    · rw [hpending] at hwaiting
      cases hwaiting

/-- Let anything happen to a new synchronizer. If nobody holds the guard then, and it is not shut
down, nothing waits and everything that was asked for is completed, unless the latest request came
while an inline sweep held the guard. In any case what is not completed is asked for by the request
that waits. -/
theorem settled_unless_during_inline (db : Database) (events : List Event)
    (hidle : (events.foldl after { db := db }).Idle) :
    ((events.foldl after { db := db }).Settled ↔
      (events.foldl after { db := db }).duringInline = false) ∧
    ∀ n ∈ (events.foldl after { db := db }).asked,
      n ≤ (events.foldl after { db := db }).synchronizer.completed ∨
        ∃ waiting, (events.foldl after { db := db }).synchronizer.pending = some waiting ∧
          n ≤ waiting.generation.sequence := by
  have ha := accounted_foldl (fun _ => accounted_start db) events hidle.2
  refine ⟨ha.settled_iff hidle.1, ?_⟩
  intro n hn
  exact (ha.covers n hn).of_not_sweeping (by simp [hidle.1])

theorem worker_serves_request_during_sweep :
    let h := [.synchronize ⟨⟨1, .empty, .empty, []⟩, .empty⟩, .step, .step,
      .synchronize ⟨⟨2, .empty, .empty, []⟩, .empty⟩, .step, .step, .step, .step, .step].foldl
        after {}
    h.Idle ∧ h.Settled ∧ h.asked = [2, 1] ∧ h.synchronizer.completed = 2 := by
  intro h
  have hidle : h.Idle := ⟨rfl, rfl⟩
  exact ⟨hidle, (settled_unless_during_inline {} _ hidle).1.mpr rfl, rfl, rfl⟩

/-- A request that comes while an inline sweep waits for a statement finds the guard held and stays
in the queue. When that sweep has ended nobody holds the guard, and nobody looks at the queue. -/
theorem inline_sweep_strands_request :
    let person := (Definition.node "Person").withProperty
      { name := "name", declaredType := "String", indexed := true }
    ∃ first second, Generation.ofDefinitions {} 1 [person] = .ok first ∧
      Generation.ofDefinitions {} 2 [person] = .ok second ∧
      let h := [.runInline ⟨first, .empty⟩, .step, .step, .synchronize ⟨second, .empty⟩, .step,
        .step, .step].foldl after {}
      h.Idle ∧ h.db.catalog.calls = [.create ⟨"Person", "name"⟩] ∧
        h.synchronizer.pending.map (·.generation.sequence) = some 2 ∧ h.asked = [2] ∧
        h.synchronizer.completed = 1 ∧ h.synchronizer.waitFor? 2 = none ∧ ¬ h.Settled := by
  intro person
  have hrun : (Generation.ofDefinitions {} 1 [person]).bind (fun first =>
      (Generation.ofDefinitions {} 2 [person]).map fun second =>
        let h := [Event.runInline ⟨first, .empty⟩, .step, .step, .synchronize ⟨second, .empty⟩,
          .step, .step, .step].foldl after {}
        ((h.synchronizer.isRunning, h.synchronizer.isShutDown, h.db.catalog.calls),
          h.synchronizer.pending.map (·.generation.sequence), h.asked, h.synchronizer.completed,
          h.synchronizer.waitFor? 2)) =
      .ok ((false, false, [.create ⟨"Person", "name"⟩]), some 2, [2], 1, none) := by
    decide
  cases hfirst : Generation.ofDefinitions {} 1 [person] with
  | error errors =>
      rw [hfirst] at hrun
      cases hrun
  | ok first =>
      cases hsecond : Generation.ofDefinitions {} 2 [person] with
      | error errors =>
          rw [hfirst, hsecond] at hrun
          cases hrun
      | ok second =>
          rw [hfirst, hsecond] at hrun
          have hstate := Except.ok.inj hrun
          simp only [Prod.mk.injEq] at hstate
          obtain ⟨⟨hrunning, hopen, hcalls⟩, hpending, hasked, hcompleted, hwait⟩ := hstate
          refine ⟨first, second, rfl, rfl, ⟨?_, hopen⟩, hcalls, hpending, hasked, hcompleted, hwait,
            fun hsettled => ?_⟩
          · exact Option.isNone_iff_eq_none.mp (Option.isSome_eq_false_iff.mp hrunning)
          · rw [hsettled.1] at hpending
            cases hpending

/-! ### Without inline sweeps -/

theorem holder_ne_inline_after {h : Handling} {event : Event}
    (hqueue : ∀ request, event ≠ .runInline request)
    (hholder : h.synchronizer.holder ≠ some .inline) :
    (h.after event).synchronizer.holder ≠ some .inline := by
  cases event with
  | synchronize request =>
      unfold after Synchronizer.synchronize
      dsimp only
      split
      · exact hholder
      · -- a guard that was free is the worker's now, any other stays where it is
        rw [wake_eq]
        unfold holder at hholder ⊢
        rw [activity_goOn]
        rw [show (h.synchronizer.enqueue request).activity = h.synchronizer.activity from rfl]
        cases hactivity : h.synchronizer.activity with
        | none => exact nofun
        | some doing =>
            rw [hactivity] at hholder
            exact hholder
  | runInline request => exact absurd rfl (hqueue request)
  | abandonInline =>
      unfold after abandonInline
      dsimp only
      split
      · simp [holder]
      · exact hholder
  | step =>
      rw [after]
      cases hstep : h.synchronizer.step h.db with
      | none => exact hholder
      | some next =>
          rcases Synchronizer.step_cases hstep with ⟨-, hs, -⟩ |
            ⟨sweeper, sweep, sweep', hactivity, -, hs⟩ | ⟨sweeper, sweep, _, hactivity, -, -, hs⟩
          · simp only [hs, turn_eq, take?]
            cases h.synchronizer.pending <;> simp [holder]
          · simpa [hs, holder, hactivity] using hholder
          · simp only [hs, holder]
            cases sweeper <;> simp [afterSweep]
  | shutDown => exact hholder
  | changeDatabase db => exact hholder

theorem inline_of_duringInline_after {h : Handling} {event : Event}
    (hduring : (h.after event).duringInline = true) :
    h.duringInline = true ∨ h.synchronizer.holder = some .inline := by
  cases event with
  | synchronize request => exact Or.inr (of_decide_eq_true hduring)
  | runInline request =>
      rw [after] at hduring
      split at hduring <;> exact Or.inl hduring
  | step =>
      rw [after] at hduring
      split at hduring <;> exact Or.inl hduring
  | abandonInline => exact Or.inl hduring
  | shutDown => exact Or.inl hduring
  | changeDatabase db => exact Or.inl hduring

theorem not_duringInline_foldl {h : Handling} {events : List Event}
    (hqueue : ∀ request, .runInline request ∉ events)
    (hholder : h.synchronizer.holder ≠ some .inline) (hduring : h.duringInline = false) :
    (events.foldl after h).duringInline = false := by
  induction events generalizing h with
  | nil => exact hduring
  | cons event rest ih =>
      refine ih (fun request hmem => hqueue request (List.mem_cons_of_mem _ hmem))
        (holder_ne_inline_after (fun request heq => hqueue request (heq ▸ List.mem_cons_self))
          hholder) ?_
      rw [← Bool.not_eq_true]
      intro hafter
      rcases inline_of_duringInline_after hafter with hbefore | hinline
      · rw [hduring] at hbefore
        cases hbefore
      · exact hholder hinline

/-- As long as no sweep is run inline, no request is left behind. -/
theorem settled_of_queue (db : Database) (events : List Event)
    (hqueue : ∀ request, .runInline request ∉ events)
    (hidle : (events.foldl after { db := db }).Idle) :
    (events.foldl after { db := db }).Settled := by
  have ha := accounted_foldl (fun _ => accounted_start db) events hidle.2
  rw [ha.settled_iff hidle.1]
  exact not_duringInline_foldl hqueue nofun rfl

end Handling

end Synchronizer

end LiveSchema
