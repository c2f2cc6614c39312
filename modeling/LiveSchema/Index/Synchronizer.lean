import LiveSchema.Index.Sweep
import LiveSchema.RunGuard

/-!
# LiveSchema.Index.Synchronizer

Keeping the indexes of the database in line with the newest generation. Requests are queued, at most
one of them: a request that finds one waiting is folded into it. One sweep runs at a time, by a
worker that goes through the queue until it is empty, or inline for a caller who does not use the
queue.

Everything that happens is one of the steps below, and callers may act between any two of them.

* `Synchronizer.synchronize` — queue a request, and start a worker unless a sweep is running.
* `Synchronizer.startInline?` — start a sweep that does not look at the queue afterwards.
* `Synchronizer.step` — the next step of whoever holds the guard.
* `Synchronizer.shutDown` — refuse new requests, and stop a running sweep before its next unit.
-/

namespace LiveSchema

/-- Who a sweep runs for. -/
inductive Sweeper where
  /-- The worker, which goes back to the queue. -/
  | worker
  /-- A caller who waits for the counts. -/
  | inline
deriving DecidableEq

/-- What the holder of the guard does. -/
inductive SyncActivity where
  /-- The worker is about to look at the queue. -/
  | scheduled
  | sweeping (sweeper : Sweeper) (sweep : Sweep)

/-- The queue, what is going on, and what was done. -/
structure Synchronizer where
  pending : Option SyncRequest := none
  /-- The guard that whoever sweeps holds; the holder is known by what he does. -/
  guard : RunGuard SyncActivity := { name := "updating" }
  /-- The highest generation that a sweep was completed for. -/
  completed : Nat := 0
  sweeps : Nat := 0
  /-- The counts of the last sweep. -/
  last : Option SweepStats := none
  isShutDown : Bool := false

namespace Synchronizer

/-- Whether the guard is held. -/
def isRunning (s : Synchronizer) : Bool := s.guard.isRunning

/-- What the holder of the guard does; nobody holds it while there is none. -/
def activity (s : Synchronizer) : Option SyncActivity := s.guard.holder

/-! ### The guard -/

/-- Enter the guarded section, if nobody is in it. -/
def enter? (s : Synchronizer) (activity : SyncActivity) : Option Synchronizer :=
  (s.guard.acquire? activity).map fun guard => { s with guard := guard }

/-- The holder of the guard goes on to something. -/
def goOn (s : Synchronizer) (activity : SyncActivity) : Synchronizer :=
  { s with guard := s.guard.handOver activity }

/-- The holder gives back the guard. -/
def giveBack (s : Synchronizer) : Synchronizer := { s with guard := s.guard.release }

@[simp]
theorem activity_goOn (s : Synchronizer) (activity : SyncActivity) :
    (s.goOn activity).activity = some activity := rfl

@[simp]
theorem pending_goOn (s : Synchronizer) (activity : SyncActivity) :
    (s.goOn activity).pending = s.pending := rfl

@[simp]
theorem activity_giveBack (s : Synchronizer) : s.giveBack.activity = none := rfl

@[simp]
theorem pending_giveBack (s : Synchronizer) : s.giveBack.pending = s.pending := rfl

theorem enter?_of_idle {s : Synchronizer} (h : s.activity = none) (activity : SyncActivity) :
    s.enter? activity = some (s.goOn activity) := by
  rw [enter?, RunGuard.acquire?_of_idle (congrArg Option.isSome h)]
  rfl

theorem enter?_of_busy {s : Synchronizer} {doing : SyncActivity} (h : s.activity = some doing)
    (activity : SyncActivity) : s.enter? activity = none := by
  rw [enter?, RunGuard.acquire?_of_running (congrArg Option.isSome h)]
  rfl

/-- Who enters finds nobody in the section. -/
theorem enter?_eq_some {s s' : Synchronizer} {activity : SyncActivity}
    (h : s.enter? activity = some s') : s.activity = none ∧ s' = s.goOn activity := by
  cases hbefore : s.activity with
  | none =>
      rw [enter?_of_idle hbefore] at h
      exact ⟨rfl, (Option.some.inj h).symm⟩
  | some doing =>
      rw [enter?_of_busy hbefore] at h
      cases h

/-! ### What callers do -/

/-- Put a request into the queue. -/
def enqueue (s : Synchronizer) (request : SyncRequest) : Synchronizer :=
  { s with
    pending := some (match s.pending with
      | some waiting => waiting.coalesce request
      | none => request) }

/-- Start the worker, unless the guard is held. -/
def wake (s : Synchronizer) : Synchronizer := (s.enter? .scheduled).getD s

/-- Then somebody holds the guard, and who held it goes on as he was. -/
theorem wake_eq (s : Synchronizer) : s.wake = s.goOn (s.activity.getD .scheduled) := by
  cases h : s.activity with
  | none =>
      rw [wake, enter?_of_idle h]
      rfl
  | some doing =>
      rw [wake, enter?_of_busy h]
      obtain ⟨pending, ⟨name, holder⟩, completed, sweeps, last, isShutDown⟩ := s
      obtain rfl : holder = some doing := h
      rfl

/-- Ask for a sweep. -/
def synchronize (s : Synchronizer) (request : SyncRequest) : Synchronizer :=
  if s.isShutDown then s else (s.enqueue request).wake

/-- Start an inline sweep, unless the guard is held. -/
def startInline? (s : Synchronizer) (request : SyncRequest) : Option Synchronizer :=
  s.enter? (.sweeping .inline (Sweep.start request))

/-- Leave an inline sweep where it is: the guard is given back, and nothing is counted. -/
def abandonInline (s : Synchronizer) : Synchronizer :=
  match s.activity with
  | some (.sweeping .inline _) => s.giveBack
  | _ => s

/-- Refuse requests from now on, and forget the one that waits. -/
def shutDown (s : Synchronizer) : Synchronizer := { s with isShutDown := true, pending := none }

/-- Whether a sweep for a generation, or a later one, has been completed: no answer yet while it may
still be. -/
def waitFor? (s : Synchronizer) (sequence : Nat) : Option Bool :=
  if sequence ≤ s.completed then some true
  else if s.isShutDown then some false
  else none

/-! ### What the holder of the guard does -/

/-- Count a sweep that has ended; one that was not cancelled completes its generation. -/
def publish (s : Synchronizer) (stats : SweepStats) : Synchronizer :=
  { s with
    sweeps := s.sweeps + 1
    last := some stats
    completed := if stats.cancelled then s.completed else max s.completed stats.sequence }

/-- What follows a sweep: the worker looks at the queue again, a caller gives back the guard. -/
def afterSweep (s : Synchronizer) : Sweeper → Synchronizer
  | .worker => s.goOn .scheduled
  | .inline => s.giveBack

@[simp]
theorem pending_afterSweep (s : Synchronizer) (sweeper : Sweeper) :
    (s.afterSweep sweeper).pending = s.pending := by
  cases sweeper <;> rfl

@[simp]
theorem completed_afterSweep (s : Synchronizer) (sweeper : Sweeper) :
    (s.afterSweep sweeper).completed = s.completed := by
  cases sweeper <;> rfl

@[simp]
theorem isShutDown_afterSweep (s : Synchronizer) (sweeper : Sweeper) :
    (s.afterSweep sweeper).isShutDown = s.isShutDown := by
  cases sweeper <;> rfl

/-- The worker takes the waiting request and sweeps for it, if there is one. -/
def take? (s : Synchronizer) : Option Synchronizer :=
  s.pending.map fun request =>
    { s with pending := none }.goOn (.sweeping .worker (Sweep.start request))

/-- A worker that has given back the guard looks at the queue once more: a request that came before
the guard was free has found it held, and nobody else would see to it. -/
def lookAgain (s : Synchronizer) : Synchronizer :=
  if s.pending.isNone || s.isShutDown then s else s.wake

/-- The worker takes the waiting request. If there is none he gives back the guard and looks once
more. -/
def turn (s : Synchronizer) : Synchronizer := s.take?.getD s.giveBack.lookAgain

/-- If nothing comes in between, nothing is seen the second time. -/
theorem turn_eq (s : Synchronizer) : s.turn = s.take?.getD s.giveBack := by
  unfold turn take?
  cases h : s.pending with
  | none =>
      have hsame : s.giveBack.lookAgain = s.giveBack := by
        rw [lookAgain, pending_giveBack, h]
        rfl
      rw [hsame]
  | some request => rfl

/-- One step of the holder of the guard; none if nobody holds it or a statement waits. -/
def step (s : Synchronizer) (db : Database) : Option (Synchronizer × Database) :=
  match s.activity with
  | none => none
  | some .scheduled => some (s.turn, db)
  | some (.sweeping sweeper sweep) =>
    match sweep.step s.isShutDown db with
    | .more sweep db => some (s.goOn (.sweeping sweeper sweep), db)
    | .blocked => none
    | .finished stats => some ((s.publish stats).afterSweep sweeper, db)

/-- Run a sweep on to its end or to a closed gate. -/
def advance (s : Synchronizer) (db : Database) : Synchronizer × Database :=
  match s.activity with
  | some (.sweeping sweeper sweep) =>
    match sweep.run s.isShutDown db with
    | .blocked sweep db => (s.goOn (.sweeping sweeper sweep), db)
    | .finished stats db => ((s.publish stats).afterSweep sweeper, db)
  | _ => (s, db)

/-- Let the worker take its turn, if it has one. -/
def turnIfScheduled (s : Synchronizer) : Synchronizer :=
  match s.activity with
  | some .scheduled => s.turn
  | _ => s

/-- Run whoever holds the guard until it is given back or a statement waits: the sweep under way,
the waiting request, and the look that finds the queue empty. -/
def work (s : Synchronizer) (db : Database) : Synchronizer × Database :=
  let (s, db) := s.advance db
  let (s, db) := s.turnIfScheduled.advance db
  (s.turnIfScheduled, db)

end Synchronizer

end LiveSchema
