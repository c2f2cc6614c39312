import LiveSchema.Reload.Outcome
import LiveSchema.RunGuard

/-!
# LiveSchema.Reload.Flight

Which run of a reload is under way, and who waits for it. A run holds the permit of a guard from its
start to its end, and it alone can publish on its channel, which it does when it ends. The channel
of the run that was started last is kept in a slot, also when that run has ended.

Who asks for a reload tries to enter the guarded section. If he can, a run is started, and he waits
for what it publishes. If he cannot, he waits on the channel in the slot, or is turned away if he
does not want to wait. He is told nothing before he wakes, and when he wakes he looks at his channel
again: a run that has vanished without a result leaves its owner with a failure, and has whoever
joined it ask once more.

* `Flight.begin` — enter the section and start a run.
* `Flight.record` — what a part of a run comes to.
* `Flight.ask`, `Flight.wake`, `Flight.leave` — what callers do.
-/

namespace LiveSchema

/-- How far a run is. -/
inductive ReloadRun where
  /-- It has not begun. -/
  | scheduled
  /-- It is about to load the definitions; `previous` was current when it began. -/
  | loading (previous : Generation)

/-- What a part of a run comes to. -/
inductive RunStep where
  | continues (run : ReloadRun)
  | ends (result : RunResult)

/-- A run that was started and has not ended. -/
structure ActiveRun where
  /-- Where it publishes its result. -/
  channel : Nat
  run : ReloadRun := .scheduled

/-- Somebody who has asked for a reload. -/
inductive Caller where
  /-- A run was started for him, and he waits for its result. -/
  | owning (channel : Nat)
  /-- A run was under way, and he waits for its result. -/
  | joining (channel : Nat)
  /-- He asks again when he wakes. -/
  | retrying
  | told (outcome : ReloadOutcome)
  /-- He did not stay to be told. -/
  | left

/-- The caller, once he has left. Who has been told has nothing to wait for. -/
def Caller.leave : Caller → Caller
  | .told outcome => .told outcome
  | _ => .left

/-- The runs of reloads, and their callers. -/
structure Flight where
  /-- The guard that a run holds; the holder is the channel of the run. -/
  compiling : RunGuard Nat := { name := "compiling" }
  /-- The channel of the run that was started last. -/
  inFlight : Option Nat := none
  /-- What was published on each channel. A channel is made when its run is started, so its place is
  the number of the run. -/
  channels : List (Option RunResult) := []
  /-- The runs under way, in the order in which they were started. -/
  runs : List ActiveRun := []
  /-- Those who have asked so far, in the order in which they came. -/
  callers : List Caller := []

namespace Flight

/-- How the runs that have ended did so, in the order in which they were started. -/
def results (f : Flight) : List RunResult := f.channels.filterMap id

/-! ### Runs -/

/-- Enter the guarded section and start a run: its channel, or the one in the slot if the section
cannot be entered. -/
def begin (f : Flight) : Except (Option Nat) (Nat × Flight) :=
  let channel := f.channels.length
  match f.compiling.acquire? channel with
  | none => .error f.inFlight
  | some compiling =>
    .ok (channel,
      { f with
        compiling := compiling
        inFlight := some channel
        channels := f.channels ++ [none]
        runs := f.runs ++ [{ channel := channel }] })

/-- A run has come further. -/
def advance (f : Flight) (channel : Nat) (run : ReloadRun) : Flight :=
  { f with runs := f.runs.map fun r => if r.channel = channel then { r with run := run } else r }

/-- A run ends: it publishes its result and gives back the permit. -/
def finish (f : Flight) (channel : Nat) (result : RunResult) : Flight :=
  { f with
    compiling := f.compiling.release
    channels := f.channels.set channel (some result)
    runs := f.runs.filter (·.channel ≠ channel) }

/-- What a part of a run comes to. -/
def record (f : Flight) (channel : Nat) : RunStep → Flight
  | .continues run => f.advance channel run
  | .ends result => f.finish channel result

/-! ### Callers -/

/-- Wait for a result: no answer while the run goes on, and no result if the run has vanished. -/
def waitFor? (f : Flight) (channel : Nat) : Option (Option RunResult) :=
  match f.channels[channel]? with
  | some (some result) => some (some result)
  | _ => if f.runs.any (·.channel == channel) then none else some none

/-- Start a run, or see about the one under way. -/
def attempt (f : Flight) (waits : Bool) : Caller × Flight :=
  match f.begin with
  | .ok (channel, f) => (.owning channel, f)
  | .error slot =>
    if waits then
      match slot with
      | some channel => (.joining channel, f)
      | none => (.retrying, f)
    else (.told .alreadyInProgress, f)

/-- Somebody asks for a reload, and joins a run that is under way or not. -/
def ask (f : Flight) (waits : Bool) : Flight :=
  let (caller, f) := f.attempt waits
  { f with callers := f.callers ++ [caller] }

/-- What becomes of a caller who wakes. Only who wanted to wait has joined a run or tries again. -/
def resume (f : Flight) : Caller → Caller × Flight
  | .owning channel =>
    match f.waitFor? channel with
    | none => (.owning channel, f)
    | some (some result) => (.told (.ofOwnRun result), f)
    | some none => (.told (.failed .aborted), f)
  | .joining channel =>
    match f.waitFor? channel with
    | none => (.joining channel, f)
    | some (some result) => (.told (.joined result), f)
    | some none => f.attempt true
  | .retrying => f.attempt true
  | .told outcome => (.told outcome, f)
  | .left => (.left, f)

/-- A caller wakes. -/
def wake (f : Flight) (call : Nat) : Flight :=
  match f.callers[call]? with
  | none => f
  | some caller =>
    let (caller, f) := f.resume caller
    { f with callers := f.callers.set call caller }

/-- Every caller wakes, in the order in which they came. -/
def wakeAll (f : Flight) : Flight := (List.range f.callers.length).foldl wake f

/-- A caller leaves. Neither his run nor the one he joined minds. -/
def leave (f : Flight) (call : Nat) : Flight :=
  { f with callers := f.callers.modify call Caller.leave }

/-- What a caller has been told. -/
def outcome? (f : Flight) (call : Nat) : Option ReloadOutcome :=
  match f.callers[call]? with
  | some (.told outcome) => some outcome
  | _ => none

end Flight

end LiveSchema
