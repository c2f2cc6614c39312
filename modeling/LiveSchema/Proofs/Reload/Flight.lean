import LiveSchema.Reload.Flight
import Mathlib.Data.List.Basic

/-!
# LiveSchema.Proofs.Reload.Flight

That the slot can be trusted. The guard, the slot, the channels and the runs are kept apart, and
nothing in their types says that they agree: the slot still has the channel of the last run when
that run has ended, and a caller who finds the guard held goes by the slot.

* `Flight.Sound` — the invariant. A held guard means that one run is under way, and that the slot
  has its channel; every other channel has a result.
* `Flight.Sound.ask`, `Flight.Sound.wake`, `Flight.Sound.leave`, `Flight.Sound.advance`,
  `Flight.Sound.finish` — every step keeps it.
* `Flight.Sound.wake_eq` — so a caller who wakes hears the result of his run, or waits on. He never
  finds that it has vanished, and never asks again.
-/

namespace LiveSchema

/-- A caller who waits does so for one of the runs that were started. -/
def Caller.WaitsBelow (runs : Nat) : Caller → Prop
  | .owning channel | .joining channel => channel < runs
  | .retrying => False
  | .told _ | .left => True

theorem Caller.WaitsBelow.mono {caller : Caller} {m n : Nat} (h : caller.WaitsBelow m)
    (hle : m ≤ n) : caller.WaitsBelow n := by
  cases caller with
  | owning channel => exact Nat.lt_of_lt_of_le h hle
  | joining channel => exact Nat.lt_of_lt_of_le h hle
  | retrying => exact h
  | told outcome => trivial
  | left => trivial

namespace Flight

/-- The guard, the slot, the channels and the runs agree. -/
structure Sound (f : Flight) : Prop where
  /-- At most one run is under way, the one that was started last. -/
  runs : f.runs = [] ∨ ∃ run, f.runs = [⟨f.results.length, run⟩]
  /-- It alone has published nothing. -/
  channels : f.channels = f.results.map some ++ f.runs.map fun _ => none
  /-- It holds the guard, -/
  held : f.compiling.holder = f.runs.head?.map (·.channel)
  /-- and the slot has its channel. -/
  slot : ∀ active ∈ f.runs, f.inFlight = some active.channel
  callers : ∀ caller ∈ f.callers, caller.WaitsBelow f.channels.length

theorem sound_empty : Sound {} where
  runs := Or.inl rfl
  channels := rfl
  held := rfl
  slot := nofun
  callers := nofun

variable {f : Flight}

namespace Sound

/-! ### One run at most -/

/-- The run under way is the one after those that have ended. -/
theorem channel_eq (h : f.Sound) {channel : Nat} {run : ReloadRun}
    (hrun : f.runs = [⟨channel, run⟩]) : channel = f.results.length := by
  rcases h.runs with hnone | ⟨run', hrun'⟩
  · rw [hnone] at hrun
    cases hrun
  · rw [hrun] at hrun'
    cases hrun'
    rfl

theorem runs_eq_of_getElem? (h : f.Sound) {place : Nat} {active : ActiveRun}
    (hactive : f.runs[place]? = some active) : place = 0 ∧ f.runs = [active] := by
  rcases h.runs with hnone | ⟨run, hrun⟩
  · rw [hnone] at hactive
    cases hactive
  · rw [hrun, List.getElem?_singleton] at hactive
    split at hactive
    next hplace => exact ⟨hplace, by rw [hrun, Option.some.inj hactive]⟩
    next => cases hactive

theorem runs_of_idle (h : f.Sound) (hidle : f.compiling.isRunning = false) : f.runs = [] := by
  refine h.runs.resolve_right fun ⟨run, hrun⟩ => ?_
  rw [RunGuard.isRunning, h.held, hrun] at hidle
  cases hidle

/-- A held guard means that a run is under way, and that the slot has its channel. -/
theorem runs_of_running (h : f.Sound) (hrunning : f.compiling.isRunning = true) :
    ∃ run, f.runs = [⟨f.results.length, run⟩] ∧ f.inFlight = some f.results.length := by
  rcases h.runs with hnone | ⟨run, hrun⟩
  · rw [RunGuard.isRunning, h.held, hnone] at hrunning
    cases hrunning
  · exact ⟨run, hrun, h.slot _ (hrun ▸ List.mem_singleton_self _)⟩

theorem isRunning_of_none (h : f.Sound) (hnone : f.runs = []) :
    f.compiling.isRunning = false := by
  rw [RunGuard.isRunning, h.held, hnone]
  rfl

/-- The runs that were started are those that have ended and those under way. -/
theorem length_channels (h : f.Sound) :
    f.channels.length = f.results.length + f.runs.length := by
  rw [h.channels, List.length_append, List.length_map, List.length_map]

end Sound

/-! ### Runs -/

/-- A flight without a run is sound if all its channels have results and nobody holds the guard. -/
theorem sound_of_ended {results : List RunResult} (hruns : f.runs = [])
    (hchannels : f.channels = results.map some) (hfree : f.compiling.holder = none)
    (hcallers : ∀ caller ∈ f.callers, caller.WaitsBelow f.channels.length) : f.Sound := by
  have hresults : f.results = results := by simp [Flight.results, hchannels]
  exact
    { runs := Or.inl hruns
      channels := by rw [hresults, hruns, hchannels, List.map_nil, List.append_nil]
      held := by rw [hfree, hruns]; rfl
      slot := by rw [hruns]; exact nofun
      callers := hcallers }

/-- A flight with one run is sound if the run comes after all that have results, holds the guard and
has its channel in the slot. -/
theorem sound_of_active {results : List RunResult} {run : ReloadRun}
    (hruns : f.runs = [⟨results.length, run⟩]) (hchannels : f.channels = results.map some ++ [none])
    (hheld : f.compiling.holder = some results.length) (hslot : f.inFlight = some results.length)
    (hcallers : ∀ caller ∈ f.callers, caller.WaitsBelow f.channels.length) : f.Sound := by
  have hresults : f.results = results := by simp [Flight.results, hchannels]
  exact
    { runs := Or.inr ⟨run, by rw [hresults, hruns]⟩
      channels := by rw [hresults, hruns, hchannels]; rfl
      held := by rw [hheld, hruns]; rfl
      slot := by rw [hruns]; simpa using hslot
      callers := hcallers }

/-- The flight, once a run was started. -/
def started (f : Flight) : Flight :=
  { f with
    compiling := f.compiling.handOver f.channels.length
    inFlight := some f.channels.length
    channels := f.channels ++ [none]
    runs := f.runs ++ [{ channel := f.channels.length }] }

/-- A guard that is free is entered. -/
theorem begin_of_idle (hidle : f.compiling.isRunning = false) :
    f.begin = .ok (f.channels.length, f.started) := by
  rw [begin, RunGuard.acquire?_of_idle hidle]
  rfl

theorem begin_of_running (hrunning : f.compiling.isRunning = true) :
    f.begin = .error f.inFlight := by
  rw [begin, RunGuard.acquire?_of_running hrunning]

/-- Who calls is a caller from then on. -/
theorem exists_callers_ask (f : Flight) (waits : Bool) :
    ∃ caller, (f.ask waits).callers = f.callers ++ [caller] := by
  unfold ask attempt
  cases hrunning : f.compiling.isRunning with
  | false =>
      rw [begin_of_idle hrunning]
      exact ⟨_, rfl⟩
  | true =>
      rw [begin_of_running hrunning]
      cases waits with
      | false => exact ⟨_, rfl⟩
      | true => cases f.inFlight <;> exact ⟨_, rfl⟩

namespace Sound

theorem started (h : f.Sound) (hidle : f.compiling.isRunning = false) : f.started.Sound := by
  have hnone := h.runs_of_idle hidle
  have hchannels : f.channels = f.results.map some := by
    rw [h.channels, hnone]
    simp [Flight.results]
  have hlength : f.channels.length = f.results.length := by rw [h.length_channels, hnone]; rfl
  refine @sound_of_active f.started f.results .scheduled ?_ (congrArg (· ++ [none]) hchannels)
    (congrArg some hlength) (congrArg some hlength) fun caller hcaller => ?_
  · show f.runs ++ [_] = _
    rw [hnone, hlength]
    rfl
  · refine (h.callers caller hcaller).mono ?_
    show f.channels.length ≤ (f.channels ++ [none]).length
    rw [List.length_append]
    exact Nat.le_add_right _ _

/-- The run under way goes further. -/
theorem advance_eq {channel : Nat} {run : ReloadRun} (hrun : f.runs = [⟨channel, run⟩])
    (next : ReloadRun) : f.advance channel next = { f with runs := [⟨channel, next⟩] } := by
  rw [Flight.advance, hrun, List.map_singleton, if_pos rfl]

theorem advance (h : f.Sound) {channel : Nat} {run : ReloadRun}
    (hrun : f.runs = [⟨channel, run⟩]) (next : ReloadRun) : (f.advance channel next).Sound := by
  obtain rfl := h.channel_eq hrun
  have hchannels := h.channels
  have hheld := h.held
  rw [hrun] at hchannels hheld
  rw [advance_eq hrun]
  exact sound_of_active rfl hchannels hheld (h.slot _ (hrun ▸ List.mem_singleton_self _)) h.callers

/-- The run under way ends: its channel has the result, and nobody holds the guard. -/
theorem finish_eq (h : f.Sound) {channel : Nat} {run : ReloadRun}
    (hrun : f.runs = [⟨channel, run⟩]) (result : RunResult) :
    f.finish channel result =
      { f with
        compiling := f.compiling.release
        channels := (f.results ++ [result]).map some
        runs := [] } := by
  obtain rfl := h.channel_eq hrun
  have hchannels : f.channels.set f.results.length (some result) =
      (f.results ++ [result]).map some := by
    conv_lhs => rw [h.channels, hrun]
    rw [List.set_append_right _ _ (Nat.le_of_eq (List.length_map some)), List.length_map,
      Nat.sub_self, List.map_append]
    rfl
  rw [Flight.finish, hchannels, hrun]
  simp

theorem finish (h : f.Sound) {channel : Nat} {run : ReloadRun}
    (hrun : f.runs = [⟨channel, run⟩]) (result : RunResult) :
    (f.finish channel result).Sound := by
  rw [h.finish_eq hrun]
  refine sound_of_ended rfl rfl rfl fun caller hcaller => (h.callers caller hcaller).mono ?_
  rw [h.length_channels, hrun]
  simp

/-- The result is added to those of the runs before. -/
theorem results_finish (h : f.Sound) {channel : Nat} {run : ReloadRun}
    (hrun : f.runs = [⟨channel, run⟩]) (result : RunResult) :
    (f.finish channel result).results = f.results ++ [result] := by
  rw [h.finish_eq hrun]
  simp [Flight.results]

end Sound

/-- How far a run has come does not matter when it ends. -/
theorem finish_advance (f : Flight) (channel : Nat) (next : ReloadRun) (result : RunResult) :
    (f.advance channel next).finish channel result = f.finish channel result := by
  have hruns : (f.advance channel next).runs.filter (·.channel ≠ channel) =
      f.runs.filter (·.channel ≠ channel) := by
    unfold Flight.advance
    induction f.runs with
    | nil => rfl
    | cons active rest ih =>
        by_cases hsame : active.channel = channel
        · simpa [hsame] using ih
        · simpa [hsame] using ih
  unfold Flight.finish
  rw [hruns]
  rfl

namespace Sound

/-! ### Callers who wake -/

/-- A run that has ended is heard of, and nothing is heard of the one under way. -/
theorem waitFor?_eq (h : f.Sound) {channel : Nat} (hlt : channel < f.channels.length) :
    f.waitFor? channel = f.results[channel]?.map some := by
  rw [h.length_channels] at hlt
  by_cases hended : channel < f.results.length
  · have hresult := List.getElem?_eq_getElem hended
    have hpublished : f.channels[channel]? = some (some f.results[channel]) := by
      rw [h.channels, List.getElem?_append_left (by rwa [List.length_map]), List.getElem?_map,
        hresult]
      rfl
    rw [waitFor?, hpublished, hresult]
    rfl
  · -- it is the number of the run under way
    rcases h.runs with hnone | ⟨run, hrun⟩
    · rw [hnone] at hlt
      exact absurd hlt hended
    · rw [hrun, List.length_singleton] at hlt
      obtain rfl : channel = f.results.length := by omega
      have hsilent : f.channels[f.results.length]? = some none := by
        rw [h.channels, hrun, List.getElem?_append_right (Nat.le_of_eq (List.length_map some)),
          List.length_map, Nat.sub_self]
        rfl
      rw [waitFor?, hsilent, hrun, List.getElem?_eq_none (Nat.le_refl _)]
      simp

end Sound

/-- What a caller comes to know who looks at the results of the runs that have ended. -/
def hears (f : Flight) : Caller → Caller
  | .owning channel => (f.results[channel]?.map fun r => .told (.ofOwnRun r)).getD (.owning channel)
  | .joining channel => (f.results[channel]?.map fun r => .told (.joined r)).getD (.joining channel)
  | caller => caller

theorem hears_waitsBelow {caller : Caller} {n : Nat} (h : caller.WaitsBelow n) :
    (f.hears caller).WaitsBelow n := by
  cases caller with
  | owning channel =>
      unfold hears
      dsimp only
      cases f.results[channel]? with
      | none => exact h
      | some result => trivial
  | joining channel =>
      unfold hears
      dsimp only
      cases f.results[channel]? with
      | none => exact h
      | some result => trivial
  | retrying | told | left => exact h

namespace Sound

theorem resume_eq (h : f.Sound) {caller : Caller}
    (hcaller : caller.WaitsBelow f.channels.length) :
    f.resume caller = (f.hears caller, f) := by
  cases caller with
  | owning channel =>
      unfold resume hears
      dsimp only
      rw [h.waitFor?_eq hcaller]
      cases f.results[channel]? <;> rfl
  | joining channel =>
      unfold resume hears
      dsimp only
      rw [h.waitFor?_eq hcaller]
      cases f.results[channel]? <;> rfl
  | retrying => exact absurd hcaller id
  | told outcome => rfl
  | left => rfl

/-- A caller who wakes hears what there is to hear, and starts nothing. -/
theorem wake_eq (h : f.Sound) (call : Nat) :
    f.wake call = { f with callers := f.callers.modify call f.hears } := by
  unfold wake
  rw [List.modify_eq_set_getElem?]
  cases hcall : f.callers[call]? with
  | none => rfl
  | some caller =>
      dsimp only
      rw [h.resume_eq (h.callers caller (List.mem_of_getElem? hcall))]
      rfl

/-! ### What callers do -/

/-- Other callers, if each of them waits for a run that was started. -/
theorem withCallers (h : f.Sound) {callers : List Caller}
    (hcallers : ∀ caller ∈ callers, caller.WaitsBelow f.channels.length) :
    ({ f with callers := callers } : Flight).Sound :=
  ⟨h.runs, h.channels, h.held, h.slot, hcallers⟩

theorem modifyCaller (h : f.Sound) (call : Nat) {change : Caller → Caller}
    (hchange : ∀ {caller n}, caller.WaitsBelow n → (change caller).WaitsBelow n) :
    ({ f with callers := f.callers.modify call change } : Flight).Sound := by
  refine h.withCallers fun caller hcaller => ?_
  obtain ⟨place, hplace⟩ := List.mem_iff_getElem?.mp hcaller
  rw [List.getElem?_modify] at hplace
  obtain ⟨before, hbefore, rfl⟩ := Option.map_eq_some_iff.mp hplace
  have hwaits := h.callers before (List.mem_of_getElem? hbefore)
  split
  · exact hchange hwaits
  · exact hwaits

theorem wake (h : f.Sound) (call : Nat) : (f.wake call).Sound := by
  rw [h.wake_eq]
  exact h.modifyCaller call hears_waitsBelow

theorem leave (h : f.Sound) (call : Nat) : (f.leave call).Sound := by
  refine h.modifyCaller call fun {caller n} hcaller => ?_
  cases caller <;> trivial

/-- While no run is under way a call starts one. -/
theorem ask_of_idle (hidle : f.compiling.isRunning = false) (waits : Bool) :
    f.ask waits =
      { f.started with callers := f.callers ++ [.owning f.channels.length] } := by
  rw [Flight.ask, attempt, begin_of_idle hidle]
  rfl

/-- While a run is under way a call changes nothing but who waits: it joins that run, whose channel
is in the slot, or is turned away. -/
theorem ask_of_running (h : f.Sound) (hrunning : f.compiling.isRunning = true) (waits : Bool) :
    f.ask waits =
      { f with
        callers := f.callers ++
          [if waits then .joining f.results.length else .told .alreadyInProgress] } := by
  obtain ⟨run, -, hslot⟩ := h.runs_of_running hrunning
  have hbusy : f.begin = .error (some f.results.length) := by
    rw [begin_of_running hrunning, hslot]
  rw [Flight.ask, attempt, hbusy]
  cases waits <;> rfl

theorem ask (h : f.Sound) (waits : Bool) : (f.ask waits).Sound := by
  cases hrunning : f.compiling.isRunning with
  | false =>
      rw [ask_of_idle hrunning]
      refine (h.started hrunning).withCallers fun caller hcaller => ?_
      rcases List.mem_append.mp hcaller with hold | hnew
      · exact (h.started hrunning).callers caller hold
      · rw [List.mem_singleton.mp hnew]
        show f.channels.length < (f.channels ++ [none]).length
        simp
  | true =>
      rw [h.ask_of_running hrunning]
      refine h.withCallers fun caller hcaller => ?_
      rcases List.mem_append.mp hcaller with hold | hnew
      · exact h.callers caller hold
      · obtain ⟨run, hrun, -⟩ := h.runs_of_running hrunning
        rw [List.mem_singleton.mp hnew, h.length_channels, hrun]
        cases waits with
        | true => exact Nat.lt_succ_self _
        | false => trivial

end Sound

end Flight

end LiveSchema
