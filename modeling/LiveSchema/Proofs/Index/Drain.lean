import LiveSchema.Proofs.Index.Queue

/-!
# LiveSchema.Proofs.Index.Drain

The worker's turn, in its parts. A worker that looks at the queue either takes the waiting request,
or finds none, gives back the guard and looks once more; `Synchronizer.turn` does this in one step.
Here others may act between the parts: a request that comes after the queue was seen empty may find
the guard held still, or may find it free and start a second worker while the first one has yet to
look again.

* `Drain.view` — what a drain looks like to who takes a turn for one step. The turn happens when the
  worker looks; whoever is to look again counts as holding the guard while something waits.
* `Drain.Reachable.exists_events` — every drain is so seen to be a run of whole turns. This is what
  looking once more is good for.
* `Drain.reachable_foldl` — conversely, every run of whole turns is a drain in which nobody comes in
  between.
* `Drain.inline_sweep_in_the_gap` — the refinement needs that no inline sweep enters the guarded
  section while a worker has yet to look again. If one does, looking again is in vain.
-/

namespace LiveSchema

namespace Synchronizer

/-- A synchronizer, and the workers that are done with the queue for now. -/
structure Drain where
  handling : Handling := {}
  /-- The worker that holds the guard has found the queue empty, and is about to give it back. -/
  foundNone : Bool := false
  /-- How many workers have given back the guard and have yet to look at the queue once more. -/
  leaving : Nat := 0

namespace Drain

/-- What can happen during a drain. -/
inductive Move where
  /-- Anything but the worker's dealings with the queue. -/
  | other (event : Event)
  /-- The worker takes the waiting request, or finds that there is none. -/
  | take
  /-- A worker that has found none gives back the guard. -/
  | giveBack
  /-- A worker that has given back the guard looks at the queue once more. -/
  | lookAgain

/-- The drain with another synchronizer. -/
def withSynchronizer (d : Drain) (s : Synchronizer) : Drain :=
  { d with handling := { d.handling with synchronizer := s } }

/-- What comes of a move; a party that is not there does nothing. -/
def after (d : Drain) : Move → Drain
  | .other .step =>
    match d.handling.synchronizer.activity with
    | some .scheduled => d
    | _ => { d with handling := d.handling.after .step }
  | .other event => { d with handling := d.handling.after event }
  | .take =>
    match d.handling.synchronizer.activity, d.foundNone with
    | some .scheduled, false =>
      match d.handling.synchronizer.take? with
      | some s => d.withSynchronizer s
      | none => { d with foundNone := true }
    | _, _ => d
  | .giveBack =>
    if d.foundNone then
      { d.withSynchronizer d.handling.synchronizer.giveBack with
        foundNone := false
        leaving := d.leaving + 1 }
    else d
  | .lookAgain =>
    match d.leaving with
    | 0 => d
    | leaving + 1 =>
      { d.withSynchronizer d.handling.synchronizer.lookAgain with leaving := leaving }

/-- Whether an inline sweep enters while a worker has yet to look again. -/
def SlipsIn (d : Drain) (move : Move) : Prop :=
  ∃ request, move = .other (.runInline request) ∧ d.handling.synchronizer.activity = none ∧
    d.leaving ≠ 0

/-- What a synchronizer over a database can come to, as long as no inline sweep slips in. -/
inductive Reachable (db : Database) : Drain → Prop where
  | start : Reachable db { handling := { db := db } }
  | next {d : Drain} (h : Reachable db d) {move : Move} (hout : ¬ d.SlipsIn move) :
      Reachable db (d.after move)

/-! ### Whole turns -/

/-- Whether the queue was seen empty, by a worker that is to look again and has nobody before
him. -/
def between (d : Drain) : Bool :=
  d.foundNone || (d.handling.synchronizer.activity.isNone && d.leaving != 0)

/-- The synchronizer, when it is between two looks: the guard counts as held if something waits. -/
def settledView (s : Synchronizer) : Synchronizer :=
  if s.pending.isSome then s.goOn .scheduled else s.giveBack

/-- What the drain looks like to who takes a turn for one step. Only the guard looks different. -/
def view (d : Drain) : Handling :=
  { d.handling with
    synchronizer :=
      if d.between then settledView d.handling.synchronizer else d.handling.synchronizer }

/-- What holds of every drain. -/
structure Sound (d : Drain) : Prop where
  /-- Who has found none still holds the guard. -/
  holds : d.foundNone = true → d.handling.synchronizer.activity = some .scheduled
  /-- During an inline sweep no worker has yet to look again. -/
  inline : ∀ sweep, d.handling.synchronizer.activity = some (.sweeping .inline sweep) →
    d.leaving = 0
  /-- Nothing waits after the shutdown. -/
  closed : d.handling.synchronizer.isShutDown = true → d.handling.synchronizer.pending = none

theorem sound_start (db : Database) : Sound { handling := { db := db } } where
  holds hfound := by cases hfound
  inline sweep hactivity := by cases hactivity
  closed hshut := by cases hshut

/-- One drain follows another by whole turns, and what callers do. -/
def Follows (d d' : Drain) : Prop :=
  ∃ events : List Event, d'.view = events.foldl Handling.after d.view

variable {d : Drain}

/-- What cannot be seen follows. -/
theorem follows_of_view_eq {d' : Drain} (h : d'.view = d.view) : d.Follows d' := ⟨[], h⟩

theorem view_eq_handling (h : d.between = false) : d.view = d.handling := by
  rw [view, h]
  rfl

theorem view_eq_settledView (h : d.between = true) :
    d.view = { d.handling with synchronizer := settledView d.handling.synchronizer } := by
  rw [view, h]
  rfl

theorem settledView_of_none {s : Synchronizer} (h : s.pending = none) :
    settledView s = s.giveBack := by
  rw [settledView, h]
  rfl

theorem settledView_of_some {s : Synchronizer} {request : SyncRequest}
    (h : s.pending = some request) : settledView s = s.goOn .scheduled := by
  rw [settledView, h]
  rfl

theorem giveBack_of_idle {s : Synchronizer} (h : s.activity = none) : s.giveBack = s := by
  obtain ⟨pending, ⟨name, holder⟩, completed, sweeps, last, isShutDown⟩ := s
  obtain rfl : holder = none := h
  rfl

/-- While nobody holds the guard and nothing waits, there is nothing to look for. -/
theorem view_of_empty (hactivity : d.handling.synchronizer.activity = none)
    (hpending : d.handling.synchronizer.pending = none) : d.view = d.handling := by
  cases hbetween : d.between with
  | false => exact view_eq_handling hbetween
  | true =>
      rw [view_eq_settledView hbetween, settledView_of_none hpending, giveBack_of_idle hactivity]

theorem not_between {doing : SyncActivity} (hfound : d.foundNone = false)
    (hactivity : d.handling.synchronizer.activity = some doing) : d.between = false := by
  rw [between, hfound, hactivity]
  rfl

theorem not_between_of_leaving (hfound : d.foundNone = false) (hleaving : d.leaving = 0) :
    d.between = false := by
  rw [between, hfound, hleaving]
  simp

/-- A request that comes between two looks has a worker see to it, in either view. -/
theorem synchronize_settledView {s : Synchronizer} (hopen : s.isShutDown = false)
    (request : SyncRequest) :
    (settledView s).synchronize request = (s.enqueue request).goOn .scheduled := by
  unfold settledView
  cases s.pending.isSome with
  | true => exact @synchronize_of_open (s.goOn .scheduled) hopen request
  | false => exact @synchronize_of_open s.giveBack hopen request

namespace Sound

theorem activity_of_between (h : d.Sound) (hbetween : d.between = true) :
    d.handling.synchronizer.activity = some .scheduled ∨
      d.handling.synchronizer.activity = none := by
  cases hfound : d.foundNone with
  | true => exact Or.inl (h.holds hfound)
  | false =>
      rw [between, hfound, Bool.false_or, Bool.and_eq_true] at hbetween
      exact Or.inr (Option.isNone_iff_eq_none.mp hbetween.1)

theorem foundNone_of_sweeping (h : d.Sound) {sweeper : Sweeper} {sweep : Sweep}
    (hactivity : d.handling.synchronizer.activity = some (.sweeping sweeper sweep)) :
    d.foundNone = false := by
  rw [← Bool.not_eq_true]
  intro hfound
  rw [h.holds hfound] at hactivity
  cases hactivity

end Sound

/-! ### The worker's own moves -/

/-- The turn happens when the worker looks. -/
theorem follows_take : d.Follows (d.after .take) := by
  unfold after
  dsimp only
  split
  next hactivity hfound =>
    have hview := view_eq_handling (not_between hfound hactivity)
    have hstep : d.handling.synchronizer.step d.handling.db =
        some (d.handling.synchronizer.turn, d.handling.db) := by
      rw [Synchronizer.step, hactivity]
    have hturn : d.view.after .step =
        { d.handling with synchronizer := d.handling.synchronizer.turn } := by
      rw [hview, Handling.after, hstep]
    refine ⟨[.step], Eq.trans ?_ hturn.symm⟩
    rw [turn_eq]
    unfold take?
    cases hpending : d.handling.synchronizer.pending with
    | none =>
        refine (view_eq_settledView rfl).trans ?_
        exact congrArg (fun s => { d.handling with synchronizer := s })
          (settledView_of_none hpending)
    | some request => exact view_eq_handling (not_between hfound rfl)
  next => exact follows_of_view_eq rfl

/-- Giving back the guard makes no difference, as whoever does will look again. -/
theorem follows_giveBack : d.Follows (d.after .giveBack) := by
  unfold after
  dsimp only
  split
  next hfound =>
    refine follows_of_view_eq ?_
    have hbetween : d.between = true := by
      rw [between, hfound]
      rfl
    rw [view, view, hbetween]
    rfl
  next => exact follows_of_view_eq rfl

theorem lookAgain_of_busy {s : Synchronizer} {doing : SyncActivity} (h : s.activity = some doing) :
    s.lookAgain = s := by
  unfold lookAgain wake
  rw [enter?_of_busy h]
  simp

/-- Who looks once more sees to what waits, or finds somebody who does. -/
theorem follows_lookAgain (h : d.Sound) : d.Follows (d.after .lookAgain) := by
  unfold after
  dsimp only
  split
  next => exact follows_of_view_eq rfl
  next leaving hleaving =>
    refine follows_of_view_eq ?_
    cases hactivity : d.handling.synchronizer.activity with
    | some doing =>
        rw [lookAgain_of_busy hactivity, withSynchronizer, view, view, between, between, hactivity]
        rfl
    | none =>
        have hbetween : d.between = true := by
          rw [between, hactivity, hleaving]
          simp
        have hfound : d.foundNone = false := by
          rw [← Bool.not_eq_true]
          intro hfound
          cases hactivity.symm.trans (h.holds hfound)
        cases hpending : d.handling.synchronizer.pending with
        | none =>
            have hsame : d.handling.synchronizer.lookAgain = d.handling.synchronizer := by
              rw [lookAgain, hpending]
              rfl
            rw [view_of_empty hactivity hpending, hsame]
            exact view_of_empty hactivity hpending
        | some request =>
            have hopen : d.handling.synchronizer.isShutDown = false := by
              rw [← Bool.not_eq_true]
              intro hshut
              cases hpending.symm.trans (h.closed hshut)
            have hwake : d.handling.synchronizer.lookAgain =
                d.handling.synchronizer.goOn .scheduled := by
              rw [lookAgain, hpending, hopen, wake_eq, hactivity]
              rfl
            rw [view_eq_settledView hbetween, settledView_of_some hpending, hwake]
            exact view_eq_handling (not_between hfound rfl)

/-! ### What others do -/

/-- What others do while nobody is between two looks, and leaves nobody there, is seen as it is. -/
theorem follows_of_not_between (hbefore : d.between = false) {event : Event}
    (hafter : ({ d with handling := d.handling.after event } : Drain).between = false) :
    d.Follows { d with handling := d.handling.after event } := by
  refine ⟨[event], ?_⟩
  rw [view_eq_handling hbefore]
  exact view_eq_handling hafter

theorem foundNone_of_not_between (h : d.between = false) : d.foundNone = false := by
  rw [between, Bool.or_eq_false_iff] at h
  exact h.1

theorem synchronize_of_shutDown {s : Synchronizer} (hshut : s.isShutDown = true)
    (request : SyncRequest) : s.synchronize request = s := by
  rw [Synchronizer.synchronize, if_pos hshut]

/-- A request that comes between two looks finds a guard that is free, or held by a worker that will
look again. -/
theorem follows_synchronize (h : d.Sound) (request : SyncRequest) :
    d.Follows (d.after (.other (.synchronize request))) := by
  show d.Follows { d with handling := d.handling.after (.synchronize request) }
  cases hbetween : d.between with
  | false =>
      have hfound := foundNone_of_not_between hbetween
      refine follows_of_not_between hbetween ?_
      cases hopen : d.handling.synchronizer.isShutDown with
      | true =>
          rw [Handling.after, synchronize_of_shutDown hopen]
          exact hbetween
      | false =>
          rw [Handling.after, synchronize_of_open hopen]
          exact not_between hfound rfl
  | true =>
      have hholder : d.handling.synchronizer.holder ≠ some .inline ∧
          (settledView d.handling.synchronizer).holder ≠ some .inline := by
        refine ⟨?_, ?_⟩
        · rcases h.activity_of_between hbetween with hactivity | hactivity <;>
            simp [holder, hactivity]
        · unfold settledView
          split <;> simp [holder]
      refine ⟨[.synchronize request], ?_⟩
      rw [view_eq_settledView hbetween, List.foldl_cons, List.foldl_nil, Handling.after,
        Handling.after]
      dsimp only
      rw [decide_eq_false hholder.1, decide_eq_false hholder.2]
      cases hopen : d.handling.synchronizer.isShutDown with
      | true =>
          have hopen' : (settledView d.handling.synchronizer).isShutDown = true := by
            unfold settledView
            split <;> exact hopen
          rw [synchronize_of_shutDown hopen, synchronize_of_shutDown hopen']
          exact view_eq_settledView hbetween
      | false =>
          rw [synchronize_settledView hopen, synchronize_of_open hopen]
          have hscheduled : d.handling.synchronizer.activity.getD .scheduled = .scheduled := by
            rcases h.activity_of_between hbetween with hactivity | hactivity
            · rw [hactivity]
              rfl
            · rw [hactivity]
              rfl
          rw [hscheduled]
          cases hfound : d.foundNone with
          | true => exact view_eq_settledView rfl
          | false => exact view_eq_handling (not_between rfl rfl)

theorem follows_runInline {request : SyncRequest} (h : d.Sound)
    (hout : ¬ d.SlipsIn (.other (.runInline request))) :
    d.Follows (d.after (.other (.runInline request))) := by
  show d.Follows { d with handling := d.handling.after (.runInline request) }
  cases hactivity : d.handling.synchronizer.activity with
  | none =>
      have hleaving : d.leaving = 0 := by
        by_contra hsome
        exact hout ⟨request, rfl, hactivity, hsome⟩
      have hfound : d.foundNone = false := by
        rw [← Bool.not_eq_true]
        intro hfound
        cases hactivity.symm.trans (h.holds hfound)
      exact follows_of_not_between (not_between_of_leaving hfound hleaving)
        (not_between_of_leaving hfound hleaving)
  | some doing =>
      rw [Handling.after, startInline?, enter?_of_busy hactivity]
      exact follows_of_view_eq rfl

theorem follows_abandonInline (h : d.Sound) :
    d.Follows (d.after (.other .abandonInline)) := by
  show d.Follows { d with handling := d.handling.after .abandonInline }
  rw [Handling.after, abandonInline]
  split
  next sweep hactivity =>
    have hfound := h.foundNone_of_sweeping hactivity
    have hafter : d.handling.after .abandonInline =
        { d.handling with synchronizer := d.handling.synchronizer.giveBack } := by
      rw [Handling.after, abandonInline, hactivity]
    rw [← hafter]
    exact follows_of_not_between (not_between hfound hactivity)
      (not_between_of_leaving hfound (h.inline sweep hactivity))
  next => exact follows_of_view_eq rfl

/-- A sweep under way goes on. -/
theorem follows_step (h : d.Sound) : d.Follows (d.after (.other .step)) := by
  unfold after
  dsimp only
  split
  next => exact follows_of_view_eq rfl
  next hnot =>
    cases hactivity : d.handling.synchronizer.activity with
    | none =>
        have hstay : d.handling.after .step = d.handling := by
          rw [Handling.after, step, hactivity]
        rw [hstay]
        exact follows_of_view_eq rfl
    | some doing =>
        cases doing with
        | scheduled => exact absurd hactivity hnot
        | sweeping sweeper sweep =>
            have hfound := h.foundNone_of_sweeping hactivity
            refine follows_of_not_between (not_between hfound hactivity) ?_
            rw [Handling.after]
            cases hstep : d.handling.synchronizer.step d.handling.db with
            | none => exact not_between hfound hactivity
            | some next =>
                rcases Synchronizer.step_cases hstep with ⟨hscheduled, -, -⟩ |
                  ⟨_, _, _, -, -, hmore⟩ | ⟨sweeper', sweep', _, hsweeping, -, -, hends⟩
                · exact absurd hscheduled hnot
                · exact not_between hfound (congrArg activity hmore)
                · cases sweeper' with
                  | worker => exact not_between hfound (congrArg activity hends)
                  | inline => exact not_between_of_leaving hfound (h.inline sweep' hsweeping)

/-- After a shutdown nothing waits, so who is between two looks has nothing to look for. -/
theorem follows_shutDown (d : Drain) : d.Follows (d.after (.other .shutDown)) := by
  show d.Follows { d with handling := d.handling.after .shutDown }
  cases hbetween : d.between with
  | false => exact follows_of_not_between hbetween hbetween
  | true =>
      cases hpending : d.handling.synchronizer.pending with
      | none =>
          refine ⟨[.shutDown], ?_⟩
          rw [view_eq_settledView hbetween, settledView_of_none hpending]
          exact view_eq_settledView hbetween
      | some request =>
          refine ⟨[.shutDown, .step], ?_⟩
          rw [view_eq_settledView hbetween, settledView_of_some hpending]
          exact view_eq_settledView hbetween

theorem Sound.follows (h : d.Sound) {move : Move} (hout : ¬ d.SlipsIn move) :
    d.Follows (d.after move) := by
  cases move with
  | take => exact follows_take
  | giveBack => exact follows_giveBack
  | lookAgain => exact follows_lookAgain h
  | other event =>
      cases event with
      | synchronize request => exact follows_synchronize h request
      | runInline request => exact follows_runInline h hout
      | abandonInline => exact follows_abandonInline h
      | step => exact follows_step h
      | shutDown => exact follows_shutDown d
      | changeDatabase db => exact ⟨[.changeDatabase db], rfl⟩

/-! ### The invariant -/

theorem lookAgain_cases (s : Synchronizer) :
    s.lookAgain = s ∨ (s.activity = none ∧ s.lookAgain = s.goOn .scheduled) := by
  cases hactivity : s.activity with
  | some doing => exact Or.inl (lookAgain_of_busy hactivity)
  | none =>
      rw [lookAgain, wake_eq, hactivity]
      split
      · exact Or.inl rfl
      · exact Or.inr ⟨rfl, rfl⟩

namespace Sound

/-- As long as nobody has found the queue empty, any activity but an inline sweep is sound. -/
theorem of_activity (hfound : d.foundNone = false)
    (hinline : ∀ sweep, d.handling.synchronizer.activity = some (.sweeping .inline sweep) →
      d.leaving = 0)
    (hclosed : d.handling.synchronizer.isShutDown = true →
      d.handling.synchronizer.pending = none) : d.Sound where
  holds hnone := by cases hfound.symm.trans hnone
  inline := hinline
  closed := hclosed

theorem take (h : d.Sound) : (d.after .take).Sound := by
  unfold Drain.after take?
  dsimp only
  split
  next hactivity hfound =>
    cases hpending : d.handling.synchronizer.pending with
    | none =>
        exact ⟨fun _ => hactivity, h.inline, h.closed⟩
    | some request => exact of_activity hfound (fun _ hinline => by cases hinline) fun _ => rfl
  next => exact h

theorem giveBack (h : d.Sound) : (d.after .giveBack).Sound := by
  unfold Drain.after
  dsimp only
  split
  next => exact of_activity rfl (fun _ hinline => by cases hinline) h.closed
  next => exact h

theorem lookAgain (h : d.Sound) : (d.after .lookAgain).Sound := by
  unfold Drain.after
  dsimp only
  split
  next => exact h
  next leaving hleaving =>
    rcases lookAgain_cases d.handling.synchronizer with hsame | ⟨hactivity, hwoken⟩
    · rw [hsame]
      refine ⟨h.holds, fun sweep hactivity => ?_, h.closed⟩
      cases hleaving.symm.trans (h.inline sweep hactivity)
    · rw [hwoken]
      exact ⟨fun _ => rfl, (fun _ hinline => by cases hinline), h.closed⟩

theorem synchronize (h : d.Sound) (request : SyncRequest) :
    (d.after (.other (.synchronize request))).Sound := by
  show Sound { d with handling := d.handling.after (.synchronize request) }
  rw [Handling.after]
  cases hopen : d.handling.synchronizer.isShutDown with
  | true =>
      rw [synchronize_of_shutDown hopen]
      exact ⟨h.holds, h.inline, h.closed⟩
  | false =>
      rw [synchronize_of_open hopen]
      refine ⟨fun hfound => ?_, fun sweep hactivity => ?_, fun hshut => ?_⟩
      · rw [h.holds hfound]
        rfl
      · cases hbefore : d.handling.synchronizer.activity with
        | none =>
            rw [hbefore] at hactivity
            cases hactivity
        | some doing =>
            rw [hbefore] at hactivity
            exact h.inline sweep (hbefore.trans hactivity)
      · cases hopen.symm.trans hshut

theorem runInline (h : d.Sound) {request : SyncRequest}
    (hout : ¬ d.SlipsIn (.other (.runInline request))) :
    (d.after (.other (.runInline request))).Sound := by
  show Sound { d with handling := d.handling.after (.runInline request) }
  rw [Handling.after]
  split
  next s hstart =>
    obtain ⟨hactivity, rfl⟩ := enter?_eq_some hstart
    refine ⟨fun hfound => ?_, fun _ _ => ?_, h.closed⟩
    · cases hactivity.symm.trans (h.holds hfound)
    · by_contra hsome
      exact hout ⟨request, rfl, hactivity, hsome⟩
  next => exact h

theorem abandonInline (h : d.Sound) : (d.after (.other .abandonInline)).Sound := by
  show Sound { d with handling := d.handling.after .abandonInline }
  rw [Handling.after, Synchronizer.abandonInline]
  split
  next sweep hactivity =>
    have hfound := h.foundNone_of_sweeping hactivity
    exact of_activity hfound (fun _ hinline => by cases hinline) h.closed
  next => exact h

theorem step (h : d.Sound) : (d.after (.other .step)).Sound := by
  unfold Drain.after
  dsimp only
  split
  next => exact h
  next hnot =>
    rw [Handling.after]
    cases hstep : d.handling.synchronizer.step d.handling.db with
    | none => exact h
    | some next =>
        obtain ⟨s, db⟩ := next
        rcases Synchronizer.step_cases hstep with ⟨hscheduled, -, -⟩ |
          ⟨sweeper, sweep, _, hactivity, -, rfl⟩ | ⟨sweeper, sweep, _, hactivity, -, -, rfl⟩
        · exact absurd hscheduled hnot
        · refine of_activity (h.foundNone_of_sweeping hactivity) (fun _ hinline => ?_) h.closed
          cases hinline
          exact h.inline sweep hactivity
        · refine of_activity (h.foundNone_of_sweeping hactivity) (fun _ hinline => ?_) ?_
          · cases sweeper <;> cases hinline
          · show (afterSweep _ sweeper).isShutDown = true → (afterSweep _ sweeper).pending = none
            rw [isShutDown_afterSweep, pending_afterSweep]
            exact h.closed

theorem after (h : d.Sound) {move : Move} (hout : ¬ d.SlipsIn move) : (d.after move).Sound := by
  cases move with
  | take => exact h.take
  | giveBack => exact h.giveBack
  | lookAgain => exact h.lookAgain
  | other event =>
      cases event with
      | synchronize request => exact h.synchronize request
      | runInline request => exact h.runInline hout
      | abandonInline => exact h.abandonInline
      | step => exact h.step
      | shutDown => exact ⟨h.holds, h.inline, fun _ => rfl⟩
      | changeDatabase db => exact ⟨h.holds, h.inline, h.closed⟩

end Sound

/-! ### Refinement -/

theorem Reachable.sound {db : Database} (h : Reachable db d) : d.Sound := by
  induction h with
  | start => exact sound_start db
  | next _ hout ih => exact ih.after hout

/-- Whatever happens between the parts of the worker's turns, the drain looks like a run in which
each turn is taken in one step. -/
theorem Reachable.exists_events {db : Database} (h : Reachable db d) :
    ∃ events : List Event, d.view = events.foldl Handling.after { db := db } := by
  induction h with
  | start => exact ⟨[], rfl⟩
  | next hbefore hout ih =>
      obtain ⟨earlier, hearlier⟩ := ih
      obtain ⟨events, hevents⟩ := hbefore.sound.follows hout
      exact ⟨earlier ++ events, by rw [List.foldl_append, ← hearlier, hevents]⟩

/-- So when nobody holds the guard and nobody has yet to look again, everything is settled, unless a
request was overlooked during an inline sweep. -/
theorem Reachable.settled_iff {db : Database} (h : Reachable db d) (hidle : d.handling.Idle)
    (hleaving : d.leaving = 0) : d.handling.Settled ↔ d.handling.duringInline = false := by
  have hfound : d.foundNone = false := by
    rw [← Bool.not_eq_true]
    intro hfound
    cases hidle.1.symm.trans (h.sound.holds hfound)
  obtain ⟨events, hevents⟩ := h.exists_events
  rw [view_eq_handling (not_between_of_leaving hfound hleaving)] at hevents
  have haccounted : d.handling.Accounted := by
    rw [hevents]
    refine Handling.accounted_foldl (fun _ => Handling.accounted_start db) events ?_
    rw [← hevents]
    exact hidle.2
  exact haccounted.settled_iff hidle.1

/-- The guard alone does not keep an inline sweep out of the gap. If one enters after the worker has
given back the guard, and is still under way when the worker looks again, the request that came
before is left behind, though no inline sweep was under way when it came. -/
theorem inline_sweep_in_the_gap :
    let sweep := List.replicate 3 (Move.other .step)
    let moves : List Move := List.flatten [[.other (.synchronize ⟨⟨1, .empty, .empty, []⟩, .empty⟩),
      .take], sweep, [.take, .other (.synchronize ⟨⟨2, .empty, .empty, []⟩, .empty⟩), .giveBack,
      .other (.runInline ⟨⟨1, .empty, .empty, []⟩, .empty⟩), .lookAgain], sweep]
    let d := moves.foldl after {}
    d.handling.Idle ∧ d.leaving = 0 ∧ d.handling.duringInline = false ∧ ¬ d.handling.Settled := by
  intro sweep moves d
  exact ⟨⟨rfl, rfl⟩, rfl, rfl, fun hsettled => nomatch hsettled.1⟩

/-! ### Nobody comes in between -/

/-- Who takes all parts of his turn at once takes the turn. -/
theorem Reachable.turn {db : Database} {h : Handling} (hd : Reachable db { handling := h })
    (hactivity : h.synchronizer.activity = some .scheduled) :
    Reachable db { handling := { h with synchronizer := h.synchronizer.turn } } := by
  have htake := @next db _ hd .take nofun
  rw [Synchronizer.turn]
  unfold after at htake
  dsimp only at htake
  rw [hactivity] at htake
  cases hrequest : h.synchronizer.take? with
  | some s =>
      rw [hrequest] at htake
      exact htake
  | none =>
      rw [hrequest] at htake
      have hgiveBack := @next db _ htake .giveBack nofun
      exact @next db _ hgiveBack .lookAgain nofun

/-- Every run of whole turns is a drain in which nobody has yet to look again. -/
theorem reachable_foldl (db : Database) (events : List Event) :
    Reachable db { handling := events.foldl Handling.after { db := db } } := by
  suffices hfrom : ∀ {h : Handling}, Reachable db { handling := h } →
      Reachable db { handling := events.foldl Handling.after h } from hfrom .start
  induction events with
  | nil => exact id
  | cons event events ih =>
      intro h hd
      refine ih ?_
      have hother := @Reachable.next db _ hd (.other event) fun ⟨_, _, _, hleaving⟩ => hleaving rfl
      cases event with
      | step =>
          cases hactivity : h.synchronizer.activity with
          | none =>
              rwa [after, hactivity] at hother
          | some doing =>
              cases doing with
              | sweeping sweeper sweep => rwa [after, hactivity] at hother
              | scheduled =>
                  have hstep : h.after .step = { h with synchronizer := h.synchronizer.turn } := by
                    rw [Handling.after, step, hactivity]
                  rw [hstep]
                  exact hd.turn hactivity
      | synchronize | runInline | abandonInline | shutDown | changeDatabase => exact hother

end Drain

end Synchronizer

end LiveSchema
