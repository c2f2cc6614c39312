import LiveSchema.Index.Sweep
import LiveSchema.Proofs.Index.Ledger
import Mathlib.Data.List.Induction

/-!
# LiveSchema.Proofs.Index.Sweep

What a sweep comes to. A sweep is stepped, with a gate in its way; what it does to the settings, the
catalog and the counts (`Progress`) is that of a fold over its units and stages, `Sweep.outcome`:

* `outcome_step`, `outcome_finishes` — no step changes the outcome, so a sweep that finishes ends
  with the outcome it began with, however often it had to wait;
* `exists_run_eq_finished` — at an open gate a sweep finishes.

Everything that a step can do is said once (`step_spec`), and read off there.
-/

namespace LiveSchema

/-- What a sweep has made of the settings and the catalog, and its counts. -/
structure Progress where
  settings : Settings
  catalog : Catalog
  stats : SweepStats

namespace Progress

/-- Issue a statement: a rejected one is counted as failed, another one is recorded. -/
def issue (p : Progress) (statement : IndexStatement) : Progress :=
  if p.catalog.failing.contains statement.key then
    { p with
      catalog := { p.catalog with calls := p.catalog.calls ++ [statement] }
      stats := { p.stats with failed := p.stats.failed + 1 } }
  else
    { settings := Sweep.record p.settings statement
      catalog := { p.catalog with calls := p.catalog.calls ++ [statement] }.apply statement
      stats :=
        if statement.isCreate then { p.stats with created := p.stats.created + 1 }
        else { p.stats with dropped := p.stats.dropped + 1 } }

/-- One more failure. -/
def fail (p : Progress) : Progress :=
  { p with stats := { p.stats with failed := p.stats.failed + 1 } }

/-- One more index that is as it should be. -/
def leave (p : Progress) : Progress :=
  { p with stats := { p.stats with unchanged := p.stats.unchanged + 1 } }

/-- Bring one index in line. -/
def converge (p : Progress) (unit : SweepUnit) : Progress :=
  match Ledger.exists? p.settings unit.key with
  | .error _ => p.fail
  | .ok recorded =>
    if unit.wanted && !recorded then p.issue (.create unit.key)
    else if !unit.wanted && recorded then p.issue (.drop unit.key)
    else p.leave

/-- Bring the indexes of one stage in line. -/
def finishStage (g : Generation) (p : Progress) : SweepStage → Progress
  | .type t => (Sweep.typeUnits p.settings t).foldl converge p
  | .orphans =>
    match Sweep.orphanUnits g p.settings with
    | .ok units => units.foldl converge p
    | .error _ => p.fail

end Progress

namespace Sweep

/-- What a sweep has come to so far. -/
def progress (s : Sweep) (db : Database) : Progress := ⟨db.settings, db.catalog, s.stats⟩

/-- What a sweep will have come to when it has finished. -/
def outcome (s : Sweep) (db : Database) : Progress :=
  s.stages.foldl (Progress.finishStage s.request.generation)
    (s.units.foldl Progress.converge (s.statement.toList.foldl Progress.issue (s.progress db)))

/-- A sweep that is not cancelled goes on to its end. Whenever it waits, and at any other time, the
gate may change. -/
inductive Finishes : Sweep → Database → SweepStats → Database → Prop where
  | done {s db stats} : s.step false db = .finished stats → Finishes s db stats db
  | step {s db s' db' stats final} : s.step false db = .more s' db' →
      Finishes s' db' stats final → Finishes s db stats final
  | gate {s db stats final} (gate : Gate) : Finishes s { db with gate := gate } stats final →
      Finishes s db stats final

/-! ### What a step does -/

/-- Everything that a step can do. A statement that waits comes first, then the units that were
found, then the stages; only a statement meets the gate. -/
theorem step_spec (s : Sweep) (db : Database) :
    (∃ statement, s.statement = some statement ∧ db.gate.pass? = none ∧
      s.step false db = .blocked) ∨
    (∃ statement gate, s.statement = some statement ∧ db.gate.pass? = some gate ∧
      s.step false db =
        .more ({ s with statement := none }.issue { db with gate := gate } statement).1
          ({ s with statement := none }.issue { db with gate := gate } statement).2) ∨
    (∃ unit units, s.statement = none ∧ s.units = unit :: units ∧
      s.step false db = .more ({ s with units := units }.lookAt db.settings unit) db) ∨
    (∃ stage stages, s.statement = none ∧ s.units = [] ∧ s.stages = stage :: stages ∧
      s.step false db = .more ({ s with stages := stages }.enter db.settings stage) db) ∨
    (s.statement = none ∧ s.units = [] ∧ s.stages = [] ∧
      s.step false db = .finished s.stats) := by
  unfold step
  cases hst : s.statement with
  | some statement =>
      cases hgate : db.gate.pass? with
      | none => exact Or.inl ⟨statement, rfl, rfl, rfl⟩
      | some gate => exact Or.inr (Or.inl ⟨statement, gate, rfl, rfl, rfl⟩)
  | none =>
      refine Or.inr (Or.inr ?_)
      cases hun : s.units with
      | cons unit units => exact Or.inl ⟨unit, units, rfl, rfl, rfl⟩
      | nil =>
          refine Or.inr ?_
          cases hsg : s.stages with
          | cons stage stages => exact Or.inl ⟨stage, stages, rfl, rfl, rfl, rfl⟩
          | nil => exact Or.inr ⟨rfl, rfl, rfl, rfl⟩

/-- A step issues the statement that waits, looks at the next unit or enters the next stage. -/
theorem step_cases {s s' : Sweep} {db db' : Database} (h : s.step false db = .more s' db') :
    (∃ statement gate, s.statement = some statement ∧ db.gate.pass? = some gate ∧
      { s with statement := none }.issue { db with gate := gate } statement = (s', db')) ∨
    (∃ unit units, s.statement = none ∧ s.units = unit :: units ∧ db' = db ∧
      s' = { s with units := units }.lookAt db.settings unit) ∨
    (∃ stage stages, s.statement = none ∧ s.units = [] ∧ s.stages = stage :: stages ∧ db' = db ∧
      s' = { s with stages := stages }.enter db.settings stage) := by
  rcases step_spec s db with ⟨_, -, -, hstep⟩ | ⟨statement, gate, hst, hpass, hstep⟩ |
    ⟨unit, units, hst, hun, hstep⟩ | ⟨stage, stages, hst, hun, hsg, hstep⟩ | ⟨-, -, -, hstep⟩
  · rw [hstep] at h
    cases h
  · rw [hstep] at h
    injection h with hs hdb
    exact Or.inl ⟨statement, gate, hst, hpass, Prod.ext hs hdb⟩
  · rw [hstep] at h
    injection h with hs hdb
    exact Or.inr (Or.inl ⟨unit, units, hst, hun, hdb.symm, hs.symm⟩)
  · rw [hstep] at h
    injection h with hs hdb
    exact Or.inr (Or.inr ⟨stage, stages, hst, hun, hsg, hdb.symm, hs.symm⟩)
  · rw [hstep] at h
    cases h

/-- A sweep has finished when nothing is left to do. -/
theorem eq_of_finished {s : Sweep} {db : Database} {stats : SweepStats}
    (h : s.step false db = .finished stats) :
    s.statement = none ∧ s.units = [] ∧ s.stages = [] ∧ s.stats = stats := by
  rcases step_spec s db with ⟨_, -, -, hstep⟩ | ⟨_, _, -, -, hstep⟩ | ⟨_, _, -, -, hstep⟩ |
    ⟨_, _, -, -, -, hstep⟩ | ⟨hst, hun, hsg, hstep⟩ <;> rw [hstep] at h
  case inr.inr.inr.inr =>
    injection h with hstats
    exact ⟨hst, hun, hsg, hstats⟩
  all_goals cases h

/-- A step waits only at a closed gate. -/
theorem closed_of_blocked {s : Sweep} {db : Database} (h : s.step false db = .blocked) :
    db.gate.closed = true := by
  rcases step_spec s db with ⟨_, -, hpass, -⟩ | ⟨_, _, -, -, hstep⟩ | ⟨_, _, -, -, hstep⟩ |
    ⟨_, _, -, -, -, hstep⟩ | ⟨-, -, -, hstep⟩
  case inl =>
    by_contra hopen
    rw [Gate.pass?, if_neg hopen] at hpass
    cases hpass
  all_goals
    rw [hstep] at h
    cases h

/-! ### Steps keep the outcome -/

theorem progress_issue (s : Sweep) (db : Database) (statement : IndexStatement) :
    (s.issue db statement).1.progress (s.issue db statement).2 =
      (s.progress db).issue statement := by
  unfold issue Catalog.issue Progress.issue
  by_cases h : db.catalog.failing.contains statement.key = true
  · simp only [progress, h, if_true]
    rfl
  · simp only [progress, h]
    rfl

theorem issue_frame (s : Sweep) (db : Database) (statement : IndexStatement) :
    (s.issue db statement).1.request = s.request ∧ (s.issue db statement).1.units = s.units ∧
      (s.issue db statement).1.stages = s.stages ∧
        (s.issue db statement).1.statement = s.statement := by
  unfold issue
  dsimp only
  split <;> exact ⟨rfl, rfl, rfl, rfl⟩

/-- Looking at an index decides what bringing it in line does. -/
theorem outcome_lookAt (s : Sweep) (db : Database) (unit : SweepUnit) (h : s.statement = none) :
    (s.lookAt db.settings unit).outcome db =
      s.stages.foldl (Progress.finishStage s.request.generation)
        (s.units.foldl Progress.converge ((s.progress db).converge unit)) := by
  unfold lookAt outcome Progress.converge
  have hp : (s.progress db).settings = db.settings := rfl
  rw [hp]
  cases Ledger.exists? db.settings unit.key with
  | error e => simp only [fail, h]; rfl
  | ok recorded =>
      dsimp only
      split
      · rfl
      · split
        · rfl
        · simp only [leave, h]; rfl

theorem outcome_enter (s : Sweep) (db : Database) (stage : SweepStage)
    (hst : s.statement = none) (hun : s.units = []) :
    (s.enter db.settings stage).outcome db =
      s.stages.foldl (Progress.finishStage s.request.generation)
        ((s.progress db).finishStage s.request.generation stage) := by
  unfold enter outcome Progress.finishStage
  cases stage with
  | type t => simp only [hst]; rfl
  | orphans =>
      have hp : (s.progress db).settings = db.settings := rfl
      simp only [hp]
      cases orphanUnits s.request.generation db.settings with
      | ok units => simp only [hst]; rfl
      | error e => simp only [fail, hst, hun]; rfl

/-- No step changes the outcome. -/
theorem outcome_step {s s' : Sweep} {db db' : Database} (h : s.step false db = .more s' db') :
    s'.outcome db' = s.outcome db := by
  rcases step_cases h with ⟨statement, gate, hst, -, hissue⟩ | ⟨unit, units, hst, hun, rfl, rfl⟩ |
    ⟨stage, stages, hst, hun, hsg, rfl, rfl⟩
  · have hprogress := progress_issue { s with statement := none } { db with gate := gate } statement
    obtain ⟨hreq, hunits, hstages, hnone⟩ :=
      issue_frame { s with statement := none } { db with gate := gate } statement
    rw [hissue] at hprogress hreq hunits hstages hnone
    rw [outcome, hprogress, hreq, hunits, hstages, hnone, outcome, hst]
    rfl
  · rw [outcome_lookAt { s with units := units } _ _ hst, outcome, hst, hun]
    rfl
  · rw [outcome_enter { s with stages := stages } _ _ hst hun, outcome, hst, hun, hsg]
    rfl

theorem outcome_of_finished {s : Sweep} {db : Database} {stats : SweepStats}
    (h : s.step false db = .finished stats) :
    s.outcome db = ⟨db.settings, db.catalog, stats⟩ := by
  obtain ⟨hst, hun, hsg, rfl⟩ := eq_of_finished h
  rw [outcome, hst, hun, hsg]
  rfl

/-- A sweep that finishes ends with its outcome. -/
theorem outcome_finishes {s : Sweep} {db db' : Database} {stats : SweepStats}
    (h : s.Finishes db stats db') : s.outcome db = ⟨db'.settings, db'.catalog, stats⟩ := by
  induction h with
  | done hstep => exact outcome_of_finished hstep
  | step hstep _ ih => rw [← outcome_step hstep, ih]
  | gate _ _ ih => exact ih

/-! ### Sweeps finish -/

theorem gate_issue (s : Sweep) (db : Database) (statement : IndexStatement) :
    (s.issue db statement).2.gate = db.gate := by
  unfold issue
  dsimp only
  split <;> rfl

/-- An open gate stays open. -/
theorem open_of_step {s s' : Sweep} {db db' : Database} (hopen : db.gate.closed = false)
    (h : s.step false db = .more s' db') : db'.gate.closed = false := by
  rcases step_cases h with ⟨statement, gate, -, hpass, hissue⟩ | ⟨_, _, -, -, rfl, -⟩ |
    ⟨_, _, -, -, -, rfl, -⟩
  · have hgate := gate_issue { s with statement := none } { db with gate := gate } statement
    rw [hissue] at hgate
    rw [Gate.pass?, if_neg (by simp [hopen])] at hpass
    rw [hgate, ← Option.some.inj hpass]
    exact hopen
  · exact hopen
  · exact hopen

/-- At an open gate a sweep runs to its end. -/
theorem exists_run_eq_finished {s : Sweep} {db : Database} (hopen : db.gate.closed = false) :
    ∃ stats db', s.run false db = .finished stats db' := by
  rw [run]
  split
  -- the recursion never meets a closed gate
  next s' db' hstep => exact exists_run_eq_finished (open_of_step hopen hstep)
  next hstep => exact absurd (closed_of_blocked hstep) (by simp [hopen])
  next stats hstep => exact ⟨stats, db, rfl⟩
termination_by s.remaining
decreasing_by exact remaining_step (by assumption)

/-- A run that ends has finished. -/
theorem finishes_of_run {s : Sweep} {db db' : Database} {stats : SweepStats}
    (h : s.run false db = .finished stats db') : s.Finishes db stats db' := by
  rw [run] at h
  split at h
  next s₁ db₁ hstep => exact .step hstep (finishes_of_run h)
  next => cases h
  next hstep =>
    injection h with hstats hdb
    rw [← hstats, ← hdb]
    exact .done hstep
termination_by s.remaining
decreasing_by exact remaining_step (by assumption)

end Sweep

end LiveSchema
