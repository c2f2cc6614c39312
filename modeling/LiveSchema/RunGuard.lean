/-!
# LiveSchema.RunGuard

A guard around a section that one party at a time may be in. Entering a section that is in use fails
at once; whoever is in it holds a permit, and giving the permit back leaves the section.
-/

namespace LiveSchema

/-- A guard: the holder of the permit, if the section is in use. -/
structure RunGuard (α : Type) where
  name : String
  holder : Option α := none

namespace RunGuard

variable {α : Type}

/-- Whether the section is in use. -/
def isRunning (g : RunGuard α) : Bool := g.holder.isSome

/-- The word for the state of the section. -/
def stateName (g : RunGuard α) : String := if g.isRunning then "running" else "idle"

/-- Enter the section, if it is not in use. -/
def acquire? (g : RunGuard α) (party : α) : Option (RunGuard α) :=
  match g.holder with
  | none => some { g with holder := some party }
  | some _ => none

/-- Have the holder of the permit be known as another party. -/
def handOver (g : RunGuard α) (party : α) : RunGuard α := { g with holder := some party }

/-- The permit is given back. -/
def release (g : RunGuard α) : RunGuard α := { g with holder := none }

/-- Give back the permit, if the party holds it. -/
def release? [DecidableEq α] (g : RunGuard α) (party : α) : Option (RunGuard α) :=
  if g.holder = some party then some g.release else none

/-- A section that is in use cannot be entered. -/
theorem acquire?_of_running {g : RunGuard α} (h : g.isRunning = true) (party : α) :
    g.acquire? party = none := by
  obtain ⟨holder, hholder⟩ := Option.isSome_iff_exists.mp h
  rw [acquire?, hholder]

/-- A section that is not in use can be entered, and is in use then. -/
theorem acquire?_of_idle {g : RunGuard α} (h : g.isRunning = false) (party : α) :
    g.acquire? party = some (g.handOver party) := by
  rw [acquire?, Option.isNone_iff_eq_none.mp (Option.isSome_eq_false_iff.mp h)]
  rfl

end RunGuard

end LiveSchema
