import LiveSchema.Lineage
import LiveSchema.Proofs.SortedMap
import Mathlib.Data.Finset.Card
import Mathlib.Data.Finset.Max
import Mathlib.Data.Nat.Find
import Mathlib.Data.String.Basic
import Mathlib.Logic.Relation

/-!
# LiveSchema.Proofs.Lineage

The theory of the extends relation. A lineage is a partial function on finitely many names, so the
whole theory is about iterating it (`Lineage.ascend`):

* `ascend_length_eq_none` — where no chain comes back to its beginning, every chain ends within as
  many steps as there are names. This is what makes the bounded recursions of the library complete;
* `Acyclic.induction` — proofs about a type may assume the statement for its parent;
* `Closed.endless_iff` — a chain can be followed for ever exactly on and below closed chains;
* `mem_cycles_iff`, `pairwise_cycles`, `cycles_eq_nil_iff` — the report of closed chains lists each
  of them once, in order, and is empty exactly when there are none.

A lineage that comes from a set of types is `Closed`: parents and children are names of the set.
-/

namespace LiveSchema.Lineage

variable {l : Lineage}

/-- Whatever extends a name, and whatever is extended, is one of the names. -/
structure Closed (l : Lineage) : Prop where
  child_mem : ∀ {name parent}, l.parent? name = some parent → name ∈ l.names
  parent_mem : ∀ {name parent}, l.parent? name = some parent → parent ∈ l.names

/-- A name is another, or is below it. -/
def Reaches (l : Lineage) (name above : String) : Prop := ∃ n, l.ascend n name = some above

/-- A name lies on a closed chain: following extends from it comes back to it. -/
def OnCycle (l : Lineage) (name : String) : Prop := ∃ n, l.ascend (n + 1) name = some name

/-- No chain is closed. -/
def Acyclic (l : Lineage) : Prop := ∀ name, ¬ l.OnCycle name

/-! ### Iterating the relation -/

@[simp] theorem ascend_zero (name : String) : l.ascend 0 name = some name := rfl

theorem ascend_succ (n : Nat) (name : String) :
    l.ascend (n + 1) name = (l.parent? name).bind (l.ascend n) := rfl

@[simp] theorem ascend_one (name : String) : l.ascend 1 name = l.parent? name := by
  rw [ascend_succ]
  cases l.parent? name <;> rfl

/-- A chain is followed in two parts. -/
theorem ascend_add (m n : Nat) (name : String) :
    l.ascend (m + n) name = (l.ascend m name).bind (l.ascend n) := by
  induction m generalizing name with
  | zero => rw [Nat.zero_add, ascend_zero, Option.bind_some]
  | succ m ih =>
      rw [Nat.add_right_comm, ascend_succ, ascend_succ, Option.bind_assoc]
      congr 1
      funext parent
      exact ih parent

theorem ascend_of_ascend {m n : Nat} {name above : String} (h : l.ascend m name = some above) :
    l.ascend (m + n) name = l.ascend n above := by
  rw [ascend_add, h, Option.bind_some]

/-- A chain that has ended stays ended. -/
theorem ascend_eq_none_of_le {m n : Nat} {name : String} (h : l.ascend m name = none)
    (hmn : m ≤ n) : l.ascend n name = none := by
  obtain ⟨k, rfl⟩ := Nat.exists_eq_add_of_le hmn
  rw [ascend_add, h, Option.bind_none]

/-- A chain that has not ended had not ended before. -/
theorem exists_ascend_of_le {m n : Nat} {name above : String} (h : l.ascend n name = some above)
    (hmn : m ≤ n) : ∃ between, l.ascend m name = some between := by
  cases hm : l.ascend m name with
  | none => rw [ascend_eq_none_of_le hm hmn] at h; cases h
  | some between => exact ⟨between, rfl⟩

/-- Going round a closed chain any number of times changes nothing. -/
theorem ascend_mul {n : Nat} {name : String} (h : l.ascend n name = some name) (k : Nat) :
    l.ascend (n * k) name = some name := by
  induction k with
  | zero => rw [Nat.mul_zero, ascend_zero]
  | succ k ih => rw [Nat.mul_succ, ascend_of_ascend ih, h]

/-- On a closed chain only the remainder of the number of steps counts. -/
theorem ascend_mod {n : Nat} {name : String} (h : l.ascend n name = some name) (k : Nat) :
    l.ascend k name = l.ascend (k % n) name := by
  conv_lhs => rw [← Nat.div_add_mod k n]
  exact ascend_of_ascend (ascend_mul h _)

/-! ### Reaching -/

theorem Reaches.refl (name : String) : l.Reaches name name := ⟨0, rfl⟩

theorem Reaches.trans {a b c : String} (hab : l.Reaches a b) (hbc : l.Reaches b c) :
    l.Reaches a c := by
  obtain ⟨m, hm⟩ := hab
  obtain ⟨n, hn⟩ := hbc
  exact ⟨m + n, by rw [ascend_of_ascend hm, hn]⟩

theorem Reaches.of_parent {name parent : String} (h : l.parent? name = some parent) :
    l.Reaches name parent := ⟨1, by rw [ascend_one, h]⟩

/-- What is reached from a name is the name or is reached from its parent. -/
theorem reaches_iff {name above : String} :
    l.Reaches name above ↔
      name = above ∨ ∃ parent, l.parent? name = some parent ∧ l.Reaches parent above := by
  constructor
  · rintro ⟨_ | n, h⟩
    · exact Or.inl (Option.some.inj h)
    · obtain ⟨parent, hp, hn⟩ := Option.bind_eq_some_iff.mp h
      exact Or.inr ⟨parent, hp, n, hn⟩
  · rintro (rfl | ⟨parent, hp, hr⟩)
    · exact Reaches.refl name
    · exact (Reaches.of_parent hp).trans hr

/-- From every name of a closed chain the whole chain is reached, so each leads back. -/
theorem OnCycle.reaches_back {name above : String} (hc : l.OnCycle name)
    (h : l.Reaches name above) : l.Reaches above name := by
  obtain ⟨n, hn⟩ := hc
  obtain ⟨k, hk⟩ := h
  -- going round `k` times takes at least `k` steps
  have hround : l.ascend ((n + 1) * k) name = some name := ascend_mul hn k
  have hle : k ≤ (n + 1) * k := by rw [Nat.add_mul, Nat.one_mul]; omega
  obtain ⟨rest, hrest⟩ := Nat.exists_eq_add_of_le hle
  rw [hrest, ascend_of_ascend hk] at hround
  exact ⟨rest, hround⟩

theorem OnCycle.of_reaches {name above : String} (hc : l.OnCycle name)
    (h : l.Reaches name above) : l.OnCycle above := by
  obtain ⟨n, hn⟩ := hc
  obtain ⟨k, hk⟩ := h
  obtain ⟨m, hm⟩ := OnCycle.reaches_back ⟨n, hn⟩ ⟨k, hk⟩
  exact ⟨m + n + k, by
    rw [show m + n + k + 1 = m + ((n + 1) + k) by omega, ascend_of_ascend hm,
      ascend_of_ascend hn, hk]⟩

/-- One name is reached from another in one step or more. -/
theorem transGen_iff {name above : String} :
    Relation.TransGen (fun child parent => l.parent? child = some parent) name above ↔
      ∃ n, l.ascend (n + 1) name = some above := by
  constructor
  · intro h
    induction h using Relation.TransGen.head_induction_on with
    | single hp => exact ⟨0, by rw [Nat.zero_add, ascend_one, hp]⟩
    | head hp _ ih =>
        obtain ⟨n, hn⟩ := ih
        exact ⟨n + 1, by rw [ascend_succ, hp, Option.bind_some, hn]⟩
  · rintro ⟨n, hn⟩
    induction n generalizing name with
    | zero => exact .single ((ascend_one name).symm.trans hn)
    | succ n ih =>
        obtain ⟨parent, hp, hrest⟩ := Option.bind_eq_some_iff.mp hn
        exact .head hp (ih hrest)

theorem onCycle_iff {name : String} :
    l.OnCycle name ↔
      Relation.TransGen (fun child parent => l.parent? child = some parent) name name :=
  transGen_iff.symm

theorem reaches_iff_reflTransGen {name above : String} :
    l.Reaches name above ↔
      Relation.ReflTransGen (fun child parent => l.parent? child = some parent) name above := by
  rw [Relation.reflTransGen_iff_eq_or_transGen, transGen_iff]
  constructor
  · rintro ⟨_ | n, h⟩
    · exact .inl (Option.some.inj h).symm
    · exact .inr ⟨n, h⟩
  · rintro (rfl | ⟨n, h⟩)
    · exact Reaches.refl _
    · exact ⟨n + 1, h⟩

/-- Two names are each reached from the other exactly when one is on a closed chain that leads to
the other. -/
theorem transGen_and_back_iff {name other : String} :
    Relation.TransGen (fun child parent => l.parent? child = some parent) name other ∧
        Relation.TransGen (fun child parent => l.parent? child = some parent) other name ↔
      l.OnCycle name ∧ l.Reaches name other := by
  rw [onCycle_iff, reaches_iff_reflTransGen]
  constructor
  · rintro ⟨hto, hback⟩
    exact ⟨hto.trans hback, hto.to_reflTransGen⟩
  · rintro ⟨hround, hto⟩
    have hback := reaches_iff_reflTransGen.mp
      (OnCycle.reaches_back (onCycle_iff.mpr hround) (reaches_iff_reflTransGen.mpr hto))
    exact ⟨hround.trans_left hto, .trans_right hback hround⟩

/-! ### Chains in a finite set of names -/

theorem Closed.ascend_mem (hl : l.Closed) {n : Nat} {name above : String}
    (hname : name ∈ l.names) (h : l.ascend n name = some above) : above ∈ l.names := by
  induction n generalizing name with
  | zero => exact Option.some.inj h ▸ hname
  | succ n ih =>
      obtain ⟨parent, hp, hn⟩ := Option.bind_eq_some_iff.mp h
      exact ih (hl.parent_mem hp) hn

theorem Closed.mem_of_onCycle (hl : l.Closed) {name : String} (h : l.OnCycle name) :
    name ∈ l.names := by
  obtain ⟨n, hn⟩ := h
  obtain ⟨parent, hp, -⟩ := Option.bind_eq_some_iff.mp hn
  exact hl.child_mem hp

/-- A chain of as many steps as there are names meets some name twice. -/
theorem Closed.exists_repeat (hl : l.Closed) {name above : String} (hname : name ∈ l.names)
    (h : l.ascend l.names.length name = some above) :
    ∃ i j between, i < j ∧ j ≤ l.names.length ∧
      l.ascend i name = some between ∧ l.ascend j name = some between := by
  have hcard : l.names.toFinset.card < (Finset.range (l.names.length + 1)).card := by
    rw [Finset.card_range]
    exact Nat.lt_succ_of_le (List.toFinset_card_le l.names)
  have hmaps : ∀ i ∈ Finset.range (l.names.length + 1),
      (l.ascend i name).getD name ∈ l.names.toFinset := by
    intro i hi
    obtain ⟨x, hx⟩ := exists_ascend_of_le h (Nat.lt_succ_iff.mp (Finset.mem_range.mp hi))
    rw [hx, Option.getD_some, List.mem_toFinset]
    exact hl.ascend_mem hname hx
  obtain ⟨i, hi, j, hj, hne, heq⟩ := Finset.exists_ne_map_eq_of_card_lt_of_maps_to hcard hmaps
  rw [Finset.mem_range, Nat.lt_succ_iff] at hi hj
  obtain ⟨x, hx⟩ := exists_ascend_of_le h hi
  obtain ⟨y, hy⟩ := exists_ascend_of_le h hj
  rw [hx, hy, Option.getD_some, Option.getD_some] at heq
  subst heq
  rcases Nat.lt_or_gt_of_ne hne with hlt | hlt
  · exact ⟨i, j, x, hlt, hj, hx, hy⟩
  · exact ⟨j, i, x, hlt, hi, hy, hx⟩

/-- Where no chain is closed, every chain ends within as many steps as there are names. -/
theorem ascend_length_eq_none (hl : l.Closed) (ha : l.Acyclic) {name : String}
    (hname : name ∈ l.names) : l.ascend l.names.length name = none := by
  cases h : l.ascend l.names.length name with
  | none => rfl
  | some above =>
      obtain ⟨i, j, x, hij, -, hi, hj⟩ := hl.exists_repeat hname h
      obtain ⟨k, rfl⟩ := Nat.exists_eq_add_of_lt hij
      rw [Nat.add_assoc, ascend_of_ascend hi] at hj
      exact absurd ⟨k, hj⟩ (ha x)

/-- Induction up the chains: what holds of a name as soon as it holds of its parent holds of every
name. -/
theorem Acyclic.induction (hl : l.Closed) (ha : l.Acyclic) {motive : String → Prop}
    (step : ∀ name ∈ l.names,
      (∀ parent, l.parent? name = some parent → motive parent) → motive name) :
    ∀ name ∈ l.names, motive name := by
  -- the induction is on the number of steps within which the chain ends
  have key : ∀ n name, name ∈ l.names → l.ascend n name = none → motive name := by
    intro n
    induction n with
    | zero => intro name _ h; cases h
    | succ n ih =>
        intro name hname h
        refine step name hname fun parent hp => ih parent (hl.parent_mem hp) ?_
        rwa [ascend_succ, hp, Option.bind_some] at h
  intro name hname
  exact key _ name hname (ascend_length_eq_none hl ha hname)

/-- A chain goes on for ever exactly when it comes to a closed one. -/
theorem Closed.endless_iff (hl : l.Closed) {name : String} :
    (∀ n, ∃ above, l.ascend n name = some above) ↔
      ∃ above, l.Reaches name above ∧ l.OnCycle above := by
  constructor
  · intro hendless
    obtain ⟨parent, hparent⟩ := hendless 1
    obtain ⟨top, htop⟩ := hendless l.names.length
    obtain ⟨i, j, above, hij, -, hi, hj⟩ :=
      hl.exists_repeat (hl.child_mem ((ascend_one name).symm.trans hparent)) htop
    obtain ⟨k, rfl⟩ := Nat.exists_eq_add_of_lt hij
    rw [Nat.add_assoc, ascend_of_ascend hi] at hj
    exact ⟨above, ⟨i, hi⟩, k, hj⟩
  · rintro ⟨above, ⟨k, hk⟩, m, hm⟩ n
    -- going round `n` times takes at least `n` steps
    have hround : l.ascend (k + (m + 1) * n) name = some above := by
      rw [ascend_of_ascend hk, ascend_mul hm]
    have hle : n ≤ (m + 1) * n := Nat.le_mul_of_pos_left n m.succ_pos
    exact exists_ascend_of_le hround (Nat.le_trans hle (Nat.le_add_left _ k))

/-- Up to a limit, the depth of a name is the number of steps that can be taken from it. -/
theorem le_depthUpTo_iff {limit n : Nat} {name : String} :
    n ≤ l.depthUpTo limit name ↔ n ≤ limit ∧ ∃ above, l.ascend n name = some above := by
  induction limit generalizing n name with
  | zero =>
      rw [depthUpTo, Nat.le_zero]
      constructor
      · rintro rfl
        exact ⟨rfl, name, rfl⟩
      · exact And.left
  | succ limit ih =>
      cases n with
      | zero => simp
      | succ n =>
          rw [depthUpTo, ascend_succ]
          cases l.parent? name with
          | none => simp
          | some parent => simp [ih]

/-! ### The report of closed chains -/

/-- A path leads from its first name, step by step, to the name that is looked for. -/
theorem ascend_of_pathTo {start : String} {steps : Nat} {name : String} {path : List String}
    (h : l.pathTo start steps name = some path) :
    0 < path.length ∧ l.ascend path.length name = some start ∧
      ∀ i < path.length, path[i]? = l.ascend i name := by
  induction steps generalizing name path with
  | zero => cases h
  | succ steps ih =>
      rw [pathTo] at h
      cases hp : l.parent? name with
      | none => rw [hp] at h; cases h
      | some parent =>
          rw [hp] at h
          dsimp only at h
          by_cases hs : parent = start
          · rw [if_pos hs] at h
            obtain rfl := Option.some.inj h
            refine ⟨Nat.one_pos, by rw [List.length_singleton, ascend_one, hp, hs], ?_⟩
            intro i hi
            obtain rfl : i = 0 := by simpa using hi
            rfl
          · rw [if_neg hs] at h
            obtain ⟨rest, hrest, rfl⟩ := Option.map_eq_some_iff.mp h
            obtain ⟨-, hend, hnth⟩ := ih hrest
            refine ⟨Nat.succ_pos _, ?_, ?_⟩
            · rw [List.length_cons, ascend_succ, hp, Option.bind_some, hend]
            · intro i hi
              cases i with
              | zero => rfl
              | succ i =>
                  rw [List.getElem?_cons_succ, ascend_succ, hp, Option.bind_some]
                  exact hnth i (Nat.lt_of_succ_lt_succ hi)

/-- A path is found if it is not too long. -/
theorem exists_pathTo {start : String} {steps n : Nat} {name : String}
    (h : l.ascend (n + 1) name = some start) (hn : n < steps) :
    ∃ path, l.pathTo start steps name = some path := by
  induction steps generalizing n name with
  | zero => omega
  | succ steps ih =>
      obtain ⟨parent, hp, hrest⟩ := Option.bind_eq_some_iff.mp h
      rw [pathTo, hp]
      dsimp only
      by_cases hs : parent = start
      · exact ⟨[name], if_pos hs⟩
      · rw [if_neg hs]
        cases n with
        | zero => exact absurd (Option.some.inj hrest) hs
        | succ n =>
            obtain ⟨path, hpath⟩ := ih hrest (Nat.lt_of_succ_lt_succ hn)
            exact ⟨name :: path, by rw [hpath, Option.map_some]⟩

/-- The closed chain of a name has exactly the names that are reached from it. -/
theorem mem_cycleOf?_iff {name : String} {members : List String}
    (h : l.cycleOf? name = some members) {x : String} : x ∈ members ↔ l.Reaches name x := by
  obtain ⟨hpos, hend, hnth⟩ := ascend_of_pathTo h
  constructor
  · intro hx
    obtain ⟨i, hi, rfl⟩ := List.getElem_of_mem hx
    exact ⟨i, by rw [← hnth i hi, List.getElem?_eq_getElem hi]⟩
  · rintro ⟨n, hn⟩
    have hlt : n % members.length < members.length := Nat.mod_lt n hpos
    rw [ascend_mod hend, ← hnth _ hlt] at hn
    exact List.mem_of_getElem? hn

theorem onCycle_of_cycleOf? {name : String} {members : List String}
    (h : l.cycleOf? name = some members) : l.OnCycle name := by
  obtain ⟨hpos, hend, -⟩ := ascend_of_pathTo h
  obtain ⟨n, hn⟩ := Nat.exists_eq_succ_of_ne_zero (Nat.ne_of_gt hpos)
  exact ⟨n, by rw [← Nat.succ_eq_add_one, ← hn, hend]⟩

/-- The closed chain of a name is found: the shortest way round has no more steps than there are
names. -/
theorem Closed.exists_cycleOf? (hl : l.Closed) {name : String} (h : l.OnCycle name) :
    ∃ members, l.cycleOf? name = some members := by
  classical
  have hname : name ∈ l.names := hl.mem_of_onCycle h
  have hround := Nat.find_spec h
  refine exists_pathTo hround (Nat.lt_of_not_le fun hlong => ?_)
  -- a longer way round meets a name twice, and leaving out what is between is shorter
  obtain ⟨above, habove⟩ := exists_ascend_of_le hround (Nat.le_succ_of_le hlong)
  obtain ⟨i, j, x, hij, hj, hi, hjx⟩ := hl.exists_repeat hname habove
  obtain ⟨rest, hrest⟩ := Nat.exists_eq_add_of_le (Nat.le_trans hj hlong)
  have hshort : l.ascend (i + rest + 1) name = some name := by
    rw [Nat.add_assoc, ascend_of_ascend hi]
    rw [hrest, Nat.add_assoc, ascend_of_ascend hjx] at hround
    exact hround
  exact Nat.find_min h (by omega : i + rest < Nat.find h) hshort

/-- What is reported of a closed chain: its members, sorted. -/
def IsCircle (l : Lineage) (circle : List String) : Prop :=
  ∃ name members, l.OnCycle name ∧ (∀ x, x ∈ members ↔ l.Reaches name x) ∧
    circle = (NameSet.ofNames members).keys

/-- The closed chain of a name is listed under its least member. -/
theorem Closed.exists_least (hl : l.Closed) {name : String} (h : l.OnCycle name) :
    ∃ least members, l.Reaches name least ∧ l.cycleOf? least = some members ∧
      members.all (fun m => decide (least ≤ m)) = true := by
  obtain ⟨members, hmembers⟩ := hl.exists_cycleOf? h
  obtain ⟨least, hleast, hmin⟩ := members.toFinset.exists_min_image id
    ⟨name, List.mem_toFinset.mpr ((mem_cycleOf?_iff hmembers).mpr (Reaches.refl name))⟩
  have hreach : l.Reaches name least :=
    (mem_cycleOf?_iff hmembers).mp (List.mem_toFinset.mp hleast)
  obtain ⟨members', hmembers'⟩ := hl.exists_cycleOf? (h.of_reaches hreach)
  refine ⟨least, members', hreach, hmembers', List.all_eq_true.mpr fun m hm => decide_eq_true ?_⟩
  have hm' : m ∈ members.toFinset := by
    rw [List.mem_toFinset, mem_cycleOf?_iff hmembers]
    exact hreach.trans ((mem_cycleOf?_iff hmembers').mp hm)
  exact hmin m hm'

/-- The report of closed chains lists each of them. -/
theorem Closed.mem_cycles_iff (hl : l.Closed) {circle : List String} :
    circle ∈ l.cycles ↔ l.IsCircle circle := by
  rw [cycles, List.mem_filterMap]
  constructor
  · rintro ⟨name, -, hlisted⟩
    obtain ⟨members, hmembers, hcircle⟩ := Option.bind_eq_some_iff.mp hlisted
    split at hcircle
    next =>
      exact ⟨name, members, onCycle_of_cycleOf? hmembers, fun x => mem_cycleOf?_iff hmembers,
        (Option.some.inj hcircle).symm⟩
    next => cases hcircle
  · rintro ⟨name, members, hcycle, hmem, rfl⟩
    obtain ⟨least, members', hreach, hmembers', hall⟩ := hl.exists_least hcycle
    refine ⟨least, hl.mem_of_onCycle (hcycle.of_reaches hreach), ?_⟩
    rw [hmembers', Option.bind_some, if_pos hall, NameSet.ofNames_congr fun x => ?_]
    -- the least member and the name reach each other, so they reach the same names
    rw [hmem, mem_cycleOf?_iff hmembers']
    exact ⟨hreach.trans, (hcycle.reaches_back hreach).trans⟩

/-- A circle has the names that are reached from any one of them. -/
theorem IsCircle.mem_iff {circle : List String} (h : l.IsCircle circle) {name : String}
    (hname : name ∈ circle) : l.OnCycle name ∧ ∀ x, x ∈ circle ↔ l.Reaches name x := by
  obtain ⟨start, members, hcycle, hmem, rfl⟩ := h
  simp only [NameSet.mem_keys_ofNames, hmem] at hname ⊢
  exact ⟨hcycle.of_reaches hname,
    fun x => ⟨(hcycle.reaches_back hname).trans, hname.trans⟩⟩

/-- Circles that meet are the same. -/
theorem IsCircle.eq_of_mem {circle circle' : List String} (h : l.IsCircle circle)
    (h' : l.IsCircle circle') {name : String} (hname : name ∈ circle) (hname' : name ∈ circle') :
    circle = circle' := by
  have hsame (x : String) : x ∈ circle ↔ x ∈ circle' :=
    ((h.mem_iff hname).2 x).trans ((h'.mem_iff hname').2 x).symm
  obtain ⟨-, members, -, -, rfl⟩ := h
  obtain ⟨-, members', -, -, rfl⟩ := h'
  simp only [NameSet.mem_keys_ofNames] at hsame
  rw [NameSet.ofNames_congr hsame]

/-- Two names are listed together exactly when they lie on a closed chain, and on the same one. -/
theorem Closed.exists_mem_cycles_iff (hl : l.Closed) {name other : String} :
    (∃ circle ∈ l.cycles, name ∈ circle ∧ other ∈ circle) ↔
      l.OnCycle name ∧ l.Reaches name other := by
  constructor
  · rintro ⟨circle, hcircle, hname, hother⟩
    obtain ⟨hcycle, hmem⟩ := (hl.mem_cycles_iff.mp hcircle).mem_iff hname
    exact ⟨hcycle, (hmem other).mp hother⟩
  · rintro ⟨hcycle, hreach⟩
    obtain ⟨members, hmembers⟩ := hl.exists_cycleOf? hcycle
    have hmem (x : String) : x ∈ members ↔ l.Reaches name x := mem_cycleOf?_iff hmembers
    refine ⟨_, hl.mem_cycles_iff.mpr ⟨name, members, hcycle, hmem, rfl⟩, ?_, ?_⟩
    · exact NameSet.mem_keys_ofNames.mpr ((hmem name).mpr (Reaches.refl name))
    · exact NameSet.mem_keys_ofNames.mpr ((hmem other).mpr hreach)

/-- The name under which a closed chain is listed is the first of its members. -/
theorem head?_of_listed {name : String} {circle : List String}
    (h : circle ∈ (l.cycleOf? name).bind fun members =>
      if members.all (fun m => decide (name ≤ m)) then some (NameSet.ofNames members).keys
      else none) :
    circle.head? = some name := by
  obtain ⟨members, hmembers, hcircle⟩ := Option.bind_eq_some_iff.mp h
  split at hcircle
  next hall =>
    obtain rfl := Option.some.inj hcircle
    have hname : name ∈ (NameSet.ofNames members).keys :=
      NameSet.mem_keys_ofNames.mpr ((mem_cycleOf?_iff hmembers).mpr (.refl name))
    have hleast : ∀ x ∈ (NameSet.ofNames members).keys, name ≤ x := fun x hx =>
      of_decide_eq_true (List.all_eq_true.mp hall x (NameSet.mem_keys_ofNames.mp hx))
    have hsorted := SortedMap.keys_sorted (NameSet.ofNames members)
    cases hkeys : (NameSet.ofNames members).keys with
    | nil =>
        rw [hkeys] at hname
        cases hname
    | cons first rest =>
        rw [hkeys] at hname hleast hsorted
        -- the first of the members, which increase, is not above the name
        have hle : first ≤ name := by
          rcases List.mem_cons.mp hname with rfl | hrest
          · exact String.le_refl _
          · exact le_of_lt ((List.pairwise_cons.mp hsorted).1 name hrest)
        rw [List.head?_cons, String.le_antisymm hle (hleast first List.mem_cons_self)]
  next => cases hcircle

/-- No closed chain is reported twice: its least member tells where it is listed. -/
theorem nodup_cycles (hn : l.names.Nodup) : l.cycles.Nodup :=
  hn.filterMap fun _ _ _ h h' =>
    Option.some.inj ((head?_of_listed h).symm.trans (head?_of_listed h'))

/-- Closed chains are reported in order. -/
theorem pairwise_cycles (hn : l.names.Pairwise (· < ·)) : l.cycles.Pairwise (· < ·) := by
  refine List.pairwise_filterMap.mpr (hn.imp fun hlt circle h circle' h' => ?_)
  obtain ⟨rest, rfl⟩ := List.head?_eq_some_iff.mp (head?_of_listed h)
  obtain ⟨rest', rfl⟩ := List.head?_eq_some_iff.mp (head?_of_listed h')
  exact List.Lex.rel hlt

/-- The report of closed chains is empty exactly when no chain is closed. -/
theorem Closed.cycles_eq_nil_iff (hl : l.Closed) : l.cycles = [] ↔ l.Acyclic := by
  rw [List.eq_nil_iff_forall_not_mem]
  constructor
  · intro hnone name hcycle
    obtain ⟨members, hmembers⟩ := hl.exists_cycleOf? hcycle
    exact hnone _ (hl.mem_cycles_iff.mpr
      ⟨name, members, hcycle, fun x => mem_cycleOf?_iff hmembers, rfl⟩)
  · intro ha circle hmem
    obtain ⟨name, -, hcycle, -⟩ := hl.mem_cycles_iff.mp hmem
    exact ha name hcycle

end LiveSchema.Lineage
