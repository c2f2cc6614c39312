import LiveSchema.Proofs.Index.Queue

/-!
# LiveSchema.Proofs.Index.Coalescing

What becomes of the removed types when requests are folded into each other. While generations follow
one another each of them is asked for with the types that it lost (`SyncRequest.following`), and the
requests can arrive in any order. Folding two of them drops the names that are types of the newer
generation, so what is dropped depends on the order; a type that disappeared, came back and
disappeared again is dropped from one request and kept in another.

`SyncRequest.Gathers` says what holds of a folded request whatever the order was: it is for the
newest generation that arrived, names only what some request named, and still has every name that
no generation as new as its request brought back. That is enough (`coalesce_loses_no_removal`): the
request that names a type for the last time is newer than every generation that has the type.
-/

namespace LiveSchema

theorem Generation.contains_removedIn_iff {g newer : Generation} {name : String} :
    (g.removedIn newer).contains name = true ↔
      g.contains name = true ∧ newer.contains name = false := by
  rw [removedIn, SortedMap.contains_mapValues, SortedMap.contains_filter_iff,
    Bool.not_eq_eq_eq_not, Bool.not_true]
  rfl

namespace SyncRequest

/-! ### Folding two requests -/

/-- Two requests are folded into one for the generation of one of them. -/
theorem generation_coalesce_cases (waiting arriving : SyncRequest) :
    (waiting.coalesce arriving).generation = waiting.generation ∨
      (waiting.coalesce arriving).generation = arriving.generation := by
  unfold coalesce
  split
  next h =>
    split at h
    · exact .inr (congrArg (·.2.generation) h.symm)
    · exact .inl (congrArg (·.2.generation) h.symm)

/-- The removed types of both stay, unless they are back. -/
theorem contains_removed_coalesce_iff {waiting arriving : SyncRequest} {name : String} :
    (waiting.coalesce arriving).removed.contains name = true ↔
      (waiting.removed.contains name = true ∨ arriving.removed.contains name = true) ∧
        (waiting.coalesce arriving).generation.contains name = false := by
  unfold coalesce
  by_cases hle : waiting.generation.sequence ≤ arriving.generation.sequence
  · simp only [if_pos hle]
    rw [SortedMap.contains_filter_iff, SortedMap.contains_union_iff, Bool.not_eq_eq_eq_not,
      Bool.not_true]
  · simp only [if_neg hle]
    rw [SortedMap.contains_filter_iff, SortedMap.contains_union_iff, Bool.not_eq_eq_eq_not,
      Bool.not_true, or_comm]

/-! ### Folding many -/

/-- What holds of a request that some requests were folded into, in whatever order. -/
structure Gathers (arrived : List SyncRequest) (r : SyncRequest) : Prop where
  generation_mem : ∃ a ∈ arrived, r.generation = a.generation
  newest : ∀ a ∈ arrived, a.generation.sequence ≤ r.generation.sequence
  /-- What it names was named, and is no type of its generation. -/
  named : ∀ {name}, r.removed.contains name = true →
    (∃ a ∈ arrived, a.removed.contains name = true) ∧ r.generation.contains name = false
  /-- A name stays unless a generation as new as the request that names it brings it back. -/
  kept : ∀ {name}, ∀ a ∈ arrived, a.removed.contains name = true →
    (∀ b ∈ arrived, a.generation.sequence ≤ b.generation.sequence →
      b.generation.contains name = false) →
    r.removed.contains name = true

variable {arrived : List SyncRequest} {r : SyncRequest}

theorem gathers_singleton (h : ∀ {name}, r.removed.contains name = true →
    r.generation.contains name = false) : Gathers [r] r where
  generation_mem := ⟨r, List.mem_singleton_self r, rfl⟩
  newest a ha := by rw [List.mem_singleton.mp ha]
  named hname := ⟨⟨r, List.mem_singleton_self r, hname⟩, h hname⟩
  kept a ha hname _ := List.mem_singleton.mp ha ▸ hname

/-- One more request is folded in. -/
theorem Gathers.coalesce (h : Gathers arrived r) (arriving : SyncRequest) :
    Gathers (arrived ++ [arriving]) (r.coalesce arriving) := by
  have hmem : ∃ a ∈ arrived ++ [arriving], (r.coalesce arriving).generation = a.generation := by
    rcases generation_coalesce_cases r arriving with hgen | hgen
    · obtain ⟨a, ha, heq⟩ := h.generation_mem
      exact ⟨a, List.mem_append_left _ ha, hgen.trans heq⟩
    · exact ⟨arriving, List.mem_append_right _ (List.mem_singleton_self arriving), hgen⟩
  have hnewest : ∀ a ∈ arrived ++ [arriving],
      a.generation.sequence ≤ (r.coalesce arriving).generation.sequence := by
    intro a ha
    rw [sequence_coalesce]
    rcases List.mem_append.mp ha with ha | ha
    · exact (h.newest a ha).trans (le_max_left _ _)
    · rw [List.mem_singleton.mp ha]
      exact le_max_right _ _
  refine { generation_mem := hmem, newest := hnewest, named := ?named, kept := ?kept }
  case named =>
    intro name hname
    obtain ⟨hfrom, hgone⟩ := contains_removed_coalesce_iff.mp hname
    refine ⟨?_, hgone⟩
    rcases hfrom with hbefore | hnew
    · obtain ⟨a, ha, hnamed⟩ := (h.named hbefore).1
      exact ⟨a, List.mem_append_left _ ha, hnamed⟩
    · exact ⟨arriving, List.mem_append_right _ (List.mem_singleton_self arriving), hnew⟩
  case kept =>
    intro name a ha hname hgone
    refine contains_removed_coalesce_iff.mpr ⟨?_, ?_⟩
    · rcases List.mem_append.mp ha with ha | ha
      · exact .inl (h.kept a ha hname fun b hb => hgone b (List.mem_append_left _ hb))
      · exact .inr (List.mem_singleton.mp ha ▸ hname)
    · -- the generation of the folded request is one of those that arrived, and the newest
      obtain ⟨b, hb, heq⟩ := hmem
      rw [heq]
      exact hgone b hb (heq ▸ hnewest a ha)

/-- Any number of requests are folded in. -/
theorem Gathers.foldl (h : Gathers arrived r) (others : List SyncRequest) :
    Gathers (arrived ++ others) (others.foldl SyncRequest.coalesce r) := by
  induction others generalizing arrived r with
  | nil =>
      rw [List.append_nil]
      exact h
  | cons next rest ih =>
      rw [List.append_cons]
      exact ih (h.coalesce next)

/-! ### Generations that follow one another -/

/-- The requests of generations that become current one after the other: each is asked for with the
types that the one before it had and it lacks. -/
def following : Generation → List Generation → List SyncRequest
  | _, [] => []
  | current, next :: rest => ⟨next, current.removedIn next⟩ :: following next rest

variable {oldest newest current : Generation} {between next : List Generation} {name : String}

theorem map_generation_following (current : Generation) (next : List Generation) :
    (following current next).map (·.generation) = next := by
  induction next generalizing current with
  | nil => rfl
  | cons g rest ih => rw [following, List.map_cons, ih]

theorem generation_mem_of_following (h : r ∈ following current next) : r.generation ∈ next := by
  rw [← map_generation_following current next]
  exact List.mem_map_of_mem h

/-- A request names types of an earlier generation that its own lacks. -/
theorem named_of_following (h : r ∈ following oldest (between ++ [newest]))
    (hname : r.removed.contains name = true) :
    (∃ g ∈ oldest :: between, g.contains name = true) ∧ r.generation.contains name = false := by
  induction between generalizing oldest with
  | nil =>
      obtain rfl := List.mem_singleton.mp h
      obtain ⟨hold, hgone⟩ := Generation.contains_removedIn_iff.mp hname
      exact ⟨⟨oldest, List.mem_singleton_self oldest, hold⟩, hgone⟩
  | cons g rest ih =>
      rcases List.mem_cons.mp h with rfl | h
      · obtain ⟨hold, hgone⟩ := Generation.contains_removedIn_iff.mp hname
        exact ⟨⟨oldest, List.mem_cons_self, hold⟩, hgone⟩
      · obtain ⟨⟨g', hg', hold⟩, hgone⟩ := ih h
        exact ⟨⟨g', List.mem_cons_of_mem _ hg', hold⟩, hgone⟩

/-- A type that the newest generation lacks is named for the last time by a request that is newer
than every generation with the type. -/
theorem exists_last_naming
    (hs : (oldest :: (between ++ [newest])).Pairwise (·.sequence < ·.sequence))
    (hold : ∃ g ∈ oldest :: between, g.contains name = true)
    (hgone : newest.contains name = false) :
    ∃ r ∈ following oldest (between ++ [newest]), r.removed.contains name = true ∧
      ∀ r' ∈ following oldest (between ++ [newest]),
        r.generation.sequence ≤ r'.generation.sequence → r'.generation.contains name = false := by
  induction between generalizing oldest with
  | nil =>
      obtain ⟨g, hg, hname⟩ := hold
      obtain rfl := List.mem_singleton.mp hg
      refine ⟨_, List.mem_singleton_self _,
        Generation.contains_removedIn_iff.mpr ⟨hname, hgone⟩, fun r' hr' _ => ?_⟩
      rw [List.mem_singleton.mp hr']
      exact hgone
  | cons next rest ih =>
      obtain ⟨-, hs⟩ := List.pairwise_cons.mp hs
      by_cases hlater : ∃ g ∈ next :: rest, g.contains name = true
      · -- the request that names it last is older than no later one, and the first is older still
        obtain ⟨r, hr, hname, hnone⟩ := ih hs hlater
        refine ⟨r, List.mem_cons_of_mem _ hr, hname, fun r' hr' hle => ?_⟩
        rcases List.mem_cons.mp hr' with rfl | hr'
        · have hlt := (List.pairwise_cons.mp hs).1 _ (generation_mem_of_following hr)
          exact absurd hle (Nat.not_le_of_lt hlt)
        · exact hnone r' hr' hle
      · -- only the oldest generation has the type, so the first request names it
        have hnever : ∀ g ∈ next :: (rest ++ [newest]), g.contains name = false := by
          intro g hg
          rw [← List.cons_append] at hg
          rcases List.mem_append.mp hg with hg | hg
          · exact Bool.eq_false_iff.mpr fun hname => hlater ⟨g, hg, hname⟩
          · exact List.mem_singleton.mp hg ▸ hgone
        have hname : oldest.contains name = true := by
          obtain ⟨g, hg, hname⟩ := hold
          rcases List.mem_cons.mp hg with rfl | hg
          · exact hname
          · exact absurd ⟨g, hg, hname⟩ hlater
        refine ⟨_, List.mem_cons_self,
          Generation.contains_removedIn_iff.mpr ⟨hname, hnever next List.mem_cons_self⟩, ?_⟩
        intro r' hr' _
        have hmem : r'.generation ∈ next :: (rest ++ [newest]) := generation_mem_of_following hr'
        exact hnever _ hmem

/-- What the requests are folded into, in whatever order they arrived. -/
theorem Gathers.of_following
    (hs : (oldest :: (between ++ [newest])).Pairwise (·.sequence < ·.sequence))
    (harrived : arrived.Perm (following oldest (between ++ [newest]))) (h : Gathers arrived r) :
    r.generation = newest ∧ ∀ name, r.removed.contains name = true ↔
      (∃ g ∈ oldest :: between, g.contains name = true) ∧ newest.contains name = false := by
  have hgeneration : r.generation = newest := by
    obtain ⟨a, ha, heq⟩ := h.generation_mem
    have hmem := generation_mem_of_following (harrived.mem_iff.mp ha)
    rw [← heq] at hmem
    rcases List.mem_append.mp hmem with hbetween | hlast
    · -- the newest generation has arrived too, and is newer
      have hnewest : newest ∈ (following oldest (between ++ [newest])).map (·.generation) := by
        rw [map_generation_following]
        exact List.mem_append_right _ (List.mem_singleton_self newest)
      obtain ⟨b, hb, hgen⟩ := List.mem_map.mp hnewest
      have hle := h.newest b (harrived.mem_iff.mpr hb)
      have hlt := (List.pairwise_append.mp (List.pairwise_cons.mp hs).2).2.2 _ hbetween newest
        (List.mem_singleton_self newest)
      rw [hgen] at hle
      exact absurd hle (Nat.not_le_of_lt hlt)
    · exact List.mem_singleton.mp hlast
  refine ⟨hgeneration, fun name => ⟨fun hname => ?_, fun ⟨hold, hgone⟩ => ?_⟩⟩
  · obtain ⟨⟨a, ha, hnamed⟩, hgone⟩ := h.named hname
    exact ⟨(named_of_following (harrived.mem_iff.mp ha) hnamed).1, hgeneration ▸ hgone⟩
  · obtain ⟨a, ha, hnamed, hnone⟩ := exists_last_naming hs hold hgone
    exact h.kept a (harrived.mem_iff.mpr ha) hnamed fun b hb =>
      hnone b (harrived.mem_iff.mp hb)

end SyncRequest

/-! ### The queue -/

theorem Synchronizer.pending_synchronize {s : Synchronizer} (hopen : s.isShutDown = false)
    (request : SyncRequest) : (s.synchronize request).pending = (s.enqueue request).pending := by
  rw [synchronize_of_open hopen, pending_goOn]

/-- A request that waits takes in those that come, until the worker looks. -/
theorem Synchronizer.pending_foldl_synchronize {s : Synchronizer} (hopen : s.isShutDown = false)
    {waiting : SyncRequest} (hwaiting : s.pending = some waiting) (others : List SyncRequest) :
    (others.foldl synchronize s).pending =
      some (others.foldl SyncRequest.coalesce waiting) := by
  induction others generalizing s waiting with
  | nil => exact hwaiting
  | cons next rest ih =>
      have hpending : (s.synchronize next).pending = some (waiting.coalesce next) := by
        rw [pending_synchronize hopen, enqueue, hwaiting]
      exact ih ((Handling.isShutDown_synchronize s next).trans hopen) hpending

/-- **Folding requests loses no removal, in whatever order they arrive.** The request that they make
is for the newest generation, with exactly the types of earlier ones that it lacks; and it is the
request that waits when they are queued. -/
theorem SyncRequest.coalesce_loses_no_removal {oldest newest : Generation}
    {between : List Generation}
    (hs : (oldest :: (between ++ [newest])).Pairwise (·.sequence < ·.sequence))
    {first : SyncRequest} {others : List SyncRequest}
    (h : (first :: others).Perm (following oldest (between ++ [newest]))) :
    (others.foldl coalesce first).generation = newest ∧
    (∀ name, (others.foldl coalesce first).removed.contains name = true ↔
      (∃ g ∈ oldest :: between, g.contains name = true) ∧ newest.contains name = false) ∧
    ∀ s : Synchronizer, s.isShutDown = false → s.pending = none →
      ((first :: others).foldl Synchronizer.synchronize s).pending =
        some (others.foldl coalesce first) := by
  have hfirst : first ∈ following oldest (between ++ [newest]) :=
    h.mem_iff.mp List.mem_cons_self
  have hgathers : Gathers (first :: others) (others.foldl coalesce first) :=
    (gathers_singleton fun hname => (named_of_following hfirst hname).2).foldl others
  obtain ⟨hgeneration, hremoved⟩ := hgathers.of_following hs h
  refine ⟨hgeneration, hremoved, fun s hopen hpending => ?_⟩
  have hwaiting : (s.synchronize first).pending = some first := by
    rw [Synchronizer.pending_synchronize hopen, Synchronizer.enqueue, hpending]
  exact Synchronizer.pending_foldl_synchronize
    ((Synchronizer.Handling.isShutDown_synchronize s first).trans hopen) hwaiting others

/-- A generation of node types without properties. -/
def Generation.ofNames (sequence : Nat) (names : List String) : Generation where
  sequence := sequence
  types := SortedMap.ofList (names.map fun name =>
    (name, ({} : Batch).build {} none ⟨name, .node, none, [], [], none, false, false⟩))
  dynamicViews := .empty
  definitions := []

/-- A type disappears, comes back and disappears again, and the request that lost it for good comes
before the one that brought it back. -/
theorem SyncRequest.removals_kept_out_of_order :
    let chain := [Generation.ofNames 2 ["Cat"], .ofNames 3 ["Cat", "Dog"], .ofNames 4 ["Cow"]]
    ∃ first second third,
      [second, third, first] = following (.ofNames 1 ["Cat", "Dog"]) chain ∧
        ([second, third].foldl coalesce first).generation.sequence = 4 ∧
        ([second, third].foldl coalesce first).removed.contains "Dog" = true ∧
        ([second, third].foldl coalesce first).removed.contains "Cat" = true ∧
        ([second, third].foldl coalesce first).removed.contains "Cow" = false := by
  intro chain
  have hs : (Generation.ofNames 1 ["Cat", "Dog"] :: ([Generation.ofNames 2 ["Cat"],
      .ofNames 3 ["Cat", "Dog"]] ++ [Generation.ofNames 4 ["Cow"]])).Pairwise
        (·.sequence < ·.sequence) := by
    decide
  have hrotated {a b c : SyncRequest} : [c, a, b].Perm [a, b, c] :=
    (List.perm_append_singleton c [a, b]).symm
  obtain ⟨hgeneration, hremoved, -⟩ := coalesce_loses_no_removal hs hrotated
  refine ⟨_, _, _, rfl, congrArg Generation.sequence hgeneration, ?_, ?_, ?_⟩
  · exact (hremoved "Dog").mpr (by decide)
  · exact (hremoved "Cat").mpr (by decide)
  · exact Bool.eq_false_iff.mpr fun hcow => absurd ((hremoved "Cow").mp hcow) (by decide)

end LiveSchema
