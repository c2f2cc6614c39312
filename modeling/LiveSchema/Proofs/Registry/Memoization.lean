import LiveSchema.Proofs.DerivedCaches
import LiveSchema.Proofs.Registry

/-!
# LiveSchema.Proofs.Registry.Memoization

The caches of a registry cannot be seen in its answers. A registry is handled by commits, by
invalidations and by questions (`Registry.Request`), in any order. What it should answer is told by
a `History`, which has no caches: it knows the current generation and which pairs of names were
asked about since the last accepted commit or invalidation.

* `Registry.run_agrees` — from a new registry on, every answer is the one of the history, and the
  caches have one entry for each pair that was asked about whose first name is a type.

What carries the proof is `Agrees`: the caches take entries for the current generation, and store
exactly the questions of the history about known names. Entries never survive the generation that
they were computed from, because an accepted commit empties the caches; a refused one changes
nothing.
-/

namespace LiveSchema

namespace Registry

/-- What can be asked of a registry. -/
inductive Request where
  | commit (g : Generation)
  | invalidateCaches
  | isSubtype (child ancestor : String)
  | relationshipsBetween (source target : String)

/-- What is answered. -/
inductive Answer where
  | done
  | refused (error : RegistryError)
  | subtype (holds : Bool)
  | relationships (types : List CompiledType)

/-- Answer one request. -/
def serve (r : Registry) : Request → Answer × Registry
  | .commit g =>
    match r.commit g with
    | .ok r => (.done, r)
    | .error error => (.refused error, r)
  | .invalidateCaches => (.done, r.invalidateCaches)
  | .isSubtype child ancestor =>
    let (holds, r) := r.isSubtype child ancestor
    (.subtype holds, r)
  | .relationshipsBetween source target =>
    let (types, r) := r.relationshipsBetween source target
    (.relationships types, r)

/-- Answer requests one after the other. -/
def run (r : Registry) : List Request → List Answer × Registry
  | [] => ([], r)
  | request :: rest =>
    let (answer, r) := r.serve request
    let (answers, r) := r.run rest
    (answer :: answers, r)

/-- What requests come to, told without caches. -/
structure History where
  current : Generation := .empty
  /-- The pairs that were asked about since the last accepted commit or invalidation. -/
  subtypesAsked : List (String × String) := []
  relationshipsAsked : List (String × String) := []

namespace History

/-- The answer to a request, computed on the current generation. -/
def answer (h : History) : Request → Answer
  | .commit g =>
    if g.sequence ≤ h.current.sequence then .refused (.stale h.current.sequence g.sequence)
    else .done
  | .invalidateCaches => .done
  | .isSubtype child ancestor => .subtype (h.current.isSubtype child ancestor)
  | .relationshipsBetween source target =>
    .relationships (h.current.relationshipsBetween source target)

/-- The history with one more request. -/
def after (h : History) : Request → History
  | .commit g => if g.sequence ≤ h.current.sequence then h else { current := g }
  | .invalidateCaches => { current := h.current }
  | .isSubtype child ancestor => { h with subtypesAsked := (child, ancestor) :: h.subtypesAsked }
  | .relationshipsBetween source target =>
    { h with relationshipsAsked := (source, target) :: h.relationshipsAsked }

/-- The answers to requests, one after the other. -/
def answers (h : History) : List Request → List Answer
  | [] => []
  | request :: rest => h.answer request :: (h.after request).answers rest

/-- The pairs of names among some whose first name is a type of the current generation. -/
def known (h : History) (asked : List (String × String)) : Finset (String × String) :=
  asked.toFinset.filter fun pair => h.current.contains pair.1 = true

end History

/-! ### Questions and their keys -/

/-- The keys of the questions that are kept: those about known names. -/
def keptKeys (g : Generation) (asked : List (String × String)) : List (Nat × String × String) :=
  (asked.filter fun pair => g.contains pair.1).map fun pair => (g.sequence, pair)

theorem keptKeys_cons (g : Generation) (pair : String × String) (asked : List (String × String)) :
    keptKeys g (pair :: asked) =
      if g.contains pair.1 then (g.sequence, pair) :: keptKeys g asked else keptKeys g asked := by
  unfold keptKeys
  rw [List.filter_cons]
  split <;> rfl

theorem card_keptKeys (h : History) (asked : List (String × String)) :
    (keptKeys h.current asked).toFinset.card = (h.known asked).card := by
  have hinjective : Function.Injective fun pair : String × String => (h.current.sequence, pair) :=
    fun _ _ heq => (Prod.mk.inj heq).2
  have himage : (keptKeys h.current asked).toFinset =
      (h.known asked).image fun pair => (h.current.sequence, pair) := by
    ext key
    simp [keptKeys, History.known]
  rw [himage, Finset.card_image_of_injective _ hinjective]

/-- The registry is in the state that the history tells of. -/
structure Agrees (r : Registry) (h : History) : Prop where
  current : r.current = h.current
  /-- Entries are taken for the current generation. -/
  accepts : r.caches.current = h.current.sequence
  subtypes : r.caches.inheritance.Stores (keptKeys h.current h.subtypesAsked)
    fun key => h.current.isSubtype key.2.1 key.2.2
  relationships : r.caches.templates.Stores (keptKeys h.current h.relationshipsAsked)
    fun key => h.current.relationshipsBetween key.2.1 key.2.2

theorem agrees_new : ({} : Registry).Agrees {} :=
  ⟨rfl, rfl, AnswerCache.stores_empty _, AnswerCache.stores_empty _⟩

/-- One request is answered as the history says, and leaves the registry in its state. -/
theorem Agrees.serve {r : Registry} {h : History} (hr : r.Agrees h) (request : Request) :
    (r.serve request).1 = h.answer request ∧ (r.serve request).2.Agrees (h.after request) := by
  cases request with
  | commit g =>
      by_cases hnewer : r.current.sequence < g.sequence
      · have hnot : ¬ g.sequence ≤ h.current.sequence := by rw [← hr.current]; omega
        simp only [Registry.serve, commit_eq hnewer, History.answer, History.after, if_neg hnot]
        exact ⟨trivial, rfl, rfl, AnswerCache.stores_empty _, AnswerCache.stores_empty _⟩
      · have hstale : g.sequence ≤ h.current.sequence := by rw [← hr.current]; omega
        simp only [Registry.serve, Registry.commit, hr.current, History.answer, History.after,
          if_pos hstale]
        exact ⟨trivial, hr⟩
  | invalidateCaches =>
      exact ⟨rfl, hr.current, congrArg Generation.sequence hr.current, AnswerCache.stores_empty _,
        AnswerCache.stores_empty _⟩
  | isSubtype child ancestor =>
      obtain ⟨hvalue, -, hcache⟩ := hr.subtypes.ask (h.current.sequence, child, ancestor)
        (h.current.contains child)
      rw [← keptKeys_cons h.current (child, ancestor)] at hcache
      simp only [Registry.serve, Registry.isSubtype, DerivedCaches.askInheritance, hr.current,
        hr.accepts, decide_true, Bool.and_true]
      exact ⟨congrArg Answer.subtype hvalue, rfl, rfl, hcache, hr.relationships⟩
  | relationshipsBetween source target =>
      obtain ⟨hvalue, -, hcache⟩ := hr.relationships.ask (h.current.sequence, source, target)
        (h.current.contains source)
      rw [← keptKeys_cons h.current (source, target)] at hcache
      simp only [Registry.serve, Registry.relationshipsBetween, DerivedCaches.askTemplates,
        hr.current, hr.accepts, decide_true, Bool.and_true]
      exact ⟨congrArg Answer.relationships hvalue, rfl, rfl, hr.subtypes, hcache⟩

/-- The answer about subtypes is the one of the current generation. -/
theorem Agrees.isSubtype_eq {r : Registry} {h : History} (hr : r.Agrees h)
    (child ancestor : String) :
    (r.isSubtype child ancestor).1 = r.current.isSubtype child ancestor := by
  rw [hr.current]
  exact Answer.subtype.inj (hr.serve (.isSubtype child ancestor)).1

/-- The answer about relationship types is the one of the current generation. -/
theorem Agrees.relationshipsBetween_eq {r : Registry} {h : History} (hr : r.Agrees h)
    (source target : String) :
    (r.relationshipsBetween source target).1 = r.current.relationshipsBetween source target := by
  rw [hr.current]
  exact Answer.relationships.inj (hr.serve (.relationshipsBetween source target)).1

theorem Agrees.run {r : Registry} {h : History} (hr : r.Agrees h) (requests : List Request) :
    (r.run requests).1 = h.answers requests ∧
      (r.run requests).2.Agrees (requests.foldl History.after h) := by
  induction requests generalizing r h with
  | nil => exact ⟨rfl, hr⟩
  | cons request rest ih =>
      obtain ⟨hanswer, hnext⟩ := hr.serve request
      obtain ⟨hanswers, hend⟩ := ih hnext
      exact ⟨congrArg₂ List.cons hanswer hanswers, hend⟩

/-- A new registry answers every request as the current generation does, however requests are
mixed, and the caches have one entry for each pair of names that was asked about since they were
emptied last, if the first name is a type of the current generation. -/
theorem run_agrees (requests : List Request) :
    (run {} requests).1 = History.answers {} requests ∧
      (run {} requests).2.current = (requests.foldl History.after {}).current ∧
      (run {} requests).2.caches.inheritance.size =
        ((requests.foldl History.after {}).known
          (requests.foldl History.after {}).subtypesAsked).card ∧
      (run {} requests).2.caches.templates.size =
        ((requests.foldl History.after {}).known
          (requests.foldl History.after {}).relationshipsAsked).card := by
  obtain ⟨hanswers, hend⟩ := agrees_new.run requests
  refine ⟨hanswers, hend.current, ?_, ?_⟩
  · rw [hend.subtypes.size_eq, card_keptKeys]
  · rw [hend.relationships.size_eq, card_keptKeys]

end Registry

end LiveSchema
