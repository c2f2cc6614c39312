import LiveSchema.Proofs.DerivedCaches
import LiveSchema.Proofs.History

/-!
# LiveSchema.Proofs.DerivedCaches.Readers

Who still reads a replaced generation, or one that was not announced yet, asks the same caches as
everyone else. The caches are asked and invalidated (`DerivedCaches.Call`) in any order, and the
sequence numbers that are announced need not go up. Every question, which is a generation and two
names, is taken to have one answer.

* `lookups_follow_generations` — every lookup answers for the generation that it asks about, and
  computes the answer exactly if no lookup had it stored since the latest invalidation; the entries
  are all about the generation announced last, and were stored by lookups of its known names.

A lookup that may store its answer is one of a known name in the generation announced last
(`MayStore`). The induction over the calls carries that each cache stores the questions of such
lookups since the latest invalidation (`Held`) and no others (`exists_stores`); `stores_after` is
what one call does. An invalidation empties both caches, so that nothing stays even if its sequence
number is an old one that had entries before, and a lookup of another generation finds none, because
its key has another sequence number.
-/

namespace LiveSchema

namespace DerivedCaches

/-- A kind of question that is cached. -/
inductive Topic where
  /-- Whether one type extends another. -/
  | inheritance
  /-- Which relationship types can connect two types. -/
  | templates
deriving DecidableEq

/-- What questions of a kind are answered with. -/
abbrev Topic.Value : Topic → Type
  | .inheritance => Bool
  | .templates => List CompiledType

/-- The stored answers to questions of a kind. -/
def cache (c : DerivedCaches) : (topic : Topic) → AnswerCache topic.Value
  | .inheritance => c.inheritance
  | .templates => c.templates

/-- Ask about two names in a generation. -/
def lookup (c : DerivedCaches) : (topic : Topic) → Nat × String × String → Bool →
    (Unit → topic.Value) → AnswerCache.Answer topic.Value × DerivedCaches
  | .inheritance, (sequence, child, ancestor), known, compute =>
    c.askInheritance sequence child ancestor known compute
  | .templates, (sequence, source, target), known, compute =>
    c.askTemplates sequence source target known compute

/-- What is asked of the caches. -/
inductive Call where
  | invalidate (sequence : Nat)
  | lookup (topic : Topic) (key : Nat × String × String) (known : Bool)
      (compute : Unit → topic.Value)

/-- The caches after a call. -/
def after (c : DerivedCaches) : Call → DerivedCaches
  | .invalidate sequence => c.invalidate sequence
  | .lookup topic key known compute => (c.lookup topic key known compute).2

/-- New caches after some calls. -/
def ofCalls (calls : List Call) : DerivedCaches := calls.foldl after {}

@[simp] theorem ofCalls_concat (calls : List Call) (call : Call) :
    ofCalls (calls ++ [call]) = (ofCalls calls).after call :=
  List.foldl_concat ..

/-! ### What the calls say -/

/-- The generation that a call announces. -/
def Call.announced? : Call → Option Nat
  | .invalidate sequence => some sequence
  | .lookup .. => none

/-- The generation that was announced last, by its sequence number, which is 0 before any. -/
def announced (calls : List Call) : Nat := (calls.filterMap Call.announced?).getLast?.getD 0

/-- The call is a lookup of a known name, in the generation announced last. -/
def MayStore (topic : Topic) (key : Nat × String × String) (before : List Call) (call : Call) :
    Prop :=
  ∃ compute, call = .lookup topic key true compute ∧ key.1 = announced before

/-- The call is no invalidation. -/
def KeepsEntries (_ : List Call) (call : Call) : Prop := call.announced? = none

/-- A lookup that may store its answer has asked the question since the latest invalidation. -/
def Held (topic : Topic) (key : Nat × String × String) (calls : List Call) : Prop :=
  Since (MayStore topic key) KeepsEntries calls

/-- What a lookup computes is the answer to its question. -/
def Call.Computes (answer : (topic : Topic) → Nat × String × String → topic.Value) : Call → Prop
  | .invalidate _ => True
  | .lookup topic key _ compute => compute () = answer topic key

/-- The questions of a kind that are kept after a call, of which `kept` were kept before it. -/
def Call.keptAfter (current : Nat) (topic : Topic) (kept : List (Nat × String × String)) :
    Call → List (Nat × String × String)
  | .invalidate _ => []
  | .lookup asked key known _ =>
    if asked = topic ∧ known = true ∧ key.1 = current then key :: kept else kept

variable {c : DerivedCaches} {calls : List Call} {call : Call} {topic : Topic}
  {key : Nat × String × String} {kept : List (Nat × String × String)}
  {answer : (topic : Topic) → Nat × String × String → topic.Value}

theorem announced_concat (calls : List Call) (call : Call) :
    announced (calls ++ [call]) = call.announced?.getD (announced calls) := by
  unfold announced
  rw [List.filterMap_append, List.getLast?_append]
  cases call <;> rfl

theorem mayStore_lookup_iff {asked : Topic} {question : Nat × String × String} {known : Bool}
    {compute : Unit → asked.Value} :
    MayStore topic key calls (.lookup asked question known compute) ↔
      (asked = topic ∧ known = true ∧ question.1 = announced calls) ∧ key = question := by
  constructor
  · intro h
    obtain ⟨compute', hcall, hsequence⟩ := h
    cases hcall
    exact ⟨⟨rfl, rfl, hsequence⟩, rfl⟩
  · intro h
    obtain ⟨⟨rfl, rfl, hsequence⟩, rfl⟩ := h
    exact ⟨compute, rfl, hsequence⟩

/-- A question is kept if the call may store it, or if it was kept and the call keeps it. -/
theorem mem_keptAfter_iff :
    key ∈ call.keptAfter (announced calls) topic kept ↔
      MayStore topic key calls call ∨ key ∈ kept ∧ KeepsEntries calls call := by
  cases call with
  | invalidate sequence =>
      simp [Call.keptAfter, MayStore, KeepsEntries, Call.announced?]
  | lookup asked question known compute =>
      have hkeeps : KeepsEntries calls (.lookup asked question known compute) := rfl
      rw [Call.keptAfter, and_iff_left hkeeps, mayStore_lookup_iff]
      by_cases hstores : asked = topic ∧ known = true ∧ question.1 = announced calls
      · rw [if_pos hstores, and_iff_right hstores, List.mem_cons]
      · rw [if_neg hstores, or_iff_right fun hmay => hstores hmay.1]

/-- What is held is about the generation announced last. -/
theorem Held.sequence_eq (h : Held topic key calls) : key.1 = announced calls := by
  induction calls using List.reverseRecOn with
  | nil => exact absurd h not_since_nil
  | append_singleton calls call ih =>
      rw [announced_concat]
      cases since_concat_iff.mp h with
      | inl hmay =>
          obtain ⟨compute, rfl, hsequence⟩ := hmay
          exact hsequence
      | inr hbefore =>
          obtain ⟨hheld, hkeeps⟩ := hbefore
          rw [ih hheld, show call.announced? = none from hkeeps]
          rfl

/-! ### What one call does -/

theorem lookup_fst (c : DerivedCaches) (topic : Topic) (key : Nat × String × String) (known : Bool)
    (compute : Unit → topic.Value) :
    (c.lookup topic key known compute).1 =
      (c.cache topic).ask key (known && c.current = key.1) compute := by
  cases topic <;> rfl

theorem current_lookup (c : DerivedCaches) (topic : Topic) (key : Nat × String × String)
    (known : Bool) (compute : Unit → topic.Value) :
    (c.lookup topic key known compute).2.current = c.current := by
  cases topic <;> rfl

theorem cache_lookup (c : DerivedCaches) (topic : Topic) (key : Nat × String × String)
    (known : Bool) (compute : Unit → topic.Value) :
    (c.lookup topic key known compute).2.cache topic =
      (c.lookup topic key known compute).1.cache := by
  cases topic <;> rfl

/-- A lookup leaves the answers to questions of the other kind alone. -/
theorem cache_lookup_ne {asked : Topic} (h : asked ≠ topic) (c : DerivedCaches)
    (key : Nat × String × String) (known : Bool) (compute : Unit → asked.Value) :
    (c.lookup asked key known compute).2.cache topic = c.cache topic := by
  cases asked with
  | inheritance =>
      cases topic with
      | inheritance => exact absurd rfl h
      | templates => rfl
  | templates =>
      cases topic with
      | inheritance => rfl
      | templates => exact absurd rfl h

/-- After a call, a cache stores the questions that are kept after it. -/
theorem stores_after (h : (c.cache topic).Stores kept (answer topic))
    (hcall : call.Computes answer) :
    ((c.after call).cache topic).Stores (call.keptAfter c.current topic kept) (answer topic) := by
  cases call with
  | invalidate sequence =>
      cases topic <;> exact AnswerCache.stores_empty _
  | lookup asked key known compute =>
      rw [after, Call.keptAfter]
      by_cases hasked : asked = topic
      · subst hasked
        obtain rfl : compute = fun _ => answer asked key := funext fun _ => hcall
        obtain ⟨-, -, hcache⟩ := h.ask key (known && c.current = key.1)
        rw [cache_lookup, lookup_fst]
        simpa [eq_comm (a := key.1)] using hcache
      · rw [cache_lookup_ne hasked, if_neg fun hsame => hasked hsame.1]
        exact h

/-! ### A sequence of calls -/

/-- Entries are taken for the generation announced last. -/
theorem current_ofCalls (calls : List Call) : (ofCalls calls).current = announced calls := by
  induction calls using List.reverseRecOn with
  | nil => rfl
  | append_singleton calls call ih =>
      rw [ofCalls_concat, announced_concat]
      cases call with
      | invalidate sequence => rfl
      | lookup topic key known compute =>
          exact (current_lookup (ofCalls calls) topic key known compute).trans ih

/-- **A cache stores the questions that are held, and no others.** -/
theorem exists_stores (h : ∀ call ∈ calls, call.Computes answer) (topic : Topic) :
    ∃ kept, ((ofCalls calls).cache topic).Stores kept (answer topic) ∧
      ∀ key, key ∈ kept ↔ Held topic key calls := by
  induction calls using List.reverseRecOn with
  | nil =>
      refine ⟨[], ?_, fun key => iff_of_false List.not_mem_nil not_since_nil⟩
      cases topic <;> exact AnswerCache.stores_empty _
  | append_singleton calls call ih =>
      obtain ⟨hcalls, hcall⟩ := List.forall_mem_append.mp h
      obtain ⟨kept, hstores, hkept⟩ := ih hcalls
      refine ⟨call.keptAfter (announced calls) topic kept, ?_, fun key => ?_⟩
      · rw [ofCalls_concat, ← current_ofCalls]
        exact stores_after hstores (hcall call (List.mem_singleton_self call))
      · rw [mem_keptAfter_iff, hkept]
        exact since_concat_iff.symm

section

variable (h : ∀ call ∈ calls, call.Computes answer)

include h

/-- A lookup gets the answer to its question, and computes it if it is not held. -/
theorem lookup_ofCalls {compute : Unit → topic.Value} (hcompute : compute () = answer topic key)
    (known : Bool) :
    ((ofCalls calls).lookup topic key known compute).1.value = answer topic key ∧
      (((ofCalls calls).lookup topic key known compute).1.computed = true ↔
        ¬ Held topic key calls) := by
  obtain ⟨kept, hstores, hkept⟩ := exists_stores h topic
  obtain rfl : compute = fun _ => answer topic key := funext fun _ => hcompute
  obtain ⟨hvalue, hcomputed, -⟩ :=
    hstores.ask key (known && (ofCalls calls).current = key.1)
  rw [lookup_fst, ← hkept]
  exact ⟨hvalue, hcomputed⟩

/-- The entries of a cache are the questions that are held, with their answers. -/
theorem mem_entries_ofCalls_iff {value : topic.Value} :
    (key, value) ∈ ((ofCalls calls).cache topic).entries ↔
      Held topic key calls ∧ value = answer topic key := by
  obtain ⟨kept, hstores, hkept⟩ := exists_stores h topic
  rw [hstores.mem_entries_iff, hkept]

end

/-- A question that is stored after a call and was not before is one that the call may store. -/
theorem mayStore_of_mem_entries {value : topic.Value}
    (h : ∀ earlier ∈ calls, earlier.Computes answer) (hcall : call.Computes answer)
    (hafter : (key, value) ∈ (((ofCalls calls).after call).cache topic).entries)
    (hbefore : (key, value) ∉ ((ofCalls calls).cache topic).entries) :
    MayStore topic key calls call := by
  have hall : ∀ earlier ∈ calls ++ [call], earlier.Computes answer :=
    List.forall_mem_append.mpr ⟨h, List.forall_mem_singleton.mpr hcall⟩
  rw [← ofCalls_concat] at hafter
  obtain ⟨hheld, hvalue⟩ := (mem_entries_ofCalls_iff hall).mp hafter
  cases since_concat_iff.mp hheld with
  | inl hmay => exact hmay
  | inr hkept => exact absurd ((mem_entries_ofCalls_iff h).mpr ⟨hkept.1, hvalue⟩) hbefore

/-- What the readers of a sequence of calls get from the caches, and what the caches keep of it. -/
structure FollowsGenerations (answer : (topic : Topic) → Nat × String × String → topic.Value)
    (calls : List Call) : Prop where
  /-- Every lookup gets the answer for the generation and the names that it asks about. -/
  value_eq : ∀ before topic key known compute later,
    calls = before ++ .lookup topic key known compute :: later →
      ((ofCalls before).lookup topic key known compute).1.value = answer topic key
  /-- The answer is computed unless a lookup had it stored since the latest invalidation. -/
  computed_iff : ∀ before topic key known compute later,
    calls = before ++ .lookup topic key known compute :: later →
      (((ofCalls before).lookup topic key known compute).1.computed = true ↔
        ¬ Held topic key before)
  /-- Where it is not computed, it does not matter what computing it would come to. -/
  unused : ∀ before topic key known compute later,
    calls = before ++ .lookup topic key known compute :: later →
      ((ofCalls before).lookup topic key known compute).1.computed = false →
        ∀ other, ((ofCalls before).lookup topic key known other).1 =
          ((ofCalls before).lookup topic key known compute).1
  /-- Every stored question is about the generation announced last. -/
  sequence_eq : ∀ topic, ∀ entry ∈ ((ofCalls calls).cache topic).entries,
    entry.1.1 = announced calls
  /-- Stored are the questions that lookups had stored since the latest invalidation. -/
  mem_entries_iff : ∀ topic key value, (key, value) ∈ ((ofCalls calls).cache topic).entries ↔
    Held topic key calls ∧ value = answer topic key
  /-- Each is stored once. -/
  nodup : ∀ topic, (((ofCalls calls).cache topic).entries.map (·.1)).Nodup
  /-- A call that stores a question is a lookup of a known name in the generation announced last. -/
  mayStore : ∀ before call later, calls = before ++ call :: later → ∀ topic key value,
    (key, value) ∈ (((ofCalls before).after call).cache topic).entries →
      (key, value) ∉ ((ofCalls before).cache topic).entries → MayStore topic key before call

/-- **Lookups follow the generations that they ask about.** -/
theorem lookups_follow_generations (h : ∀ call ∈ calls, call.Computes answer) :
    FollowsGenerations answer calls := by
  have hbefore : ∀ {before call later}, calls = before ++ call :: later →
      (∀ earlier ∈ before, earlier.Computes answer) ∧ call.Computes answer := by
    intro before call later heq
    subst heq
    exact ⟨fun earlier hearlier => h earlier (List.mem_append_left _ hearlier),
      h call (List.mem_append_right before List.mem_cons_self)⟩
  exact
    { value_eq := fun before topic key known compute later heq =>
        (lookup_ofCalls (hbefore heq).1 (hbefore heq).2 known).1
      computed_iff := fun before topic key known compute later heq =>
        (lookup_ofCalls (hbefore heq).1 (hbefore heq).2 known).2
      unused := fun before topic key known compute later _ hcomputed other => by
        rw [lookup_fst] at hcomputed ⊢
        rw [lookup_fst]
        exact AnswerCache.ask_eq_of_not_computed hcomputed other
      sequence_eq := fun topic entry hentry =>
        ((mem_entries_ofCalls_iff h).mp hentry).1.sequence_eq
      mem_entries_iff := fun topic key value => mem_entries_ofCalls_iff h
      nodup := fun topic => by
        obtain ⟨kept, hstores, -⟩ := exists_stores h topic
        exact hstores.nodup
      mayStore := fun before call later heq topic key value =>
        mayStore_of_mem_entries (hbefore heq).1 (hbefore heq).2 }

/-- In generation 2 a sub-file is a file, and in generation 3 it is none; no relationship connects
the two. -/
def fileAnswers : (topic : Topic) → Nat × String × String → topic.Value
  | .inheritance, (sequence, _) => sequence = 2
  | .templates, _ => []

/-- Readers of generations 2 and 3, while first 3 is announced and then 2 again. -/
def fileReaders : List Call :=
  let asks (sequence : Nat) : Call :=
    .lookup .inheritance (sequence, "SubFile", "File") true fun _ => sequence = 2
  [asks 2, .invalidate 3, asks 2, asks 3,
    .lookup .inheritance (3, "Missing", "File") false fun _ => false,
    .lookup .templates (3, "SubFile", "File") true fun _ => [],
    asks 3, .invalidate 2, asks 3, asks 2, asks 2]

theorem fileReaders_served :
    (∀ call ∈ fileReaders, call.Computes fileAnswers) ∧
      FollowsGenerations fileAnswers fileReaders ∧
      ((ofCalls (fileReaders.take 7)).cache .inheritance).entries =
        [((3, "SubFile", "File"), false)] ∧
      ((ofCalls fileReaders).cache .inheritance).entries = [((2, "SubFile", "File"), true)] ∧
      Held .inheritance (2, "SubFile", "File") fileReaders := by
  have h : ∀ call ∈ fileReaders, call.Computes fileAnswers := by
    simp [fileReaders, Call.Computes, fileAnswers]
  have hserved := lookups_follow_generations h
  have hentries : ((ofCalls fileReaders).cache .inheritance).entries =
      [((2, "SubFile", "File"), true)] := by
    decide
  refine ⟨h, hserved, by decide, hentries, ?_⟩
  refine ((hserved.mem_entries_iff .inheritance (2, "SubFile", "File") true).mp ?_).1
  rw [hentries]
  exact List.mem_singleton_self _

end DerivedCaches

end LiveSchema
