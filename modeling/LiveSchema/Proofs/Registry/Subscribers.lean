import LiveSchema.Proofs.Compile.Links
import LiveSchema.Proofs.Generation
import LiveSchema.Proofs.History
import LiveSchema.Proofs.Registry.Memoization

/-!
# LiveSchema.Proofs.Registry.Subscribers

What the subscribers of a registry see. A registry serves requests while subscribers come and look
at the published views (`Registry.Event`), in any order, and `Registry.Watched` is the registry
together with the marks of its subscribers.

* `subscribers_follow_current` — the published views are those of the current generation, which are
  the ones that its types offer; a subscriber is told of a change exactly if a commit since its last
  look changed the set (`hasChanged_iff_since`), and a stale commit is not noticed by anyone.

One event either publishes a newer generation or leaves the registry as it is but for the caches
(`registry_cases`), and either keeps the mark of a subscriber or makes it the newest (`mark_cases`).
The marks are versions. None is ahead of the published version (`Watched.Sound`), which grows exactly
when the set changes, so a mark that is behind stays behind, even if a later commit publishes the set
that was seen.
-/

namespace LiveSchema

namespace Generation

/-- The types of the generation are compiled from definitions, and its views are theirs. -/
def OfDefinitions (g : Generation) : Prop :=
  ∃ (c : Compiler) (ds : List Definition),
    c.compileDefinitions ds = .ok g.types ∧ g.dynamicViews = viewNames ds

theorem ofDefinitions_empty : empty.OfDefinitions := ⟨{}, [], rfl, rfl⟩

variable {g : Generation}

/-- The views of a generation are those that its types offer. -/
theorem OfDefinitions.contains_iff (h : g.OfDefinitions) {view : String} :
    g.dynamicViews.contains view = true ↔
      ∃ name t, g.type? name = some t ∧ (t.view? view).isSome = true := by
  obtain ⟨c, ds, hds, hviews⟩ := h
  obtain ⟨units, hemit, hc⟩ := Compiler.compileDefinitions_eq_ok_iff.mp hds
  have hdeclared : g.dynamicViews.contains view = true ↔
      ∃ u ∈ SourceUnit.types units, ∃ v ∈ u.views, v.name = view := by
    rw [hviews, contains_viewNames, types_of_emitAll hemit]
    simp [Definition.viewNames, Emission.typeUnit]
  rw [hdeclared]
  constructor
  · intro hview
    obtain ⟨u, hu, hview⟩ := hview
    obtain ⟨t, ht⟩ := SortedMap.contains_iff.mp
      ((Compiler.contains_iff_of_compile hc).mpr ⟨u, hu, rfl⟩)
    exact ⟨u.name, t, ht,
      (Compiler.view?_isSome_iff_below hc ht).mpr ⟨u, hu, .refl u.name, hview⟩⟩
  · intro hoffered
    obtain ⟨name, t, ht, hoffered⟩ := hoffered
    obtain ⟨a, ha, -, hview⟩ := (Compiler.view?_isSome_iff_below hc ht).mp hoffered
    exact ⟨a, ha, hview⟩

/-- A type offers what the types above it offer. -/
theorem OfDefinitions.inherits (h : g.OfDefinitions) {x y : String} {t above : CompiledType}
    (ht : g.type? x = some t) (habove : g.type? y = some above) (hext : t.extends? y = true)
    {view : String} (hview : (above.view? view).isSome = true) : (t.view? view).isSome = true := by
  obtain ⟨c, ds, hds, -⟩ := h
  obtain ⟨units, -, hc⟩ := Compiler.compileDefinitions_eq_ok_iff.mp hds
  rw [Compiler.extends?_iff_below hc ht] at hext
  rw [Compiler.view?_isSome_iff_below hc habove] at hview
  obtain ⟨a, ha, hbelow, hdeclared⟩ := hview
  exact (Compiler.view?_isSome_iff_below hc ht).mpr ⟨a, ha, hext.trans hbelow, hdeclared⟩

end Generation

namespace Registry

/-- One request publishes a newer generation, or changes nothing but the caches. -/
theorem serve_cases (r : Registry) (request : Request) :
    (∃ g, request = .commit g ∧ r.current.sequence < g.sequence ∧
      (r.serve request).2 = r.publish g) ∨
    ((∀ g, request = .commit g → g.sequence ≤ r.current.sequence) ∧
      ∃ caches, (r.serve request).2 = { r with caches := caches }) := by
  cases request with
  | commit g =>
      by_cases hnewer : r.current.sequence < g.sequence
      · refine .inl ⟨g, rfl, hnewer, ?_⟩
        rw [serve, commit_eq hnewer]
      · have hstale : g.sequence ≤ r.current.sequence := Nat.le_of_not_lt hnewer
        refine .inr ⟨fun g' heq => by cases heq; exact hstale, r.caches, ?_⟩
        rw [serve, commit, if_pos hstale]
  | invalidateCaches => exact .inr ⟨by simp, _, rfl⟩
  | isSubtype child ancestor => exact .inr ⟨by simp, _, rfl⟩
  | relationshipsBetween source target => exact .inr ⟨by simp, _, rfl⟩

/-- A registry and what its subscribers have seen. -/
structure Watched where
  registry : Registry := {}
  subscribers : SortedMap String ViewSubscriber := .empty

/-- What happens to a registry that is watched. -/
inductive Event where
  | serve (request : Request)
  /-- Someone subscribes, and has seen what is published. -/
  | subscribe (who : String)
  /-- A subscriber looks at what is published. -/
  | see (who : String)

/-- Who sees what is published at an event. -/
def Event.viewer? : Event → Option String
  | .serve _ => none
  | .subscribe who | .see who => some who

namespace Watched

/-- A subscriber takes what is published as seen. -/
def look (w : Watched) (who : String) (s : ViewSubscriber) : Watched :=
  { w with subscribers := w.subscribers.insert who (s.markSeen w.registry) }

/-- What one event does. -/
def step (w : Watched) : Event → Watched
  | .serve request => { w with registry := (w.registry.serve request).2 }
  | .subscribe who => w.look who {}
  | .see who =>
    match w.subscribers.get? who with
    | some s => w.look who s
    | none => w

/-- A new registry after some events. -/
def after (events : List Event) : Watched := events.foldl step {}

@[simp] theorem after_concat (events : List Event) (event : Event) :
    after (events ++ [event]) = (after events).step event :=
  List.foldl_concat ..

/-- The event is a commit that succeeds, and publishes another set of views than that of the
generation that it replaces. -/
def ChangesViews (before : List Event) (event : Event) : Prop :=
  ∃ g r, event = .serve (.commit g) ∧ (after before).registry.commit g = .ok r ∧
    g.dynamicViews ≠ (after before).registry.current.dynamicViews

/-- A subscriber does not see what is published at the event. -/
def Unseen (who : String) (_ : List Event) (event : Event) : Prop := event.viewer? ≠ some who

/-! ### What one event can do -/

/-- One event publishes a newer generation, or leaves the registry as it is but for the caches. -/
theorem registry_cases (w : Watched) (event : Event) :
    (∃ g, event = .serve (.commit g) ∧ w.registry.current.sequence < g.sequence ∧
      (w.step event).registry = w.registry.publish g) ∨
    ((∀ g, event = .serve (.commit g) → g.sequence ≤ w.registry.current.sequence) ∧
      ∃ caches, (w.step event).registry = { w.registry with caches := caches }) := by
  cases event with
  | serve request =>
      cases w.registry.serve_cases request with
      | inl hpublish =>
          obtain ⟨g, rfl, hnewer, hserve⟩ := hpublish
          exact .inl ⟨g, rfl, hnewer, hserve⟩
      | inr hkeep =>
          obtain ⟨hstale, hserve⟩ := hkeep
          exact .inr ⟨fun g heq => hstale g (Event.serve.inj heq), hserve⟩
  | subscribe who => exact .inr ⟨by simp, _, rfl⟩
  | see who =>
      refine .inr ⟨by simp, w.registry.caches, ?_⟩
      rw [step]
      split <;> rfl

/-- A subscriber who looks has the newest mark, and all others keep theirs. -/
theorem get?_look (w : Watched) (viewer who : String) (s : ViewSubscriber) :
    (w.look viewer s).subscribers.get? who =
      if viewer = who then some ⟨w.registry.viewsVersion⟩ else w.subscribers.get? who :=
  SortedMap.get?_insert ..

/-- One event keeps the mark of a subscriber, or the subscriber looks and has the newest mark. -/
theorem mark_cases (w : Watched) (event : Event) {who : String} {s : ViewSubscriber}
    (hs : (w.step event).subscribers.get? who = some s) :
    (event.viewer? ≠ some who ∧ w.subscribers.get? who = some s) ∨
      (event.viewer? = some who ∧ s = ⟨w.registry.viewsVersion⟩) := by
  cases event with
  | serve request => exact .inl ⟨nofun, hs⟩
  | subscribe viewer =>
      rw [step, get?_look] at hs
      by_cases hviewer : viewer = who
      · rw [if_pos hviewer] at hs
        exact .inr ⟨congrArg some hviewer, (Option.some.inj hs).symm⟩
      · rw [if_neg hviewer] at hs
        exact .inl ⟨fun heq => hviewer (Option.some.inj heq), hs⟩
  | see viewer =>
      rw [step] at hs
      by_cases hviewer : viewer = who
      · subst hviewer
        cases hmark : w.subscribers.get? viewer with
        | none => simp [hmark] at hs
        | some mark =>
            simp only [hmark, get?_look, if_true] at hs
            exact .inr ⟨rfl, (Option.some.inj hs).symm⟩
      · refine .inl ⟨fun heq => hviewer (Option.some.inj heq), ?_⟩
        cases hmark : w.subscribers.get? viewer with
        | none => simpa [hmark] using hs
        | some mark => simpa [hmark, get?_look, hviewer] using hs

/-! ### What is kept at every event -/

/-- The published views are the current ones, and no mark is ahead of them. -/
structure Sound (w : Watched) : Prop where
  views : w.registry.views = w.registry.current.dynamicViews
  marks : ∀ who s, w.subscribers.get? who = some s → s.seen ≤ w.registry.viewsVersion

variable {w : Watched}

theorem Sound.step (h : w.Sound) (event : Event) : (w.step event).Sound := by
  have hmarks : ∀ who s, (w.step event).subscribers.get? who = some s →
      s.seen ≤ w.registry.viewsVersion := by
    intro who s hs
    obtain ⟨-, hkept⟩ | ⟨-, rfl⟩ := w.mark_cases event hs
    · exact h.marks who s hkept
    · exact Nat.le_refl _
  obtain ⟨g, -, -, hregistry⟩ | ⟨-, caches, hregistry⟩ := w.registry_cases event
  · refine ⟨by rw [hregistry]; rfl, fun who s hs => (hmarks who s hs).trans ?_⟩
    rw [hregistry, publish]
    dsimp only
    split <;> omega
  · refine ⟨?_, fun who s hs => ?_⟩
    · rw [hregistry]
      exact h.views
    · rw [hregistry]
      exact hmarks who s hs

theorem sound_after (events : List Event) : (after events).Sound := by
  induction events using List.reverseRecOn with
  | nil => exact ⟨rfl, nofun⟩
  | append_singleton events event ih => exact after_concat events event ▸ ih.step event

/-- A new registry's generation is empty, and any later one was committed. -/
theorem current_after (events : List Event) :
    (after events).registry.current = .empty ∨
      .serve (.commit (after events).registry.current) ∈ events := by
  induction events using List.reverseRecOn with
  | nil => exact .inl rfl
  | append_singleton events event ih =>
      rw [after_concat]
      obtain ⟨g, rfl, -, hregistry⟩ | ⟨-, caches, hregistry⟩ :=
        (after events).registry_cases event
      · rw [hregistry]
        exact .inr (List.mem_append_right _ (List.mem_singleton_self _))
      · rw [hregistry]
        exact ih.imp_right (List.mem_append_left [event])

/-! ### What a subscriber is told -/

/-- Publishing another set is news, and does not undo news. -/
theorem Sound.hasChanged_publish (h : w.Sound) {who : String} {s : ViewSubscriber}
    (hs : w.subscribers.get? who = some s) (g : Generation) :
    s.hasChanged (w.registry.publish g) = true ↔
      g.dynamicViews ≠ w.registry.current.dynamicViews ∨ s.hasChanged w.registry = true := by
  have hmark := h.marks who s hs
  unfold ViewSubscriber.hasChanged publish
  rw [h.views]
  by_cases heq : w.registry.current.dynamicViews = g.dynamicViews
  · simp [heq]
  · -- the version grows past the mark
    have hbehind : s.seen ≠ w.registry.viewsVersion + 1 := by omega
    simp [heq, Ne.symm heq, hbehind]

/-- One event is news for a subscriber who does not look if it changes the views. -/
theorem hasChanged_step {events : List Event} {event : Event} {who : String} {s : ViewSubscriber}
    (hs : (after events).subscribers.get? who = some s) :
    s.hasChanged ((after events).step event).registry = true ↔
      ChangesViews events event ∨ s.hasChanged (after events).registry = true := by
  obtain ⟨g, rfl, hnewer, hregistry⟩ | ⟨hstale, caches, hregistry⟩ :=
    (after events).registry_cases event
  · have hchanges : ChangesViews events (.serve (.commit g)) ↔
        g.dynamicViews ≠ (after events).registry.current.dynamicViews := by
      constructor
      · intro h
        obtain ⟨g', r, heq, -, hviews⟩ := h
        cases heq
        exact hviews
      · exact fun hviews => ⟨g, _, rfl, commit_eq hnewer, hviews⟩
    rw [hregistry, (sound_after events).hasChanged_publish hs, hchanges]
  · have hno : ¬ ChangesViews events event := by
      intro h
      obtain ⟨g, r, heq, hok, -⟩ := h
      rw [commit, if_pos (hstale g heq)] at hok
      cases hok
    rw [hregistry, or_iff_right hno]
    rfl

/-- **A subscriber is told of a change exactly if the views changed since its last look.** -/
theorem hasChanged_iff_since (events : List Event) {who : String} {s : ViewSubscriber}
    (hs : (after events).subscribers.get? who = some s) :
    s.hasChanged (after events).registry = true ↔ Since ChangesViews (Unseen who) events := by
  induction events using List.reverseRecOn generalizing s with
  | nil => cases hs
  | append_singleton events event ih =>
      rw [since_concat_iff]
      rw [after_concat] at hs ⊢
      obtain ⟨hunseen, hkept⟩ | ⟨hviewer, rfl⟩ := (after events).mark_cases event hs
      · have hkeeps : Unseen who events event := hunseen
        rw [hasChanged_step hkept, ih hkept, and_iff_left hkeeps]
      · -- a look is no commit, and leaves no news
        obtain ⟨g, rfl, -⟩ | ⟨-, caches, hregistry⟩ := (after events).registry_cases event
        · cases hviewer
        · have hno : ¬ ChangesViews events event := by
            intro h
            obtain ⟨g, r, rfl, -⟩ := h
            cases hviewer
          rw [hregistry]
          simp [ViewSubscriber.hasChanged, Unseen, hviewer, hno]

end Watched

/-- What a registry shows to its subscribers after some events. -/
structure ShowsCurrentViews (w : Watched) (events : List Event) : Prop where
  published : w.registry.views = w.registry.current.dynamicViews
  /-- The published views are those that the types offer. -/
  offered : ∀ view, w.registry.views.contains view = true ↔
    ∃ name t, w.registry.current.type? name = some t ∧ (t.view? view).isSome = true
  /-- A type offers what a type that it extends offers. -/
  inherited : ∀ x y t above, w.registry.current.type? x = some t →
    w.registry.current.type? y = some above → t.extends? y = true →
      ∀ view, (above.view? view).isSome = true → (t.view? view).isSome = true
  /-- There is news if a commit changed the views, even back, and no look came after it. -/
  news : ∀ who s, w.subscribers.get? who = some s →
    (s.hasChanged w.registry = true ↔
      Since Watched.ChangesViews (Watched.Unseen who) events)
  /-- A newer generation takes over, with its views. -/
  newer : ∀ g, w.registry.current.sequence < g.sequence →
    (w.step (.serve (.commit g))).registry.current = g ∧
      (w.step (.serve (.commit g))).registry.views = g.dynamicViews
  /-- A stale commit is refused, and nothing changes. -/
  stale : ∀ g, g.sequence ≤ w.registry.current.sequence →
    w.registry.commit g = .error (.stale w.registry.current.sequence g.sequence) ∧
      w.step (.serve (.commit g)) = w

/-- **Subscribers follow the current generation**, whatever generations of definitions are
committed, current or stale, and whatever else is asked of the registry. -/
theorem subscribers_follow_current (events : List Event)
    (h : ∀ g, .serve (.commit g) ∈ events → g.OfDefinitions) :
    ShowsCurrentViews (Watched.after events) events := by
  have hsound := Watched.sound_after events
  have hcurrent : (Watched.after events).registry.current.OfDefinitions := by
    cases Watched.current_after events with
    | inl hempty => exact hempty ▸ Generation.ofDefinitions_empty
    | inr hcommitted => exact h _ hcommitted
  exact
    { published := hsound.views
      offered := fun view => by rw [hsound.views, hcurrent.contains_iff]
      inherited := fun x y t above ht habove hext view => hcurrent.inherits ht habove hext
      news := fun who s => Watched.hasChanged_iff_since events
      newer := fun g hnewer => by
        simp only [Watched.step, serve, commit_eq hnewer]
        exact ⟨rfl, rfl⟩
      stale := fun g hstale => by
        simp only [Watched.step, serve, commit, if_pos hstale]
        exact ⟨trivial, trivial⟩ }

/-- A generation of some definitions. -/
def edition (sequence : Nat) (ds : List Definition) : Generation :=
  ⟨sequence, (({} : Compiler).compileDefinitions ds).toOption.getD .empty,
    Generation.viewNames ds, ds⟩

/-- Types that share a view: a page has it from the document. -/
def pages : List Definition :=
  [(Definition.node "Page").extending "Document",
    (Definition.node "Document").withView ⟨"public", ["id"]⟩]

/-- The set that the reader saw stays the same, goes away and comes back; the editor comes when it
is the same, and a stale commit is the last one. -/
def revisions : List Event :=
  [.subscribe "reader",
    .serve (.commit (edition 1 [(Definition.node "File").withView ⟨"public", ["id"]⟩])),
    .see "reader", .serve (.commit (edition 2 pages)), .subscribe "editor",
    .serve (.commit (edition 4 [])), .serve (.isSubtype "Page" "Document"),
    .serve (.commit (edition 5 pages)), .serve .invalidateCaches,
    .serve (.commit (edition 3 []))]

theorem revisions_followed :
    (∀ g, .serve (.commit g) ∈ revisions → g.OfDefinitions) ∧
      ShowsCurrentViews (Watched.after revisions) revisions ∧
      (Watched.after revisions).registry.current.sequence = 5 ∧
      (∀ who ∈ ["reader", "editor"], ∃ s,
        (Watched.after revisions).subscribers.get? who = some s ∧
          s.hasChanged (Watched.after revisions).registry = true ∧
          s.hasChanged (Watched.after (revisions.take 5)).registry = false) := by
  have h : ∀ g, .serve (.commit g) ∈ revisions → g.OfDefinitions := by
    intro g hg
    simp only [revisions, List.mem_cons, List.not_mem_nil, or_false, Event.serve.injEq,
      Request.commit.injEq, reduceCtorEq, false_or] at hg
    rcases hg with rfl | rfl | rfl | rfl | rfl <;> exact ⟨{}, _, rfl, rfl⟩
  refine ⟨h, subscribers_follow_current revisions h, by decide, ?_⟩
  decide

end Registry

end LiveSchema
