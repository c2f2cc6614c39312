import LiveSchema.Definition.Source
import LiveSchema.Proofs.SortedMap

/-!
# LiveSchema.Proofs.Definition.Store

What a store holds after it was edited, or written to by the engine. Everything is said about the
lookups `definition?` and `hierarchyEntry?`, and a definition is always found under its own kind and
name (`Store.Keyed`).

* `Store.definitions_ofDefinitions_perm` — of a list of definitions a store holds those that no later
  one replaces (`Definition.lasting`).
* `Store.Ensured` — how a store differs after node types were made sure of, whatever order that was
  done in: one node type is touched for each override, and only its parent and its mark.
* `Store.ensured_withBuiltins` — that is what making sure of them one after the other comes to.
* `DefinitionSource.ensureBuiltins_eq`, `DefinitionSource.load_eq` — what a source does when its
  store can be reached; a store out of reach refuses.
* `DefinitionSource.keepReports_frame`, `DefinitionSource.hierarchyEntry?_keepReports` — keeping
  reports changes reports only, and those of the node types that are defined.
-/

namespace LiveSchema

/-! ### What is left of a list -/

namespace Definition

/-- Whether a list has a definition of this one's kind and name. -/
def isReplacedIn (d : Definition) (later : List Definition) : Bool :=
  later.any fun e => e.kind = d.kind ∧ e.name = d.name

/-- The definitions of a list that no later one replaces. -/
def lasting : List Definition → List Definition
  | [] => []
  | d :: later => if d.isReplacedIn later then lasting later else d :: lasting later

/-- The definitions of a list that a later one replaces. -/
def superseded : List Definition → List Definition
  | [] => []
  | d :: later => if d.isReplacedIn later then d :: superseded later else superseded later

/-- Each definition of a list either lasts or is superseded. -/
theorem perm_lasting_append_superseded (ds : List Definition) :
    ds.Perm (lasting ds ++ superseded ds) := by
  induction ds with
  | nil => exact .nil
  | cons d later ih =>
      rw [lasting, superseded]
      by_cases h : d.isReplacedIn later = true
      · rw [if_pos h, if_pos h]
        exact (ih.cons d).trans List.perm_middle.symm
      · rw [if_neg h, if_neg h]
        exact ih.cons d

theorem isReplacedIn_iff {d : Definition} {later : List Definition} :
    d.isReplacedIn later = true ↔
      (later.reverse.find? fun e => e.kind = d.kind ∧ e.name = d.name).isSome = true := by
  simp [isReplacedIn, List.find?_isSome]

/-- What lasts is what is found when the list is searched from its end. -/
theorem mem_lasting_iff {ds : List Definition} {d : Definition} :
    d ∈ lasting ds ↔
      (ds.reverse.find? fun e => e.kind = d.kind ∧ e.name = d.name) = some d := by
  induction ds with
  | nil => simp [lasting]
  | cons first later ih =>
      rw [lasting, List.reverse_cons, List.find?_append, List.find?_singleton]
      by_cases hsame : first.kind = d.kind ∧ first.name = d.name
      · -- the first one counts if nothing after it has the same kind and name
        have hreplaced : first.isReplacedIn later = d.isReplacedIn later := by
          rw [isReplacedIn, isReplacedIn, hsame.1, hsame.2]
        cases hfound : later.reverse.find? fun e => e.kind = d.kind ∧ e.name = d.name with
        | none =>
            have hnot : d.isReplacedIn later = false := by
              rw [← Bool.not_eq_true, isReplacedIn_iff, hfound]
              simp
            have hmem : d ∉ lasting later := by
              rw [ih, hfound]
              simp
            simp [hreplaced, hnot, hsame, hmem, eq_comm]
        | some found =>
            have hyes : d.isReplacedIn later = true := by
              rw [isReplacedIn_iff, hfound]
              rfl
            rw [hreplaced, if_pos hyes, ih, hfound, Option.some_or]
      · have hne : d ≠ first := by
          rintro rfl
          exact hsame ⟨rfl, rfl⟩
        by_cases h : first.isReplacedIn later = true
        · simp [h, ih, hsame]
        · simp [h, ih, hsame, hne]

theorem nodup_lasting (ds : List Definition) : (lasting ds).Nodup := by
  induction ds with
  | nil => exact List.nodup_nil
  | cons d later ih =>
      rw [lasting]
      by_cases h : d.isReplacedIn later = true
      · rwa [if_pos h]
      · rw [if_neg h]
        refine List.nodup_cons.mpr ⟨fun hmem => h ?_, ih⟩
        rw [isReplacedIn_iff, mem_lasting_iff.mp hmem]
        rfl

end Definition

namespace Store

variable {s : Store}

/-- Every definition stands under its own kind and name. -/
def Keyed (s : Store) : Prop :=
  ∀ ⦃kind name d⦄, s.definition? kind name = some d → d.kind = kind ∧ d.name = name

/-! ### Editing -/

theorem ofKind_setKind (s : Store) (kind kind' : Kind) (ds : SortedMap String Definition) :
    (s.setKind kind ds).ofKind kind' = if kind = kind' then ds else s.ofKind kind' := by
  cases kind <;> cases kind' <;> rfl

theorem definition?_define (s : Store) (d : Definition) (kind : Kind) (name : String) :
    (s.define d).definition? kind name =
      if d.kind = kind ∧ d.name = name then some d else s.definition? kind name := by
  unfold definition? define
  rw [ofKind_setKind]
  by_cases hkind : d.kind = kind
  · subst hkind
    simp only [if_true, true_and, SortedMap.get?_insert]
  · simp only [hkind, if_false, false_and]

theorem definition?_remove (s : Store) (kind kind' : Kind) (name name' : String) :
    (s.remove kind name).definition? kind' name' =
      if kind = kind' ∧ name = name' then none else s.definition? kind' name' := by
  unfold definition? remove
  rw [ofKind_setKind]
  by_cases hkind : kind = kind'
  · subst hkind
    simp only [if_true, true_and, SortedMap.get?_erase]
  · simp only [hkind, if_false, false_and]

theorem keyed_empty : empty.Keyed := by
  intro kind name d h
  cases kind <;> cases h

theorem Keyed.define (hk : s.Keyed) (d : Definition) : (s.define d).Keyed := by
  intro kind name found h
  rw [definition?_define] at h
  split at h
  next heq => exact Option.some.inj h ▸ heq
  next => exact hk h

theorem Keyed.remove (hk : s.Keyed) (kind : Kind) (name : String) : (s.remove kind name).Keyed := by
  intro kind' name' found h
  rw [definition?_remove] at h
  split at h
  next => cases h
  next => exact hk h

/-- What is listed is what lookups find. -/
theorem mem_definitions_iff (hk : s.Keyed) {d : Definition} :
    d ∈ s.definitions ↔ s.definition? d.kind d.name = some d := by
  rw [definitions, List.mem_append, SortedMap.mem_values_iff, SortedMap.mem_values_iff]
  constructor
  · rintro (⟨name, h⟩ | ⟨name, h⟩)
    · obtain ⟨hkind, hname⟩ := @hk .node name d h
      rw [hkind, hname]
      exact h
    · obtain ⟨hkind, hname⟩ := @hk .relationship name d h
      rw [hkind, hname]
      exact h
  · intro h
    unfold definition? at h
    cases hkind : d.kind with
    | node => exact Or.inl ⟨d.name, by rw [hkind] at h; exact h⟩
    | relationship => exact Or.inr ⟨d.name, by rw [hkind] at h; exact h⟩

/-! ### Stores of given definitions -/

/-- Definitions that are stored one after the other: of those of one kind and name the last one is
found. -/
theorem definition?_defineAll (s : Store) (ds : List Definition) (kind : Kind) (name : String) :
    (s.defineAll ds).definition? kind name =
      (ds.reverse.find? fun d => d.kind = kind ∧ d.name = name).or (s.definition? kind name) := by
  induction ds generalizing s with
  | nil => rfl
  | cons d rest ih =>
      show ((s.define d).defineAll rest).definition? kind name = _
      rw [ih, definition?_define, List.reverse_cons, List.find?_append, List.find?_singleton,
        Option.or_assoc]
      by_cases hd : d.kind = kind ∧ d.name = name <;> simp [hd]

theorem definition?_ofDefinitions (ds : List Definition) (kind : Kind) (name : String) :
    (ofDefinitions ds).definition? kind name =
      ds.reverse.find? fun d => d.kind = kind ∧ d.name = name := by
  rw [ofDefinitions, definition?_defineAll]
  cases kind <;> exact Option.or_none ..

theorem Keyed.defineAll (hk : s.Keyed) (ds : List Definition) : (s.defineAll ds).Keyed := by
  induction ds generalizing s with
  | nil => exact hk
  | cons d rest ih => exact ih (hk.define d)

theorem keyed_ofDefinitions (ds : List Definition) : (ofDefinitions ds).Keyed :=
  keyed_empty.defineAll ds

/-- A store is within reach until its owner says otherwise. -/
theorem available_ofDefinitions (ds : List Definition) : (ofDefinitions ds).available = true := by
  have hdefine : ∀ (ds : List Definition) (s : Store), (s.defineAll ds).available = s.available := by
    intro ds
    induction ds with
    | nil => exact fun s => rfl
    | cons d rest ih =>
        intro s
        refine (ih (s.define d)).trans ?_
        unfold define setKind
        cases d.kind <;> rfl
  exact hdefine ds empty

theorem load_of_available (ha : s.available = true) :
    s.load = .ok (s.definitions, { s with loads := s.loads + 1 }) := by
  unfold load checkAvailable
  rw [if_pos ha]
  rfl

/-- No definition is listed twice. -/
theorem nodup_definitions (hk : s.Keyed) : s.definitions.Nodup := by
  have hkeys (kind : Kind) : ((s.ofKind kind).values.map (·.name)) = (s.ofKind kind).keys :=
    (SortedMap.keys_eq_map fun h => (hk h).2).symm
  have hvalues (kind : Kind) : (s.ofKind kind).values.Nodup :=
    .of_map (·.name) (hkeys kind ▸ (s.ofKind kind).keys_nodup)
  refine List.nodup_append.mpr ⟨hvalues .node, hvalues .relationship, ?_⟩
  intro d hd e he hde
  subst hde
  obtain ⟨name, hname⟩ := SortedMap.mem_values_iff.mp hd
  obtain ⟨name', hname'⟩ := SortedMap.mem_values_iff.mp he
  have hnode : s.definition? .node name = some d := hname
  have hrelationship : s.definition? .relationship name' = some d := hname'
  cases (hk hnode).1.symm.trans (hk hrelationship).1

/-- A store of definitions holds those that last. -/
theorem definitions_ofDefinitions_perm (ds : List Definition) :
    (ofDefinitions ds).definitions.Perm (Definition.lasting ds) := by
  have hk := keyed_ofDefinitions ds
  refine (List.perm_ext_iff_of_nodup (nodup_definitions hk) (Definition.nodup_lasting ds)).mpr ?_
  intro d
  rw [mem_definitions_iff hk, definition?_ofDefinitions, Definition.mem_lasting_iff]

/-- A store of what a store lists holds the same. -/
theorem definition?_ofDefinitions_definitions (hk : s.Keyed) (kind : Kind) (name : String) :
    (ofDefinitions s.definitions).definition? kind name = s.definition? kind name := by
  rw [definition?_ofDefinitions]
  refine Option.ext fun d => ?_
  constructor
  · intro h
    have hsame : d.kind = kind ∧ d.name = name := by simpa using List.find?_some h
    have hmem := (mem_definitions_iff hk).mp (List.mem_reverse.mp (List.mem_of_find?_eq_some h))
    rwa [hsame.1, hsame.2] at hmem
  · intro h
    obtain ⟨rfl, rfl⟩ := hk h
    have hmem := List.mem_reverse.mpr ((mem_definitions_iff hk).mpr h)
    have hsome : (s.definitions.reverse.find? fun e =>
        e.kind = d.kind ∧ e.name = d.name).isSome = true :=
      List.find?_isSome.mpr ⟨d, hmem, by simp⟩
    obtain ⟨e, he⟩ := Option.isSome_iff_exists.mp hsome
    have hsame : e.kind = d.kind ∧ e.name = d.name := by simpa using List.find?_some he
    have hfound := (mem_definitions_iff hk).mp (List.mem_reverse.mp (List.mem_of_find?_eq_some he))
    rw [hsame.1, hsame.2, h] at hfound
    rw [he, hfound]

/-! ### Built-in types -/

/-- The definition of a node type that is built in and extends `base`: what was there is kept
otherwise, and a type that was not defined has nothing else. -/
def builtinDefinition (found : Option Definition) (name base : String) : Definition :=
  { found.getD (Definition.node name) with parent := some base, builtin := true }

/-- The store with a node type that is built in and extends `base`. -/
def withBuiltin (s : Store) (name base : String) : Store :=
  { s with nodes := s.nodes.insert name (builtinDefinition (s.nodes.get? name) name base) }

/-- The store with several such node types. -/
def withBuiltins (s : Store) (overrides : List (String × String)) : Store :=
  overrides.foldl (fun s e => s.withBuiltin e.1 e.2) s

/-- How a store differs after node types were made sure of, which extend the given bases. -/
structure Ensured (overrides : SortedMap String String) (before after : Store) : Prop where
  /-- Each is marked and extends its base, and the rest of its definition is kept. -/
  overridden : ∀ {name base}, overrides.get? name = some base →
    after.definition? .node name =
      some (builtinDefinition (before.definition? .node name) name base)
  /-- No other node type has changed. -/
  node : ∀ {name}, overrides.get? name = none →
    after.definition? .node name = before.definition? .node name
  relationship : after.relationships = before.relationships
  available : after.available = before.available

theorem get?_nodes_withBuiltins {overrides : List (String × String)}
    (hsorted : overrides.Pairwise fun a b => compare a.1 b.1 = .lt) (s : Store) (name : String) :
    (s.withBuiltins overrides).nodes.get? name =
      match SortedMap.lookup name overrides with
      | some base => some (builtinDefinition (s.nodes.get? name) name base)
      | none => s.nodes.get? name := by
  induction overrides generalizing s with
  | nil => rfl
  | cons e rest ih =>
      obtain ⟨first, base⟩ := e
      obtain ⟨hfirst, hrest⟩ := List.pairwise_cons.mp hsorted
      show ((s.withBuiltin first base).withBuiltins rest).nodes.get? name = _
      rw [ih hrest]
      by_cases heq : first = name
      · subst heq
        -- no later override is about the same type
        rw [SortedMap.lookup_eq_none_of_lt hfirst]
        simp [withBuiltin, SortedMap.lookup]
      · have hne : compare name first ≠ .eq := fun h =>
          heq (Std.LawfulEqCmp.eq_of_compare h).symm
        simp only [withBuiltin, SortedMap.get?_insert_ne _ _ heq, SortedMap.lookup, hne, if_false]

theorem withBuiltins_eq (s : Store) (overrides : List (String × String)) :
    s.withBuiltins overrides = { s with nodes := (s.withBuiltins overrides).nodes } := by
  induction overrides generalizing s with
  | nil => rfl
  | cons e rest ih => exact ih (s.withBuiltin e.1 e.2)

/-- Node types are made sure of one after the other, and each once. -/
theorem ensured_withBuiltins (s : Store) (overrides : SortedMap String String) :
    Ensured overrides s (s.withBuiltins overrides.entries) where
  overridden := fun {name base} h => by
    show (s.withBuiltins overrides.entries).nodes.get? name = _
    rw [get?_nodes_withBuiltins overrides.sorted]
    rw [SortedMap.get?] at h
    rw [h]
    rfl
  node := fun {name} h => by
    show (s.withBuiltins overrides.entries).nodes.get? name = _
    rw [get?_nodes_withBuiltins overrides.sorted]
    rw [SortedMap.get?] at h
    rw [h]
    rfl
  relationship := by rw [withBuiltins_eq]
  available := by rw [withBuiltins_eq]

/-- Nothing to make sure of, nothing changed. -/
theorem Ensured.refl (s : Store) : Ensured .empty s s where
  overridden := nofun
  node := fun _ => rfl
  relationship := rfl
  available := rfl

/-- Only the definitions, and whether they can be reached, count. -/
theorem Ensured.congr {overrides : SortedMap String String} {before after after' : Store}
    (h : Ensured overrides before after) (hnodes : after'.nodes = after.nodes)
    (hrelationships : after'.relationships = after.relationships)
    (havailable : after'.available = after.available) : Ensured overrides before after' where
  overridden := fun hbase => by
    unfold definition? ofKind
    rw [hnodes]
    exact h.overridden hbase
  node := fun hbase => by
    show after'.nodes.get? _ = _
    rw [hnodes]
    exact h.node hbase
  relationship := hrelationships.trans h.relationship
  available := havailable.trans h.available

theorem Ensured.keyed {overrides : SortedMap String String} {before after : Store}
    (h : Ensured overrides before after) (hk : before.Keyed) : after.Keyed := by
  intro kind name d hd
  cases kind with
  | node =>
      cases hbase : overrides.get? name with
      | none => exact hk (h.node hbase ▸ hd)
      | some base =>
          rw [h.overridden hbase] at hd
          obtain rfl := Option.some.inj hd
          cases hfound : before.definition? .node name with
          | none => exact ⟨rfl, rfl⟩
          | some found =>
              show found.kind = .node ∧ found.name = name
              exact hk hfound
  | relationship =>
      refine @hk .relationship name d ?_
      unfold definition? ofKind at hd ⊢
      rw [← h.relationship]
      exact hd

end Store

namespace DefinitionSource

variable {s : DefinitionSource}

/-- The definitions that a reload is given. -/
def handedOut (s : DefinitionSource) : List Definition := s.store.definitions ++ s.extra

/-- The source with another store. -/
def withStore (s : DefinitionSource) (store : Store) : DefinitionSource := { s with store := store }

theorem ensureBuiltins_eq (ha : s.store.available = true) (overrides : List (String × String)) :
    s.ensureBuiltins overrides = .ok (s.withStore (s.store.withBuiltins overrides)) := by
  induction overrides generalizing s with
  | nil => rfl
  | cons e rest ih =>
      obtain ⟨name, base⟩ := e
      have hstep : s.store.ensureBuiltin name base = .ok (s.store.withBuiltin name base) := by
        unfold Store.ensureBuiltin Store.checkAvailable
        rw [if_pos ha]
        rfl
      rw [ensureBuiltins, hstep]
      exact ih (s := s.withStore (s.store.withBuiltin name base)) ha

/-- A store out of reach refuses, unless it is asked for nothing. -/
theorem ensureBuiltins_of_unavailable (ha : s.store.available = false)
    (overrides : List (String × String)) :
    (overrides = [] ∧ s.ensureBuiltins overrides = .ok s) ∨
      ∃ cause, s.ensureBuiltins overrides = .error cause := by
  cases overrides with
  | nil => exact Or.inl ⟨rfl, rfl⟩
  | cons e rest =>
      refine Or.inr ⟨.unavailable "in-memory store marked unavailable", ?_⟩
      rw [ensureBuiltins, Store.ensureBuiltin, Store.checkAvailable, ha]
      rfl

/-- The source after its definitions were loaded once more. -/
def loaded (s : DefinitionSource) : DefinitionSource :=
  s.withStore { s.store with loads := s.store.loads + 1 }

theorem load_eq (ha : s.store.available = true) : s.load = .ok (s.handedOut, s.loaded) := by
  unfold load Store.load Store.checkAvailable
  rw [if_pos ha]
  rfl

theorem load_of_unavailable (ha : s.store.available = false) : ∃ cause, s.load = .error cause := by
  refine ⟨.unavailable "in-memory store marked unavailable", ?_⟩
  unfold load Store.load Store.checkAvailable
  rw [ha]
  rfl

/-! ### Reports -/

/-- The store with reports about the node types that are defined. -/
def withReports (s : DefinitionSource) (annotations : SortedMap String HierarchyEntry) :
    DefinitionSource :=
  s.withStore { s.store with
    annotations := s.store.annotations.union
      (annotations.filter fun name _ => s.store.nodes.contains name) }

theorem keepReports_eq (ha : s.store.available = true) (hr : s.refusesReports = false)
    (annotations : SortedMap String HierarchyEntry) :
    s.keepReports annotations = s.withReports annotations := by
  unfold keepReports Store.writeHierarchy Store.checkAvailable
  rw [if_neg (Bool.not_eq_true _ ▸ hr), if_pos ha]
  rfl

/-- Reports that are not kept change nothing. -/
theorem keepReports_of_refused (h : s.store.available = false ∨ s.refusesReports = true)
    (annotations : SortedMap String HierarchyEntry) : s.keepReports annotations = s := by
  unfold keepReports
  rcases h with ha | hr
  · split
    next => rfl
    next =>
      unfold Store.writeHierarchy Store.checkAvailable
      rw [ha]
      rfl
  · rw [if_pos hr]

/-- Keeping reports changes reports only. -/
theorem keepReports_frame (s : DefinitionSource) (annotations : SortedMap String HierarchyEntry) :
    s.keepReports annotations = s.withStore
      { s.store with annotations := (s.keepReports annotations).store.annotations } := by
  by_cases h : s.store.available = false ∨ s.refusesReports = true
  · rw [keepReports_of_refused h]
    rfl
  · rw [not_or, Bool.not_eq_false, Bool.not_eq_true] at h
    rw [keepReports_eq h.1 h.2]
    rfl

/-- The reports about the node types that are defined are kept. -/
theorem hierarchyEntry?_keepReports (ha : s.store.available = true)
    (hr : s.refusesReports = false) {annotations : SortedMap String HierarchyEntry} {name : String}
    {entry : HierarchyEntry} (hentry : annotations.get? name = some entry)
    (hnode : s.store.nodes.contains name = true) :
    (s.keepReports annotations).store.hierarchyEntry? name = some entry := by
  rw [keepReports_eq ha hr]
  show (SortedMap.union _ _).get? name = some entry
  rw [SortedMap.get?_union, SortedMap.get?_filter, hentry, Option.filter_some, if_pos hnode,
    Option.some_or]

end DefinitionSource

end LiveSchema
