import LiveSchema.Proofs.Definition.Store
import LiveSchema.Proofs.History

/-!
# LiveSchema.Proofs.Definition.Annotations

Which reports stand beside the definitions of a store, after any run of what its owner and the
engine do to it. Reports are kept for node types that are defined, and nothing but a later report
takes their place. So a report stands from the moment it was kept, whatever becomes of the
definition: if that is removed the report is left behind, and a new definition of the name finds it
there.

* `Store.Action`, `Store.run` — what can be done to a store, and what comes of it.
* `Store.Action.kept?` — the report that an action leaves about a node type.
* `Store.hierarchyEntry?_after`, `Store.hasNode_after` — what one action does to a report and to a
  definition.
* `Store.annotation_outlives_definition` — whose report stands after a run, and when it stands
  without a definition.
-/

namespace LiveSchema

namespace Store

/-- What the owner of a store and the engine do to it. -/
inductive Action where
  | define (d : Definition)
  | remove (kind : Kind) (name : String)
  | ensureBuiltin (name base : String)
  | writeHierarchy (annotations : SortedMap String HierarchyEntry)
  | setAvailable (available : Bool)

/-- The store after an action. What it refuses leaves it as it is. -/
def after (s : Store) : Action → Store
  | .define d => s.define d
  | .remove kind name => s.remove kind name
  | .ensureBuiltin name base => (s.ensureBuiltin name base).toOption.getD s
  | .writeHierarchy annotations => (s.writeHierarchy annotations).toOption.getD s
  | .setAvailable available => { s with available := available }

/-- The store after a run of actions on an empty one. -/
def run (actions : List Action) : Store := actions.foldl after empty

/-- Whether a node type of a name is defined. -/
def hasNode (s : Store) (name : String) : Bool := (s.definition? .node name).isSome

/-- The report about a node type that an action leaves in a store. -/
def Action.kept? (s : Store) (name : String) : Action → Option HierarchyEntry
  | .writeHierarchy annotations =>
    if s.available && s.hasNode name then annotations.get? name else none
  | _ => none

/-- Whether there is a report about a node type of a name. -/
def hasReport (s : Store) (name : String) : Bool := s.hierarchyEntry? name |>.isSome

/-- Every report is about a node type that is defined. -/
def Attached (s : Store) : Prop := ∀ name, s.hasReport name = true → s.hasNode name = true

variable {s : Store} {actions : List Action} {name : String}

theorem run_concat (actions : List Action) (a : Action) :
    run (actions ++ [a]) = (run actions).after a := by
  rw [run, List.foldl_append]
  rfl

/-! ### One action -/

theorem Action.kept?_writeHierarchy (s : Store) (name : String)
    (annotations : SortedMap String HierarchyEntry) :
    (Action.writeHierarchy annotations).kept? s name =
      if s.available && s.hasNode name then annotations.get? name else none := rfl

theorem annotations_setKind (s : Store) (kind : Kind) (ds : SortedMap String Definition) :
    (s.setKind kind ds).annotations = s.annotations := by
  cases kind <;> rfl

/-- A report stands until another one is kept. -/
theorem hierarchyEntry?_after (s : Store) (a : Action) (name : String) :
    hierarchyEntry? (s.after a) name = (a.kept? s name).or (s.annotations.get? name) := by
  cases a with
  | define d => exact congrArg (SortedMap.get? · name) (annotations_setKind s d.kind _)
  | remove kind _ => exact congrArg (SortedMap.get? · name) (annotations_setKind s kind _)
  | ensureBuiltin _ base =>
      unfold after ensureBuiltin checkAvailable
      cases s.available <;> rfl
  | writeHierarchy annotations =>
      rw [Action.kept?_writeHierarchy]
      unfold after writeHierarchy checkAvailable
      cases s.available with
      | false => rfl
      | true =>
          show (SortedMap.union _ _).get? name = _
          rw [SortedMap.get?_union, SortedMap.get?_filter]
          show (Option.filter (fun _ => s.hasNode name) _).or _ = _
          cases s.hasNode name <;> cases annotations.get? name <;> simp
  | setAvailable available => rfl

/-- A node type that is defined stays so, unless it is removed. -/
theorem hasNode_after {a : Action} (hnode : s.hasNode name = true)
    (ha : a ≠ .remove .node name) : (s.after a).hasNode name = true := by
  unfold hasNode at hnode ⊢
  cases a with
  | define d =>
      show ((s.define d).definition? .node name).isSome = true
      rw [definition?_define]
      split
      next => rfl
      next => exact hnode
  | remove kind other =>
      show ((s.remove kind other).definition? .node name).isSome = true
      rw [definition?_remove, if_neg]
      · exact hnode
      · intro hsame
        exact ha (by rw [hsame.1, hsame.2])
  | ensureBuiltin other base =>
      unfold after ensureBuiltin checkAvailable
      cases s.available with
      | false => exact hnode
      | true =>
          show ((s.nodes.insert other _).get? name).isSome = true
          rw [SortedMap.get?_insert]
          split
          next => rfl
          next => exact hnode
  | writeHierarchy annotations =>
      unfold after writeHierarchy checkAvailable
      cases s.available <;> exact hnode
  | setAvailable available => exact hnode

theorem hasNode_remove (s : Store) (name : String) :
    (s.after (.remove .node name)).hasNode name = false := by
  show ((s.remove .node name).definition? .node name).isSome = false
  rw [definition?_remove, if_pos ⟨rfl, rfl⟩]
  rfl

/-- No report is kept for a node type that is not defined. -/
theorem kept?_eq_none {a : Action} (hnode : s.hasNode name = false) : a.kept? s name = none := by
  cases a with
  | writeHierarchy annotations => rw [Action.kept?_writeHierarchy, hnode, Bool.and_false]; rfl
  | _ => rfl

/-- There is a report if one is kept or was there before. -/
theorem hasReport_after (s : Store) (a : Action) (name : String) :
    (s.after a).hasReport name = ((a.kept? s name).isSome || s.hasReport name) := by
  rw [hasReport, hierarchyEntry?_after, Option.isSome_or]
  rfl

/-! ### A run -/

/-- What one more action does to the report that stands. -/
theorem hierarchyEntry?_run_concat_iff {a : Action} {entry : HierarchyEntry} :
    hierarchyEntry? (run (actions ++ [a])) name = some entry ↔
      a.kept? (run actions) name = some entry ∨
        hierarchyEntry? (run actions) name = some entry ∧
          a.kept? (run actions) name = none := by
  rw [run_concat, hierarchyEntry?_after]
  show _ ↔ _ ∨ (run actions).annotations.get? name = some entry ∧ _
  cases a.kept? (run actions) name <;> simp

/-- What one more action does to a report that stands without a definition. Where the action is not
the removal, there was no definition before it, so that it keeps no report. -/
theorem left_behind_run_concat_iff {a : Action} :
    (run (actions ++ [a])).hasReport name = true ∧ (run (actions ++ [a])).hasNode name = false ↔
      (a = .remove .node name ∧ (run actions).hasReport name = true) ∨
        ((run actions).hasReport name = true ∧ (run actions).hasNode name = false) ∧
          (run (actions ++ [a])).hasNode name = false := by
  rw [run_concat, hasReport_after]
  constructor
  · intro h
    obtain ⟨hreport, hnode⟩ := h
    by_cases ha : a = .remove .node name
    · subst ha
      exact .inl ⟨rfl, hreport⟩
    · have hbefore : (run actions).hasNode name = false :=
        Bool.eq_false_iff.mpr fun h => Bool.eq_false_iff.mp hnode (hasNode_after h ha)
      rw [kept?_eq_none hbefore] at hreport
      exact .inr ⟨⟨hreport, hbefore⟩, hnode⟩
  · intro h
    cases h with
    | inl hremoved =>
        obtain ⟨rfl, hreport⟩ := hremoved
        exact ⟨by rw [hreport, Bool.or_true], hasNode_remove ..⟩
    | inr hstill =>
        obtain ⟨⟨hreport, -⟩, hnode⟩ := hstill
        exact ⟨by rw [hreport, Bool.or_true], hnode⟩

/-- **A report outlives the definition that it is about.** The report that stands is the last one
that was kept, whatever became of the definition since. It stands without a definition exactly if
there was a report when the definition was removed, and none of that name came back. -/
theorem annotation_outlives_definition (actions : List Action) (name : String) :
    (∀ entry, hierarchyEntry? (run actions) name = some entry ↔
      Since (fun before a => a.kept? (run before) name = some entry)
        (fun before a => a.kept? (run before) name = none) actions) ∧
    ((run actions).hasReport name = true ∧ (run actions).hasNode name = false ↔
      Since (fun before a => a = .remove .node name ∧ (run before).hasReport name = true)
        (fun before a => (run (before ++ [a])).hasNode name = false) actions) := by
  constructor
  · intro entry
    exact since_iff (fun history => hierarchyEntry? (run history) name = some entry) nofun
      (fun _ _ => hierarchyEntry?_run_concat_iff) actions
  · exact since_iff
      (fun history => (run history).hasReport name = true ∧ (run history).hasNode name = false)
      (fun h => nomatch h.1) (fun _ _ => left_behind_run_concat_iff) actions

/-- A node type is defined, reported on, removed and defined again. -/
def definedAnew : List Action :=
  [.define (.node "Person"), .writeHierarchy (.ofList [("Person", ⟨0, 2⟩)]),
    .remove .node "Person", .define (.node "Person")]

/-- The report of the removed node type is there, and its successor finds it. -/
theorem report_left_behind : ¬ (run (definedAnew.take 3)).Attached ∧
    hierarchyEntry? (run definedAnew) "Person" = some ⟨0, 2⟩ := by
  constructor
  · intro hattached
    exact absurd (hattached "Person" (by decide)) (by decide)
  · decide

end Store

end LiveSchema
