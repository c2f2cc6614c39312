import LiveSchema.Proofs.Lineage
import Mathlib.Data.List.Sort

/-!
# LiveSchema.Proofs.Lineage.Components

Closed chains as strongly connected components. In the graph of the extends relation two names are
in one component if each can be reached from the other. A component is circular if it has more than
one name, or its only name extends itself; whatever way the components are found, the circular ones
are the closed chains (`IsComponents.circles_perm`), and there are no others.
-/

namespace LiveSchema.Lineage

variable {l : Lineage}

/-- The names in groups, each name once; two names are together if each is reached from the
other. -/
structure IsComponents (l : Lineage) (components : List (List String)) : Prop where
  nodup : components.flatten.Nodup
  mem : ∀ {name}, name ∈ components.flatten ↔ name ∈ l.names
  nonempty : [] ∉ components
  together : ∀ {component}, component ∈ components → ∀ {name}, name ∈ component →
    ∀ {other}, other ∈ component ↔ l.Reaches name other ∧ l.Reaches other name

/-- Whether a component has more than one name, or a name that extends itself. -/
def isCircular (l : Lineage) (component : List String) : Bool :=
  1 < component.length || component.head?.any fun name => l.parent? name = some name

/-- The circular components, sorted. -/
def circles (l : Lineage) (components : List (List String)) : List (List String) :=
  (components.filter l.isCircular).map fun component => (NameSet.ofNames component).keys

/-- Who reaches another name, and is reached from it, lies on a closed chain. -/
theorem onCycle_of_reaches_back {name other : String} (hne : name ≠ other)
    (hto : l.Reaches name other) (hback : l.Reaches other name) : l.OnCycle name := by
  obtain ⟨m, hm⟩ := hto
  obtain ⟨n, hn⟩ := hback
  cases m with
  | zero => exact absurd (Option.some.inj hm) hne
  | succ m =>
      refine ⟨m + n, ?_⟩
      rw [Nat.add_right_comm, ascend_of_ascend hm, hn]

namespace IsComponents

variable {components : List (List String)} {component : List String}

/-- A component is circular if any of its names lies on a closed chain. -/
theorem isCircular_iff (h : l.IsComponents components) (hmem : component ∈ components)
    {name : String} (hname : name ∈ component) :
    l.isCircular component = true ↔ l.OnCycle name := by
  have hnodup : component.Nodup := (List.nodup_flatten.mp h.nodup).1 component hmem
  rw [isCircular, Bool.or_eq_true, decide_eq_true_iff]
  constructor
  · rintro (hlong | hself)
    · -- one of two different names is another one
      obtain ⟨first, second, rest, rfl⟩ :
          ∃ first second rest, component = first :: second :: rest := by
        match component, hlong with
        | first :: second :: rest, _ => exact ⟨first, second, rest, rfl⟩
      have hdiffer : first ≠ second := by
        intro hsame
        exact (List.nodup_cons.mp hnodup).1 (hsame ▸ List.mem_cons_self)
      obtain ⟨other, hother, hne⟩ : ∃ other ∈ first :: second :: rest, name ≠ other := by
        by_cases hfirst : name = first
        · exact ⟨second, by simp, hfirst ▸ hdiffer⟩
        · exact ⟨first, List.mem_cons_self, hfirst⟩
      obtain ⟨hto, hback⟩ := (h.together hmem hname).mp hother
      exact onCycle_of_reaches_back hne hto hback
    · cases component with
      | nil => cases hname
      | cons first rest =>
          have hparent : l.parent? first = some first := of_decide_eq_true hself
          have hto := ((h.together hmem List.mem_cons_self).mp hname).1
          exact OnCycle.of_reaches ⟨0, (ascend_one first).trans hparent⟩ hto
  · intro hcycle
    obtain ⟨n, hn⟩ := hcycle
    obtain ⟨parent, hparent, -⟩ := Option.bind_eq_some_iff.mp hn
    have hto : l.Reaches name parent := .of_parent hparent
    have htogether : parent ∈ component :=
      (h.together hmem hname).mpr ⟨hto, OnCycle.reaches_back ⟨n, hn⟩ hto⟩
    by_cases hlong : 1 < component.length
    · exact Or.inl hlong
    · have hone : component.length = 1 := by
        have hpos := List.length_pos_of_mem hname
        omega
      obtain ⟨only, rfl⟩ := List.length_eq_one_iff.mp hone
      rw [List.mem_singleton] at hname htogether
      subst hname htogether
      right
      simpa using hparent

/-- A circular component is a closed chain. -/
theorem isCircle (h : l.IsComponents components) (hmem : component ∈ components)
    (hcircular : l.isCircular component = true) :
    l.IsCircle (NameSet.ofNames component).keys := by
  have hne : component ≠ [] := fun hnil => h.nonempty (hnil ▸ hmem)
  obtain ⟨name, hname⟩ := List.exists_mem_of_ne_nil component hne
  have hcycle := (h.isCircular_iff hmem hname).mp hcircular
  refine ⟨name, component, hcycle, fun x => ?_, rfl⟩
  rw [h.together hmem hname]
  exact ⟨And.left, fun hto => ⟨hto, hcycle.reaches_back hto⟩⟩

/-- The circular components are the closed chains. -/
theorem mem_circles_iff (h : l.IsComponents components) (hl : l.Closed) {circle : List String} :
    circle ∈ l.circles components ↔ l.IsCircle circle := by
  rw [circles, List.mem_map]
  constructor
  · rintro ⟨component, hfound, rfl⟩
    obtain ⟨hmem, hcircular⟩ := List.mem_filter.mp hfound
    exact h.isCircle hmem hcircular
  · intro hcircle
    obtain ⟨name, members, hcycle, hmembers, rfl⟩ := id hcircle
    have hname := h.mem.mpr (hl.mem_of_onCycle hcycle)
    obtain ⟨component, hmem, hin⟩ := List.mem_flatten.mp hname
    have hcircular := (h.isCircular_iff hmem hin).mpr hcycle
    refine ⟨component, List.mem_filter.mpr ⟨hmem, hcircular⟩, ?_⟩
    refine (h.isCircle hmem hcircular).eq_of_mem hcircle (NameSet.mem_keys_ofNames.mpr hin) ?_
    exact NameSet.mem_keys_ofNames.mpr ((hmembers name).mpr (Reaches.refl name))

/-- No two components are sorted alike. -/
theorem nodup_circles (h : l.IsComponents components) : (l.circles components).Nodup := by
  have hdisjoint := (List.nodup_flatten.mp h.nodup).2
  refine List.pairwise_map.mpr (List.Pairwise.imp_of_mem ?_ (hdisjoint.filter _))
  intro component other hmem _ hapart hsame
  have hne : component ≠ [] := fun hnil => h.nonempty (hnil ▸ List.mem_of_mem_filter hmem)
  obtain ⟨name, hname⟩ := List.exists_mem_of_ne_nil component hne
  refine hapart hname ?_
  rw [← NameSet.mem_keys_ofNames, ← hsame, NameSet.mem_keys_ofNames]
  exact hname

/-- However the components are found, the circular ones are what is reported of closed chains. -/
theorem circles_perm (h : l.IsComponents components) (hl : l.Closed) (hn : l.names.Nodup) :
    (l.circles components).Perm l.cycles :=
  (List.perm_ext_iff_of_nodup h.nodup_circles (nodup_cycles hn)).mpr fun _ =>
    (h.mem_circles_iff hl).trans hl.mem_cycles_iff.symm

/-- In order, they are the report. -/
theorem eq_cycles_of_perm (h : l.IsComponents components) (hl : l.Closed)
    (hn : l.names.Pairwise (· < ·)) {sorted : List (List String)}
    (hperm : sorted.Perm (l.circles components)) (hsorted : sorted.Pairwise (· ≤ ·)) :
    sorted = l.cycles := by
  have hnodup : l.names.Nodup := hn.imp ne_of_lt
  exact (hperm.trans (h.circles_perm hl hnodup)).eq_of_pairwise'
    hsorted ((pairwise_cycles hn).imp le_of_lt)

end IsComponents

end LiveSchema.Lineage
