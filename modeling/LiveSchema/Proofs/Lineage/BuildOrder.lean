import LiveSchema.Proofs.Lineage

/-!
# LiveSchema.Proofs.Lineage.BuildOrder

The build order lists every name (`mem_buildOrder_iff`), and where no chain is closed it lists each
once, with every parent before its children (`Closed.nodup_buildOrder`,
`Closed.parent_mem_of_buildOrder`). A depth-first visit finishes a name after all that extend it, so
the names that are finished at any time include their children (`Finished`); the build order is the
reverse of the order in which they are finished.
-/

namespace LiveSchema.Lineage

variable {l : Lineage}

/-! ### What is finished -/

/-- Finishing a name keeps what is finished. -/
theorem mem_finish_of_mem {fuel : Nat} {done : List String} {name x : String} (h : x ∈ done) :
    x ∈ l.finish fuel done name := by
  induction fuel generalizing done name with
  | zero => exact h
  | succ fuel ih =>
      rw [finish]
      split
      · exact h
      · refine List.mem_append_left _ ?_
        exact List.foldlRecOn (motive := fun done => x ∈ done) _ _ h
          fun _ hdone _ _ => ih hdone

theorem mem_finish_self {fuel : Nat} {done : List String} {name : String} :
    name ∈ l.finish (fuel + 1) done name := by
  rw [finish]
  split
  · rename_i hdone
    exact List.contains_iff_mem.mp hdone
  · exact List.mem_append_right _ (List.mem_singleton_self name)

/-- All names that are visited are finished then. -/
theorem mem_foldl_finish {fuel : Nat} {done names : List String} {x : String} (hx : x ∈ names) :
    x ∈ names.foldl (l.finish (fuel + 1)) done := by
  obtain ⟨before, after, rfl⟩ := List.append_of_mem hx
  rw [List.foldl_append, List.foldl_cons]
  exact List.foldlRecOn (motive := fun done => x ∈ done) after _ mem_finish_self
    fun _ hdone _ _ => mem_finish_of_mem hdone

/-- Only names of the lineage are finished. -/
theorem mem_names_of_mem_finish {fuel : Nat} {done : List String} {name x : String}
    (hdone : ∀ y ∈ done, y ∈ l.names) (hname : name ∈ l.names)
    (h : x ∈ l.finish fuel done name) : x ∈ l.names := by
  induction fuel generalizing done name x with
  | zero => exact hdone x h
  | succ fuel ih =>
      rw [finish] at h
      split at h
      · exact hdone x h
      · rcases List.mem_append.mp h with h | h
        · refine List.foldlRecOn (motive := fun done => ∀ y ∈ done, y ∈ l.names) _ _ hdone
            (fun _ hacc child hchild y hy => ih hacc (List.mem_of_mem_filter hchild) hy) x h
        · exact List.mem_singleton.mp h ▸ hname

/-- The build order lists exactly the names. -/
theorem mem_buildOrder_iff {x : String} : x ∈ l.buildOrder ↔ x ∈ l.names := by
  rw [buildOrder, List.mem_reverse]
  constructor
  · refine List.foldlRecOn (motive := fun done => ∀ y ∈ done, y ∈ l.names) l.names _
      (fun y hy => absurd hy List.not_mem_nil) (fun _ hacc name hname y hy => ?_) x
    exact mem_names_of_mem_finish hacc hname hy
  · intro hx
    obtain ⟨fuel, hfuel⟩ := Nat.exists_eq_succ_of_ne_zero
      (List.length_pos_iff.mpr (List.ne_nil_of_mem hx)).ne'
    rw [hfuel]
    exact mem_foldl_finish hx

/-- Finishing a name finishes nothing that is not below it. -/
theorem reaches_of_mem_finish {fuel : Nat} {done : List String} {name x : String}
    (h : x ∈ l.finish fuel done name) : x ∈ done ∨ l.Reaches x name := by
  induction fuel generalizing done name with
  | zero => exact Or.inl h
  | succ fuel ih =>
      rw [finish] at h
      split at h
      · exact Or.inl h
      · rcases List.mem_append.mp h with hbelow | hself
        · refine List.foldlRecOn (motive := fun seen => x ∈ seen → x ∈ done ∨ l.Reaches x name)
            _ _ Or.inl (fun seen hseen child hchild hx => ?_) hbelow
          have hparent : l.parent? child = some name := by
            simpa using (List.mem_filter.mp hchild).2
          rcases ih hx with hold | hreaches
          · exact hseen hold
          · exact Or.inr (hreaches.trans (.of_parent hparent))
        · exact Or.inr (List.mem_singleton.mp hself ▸ Reaches.refl x)

/-! ### Children first -/

/-- What a visit has finished, in order: each name once and after all that extend it. -/
structure Finished (l : Lineage) (done : List String) : Prop where
  nodup : done.Nodup
  children : ∀ {name child}, name ∈ done → l.parent? child = some name → child ∈ done
  ordered : done.Pairwise fun earlier later => l.parent? later ≠ some earlier

theorem finished_nil : l.Finished [] := ⟨List.nodup_nil, nofun, List.Pairwise.nil⟩

/-- A name is finished when its children are. -/
theorem Finished.concat {done : List String} {name : String} (h : l.Finished done)
    (hnew : name ∉ done) (hchildren : ∀ {child}, l.parent? child = some name → child ∈ done) :
    l.Finished (done ++ [name]) where
  nodup := by
    rw [← List.concat_eq_append]
    exact List.nodup_concat done name |>.mpr ⟨hnew, h.nodup⟩
  children := by
    intro other child hother hparent
    rcases List.mem_append.mp hother with hold | hself
    · exact List.mem_append_left _ (h.children hold hparent)
    · rw [List.mem_singleton.mp hself] at hparent
      exact List.mem_append_left _ (hchildren hparent)
  ordered := by
    refine List.pairwise_append.mpr ⟨h.ordered, List.pairwise_singleton _ _, ?_⟩
    intro earlier hearlier later hlater hparent
    rw [List.mem_singleton.mp hlater] at hparent
    exact hnew (h.children hearlier hparent)

/-- A visit that goes far enough down keeps it so. -/
theorem Finished.finish (hl : l.Closed) (ha : l.Acyclic) {fuel : Nat} {done : List String}
    {name : String} (h : l.Finished done) (hfuel : ∀ x, l.ascend fuel x ≠ some name) :
    l.Finished (l.finish fuel done name) := by
  -- on the number of levels that the visit can still go down
  induction fuel generalizing done name with
  | zero => exact absurd rfl (hfuel name)
  | succ fuel ih =>
      rw [Lineage.finish]
      split
      next => exact h
      next hnew =>
        rw [List.contains_iff_mem] at hnew
        have hparent {child : String} (hchild : child ∈ l.children name) :
            l.parent? child = some name := by
          simpa using (List.mem_filter.mp hchild).2
        have hfuel' {child : String} (hchild : child ∈ l.children name) (x : String) :
            l.ascend fuel x ≠ some child := by
          intro hx
          refine hfuel x ?_
          rw [ascend_of_ascend hx, ascend_one, hparent hchild]
        refine Finished.concat ?_ ?_ ?_
        · exact List.foldlRecOn (motive := l.Finished) _ _ h fun seen hseen child hchild =>
            ih hseen (hfuel' hchild)
        · -- only what is below the name was visited, and the name is not below itself
          refine List.foldlRecOn (motive := fun seen => name ∉ seen) _ _ hnew
            fun seen hseen child hchild hmem => ?_
          rcases reaches_of_mem_finish hmem with hold | ⟨n, hn⟩
          · exact hseen hold
          · exact ha name ⟨n, by rw [ascend_of_ascend hn, ascend_one, hparent hchild]⟩
        · intro child hchild
          have hmem : child ∈ l.children name :=
            List.mem_filter.mpr ⟨hl.child_mem hchild, by simpa using hchild⟩
          cases fuel with
          | zero => exact absurd rfl (hfuel' hmem child)
          | succ fuel => exact mem_foldl_finish hmem

/-! ### Parents first -/

theorem Closed.finished (hl : l.Closed) (ha : l.Acyclic) :
    l.Finished (l.names.foldl (l.finish l.names.length) []) := by
  refine List.foldlRecOn (motive := l.Finished) _ _ finished_nil fun done hdone name hname => ?_
  refine hdone.finish hl ha fun x hx => ?_
  by_cases hmem : x ∈ l.names
  · rw [ascend_length_eq_none hl ha hmem] at hx
    cases hx
  · obtain ⟨parent, hparent⟩ := exists_ascend_of_le hx (List.length_pos_iff.mpr
      (List.ne_nil_of_mem hname))
    exact hmem (hl.child_mem ((ascend_one x).symm.trans hparent))

theorem Closed.nodup_buildOrder (hl : l.Closed) (ha : l.Acyclic) : l.buildOrder.Nodup :=
  List.nodup_reverse.mpr (hl.finished ha).nodup

/-- When the turn of a name comes, its parent was there. -/
theorem Closed.parent_mem_of_buildOrder (hl : l.Closed) (ha : l.Acyclic)
    {before after : List String} {name parent : String}
    (horder : l.buildOrder = before ++ name :: after) (hparent : l.parent? name = some parent) :
    parent ∈ before := by
  have hmem : parent ∈ before ++ name :: after := by
    rw [← horder, mem_buildOrder_iff]
    exact hl.parent_mem hparent
  have hordered : (before ++ name :: after).Pairwise fun later earlier =>
      l.parent? later ≠ some earlier := by
    rw [← horder]
    exact List.pairwise_reverse.mpr (hl.finished ha).ordered
  rcases List.mem_append.mp hmem with hbefore | hafter
  · exact hbefore
  · rcases List.mem_cons.mp hafter with rfl | hlater
    · exact absurd ⟨0, (ascend_one parent).trans hparent⟩ (ha parent)
    · have hcons := (List.pairwise_append.mp hordered).2.1
      exact absurd hparent ((List.pairwise_cons.mp hcons).1 parent hlater)

end LiveSchema.Lineage
