import FilterTree.Proofs.Clearing

namespace FilterTree.Model

/-- The second model is the first with another row in the place of the one that opens with the
group. -/
def Replaces (m : Model) (g : Group) (make : Forest → Forest) (k : Model) : Prop :=
  Forest.Rewrite (fun row row' => ∃ rest, row = .group g :: rest ∧ row' = make rest)
    m.forest k.forest

/-- The second model is the first with the condition of the group patched. -/
def Patched (m : Model) (g : Group) (c : Condition) (p : Patch) (k : Model) : Prop :=
  ∃ before after, g.children = before ++ .condition c :: after ∧
    m.Replaces g
      (fun rest => .group { g with children := before ++ .condition (c.patch p) :: after } :: rest) k

/-- The second model is the first with the condition of the group in a new OR group after it, or in
its place if the group is left without children. -/
def SplitOff (m : Model) (fresh : Fresh) (g : Group) (c : Condition) (k : Model) : Prop :=
  ∃ before after, g.children = before ++ .condition c :: after ∧
    m.Replaces g
      (fun rest =>
        let lifted := Node.group (Group.blank .or fresh (some (.condition c)))
        if before ++ after = [] then lifted :: rest
        else .group { g with children := before ++ after } :: lifted :: rest) k

/-- The second model has the conditions of the first without this one, and is blank if that was the
only one. -/
def Drops (m : Model) (fresh : Fresh) (c : Condition) (k : Model) : Prop :=
  ∃ before after, m.leaves = before ++ c :: after ∧
    (before ++ after ≠ [] → k.leaves = before ++ after) ∧
    (before ++ after = [] → k = .blank fresh)

variable {m : Model} {g : Group} {c : Condition}

theorem replaces_alter (valid : m.Valid) (known : g ∈ m.groups)
    {change : Group → Forest → Option Forest} {make : Forest → Forest}
    (makes : ∀ rest, change g rest = some (make rest))
    (groups : ∀ rest, Forest.OnlyGroups rest → Forest.OnlyGroups (make rest)) :
    ∃ k, m.alter g.id change = ⟨k, true⟩ ∧ m.Replaces g make k := by
  obtain ⟨f, edited, path⟩ := exists_rewrite_of_mem valid known change fun rest => by
    rw [makes, Option.isSome_some]
  have path : Forest.Rewrite (fun row row' => ∃ rest, row = .group g :: rest ∧ row' = make rest)
      m.forest f := by
    apply path.mono
    rintro row row' ⟨rest, rfl, changed⟩
    exact ⟨rest, rfl, Option.some_inj.mp (changed.symm.trans (makes rest))⟩
  have only : Forest.OnlyGroups f := by
    refine Forest.onlyGroups_of_rewrite ?_ path m.onlyGroups_forest
    rintro row row' ⟨rest, rfl, rfl⟩ only
    exact groups rest ((Forest.onlyGroups_group g rest).mp only)
  refine ⟨.ofForest f, edited, ?_⟩
  rwa [Replaces, forest_ofForest only]

/-- The condition is located in its group where it stands. -/
theorem locate?_of_mem (valid : m.Valid) (known : g ∈ m.groups) (held : .condition c ∈ g.children) :
    ∃ before after, g.children = before ++ .condition c :: after ∧
      Forest.locate? c.id g.children = some (before, c, after) := by
  have nodup := valid.nodup_ids.sublist (Forest.ids_children_sublist known)
  obtain ⟨before, after, children⟩ := List.append_of_mem held
  rw [children] at nodup
  exact ⟨before, after, children, children ▸ Forest.locate?_append nodup⟩

theorem patched_update (valid : m.Valid) (known : g ∈ m.groups) (held : .condition c ∈ g.children)
    (p : Patch) : ∃ k, m.update g.id c.id p = ⟨k, true⟩ ∧ m.Patched g c p k := by
  obtain ⟨before, after, children, place⟩ := locate?_of_mem valid known held
  refine Exists.imp (fun k ⟨updated, path⟩ => ⟨updated, before, after, children, path⟩)
    (replaces_alter valid known ?_ ?_)
  · intro rest
    rw [Forest.patch?_eq_map_locate?, place]
    rfl
  · intro rest only
    exact (Forest.onlyGroups_group _ _).mpr only

theorem splitOff_split (valid : m.Valid) (known : g ∈ m.groups) (held : .condition c ∈ g.children)
    (fresh : Fresh) : ∃ k, m.split g.id c.id fresh = ⟨k, true⟩ ∧ m.SplitOff fresh g c k := by
  obtain ⟨before, after, children, place⟩ := locate?_of_mem valid known held
  rw [split_eq_alter valid]
  refine Exists.imp (fun k ⟨split, path⟩ => ⟨split, before, after, children, path⟩)
    (replaces_alter valid known ?_ ?_)
  · intro rest
    rw [Group.splitOff?, Forest.pluck?_eq_map_locate?, place]
    simp only [Option.map_some, List.isEmpty_iff]
  · intro rest only
    simp only
    split <;> simpa using only

theorem drops_delete (valid : m.Valid) (known : g ∈ m.groups) (held : .condition c ∈ g.children)
    (fresh : Fresh) : ∃ k, m.delete g.id c.id fresh = ⟨k, true⟩ ∧ m.Drops fresh c k := by
  have found : (m.condition? g.id c.id).isSome = true := by
    rw [condition?_of_mem valid known held, Option.isSome_some]
  obtain ⟨k, deleted, left, emptied⟩ := exists_of_delete valid found fresh
  obtain ⟨before, after, whole⟩ := List.append_of_mem (mem_leaves_of_held known held)
  have nodup := nodup_leaves valid
  rw [whole] at nodup
  have others : m.others c.id = before ++ after := by rw [others, whole, filter_key nodup]
  rw [others] at left emptied
  exact ⟨k, deleted, before, after, whole, left, emptied⟩

theorem replaces_add (valid : m.Valid) (known : g ∈ m.groups) (fresh : Fresh) :
    ∃ k, m.add g.id fresh = ⟨k, true⟩ ∧
      m.Replaces g (fun rest => .group (Group.append g (.blank fresh.condition)) :: rest) k := by
  apply replaces_alter valid known
  · intro rest
    rfl
  · intro rest only
    exact (Forest.onlyGroups_group _ _).mpr only

theorem replaces_addAfter (valid : m.Valid) (known : g ∈ m.groups) (fresh : Fresh) :
    ∃ k, m.addAfter g.id fresh = ⟨k, true⟩ ∧ m.Replaces g (g.growAfter fresh) k := by
  rw [addAfter_eq_alter valid]
  apply replaces_alter valid known
  · intro rest
    rfl
  · intro rest only
    exact Forest.onlyGroups_growAfter fresh g only

end FilterTree.Model
