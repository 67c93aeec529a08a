import FilterTree.Proofs.Step

namespace FilterTree

def Fresh.ids (fresh : Fresh) : List NodeId := [fresh.root, fresh.group, fresh.condition]

namespace Forest

/-- No identifier occurs more often in the second forest than in the first and the list `new`
together; full forests and rows of groups stay so; and the second forest is not empty. -/
structure Keeps (new : List NodeId) (f f' : Forest) : Prop where
  count_le : ∀ id, (ids f').count id ≤ (ids f).count id + new.count id
  full : Full f → Full f'
  onlyGroups : OnlyGroups f → OnlyGroups f'
  ne_nil : f' ≠ []

theorem keeps_refl {new : List NodeId} {f : Forest} (h : f ≠ []) : Keeps new f f :=
  ⟨fun _ => Nat.le_add_right _ _, id, id, h⟩

theorem keeps_of_rewrite {new : List NodeId} {change : Forest → Forest → Prop}
    (row : ∀ f f', change f f' → Keeps new f f') {f f' : Forest} (h : Rewrite change f f') :
    Keeps new f f' := by
  induction h with
  | here h => exact row _ _ h
  | @after n f f' _ ih =>
    refine ⟨fun id => ?_, fun h => ?_, fun h => ?_, by simp⟩
    · have := ih.count_le id
      simp only [ids_cons, List.count_append]
      omega
    · rw [full_cons] at h ⊢
      exact ⟨h.1, ih.full h.2⟩
    · rw [onlyGroups_cons] at h ⊢
      exact ⟨h.1, ih.onlyGroups h.2⟩
  | inside g rest _ ih =>
    refine ⟨fun id => ?_, fun h => ?_, fun h => ?_, by simp⟩
    · have := ih.count_le id
      simp only [ids_group, List.count_cons, List.count_append]
      omega
    · rw [full_group] at h ⊢
      exact ⟨ih.ne_nil, ih.full h.2.1, h.2.2⟩
    · simpa using h

section
variable {patched : Condition → Patch → Prop} {fresh : Fresh}

/-- An edit of a row makes only the identifiers of its batch, and each at most once. -/
theorem count_ids_of_rowEdit {row row' : Forest} (h : RowEdit patched fresh row row')
    (id : NodeId) : (ids row').count id ≤ (ids row).count id + fresh.ids.count id := by
  cases h with
  | patch _ children =>
    simp only [ids_group, children, ids_append, ids_condition, Condition.id_patch]
    omega
  | append | appendLater =>
    simp only [Group.append, Condition.blank, Fresh.ids, ids_group, ids_append, ids_condition,
      ids_nil, List.count_cons, List.count_append, List.count_nil]
    omega
  | insert =>
    simp only [Group.blank, Condition.blank, Fresh.ids, ids_group, Option.toList_none,
      List.nil_append, ids_condition, ids_nil, List.count_cons, List.count_append, List.count_nil]
    omega
  | split children | lift children =>
    simp only [children, Group.blank, Condition.blank, Fresh.ids, ids_group, Option.toList_some,
      ids_append, ids_condition, ids_nil, List.count_cons, List.count_append, List.count_nil]
    omega

/-- An edit of a row empties no group: one that loses its only condition is replaced. -/
theorem full_of_rowEdit {row row' : Forest} (h : RowEdit patched fresh row row')
    (full : Full row) : Full row' := by
  cases h with
  | patch _ children =>
    rw [full_group, children] at full
    rw [full_group]
    simpa using full
  | append =>
    rw [full_group] at full ⊢
    simpa [Group.append] using full.2
  | appendLater =>
    simp only [full_group, full_append] at full
    simpa [Group.append] using ⟨full.1, full.2.1, full.2.2.1, full.2.2.2.2.1, full.2.2.2.2.2⟩
  | insert =>
    rw [full_group] at full
    simpa [Group.blank] using full
  | split children left =>
    rw [full_group, children] at full
    rw [full_group]
    exact ⟨left, by simpa using full.2.1, by simpa [Group.blank] using full.2.2⟩
  | lift =>
    rw [full_group] at full
    simpa [Group.blank] using full.2.2

theorem keeps_of_rowEdit {row row' : Forest} (h : RowEdit patched fresh row row') :
    Keeps fresh.ids row row' where
  count_le := count_ids_of_rowEdit h
  full := full_of_rowEdit h
  onlyGroups := onlyGroups_of_rowEdit h
  ne_nil := by cases h <;> simp

theorem keeps_blank (f : Forest) (fresh : Fresh) :
    Keeps fresh.ids f (Model.blank fresh).forest := by
  have full : Full (Model.blank fresh).forest := by
    simp [Model.forest, Model.blank, Group.blank]
  refine ⟨?_, fun _ => full, fun _ => (Model.blank fresh).onlyGroups_forest, List.cons_ne_nil _ _⟩
  intro id
  show [fresh.root, fresh.group, fresh.condition].count id ≤ _
  exact Nat.le_add_left _ _

/-- A cut keeps the group that it goes through, for that group has a leaf. -/
theorem keeps_cut {new : List NodeId} {before after : Forest} {g : Group} (n : Nat)
    (full : Full (before ++ .group g :: after)) :
    Keeps new (before ++ .group g :: after) (before ++ (Node.group g).keep (n + 1)) := by
  rw [full_append, full_group] at full
  have kept : keep (n + 1) [.group g] = (Node.group g).keep (n + 1) := by
    rw [keep_cons, keep_nil, List.append_nil]
  constructor
  · intro id
    have fewer := (ids_keep_sublist (n + 1) [.group g]).count_le id
    rw [kept] at fewer
    simp only [ids_append, ids_cons, ids_nil, List.append_nil, List.count_append] at fewer ⊢
    omega
  · intro _
    rw [full_append, ← kept]
    exact ⟨full.1, full_keep (n + 1) _⟩
  · intro groups
    rw [onlyGroups_append] at groups ⊢
    exact ⟨groups.1, onlyGroups_keep_group _ g⟩
  · intro empty
    have shown := leafCount_pos full.2.2.1 full.2.1
    have count := leafCount_keep (n + 1) [.group g]
    rw [kept, (List.append_eq_nil_iff.mp empty).2, leafCount_nil, leafCount_group,
      leafCount_nil] at count
    omega

theorem keeps_of_step {f f' : Forest} (h : Step patched fresh f f') (full : Full f) :
    Keeps fresh.ids f f' := by
  cases h with
  | edit made => exact keeps_of_rewrite (fun _ _ => keeps_of_rowEdit) made
  | delete path left =>
    refine ⟨?_, path.full, path.onlyGroups, left⟩
    intro id
    have := path.count_ids_le id
    omega
  | cut before g after n => exact keeps_cut n full
  | begin => exact keeps_blank f fresh

end

end Forest

theorem Model.valid_blank {fresh : Fresh} (distinct : fresh.ids.Nodup) :
    (Model.blank fresh).Valid :=
  valid_iff.mpr ⟨nofun, by simp [forest, blank, Group.blank], distinct⟩

namespace Action

/-- Every action but a replacement keeps the model as it was, apart from identifiers of the batch. -/
theorem keeps {m : Model} (valid : m.Valid) (fresh : Fresh) {a : Action} (h : a.isReplace = false) :
    Forest.Keeps fresh.ids m.forest (a.apply fresh m).model.forest := by
  obtain ⟨ne, full, _⟩ := Model.valid_iff.mp valid
  rcases next_apply valid fresh h with same | step
  · rw [same]
    exact Forest.keeps_refl ne
  · exact Forest.keeps_of_step step full

/-- An identifier after an action was there before, or it is one of the batch. -/
theorem ids_apply_subset {m : Model} (valid : m.Valid) {fresh : Fresh} {a : Action}
    (h : a.isReplace = false) {id : NodeId} (mem : id ∈ (a.apply fresh m).model.ids) :
    id ∈ m.ids ∨ id ∈ fresh.ids := by
  have count := (keeps valid fresh h).count_le id
  have positive : 0 < (a.apply fresh m).model.ids.count id := List.count_pos_iff.mpr mem
  rw [← List.count_pos_iff, ← List.count_pos_iff]
  unfold Model.ids at positive ⊢
  omega

/-- Every action but a replacement keeps a model valid, if its batch has three new identifiers. -/
theorem valid_apply {m : Model} (valid : m.Valid) {fresh : Fresh} (distinct : fresh.ids.Nodup)
    (unused : ∀ id ∈ fresh.ids, id ∉ m.ids) {a : Action} (h : a.isReplace = false) :
    (a.apply fresh m).model.Valid := by
  have kept := keeps valid fresh h
  obtain ⟨_, full, nodup⟩ := Model.valid_iff.mp valid
  refine Model.valid_iff.mpr ⟨kept.ne_nil, kept.full full, List.nodup_iff_count.mpr fun id => ?_⟩
  have count := kept.count_le id
  have old := List.nodup_iff_count.mp nodup id
  have new := List.nodup_iff_count.mp distinct id
  by_cases used : id ∈ fresh.ids
  · have := List.count_eq_zero.mpr (unused id used)
    unfold Model.ids at this
    omega
  · have := List.count_eq_zero.mpr used
    omega

end Action

end FilterTree
