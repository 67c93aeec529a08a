import FilterTree.Edit.Conditions
import FilterTree.Proofs.Lookup

/-!
# The row beside a group

An insertion or a split looks for a row among the roots and then, from group to group, among the
children. In a valid model that is the row of the one group that has the identifier.
-/

namespace FilterTree

namespace Forest

theorem id_mem_ids {f : Forest} {g : Group} (mem : g ∈ groups f) : g.id ∈ ids f :=
  (ids_groups_sublist f).subset (List.mem_map_of_mem mem)

section
variable {target : NodeId} {change : Group → Forest → Option Forest}

theorem alter?_eq_none {f : Forest} (absent : target ∉ ids f) : alter? target change f = none := by
  cases found : alter? target change f with
  | none => rfl
  | some f' =>
    obtain ⟨g, mem, rfl, _⟩ := exists_rewrite_of_alter? found
    exact absurd (id_mem_ids mem) absent

theorem mem_ids_of_holds {f : Forest} (h : holds target f = true) : target ∈ ids f := by
  induction f using induct with
  | nil => cases h
  | condition c rest ih => exact List.mem_cons_of_mem _ (ih h)
  | group g rest _ ih =>
    rw [holds_group, Bool.or_eq_true, decide_eq_true_eq] at h
    rw [ids_group, List.mem_cons, List.mem_append]
    rcases h with same | later
    · exact .inl same.symm
    · exact .inr (.inr (ih later))

/-- A group that stands in the row is found before the search goes below any other. -/
theorem alter?_eq_alterRow? {f : Forest} (nodup : (ids f).Nodup) (here : holds target f = true) :
    alter? target change f = alterRow? target change f := by
  induction f using induct with
  | nil => rfl
  | condition c rest ih => rw [alter?_condition, ih (List.nodup_cons.mp nodup).2 here, alterRow?]
  | group g rest _ ih =>
    rw [ids_group, List.nodup_cons, List.nodup_append, List.mem_append, not_or] at nodup
    obtain ⟨⟨_, later⟩, _, nodup, apart⟩ := nodup
    rw [alter?_group, alterRow?]
    by_cases same : g.id = target
    · have others : alter? target change rest = none := alter?_eq_none (same ▸ later)
      rw [if_pos same, if_pos same, others]
      cases change g rest <;> rfl
    · have after : holds target rest = true := by simpa [same] using here
      have below : alter? target change g.children = none :=
        alter?_eq_none fun mem => apart _ mem _ (mem_ids_of_holds after) rfl
      rw [if_neg same, if_neg same, below, ih nodup after]
      rfl

/-- A group that does not stand in the row is found in the children of another group. -/
theorem alter?_eq_alterBelow? {f : Forest} (nodup : (ids f).Nodup)
    (elsewhere : holds target f = false) :
    alter? target change f = alterBelow? target change f := by
  induction f using induct with
  | nil => rfl
  | condition c rest ih =>
    rw [alter?_condition, alterBelow?_condition, ih (List.nodup_cons.mp nodup).2 elsewhere]
  | group g rest ihg ih =>
    rw [ids_group, List.nodup_cons, List.nodup_append] at nodup
    obtain ⟨_, below, nodup, _⟩ := nodup
    rw [holds_group, Bool.or_eq_false_iff, decide_eq_false_iff_not] at elsewhere
    obtain ⟨other, elsewhere⟩ := elsewhere
    have inner : alter? target change g.children =
        if holds target g.children then alterRow? target change g.children
        else alterBelow? target change g.children := by
      split
      · rename_i here
        exact alter?_eq_alterRow? below here
      · rename_i away
        exact ihg below (Bool.not_eq_true _ ▸ away)
    rw [alter?_group, alterBelow?_group, if_neg other, inner, ih nodup elsewhere, Option.map_map]
    rfl

end

/-! ## What is made of the row -/

theorem onlyGroups_growAfter (fresh : Fresh) (g : Group) {rest : Forest} (groups : OnlyGroups rest) :
    OnlyGroups (g.growAfter fresh rest) := by
  rcases growAfter_cases fresh g rest with ⟨before, a, after, rfl, _, _, grown⟩ | ⟨_, grown⟩
  · rw [grown]
    simpa using groups
  · rw [grown]
    simpa using groups

end Forest

namespace Model

/-- In a valid model the way by the rows and the way by the groups lead to the same edit. -/
theorem alterBeside_eq_alter {m : Model} (valid : m.Valid) (target : NodeId)
    (change : Group → Forest → Option Forest) :
    m.alterBeside target change = m.alter target change := by
  unfold alterBeside alter
  congr 1
  split
  · rename_i here
    exact (Forest.alter?_eq_alterRow? valid.nodup_ids here).symm
  · rename_i away
    exact (Forest.alter?_eq_alterBelow? valid.nodup_ids (Bool.not_eq_true _ ▸ away)).symm

theorem addAfter_eq_alter {m : Model} (valid : m.Valid) (group : NodeId) (fresh : Fresh) :
    m.addAfter group fresh = m.alter group fun g rest => some (g.growAfter fresh rest) :=
  alterBeside_eq_alter valid group _

theorem split_eq_alter {m : Model} (valid : m.Valid) (group condition : NodeId) (fresh : Fresh) :
    m.split group condition fresh = m.alter group (Group.splitOff? condition fresh) :=
  alterBeside_eq_alter valid group _

end Model

end FilterTree
