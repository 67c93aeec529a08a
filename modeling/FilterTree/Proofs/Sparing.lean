import FilterTree.Proofs.Clearing
import Mathlib.Data.List.Nodup

namespace FilterTree

namespace Forest

/-- Every group of the second forest has the name of a group of the first. It is of the same kind, or
an OR group became an AND group. -/
def Descends (f f' : Forest) : Prop :=
  ∀ h ∈ groups f', ∃ g ∈ groups f, h.id = g.id ∧ (h.kind = g.kind ∨ g.kind = .or ∧ h.kind = .and)

theorem descends_of_subset {f f' : Forest} (subset : groups f' ⊆ groups f) : Descends f f' :=
  fun h mem => ⟨h, subset mem, rfl, .inl rfl⟩

theorem Descends.trans {f f' f'' : Forest} (first : Descends f f') (second : Descends f' f'') :
    Descends f f'' := by
  intro h mem
  obtain ⟨g', mem', same', kind'⟩ := second h mem
  obtain ⟨g, mem, same, kind⟩ := first g' mem'
  refine ⟨g, mem, same'.trans same, ?_⟩
  rcases kind' with kept' | ⟨or', and'⟩
  · rwa [kept']
  · rcases kind with kept | ⟨_, and⟩
    · exact .inr ⟨kept.symm.trans or', and'⟩
    · cases or'.symm.trans and

theorem Descends.append {f f' g g' : Forest} (first : Descends f f') (second : Descends g g') :
    Descends (f ++ g) (f' ++ g') := by
  intro h mem
  rw [groups_append, List.mem_append] at mem
  rw [groups_append]
  rcases mem with left | right
  · obtain ⟨k, mem, descent⟩ := first h left
    exact ⟨k, List.mem_append_left _ mem, descent⟩
  · obtain ⟨k, mem, descent⟩ := second h right
    exact ⟨k, List.mem_append_right _ mem, descent⟩

theorem Descends.cons (n : Node) {f f' : Forest} (later : Descends f f') :
    Descends (n :: f) (n :: f') :=
  (descends_of_subset (List.Subset.refl (groups [n]))).append later

/-- A group of one forest stands over a group of the other that has its name. -/
theorem descends_group {g h : Group} (same : h.id = g.id)
    (kind : h.kind = g.kind ∨ g.kind = .or ∧ h.kind = .and)
    (below : Descends g.children h.children) : Descends [.group g] [.group h] := by
  intro k mem
  rw [groups_group, groups_nil, List.append_nil, List.mem_cons] at mem
  rw [groups_group, groups_nil, List.append_nil]
  rcases mem with rfl | inner
  · exact ⟨g, List.mem_cons_self, same, kind⟩
  · obtain ⟨k', mem, descent⟩ := below k inner
    exact ⟨k', List.mem_cons_of_mem _ mem, descent⟩

theorem descends_mergeAnds (f : Forest) : Descends f (mergeAnds f) := by
  induction f using mergeAnds_induct with
  | nil => exact nofun
  | stay n rest _ ih => exact ih.cons n
  | fold a b rest after _ _ _ ih =>
    intro h mem
    simp only [groups_group, groups_append, List.mem_cons, List.mem_append] at mem
    rcases mem with rfl | (first | second) | later
    · exact ⟨a, List.mem_cons_self, rfl, .inl rfl⟩
    · exact ⟨h, List.mem_cons_of_mem _ (List.mem_append_left _ first), rfl, .inl rfl⟩
    -- what stood below the second group or after it was there before the second was merged
    all_goals
      have there : h ∈ groups (.group b :: after) := by simp [*]
      obtain ⟨g, mem, descent⟩ := ih h there
      exact ⟨g, List.mem_cons_of_mem _ (List.mem_append_right _ mem), descent⟩

theorem descends_settle {g : Group} {row : Forest} (below : Descends g.children row) :
    Descends [.group g] (Group.settle g.id g.kind row) := by
  rcases Group.settle_cases g.id g.kind row with ⟨_, settled⟩ | ⟨_, kind', settled, lone⟩
  · rw [settled]
    exact nofun
  · rw [settled]
    refine descends_group rfl ?_ (below.trans (descends_mergeAnds row))
    rcases lone with ⟨_, rfl⟩ | ⟨_, rfl⟩
    · cases kind : g.kind with
      | and => exact .inl rfl
      | or => exact .inr ⟨rfl, rfl⟩
    · exact .inl rfl

section
variable {group condition : NodeId} {f row : Forest} {tidied : List Group}

theorem Deletes.descends (h : Deletes group condition f row tidied) : Descends f row := by
  induction h with
  | @here g d others rest _ found =>
    obtain ⟨before, after, _, children, rfl⟩ := pluck?_eq_some found
    have fewer : groups (before ++ after) ⊆ groups g.children := by
      rw [children, groups_append, groups_append, groups_condition]
      exact List.Subset.refl _
    exact (descends_settle (descends_of_subset fewer)).append
      (descends_of_subset (List.Subset.refl _))
  | inside _ _ ih =>
    exact (descends_settle ih).append (descends_of_subset (List.Subset.refl _))
  | after _ _ ih => exact ih.cons _

/-- Of two conditions a deletion leaves one. -/
theorem Deletes.row_ne_nil (h : Deletes group condition f row tidied) (more : 2 ≤ leafCount f) :
    row ≠ [] := by
  rintro rfl
  obtain ⟨before, d, after, whole, _, leafless⟩ := h.leaves_eq
  have fewer := congrArg List.length leafless
  rw [← length_leaves, whole] at more
  simp only [leaves_nil, List.length_nil, List.length_append, List.length_cons] at fewer more
  omega

/-- A deletion works on one group of the row itself, which loses the condition from its leaves, and
passes over the nodes before and after this group. -/
theorem Deletes.exists_root (h : Deletes group condition f row tidied) (full : Full f) :
    ∃ before g after left, f = before ++ .group g :: after ∧
      row = before ++ (Group.settle g.id g.kind left ++ after) ∧ Full left ∧
      ∃ first d later, leaves g.children = first ++ d :: later ∧ d.id = condition ∧
        leaves left = first ++ later := by
  induction h with
  | @here g d others rest _ found =>
    obtain ⟨before, after, located, children, rfl⟩ := pluck?_eq_some found
    refine ⟨[], g, rest, before ++ after, rfl, rfl, ?_, leaves before, d, leaves after, ?_,
      (locate?_eq_some_iff.mp located).2.1, leaves_append _ _⟩
    · have below := ((full_group g rest).mp full).2.1
      rw [children] at below
      simpa using below
    · rw [children, leaves_append, leaves_condition]
  | @inside g row rest _ _ step _ =>
    have below := ((full_group g rest).mp full).2.1
    exact ⟨[], g, rest, row, rfl, rfl, step.full below, step.leaves_eq⟩
  | @after n f row _ _ _ ih =>
    obtain ⟨before, g, after, left, rfl, rfl, parts⟩ := ih ((full_cons n f).mp full).2
    exact ⟨n :: before, g, after, left, rfl, rfl, parts⟩

end

end Forest

/-- What is left of a group is one group of its name, or nothing if it is left without leaves. -/
theorem Group.exists_settle {row : Forest} (full : Forest.Full row) (id : NodeId) (kind : Kind) :
    ∃ left : Option Group, settle id kind row = left.toList.map .group ∧ (∀ g ∈ left, g.id = id) ∧
      (left = none ↔ Forest.leaves row = []) := by
  rcases settle_cases id kind row with ⟨rfl, settled⟩ | ⟨ne, kind', settled, _⟩
  · exact ⟨none, settled, nofun, iff_of_true rfl rfl⟩
  · refine ⟨some ⟨id, kind', Forest.mergeAnds row⟩, settled, ?_, iff_of_false nofun ?_⟩
    · rintro _ ⟨⟩
      rfl
    · intro leafless
      have shown := Forest.leafCount_pos full ne
      rw [← Forest.length_leaves, leafless] at shown
      exact Nat.lt_irrefl 0 shown

namespace Model

variable {m : Model}

/-- A row of groups with one group of it picked out is the row of roots with one root picked out. -/
theorem exists_roots {before after : Forest} {g : Group}
    (roots : m.forest = before ++ .group g :: after) :
    ∃ b a : List Group, m.roots = b ++ g :: a ∧ before = b.map .group ∧ after = a.map .group := by
  obtain ⟨b, later, split, rfl, rest⟩ := List.map_eq_append_iff.mp roots
  obtain ⟨_, a, rfl, same, rfl⟩ := List.map_eq_cons_iff.mp rest
  cases same
  exact ⟨b, a, split, rfl, rfl⟩

theorem leaf_unique (valid : m.Valid) {c d : Condition} (mem : c ∈ m.leaves) (mem' : d ∈ m.leaves)
    (same : c.id = d.id) : c = d := by
  have found := leaf?_of_mem valid mem
  rw [same, leaf?_of_mem valid mem'] at found
  exact (Option.some_inj.mp found).symm

/-- In a valid model a condition stands below one root. -/
theorem not_mem_other_roots (valid : m.Valid) {before after : List Group} {g : Group}
    (roots : m.roots = before ++ g :: after) {c : Condition} (mem : c ∈ Forest.leaves g.children) :
    ∀ q ∈ before ++ after, c ∉ Forest.leaves q.children := by
  have nodup : m.leaves.Nodup := (nodup_leaves valid).of_map
  have parts : m.leaves = Forest.leaves (before.map .group) ++
      (Forest.leaves g.children ++ Forest.leaves (after.map .group)) := by
    rw [leaves, forest, roots, List.map_append, List.map_cons, Forest.leaves_append,
      Forest.leaves_group]
  rw [parts, List.nodup_append, List.nodup_append] at nodup
  obtain ⟨_, ⟨_, _, later⟩, earlier⟩ := nodup
  have inside {l : List Group} {q : Group} (held : q ∈ l) :
      Forest.leaves q.children ⊆ Forest.leaves (l.map .group) :=
    (Forest.leaves_children_sublist
      (Forest.mem_groups_of_mem (List.mem_map_of_mem held))).subset
  intro q held other
  rcases List.mem_append.mp held with left | right
  · exact earlier c (inside left other) c (List.mem_append_left _ mem) rfl
  · exact later c mem c (inside right other) rfl

/-- **A deletion loses nothing else.** Delete a condition of an accepted model from the group that
holds it, and let it not be the only one. The other conditions are left as they were and in their
order. Every group that is left was there before, of the same kind or as an OR group that became an
AND group. Every root but the one over the condition is left as it was and in its place, and that root
keeps its name, or goes if the condition was its only leaf. -/
theorem delete_spares (accepted : m.Accepted) {g : Group} (known : g ∈ m.groups) {c : Condition}
    (held : .condition c ∈ g.children) (more : 2 ≤ m.leafCount) (fresh : Fresh) :
    ∃ k, m.delete g.id c.id fresh = ⟨k, true⟩ ∧ k.leaves = m.others c.id ∧
      (∀ h ∈ k.groups, ∃ g ∈ m.groups, h.id = g.id ∧
        (h.kind = g.kind ∨ g.kind = .or ∧ h.kind = .and)) ∧
      ∃ before root after, m.roots = before ++ root :: after ∧
        c ∈ Forest.leaves root.children ∧
        (∀ q ∈ before ++ after, c ∉ Forest.leaves q.children) ∧
        ∃ left : Option Group, k.roots = before ++ left.toList ++ after ∧
          (∀ q ∈ left, q.id = root.id) ∧
          (left = none ↔ Forest.leaves root.children = [c]) := by
  have valid := accepted_iff_valid.mp accepted
  have full : Forest.Full m.forest := (valid_iff.mp valid).2.1
  have there : c ∈ m.leaves := mem_leaves_of_held known held
  have found : (m.condition? g.id c.id).isSome = true := by
    rw [condition?_of_mem valid known held, Option.isSome_some]
  obtain ⟨row, path, only, deleted⟩ := exists_deletes valid found fresh
  have others := others_of_deletes valid path
  rw [if_neg (path.row_ne_nil more)] at deleted
  refine ⟨.ofForest row, deleted, ?_, ?_, ?_⟩
  · rw [others, leaves, forest_ofForest only]
  · rw [groups, groups, forest_ofForest only]
    exact path.descends
  obtain ⟨before, root, after, left, parts, rfl, inner, first, d, later, whole, same, rest⟩ :=
    path.exists_root full
  obtain ⟨b, a, roots, rfl, rfl⟩ := exists_roots parts
  have below : d ∈ Forest.leaves root.children := by simp [whole]
  obtain rfl : d = c := by
    have mem : d ∈ m.leaves := by
      rw [leaves, parts, Forest.leaves_append, Forest.leaves_group]
      exact List.mem_append_right _ (List.mem_append_left _ below)
    exact leaf_unique valid mem there same
  obtain ⟨kept, settled, named, empty⟩ := Group.exists_settle inner root.id root.kind
  refine ⟨b, root, a, roots, below, not_mem_other_roots valid roots below, kept, ?_, named, ?_⟩
  · have row_eq : b.map Node.group ++ (Group.settle root.id root.kind left ++ a.map Node.group) =
        (⟨b ++ kept.toList ++ a⟩ : Model).forest := by
      rw [settled, forest, List.map_append, List.map_append, List.append_assoc]
    rw [row_eq, ofForest_forest]
  · rw [empty, rest, whole, List.append_eq_nil_iff]
    simp [List.append_eq_singleton_iff]

/-- One of two alternatives goes: the group becomes an AND group and is not merged, and the second root
stays. -/
theorem delete_spares_branching :
    let fresh : Fresh := ⟨⟨"r"⟩, ⟨"g"⟩, ⟨"k"⟩⟩
    let two := branching.groups[1]
    let c := branching.leaves[2]
    branching.Accepted ∧ two ∈ branching.groups ∧ .condition c ∈ two.children ∧
      2 ≤ branching.leafCount ∧ two.kind = .or ∧
      ∃ k, branching.delete two.id c.id fresh = ⟨k, true⟩ ∧ k.leaves = branching.others c.id ∧
        (∀ h ∈ k.groups, ∃ g ∈ branching.groups, h.id = g.id ∧
          (h.kind = g.kind ∨ g.kind = .or ∧ h.kind = .and)) ∧
        ∃ h ∈ k.groups, h.id = two.id ∧ h.kind = .and := by
  intro fresh two c
  have accepted : branching.Accepted := rfl
  have known : two ∈ branching.groups := List.getElem_mem _
  have held : .condition c ∈ two.children := List.mem_cons_of_mem _ List.mem_cons_self
  have more : 2 ≤ branching.leafCount := by decide
  obtain ⟨k, deleted, others, kinds, _⟩ := delete_spares accepted known held more fresh
  have tidied : ∃ h ∈ (branching.delete two.id c.id fresh).model.groups,
      h.id = two.id ∧ h.kind = .and := by decide
  rw [deleted] at tidied
  exact ⟨accepted, known, held, more, rfl, k, deleted, others, kinds, tidied⟩

end Model

end FilterTree
