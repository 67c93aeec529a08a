import FilterTree.Proofs.Integrity
import FilterTree.Proofs.NormalForm
import FilterTree.Proofs.Targets

/-!
# Taking an insertion back

A blank condition is added to a group, or comes with a group of its own. Deleting it tidies every
group on the way up, and in a normal model there is nothing to tidy.

* `settle_eq_self`: a group that is tidy already stays as it is;
* `Forest.Insertion`, `exists_insertion`: the one place where an insertion puts its blank condition;
* `Forest.Restores`: wherever a condition is deleted from a forest, the same forest is left;
* `restores_of_insertion`, `restores_of_rewrite`: in the row of the insertion, and in every row around
  it;
* `delete_insertion`: an insertion into a normal model is taken back by a deletion.
-/

namespace FilterTree

namespace Forest

/-! ## What a deletion leaves alone -/

theorem settle_eq_self {g : Group} (tidy : g.Tidy) (inhabited : g.children ≠ []) :
    Group.settle g.id g.kind g.children = [.group g] := by
  have merged := mergeAnds_eq_self tidy.apart
  rcases Group.settle_cases g.id g.kind g.children with ⟨empty, _⟩ | ⟨_, kind', settled, lone⟩
  · exact absurd empty inhabited
  · have same : kind' = g.kind := by
      rcases lone with ⟨⟨n, one⟩, rfl⟩ | ⟨_, same⟩
      · rw [merged] at one
        cases kind : g.kind with
        | and => rfl
        | or => exact absurd (congrArg List.length one) (tidy.plural kind)
      · exact same
    rw [settled, merged, same]

section
variable {group c : NodeId}

theorem pluck?_eq_none {f : Forest} (lacks : Lacks c f) : pluck? c f = none := by
  cases found : pluck? c f with
  | none => rfl
  | some x =>
    obtain ⟨before, after, located, rfl, _⟩ := pluck?_eq_some found
    have same := (locate?_eq_some_iff.mp located).2.1
    exact absurd same (lacks x.1 (by simp))

theorem delete?_eq_none {f : Forest} (absent : c ∉ ids f) : delete? group c f = none := by
  cases found : delete? group c f with
  | none => rfl
  | some row =>
    obtain ⟨before, d, after, whole, same, _⟩ := (deletes_of_delete? found).leaves_eq
    have leaf : d ∈ leaves f := by simp [whole]
    have mem := (ids_leaves_sublist f).subset (List.mem_map_of_mem leaf)
    exact absurd (same ▸ mem) absent

/-- A deletion passes over a node that does not hold the condition. -/
theorem delete?_cons_of_absent (group : NodeId) {n : Node} (absent : c ∉ n.ids) (f : Forest) :
    delete? group c (n :: f) = (delete? group c f).map (n :: ·) := by
  have first : n.delete? group c = none := by
    have alone : delete? group c [n] = none := delete?_eq_none (by simpa [ids_cons] using absent)
    rw [delete?_cons, Option.or_eq_none_iff, Option.map_eq_none_iff] at alone
    exact alone.1
  rw [delete?_cons, first, Option.map_none, Option.none_or]

theorem delete?_append (group : NodeId) {before : Forest} (absent : c ∉ ids before) (f : Forest) :
    delete? group c (before ++ f) = (delete? group c f).map (before ++ ·) := by
  induction before with
  | nil => simp
  | cons n rest ih =>
    rw [ids_cons, List.mem_append, not_or] at absent
    rw [List.cons_append, delete?_cons_of_absent group absent.1, ih absent.2, Option.map_map]
    rfl

theorem pluck?_append {f : Forest} {d : Condition} (lacks : Lacks d.id f) :
    pluck? d.id (f ++ [.condition d]) = some (d, f) := by
  have located : locate? d.id (f ++ [.condition d]) = some (f, d, []) :=
    locate?_eq_some_iff.mpr ⟨rfl, rfl, lacks⟩
  simp [pluck?_eq_map_locate?, located]

/-- If the condition stands at or below the first group of a row only, it is deleted there. -/
theorem exists_of_delete?_group {g : Group} {rest row : Forest} (absent : c ∉ ids rest)
    (h : delete? group c (.group g :: rest) = some row) :
    ∃ left, (if g.id = group then (pluck? c g.children).map (·.2)
      else delete? group c g.children) = some left ∧ row = Group.settle g.id g.kind left ++ rest := by
  rw [delete?_group, delete?_eq_none absent, Option.orElse_eq_orElse, Option.orElse_eq_or,
    Option.map_none, Option.or_none, Option.map_map, Option.map_eq_some_iff] at h
  obtain ⟨left, found, rfl⟩ := h
  exact ⟨left, found, rfl⟩

/-- If the children of a tidy group come back by the deletion, the group comes back. -/
theorem eq_of_delete?_group {g : Group} {children rest row : Forest} (absent : c ∉ ids rest)
    (tidy : g.Tidy) (inhabited : g.children ≠ [])
    (back : ∀ left, (if g.id = group then (pluck? c children).map (·.2)
      else delete? group c children) = some left → left = g.children)
    (h : delete? group c (.group { g with children := children } :: rest) = some row) :
    row = .group g :: rest := by
  obtain ⟨left, found, rfl⟩ := exists_of_delete?_group absent h
  have settled := settle_eq_self tidy inhabited
  rw [back left found, settled, List.singleton_append]

end

/-! ## Insertions -/

/-- The first group of a row gets a blank condition, or a group with a blank condition comes before
the row. -/
inductive Insertion (fresh : Fresh) : Forest → Forest → Prop where
  | append (g : Group) (rest : Forest) :
      Insertion fresh (.group g :: rest) (.group (Group.append g (.blank fresh.condition)) :: rest)
  | insert (rest : Forest) : Insertion fresh rest (.group (Group.blank .and fresh none) :: rest)

section
variable {fresh : Fresh} {f f' : Forest}

/-- Growing the row after a group is an insertion at some later place of the row. -/
theorem rewrite_growAfter (fresh : Fresh) (g : Group) (rest : Forest) :
    Rewrite (Insertion fresh) (.group g :: rest) (g.growAfter fresh rest) := by
  rcases growAfter_cases fresh g rest with ⟨before, a, after, rfl, _, _, grown⟩ | ⟨_, grown⟩
  · rw [grown]
    exact .after _ (.append_left before (.here (.append a after)))
  · rw [grown]
    exact .after _ (.here (.insert rest))

theorem onlyGroups_of_insertion (h : Insertion fresh f f') (groups : OnlyGroups f) :
    OnlyGroups f' := by
  cases h with
  | append | insert => simpa using groups

theorem blank_mem_leaves (h : Rewrite (Insertion fresh) f f') :
    .blank fresh.condition ∈ leaves f' := by
  induction h with
  | here made => cases made <;> simp [Group.append, Group.blank]
  | after n _ ih => exact List.mem_append_right _ ih
  | inside g rest _ ih => exact List.mem_append_left _ ih

/-! ## Deleting what was inserted -/

/-- Whatever group it is deleted from, the second forest without the condition is the first; and the
condition does not stand in the row itself. -/
structure Restores (c : NodeId) (f f' : Forest) : Prop where
  lacks : Lacks c f'
  eq_of_delete? : ∀ group row, delete? group c f' = some row → row = f

theorem restores_of_insertion (h : Insertion fresh f f') (full : Full f) (normal : Normal f)
    (absent : fresh.condition ∉ ids f) : Restores fresh.condition f f' := by
  cases h with
  | append g rest =>
    rw [full_group] at full
    rw [normal_group] at normal
    rw [ids_group, List.mem_cons, List.mem_append, not_or, not_or] at absent
    obtain ⟨_, below, later⟩ := absent
    refine ⟨lacks_cons.mpr ⟨nofun, lacks_of_absent later⟩, ?_⟩
    intro group row deleted
    refine eq_of_delete?_group later normal.1 full.1 ?_ deleted
    intro left found
    split at found
    · have plucked := pluck?_append (d := .blank fresh.condition) (lacks_of_absent below)
      have left_eq := (congrArg (Option.map (·.2)) plucked).symm.trans found
      exact (Option.some_inj.mp left_eq).symm
    · have passed := delete?_append group below [.condition (.blank fresh.condition)]
      cases passed.symm.trans found
  | insert =>
    refine ⟨lacks_cons.mpr ⟨nofun, lacks_of_absent absent⟩, ?_⟩
    intro group row deleted
    obtain ⟨left, found, rfl⟩ := exists_of_delete?_group absent deleted
    -- nothing is left of the group that came with the condition
    have empty : left = [] := by
      split at found
      · have plucked := pluck?_append (f := []) (d := .blank fresh.condition) nofun
        have left_eq := (congrArg (Option.map (·.2)) plucked).symm.trans found
        exact (Option.some_inj.mp left_eq).symm
      · cases found
    rw [empty]
    rfl

/-- The groups around a row that is restored are tidied to what they were. -/
theorem restores_of_rewrite (h : Rewrite (Insertion fresh) f f') (full : Full f)
    (normal : Normal f) (absent : fresh.condition ∉ ids f) : Restores fresh.condition f f' := by
  induction h with
  | here made => exact restores_of_insertion made full normal absent
  | @after n f f' _ ih =>
    rw [full_cons] at full
    rw [normal_cons] at normal
    rw [ids_cons, List.mem_append, not_or] at absent
    have inner := ih full.2 normal.2 absent.2
    have first : fresh.condition ∉ ids [n] := by simpa [ids_cons] using absent.1
    refine ⟨lacks_cons.mpr ⟨?_, inner.lacks⟩, ?_⟩
    · rintro d rfl
      exact lacks_of_absent first d List.mem_cons_self
    · intro group row deleted
      have passed := delete?_cons_of_absent group absent.1 f'
      rw [deleted] at passed
      obtain ⟨left, found, rfl⟩ := Option.map_eq_some_iff.mp passed.symm
      rw [inner.eq_of_delete? group left found]
  | @inside g rest f' _ ih =>
    rw [full_group] at full
    rw [normal_group] at normal
    rw [ids_group, List.mem_cons, List.mem_append, not_or, not_or] at absent
    obtain ⟨_, below, later⟩ := absent
    have inner := ih full.2.1 normal.2.1 below
    refine ⟨lacks_cons.mpr ⟨nofun, lacks_of_absent later⟩, ?_⟩
    intro group row deleted
    refine eq_of_delete?_group later normal.1 full.1 ?_ deleted
    intro left found
    split at found
    · rw [pluck?_eq_none inner.lacks] at found
      cases found
    · exact inner.eq_of_delete? group left found

end

end Forest

namespace Model

variable {m : Model} {fresh : Fresh}

theorem exists_insertion (valid : m.Valid) {g : Group} (mem : g ∈ m.groups) {e : Edited}
    (inserted : e = m.add g.id fresh ∨ e = m.addAfter g.id fresh) :
    ∃ f, e = ⟨.ofForest f, true⟩ ∧ Forest.Rewrite (Forest.Insertion fresh) m.forest f := by
  rcases inserted with rfl | rfl
  · obtain ⟨f, edited, path⟩ := exists_rewrite_of_mem valid mem
      (fun g rest => some (.group (Group.append g (.blank fresh.condition)) :: rest))
      fun _ => rfl
    refine ⟨f, edited, path.mono ?_⟩
    rintro _ _ ⟨rest, rfl, made⟩
    cases made
    exact .append g rest
  · obtain ⟨f, edited, path⟩ := exists_rewrite_of_mem valid mem
      (fun g rest => some (g.growAfter fresh rest)) fun _ => rfl
    refine ⟨f, by rw [addAfter_eq_alter valid, edited], (path.mono ?_).flatten⟩
    rintro _ _ ⟨rest, rfl, made⟩
    cases made
    exact Forest.rewrite_growAfter fresh g rest

/-- **An insertion is taken back by a deletion.** Add a blank condition to a group of a valid and
normal model, or after that group, with identifiers that are new to the model. Then there is a group
that holds the new condition, and deleting the condition from whatever group holds it gives the model
back. -/
theorem delete_insertion (valid : m.Valid) (normal : m.Normal) (distinct : fresh.ids.Nodup)
    (unused : ∀ id ∈ fresh.ids, id ∉ m.ids) {g : Group} (mem : g ∈ m.groups) {e : Edited}
    (inserted : e = m.add g.id fresh ∨ e = m.addAfter g.id fresh) :
    e.changed = true ∧
      (∃ h, e.model.condition? h fresh.condition = some (.blank fresh.condition)) ∧
      ∀ h later, (e.model.condition? h fresh.condition).isSome = true →
        e.model.delete h fresh.condition later = ⟨m, true⟩ := by
  have made : e.model.Valid := by
    rcases inserted with rfl | rfl
    · exact Action.valid_apply valid distinct unused (a := .add g.id) rfl
    · exact Action.valid_apply valid distinct unused (a := .addAfter g.id) rfl
  obtain ⟨f, rfl, path⟩ := exists_insertion valid mem inserted
  have groups : Forest.OnlyGroups f :=
    Forest.onlyGroups_of_rewrite (fun _ _ => Forest.onlyGroups_of_insertion) path m.onlyGroups_forest
  have forest : (ofForest f).forest = f := forest_ofForest groups
  refine ⟨rfl, ?_, ?_⟩
  · have leaf : .blank fresh.condition ∈ (ofForest f).leaves := by
      rw [leaves, forest]
      exact Forest.blank_mem_leaves path
    obtain ⟨h, mem, held⟩ := exists_holder leaf
    exact ⟨h.id, condition?_of_mem made mem held⟩
  · intro h later held
    have absent : fresh.condition ∉ m.ids := unused _ (by simp [Fresh.ids])
    have restores := Forest.restores_of_rewrite path (valid_iff.mp valid).2.1 normal absent
    have changed := (answers_delete made h fresh.condition later).changed.trans held
    unfold delete at changed ⊢
    cases found : Forest.delete? h fresh.condition (ofForest f).forest with
    | none =>
      rw [found] at changed
      cases changed
    | some row =>
      obtain rfl : row = m.forest := restores.eq_of_delete? h row (forest ▸ found)
      obtain ⟨n, rest, roots⟩ := List.exists_cons_of_ne_nil (valid_iff.mp valid).1
      rw [roots]
      simp only
      rw [← roots, ofForest_forest]

/-- A new AND group comes after an OR group and goes again with its condition, and the groups around it
stay what they were. -/
theorem delete_insertion_branching :
    let fresh : Fresh := ⟨⟨"r"⟩, ⟨"g"⟩, ⟨"k"⟩⟩
    branching.Valid ∧ branching.Normal ∧ fresh.ids.Nodup ∧ (∀ id ∈ fresh.ids, id ∉ branching.ids) ∧
      (∃ g ∈ branching.groups, g.id = ⟨"two"⟩) ∧
      ((branching.addAfter ⟨"two"⟩ fresh).model.condition? ⟨"g"⟩ ⟨"k"⟩).isSome = true ∧
      (branching.addAfter ⟨"two"⟩ fresh).model.delete ⟨"g"⟩ ⟨"k"⟩ fresh = ⟨branching, true⟩ := by
  intro fresh
  have valid : branching.Valid := by constructor <;> decide
  have normal : branching.Normal := by decide
  have distinct : fresh.ids.Nodup := by decide
  have unused : ∀ id ∈ fresh.ids, id ∉ branching.ids := by decide
  have target : ∃ g ∈ branching.groups, g.id = ⟨"two"⟩ := by decide
  have held : ((branching.addAfter ⟨"two"⟩ fresh).model.condition? ⟨"g"⟩ ⟨"k"⟩).isSome = true := by
    decide
  obtain ⟨g, mem, same⟩ := target
  obtain ⟨_, _, back⟩ := delete_insertion valid normal distinct unused mem (.inr rfl)
  rw [same] at back
  exact ⟨valid, normal, distinct, unused, ⟨g, mem, same⟩, held, back _ _ held⟩

end Model

end FilterTree
