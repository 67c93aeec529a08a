import FilterTree.Proofs.Growing
import FilterTree.Proofs.Undoing

/-!
# Taking a split back

A condition is split off into a new OR group beside its own, with a blank condition. Deleting the blank
one leaves an OR group over one condition: it becomes an AND group, and the group before takes it in.

* `Forest.Opens`: a row that opens with a given group, and what is made of it;
* `Rewrite.alter?_eq`: where no identifier comes twice, the edit of one group is fully described by the
  row that it replaces;
* `Forest.rejoined`: the group at the end of the two edits;
* `exists_delete?_splitRow`, `delete?_inside`: the row of the split, and the rows around it;
* `exists_delete?_of_nested`: the deletion undoes the split but for the place of the condition;
* `delete_split`: the two edits in a normal model.
-/

namespace FilterTree

/-- The group with the condition behind its other children. -/
def Group.moveLast (c : Condition) (g : Group) : Group :=
  { g with children := g.children.erase (.condition c) ++ [.condition c] }

/-- The model with the group of this identifier made into another, in its place. -/
def Model.regroup (m : Model) (id : NodeId) (f : Group → Group) : Model :=
  (m.alter id fun g rest => some (.group (f g) :: rest)).model

namespace Forest

/-- The first row opens with the group, and the second is what is made of the siblings after it. -/
def Opens (g : Group) (make : Forest → Forest) (row row' : Forest) : Prop :=
  ∃ rest, row = .group g :: rest ∧ row' = make rest

section
variable {g : Group} {make : Forest → Forest} {f f' : Forest}

theorem Rewrite.ne_nil {change : Forest → Forest → Prop} (path : Rewrite change f f')
    (made : ∀ row row', change row row' → row' ≠ []) : f' ≠ [] := by
  cases path with
  | here change => exact made _ _ change
  | after | inside => exact List.cons_ne_nil _ _

theorem Rewrite.mem_groups (path : Rewrite (Opens g make) f f') : g ∈ groups f := by
  induction path with
  | here made =>
    obtain ⟨rest, rfl, rfl⟩ := made
    exact List.mem_cons_self
  | after n _ ih => exact List.mem_append_right _ ih
  | inside p rest _ ih => exact List.mem_cons_of_mem _ (List.mem_append_left _ ih)

theorem Rewrite.mem_groups_of_made {change : Forest → Forest → Prop} (path : Rewrite change f f')
    {a : Group} (made : ∀ row row', change row row' → a ∈ groups row') : a ∈ groups f' := by
  induction path with
  | here change => exact made _ _ change
  | after n _ ih => exact List.mem_append_right _ ih
  | inside p rest _ ih => exact List.mem_cons_of_mem _ (List.mem_append_left _ ih)

/-- A forest in which one row is replaced is what the edit of its group makes of the first one. -/
theorem Rewrite.alter?_eq (path : Rewrite (Opens g make) f f') (nodup : (ids f).Nodup)
    {change : Group → Forest → Option Forest} (makes : ∀ rest, change g rest = some (make rest)) :
    alter? g.id change f = some f' := by
  induction path with
  | here made =>
    obtain ⟨rest, rfl, rfl⟩ := made
    rw [alter?_group, if_pos rfl, makes]
    rfl
  | @after n f f' path ih =>
    rw [ids_cons, List.nodup_append] at nodup
    obtain ⟨_, nodup, distinct⟩ := nodup
    have away : g.id ∉ n.ids := fun mem => distinct _ mem _ (id_mem_ids path.mem_groups) rfl
    cases n with
    | condition c => rw [alter?_condition, ih nodup, Option.map_some]
    | group p =>
      obtain ⟨other, below⟩ : g.id ≠ p.id ∧ g.id ∉ ids p.children := by
        simpa [Node.ids] using away
      rw [alter?_group, if_neg (Ne.symm other), alter?_eq_none below, ih nodup]
      rfl
  | @inside p rest f' path ih =>
    rw [ids_group, List.nodup_cons, List.nodup_append, List.mem_append, not_or] at nodup
    obtain ⟨⟨other, _⟩, nodup, _⟩ := nodup
    have below := id_mem_ids path.mem_groups
    have apart : p.id ≠ g.id := fun same => other (same ▸ below)
    rw [alter?_group, if_neg apart, ih nodup]
    rfl

/-- Nothing changes if the row is replaced by itself. -/
theorem Rewrite.eq_of_same {change : Forest → Forest → Prop} (path : Rewrite change f f')
    (same : ∀ row row', change row row' → row' = row) : f' = f := by
  induction path with
  | here made => exact same _ _ made
  | after n _ ih => rw [ih]
  | inside p rest _ ih => rw [ih]

end

/-! ## Deleting the blank condition -/

theorem settle_mergeAnds (id : NodeId) (kind : Kind) (row : Forest) :
    Group.settle id kind (mergeAnds row) = Group.settle id kind row := by
  unfold Group.settle
  rw [mergeAnds_eq_self (mergeAnds_apart row)]

/-- A deletion below a tidy group leaves that group as it is, if the merged row has as many nodes as
before and AND groups in the same places. -/
theorem delete?_inside {group condition : NodeId} {p : Group} {children row : Forest}
    (tidy : p.Tidy) (inhabited : p.children ≠ []) (other : p.id ≠ group)
    (deleted : delete? group condition children = some row)
    (kinds : (mergeAnds row).map Node.isAnd = p.children.map Node.isAnd) (rest : Forest) :
    delete? group condition (.group { p with children } :: rest) =
      some (.group { p with children := mergeAnds row } :: rest) := by
  have nonempty : mergeAnds row ≠ [] := by
    intro empty
    rw [empty, List.map_nil, eq_comm, List.map_eq_nil_iff] at kinds
    exact inhabited kinds
  have settled : Group.settle p.id p.kind row = [.group { p with children := mergeAnds row }] := by
    rw [← settle_mergeAnds]
    have tidied : Group.Tidy { p with children := mergeAnds row } := (tidy_congr kinds).mpr tidy
    exact settle_eq_self tidied nonempty
  rw [delete?_group, if_neg other, deleted]
  simp [settled]

section
variable {fresh : Fresh} {g : Group} {c : Condition} {before after rest f f' : Forest}

/-- The group over its other children and, last, the condition that was split off; under the name of the
new group if there are no others. -/
def rejoined (fresh : Fresh) (g : Group) (c : Condition) (others : Forest) : Group :=
  if others = [] then { g with id := fresh.group }
  else { g with children := others ++ [.condition c] }

/-- The new group without its blank condition is an AND group over the condition that was split off. -/
theorem delete?_blank (other : c.id ≠ fresh.condition) (rest : Forest) :
    delete? fresh.group fresh.condition
        (.group (Group.blank .or fresh (some (.condition c))) :: rest) =
      some (.group ⟨fresh.group, .and, [.condition c]⟩ :: rest) := by
  have plucked : pluck? fresh.condition (Group.blank .or fresh (some (.condition c))).children =
      some (.blank fresh.condition, [.condition c]) :=
    pluck?_append (f := [.condition c]) (d := .blank fresh.condition)
      (lacks_cons.mpr ⟨by rintro _ ⟨⟩; exact other, nofun⟩)
  rw [delete?_group, plucked]
  simp [Group.blank, Group.settle, mergeAnds, Node.absorb]

/-- In the row of the split the group takes in what is left of the new group, and the next sibling is
none to be merged with. -/
theorem exists_delete?_splitRow (and : g.kind = .and)
    (children : g.children = before ++ .condition c :: after) (apart : Apart (.group g :: rest))
    (absent : fresh.condition ∉ ids (.group g :: rest)) :
    ∃ row,
      delete? fresh.group fresh.condition (splitRow fresh g c (before ++ after) rest) = some row ∧
      mergeAnds row = .group (rejoined fresh g c (before ++ after)) :: rest := by
  obtain ⟨head, later⟩ := apart_cons.mp apart
  have steady := mergeAnds_eq_self later
  have next := absorb_of_apart (n := .group ⟨fresh.group, .and, [.condition c]⟩) (f := rest)
    fun _ => head (isAnd_group.mpr and)
  simp only [ids_group, children, ids_append, ids_condition, List.mem_cons, List.mem_append,
    not_or] at absent
  obtain ⟨named, ⟨first, other, last⟩, _⟩ := absent
  unfold splitRow rejoined
  split
  · rename_i emptied
    obtain ⟨rfl, rfl⟩ := List.append_eq_nil_iff.mp emptied
    refine ⟨_, delete?_blank (Ne.symm other) rest, ?_⟩
    show Node.absorb _ (mergeAnds rest) = _
    rw [steady, next, children, and]
    rfl
  · have passed : fresh.condition ∉ ids [.group { g with children := before ++ after }] := by
      simp [named, first, last]
    have found := delete?_append fresh.group passed
      (.group (Group.blank .or fresh (some (.condition c))) :: rest)
    rw [delete?_blank (Ne.symm other)] at found
    refine ⟨_, found, ?_⟩
    show Node.absorb _ (Node.absorb _ (mergeAnds rest)) = _
    rw [steady, next]
    exact absorb_of_and (a := { g with children := before ++ after }) and rfl rest

/-- What the deletion leaves of a row, merged, is the row before the split with the condition moved, and
AND groups stand where they stood. -/
theorem exists_delete?_of_apart (and : g.kind = .and)
    (children : g.children = before ++ .condition c :: after)
    (path : Rewrite (Opens g (splitRow fresh g c (before ++ after))) f f') (full : Full f)
    (normal : Normal f) (apart : Apart f) (unused : fresh.group ∉ ids f)
    (absent : fresh.condition ∉ ids f) :
    ∃ row, delete? fresh.group fresh.condition f' = some row ∧
      Rewrite (Opens g (.group (rejoined fresh g c (before ++ after)) :: ·)) f (mergeAnds row) ∧
      (mergeAnds row).map Node.isAnd = f.map Node.isAnd := by
  induction path with
  | here made =>
    obtain ⟨rest, rfl, rfl⟩ := made
    obtain ⟨row, deleted, merged⟩ := exists_delete?_splitRow and children apart absent
    have kind : (rejoined fresh g c (before ++ after)).kind = g.kind := by
      unfold rejoined
      split <;> rfl
    refine ⟨row, deleted, merged ▸ .here ⟨rest, rfl, rfl⟩, ?_⟩
    rw [merged]
    simp [Node.isAnd, kind]
  | @after n f f' _ ih =>
    rw [full_cons] at full
    rw [normal_cons] at normal
    rw [ids_cons, List.mem_append, not_or] at unused absent
    obtain ⟨row, deleted, moved, kinds⟩ :=
      ih full.2 normal.2 (apart_cons.mp apart).2 unused.2 absent.2
    have passed := delete?_cons_of_absent fresh.group absent.1 f'
    rw [deleted] at passed
    have alike : (n :: mergeAnds row).map Node.isAnd = (n :: f).map Node.isAnd := by
      rw [List.map_cons, List.map_cons, kinds]
    have merged : mergeAnds (n :: row) = n :: mergeAnds row :=
      absorb_of_apart (apart_cons.mp ((apart_congr alike).mpr apart)).1
    exact ⟨n :: row, passed, merged ▸ .after n moved, merged ▸ alike⟩
  | @inside p rest f' _ ih =>
    rw [full_group] at full
    rw [normal_group] at normal
    rw [ids_group, List.mem_cons, List.mem_append, not_or, not_or] at unused absent
    obtain ⟨tidy, below, _⟩ := normal
    obtain ⟨row, deleted, moved, kinds⟩ :=
      ih full.2.1 below tidy.apart unused.2.1 absent.2.1
    have whole := delete?_inside tidy full.1 (Ne.symm unused.1) deleted kinds rest
    have alike : (Node.group { p with children := mergeAnds row } :: rest).map Node.isAnd =
        (Node.group p :: rest).map Node.isAnd := rfl
    have steady := mergeAnds_eq_self ((apart_congr alike).mpr apart)
    exact ⟨_, whole, steady.symm ▸ .inside p rest moved, steady.symm ▸ alike⟩

/-- Unless the group stands in the row itself, the deletion leaves the row before the split with the
condition moved. -/
theorem exists_delete?_of_nested (and : g.kind = .and)
    (children : g.children = before ++ .condition c :: after)
    (path : Rewrite (Opens g (splitRow fresh g c (before ++ after))) f f') (full : Full f)
    (normal : Normal f) (nested : .group g ∉ f) (unused : fresh.group ∉ ids f)
    (absent : fresh.condition ∉ ids f) :
    ∃ row, delete? fresh.group fresh.condition f' = some row ∧
      Rewrite (Opens g (.group (rejoined fresh g c (before ++ after)) :: ·)) f row := by
  induction path with
  | here made =>
    obtain ⟨rest, rfl, rfl⟩ := made
    exact absurd List.mem_cons_self nested
  | @after n f f' _ ih =>
    rw [full_cons] at full
    rw [normal_cons] at normal
    rw [List.mem_cons, not_or] at nested
    rw [ids_cons, List.mem_append, not_or] at unused absent
    obtain ⟨row, deleted, moved⟩ := ih full.2 normal.2 nested.2 unused.2 absent.2
    have passed := delete?_cons_of_absent fresh.group absent.1 f'
    rw [deleted] at passed
    exact ⟨n :: row, passed, .after n moved⟩
  | @inside p rest f' path _ =>
    rw [full_group] at full
    rw [normal_group] at normal
    rw [ids_group, List.mem_cons, List.mem_append, not_or, not_or] at unused absent
    obtain ⟨tidy, below, _⟩ := normal
    obtain ⟨row, deleted, moved, kinds⟩ :=
      exists_delete?_of_apart and children path full.2.1 below tidy.apart unused.2.1 absent.2.1
    exact ⟨_, delete?_inside tidy full.1 (Ne.symm unused.1) deleted kinds rest,
      .inside p rest moved⟩

end

end Forest

namespace Model

variable {m k : Model} {g : Group} {c : Condition} {fresh : Fresh}

/-- The model in which a group is replaced where it stands. -/
theorem regroup_eq (valid : m.Valid) {f : Group → Group} {row : Forest}
    (path : Forest.Rewrite (Forest.Opens g (.group (f g) :: ·)) m.forest row) :
    m.regroup g.id f = .ofForest row := by
  unfold regroup alter
  rw [path.alter?_eq valid.nodup_ids fun _ => rfl]
  rfl

/-- Deleting the blank condition after the split leaves the first model with one group replaced. -/
theorem exists_delete_of_split (valid : m.Valid) (normal : m.Normal)
    (unused : ∀ id ∈ fresh.ids, id ∉ m.ids) {p : Group} (above : p ∈ m.groups)
    (nested : .group g ∈ p.children) (and : g.kind = .and) {before after : Forest}
    (children : g.children = before ++ .condition c :: after)
    (path : m.Replaces g (Forest.splitRow fresh g c (before ++ after)) k) (later : Fresh) :
    ∃ row, k.delete fresh.group fresh.condition later = ⟨.ofForest row, true⟩ ∧
      Forest.Rewrite (Forest.Opens g (.group (Forest.rejoined fresh g c (before ++ after)) :: ·))
        m.forest row := by
  have below : .group g ∉ m.forest := by
    intro root
    obtain ⟨front, rest, roots⟩ := List.append_of_mem root
    exact not_below_of_root valid roots above nested rfl
  obtain ⟨row, deleted, moved⟩ :=
    Forest.exists_delete?_of_nested and children path (valid_iff.mp valid).2.1 normal below
      (unused fresh.group (by simp [Fresh.ids])) (unused fresh.condition (by simp [Fresh.ids]))
  refine ⟨row, ?_, moved⟩
  have nonempty : row ≠ [] := by
    refine moved.ne_nil ?_
    rintro _ _ ⟨rest, rfl, rfl⟩
    exact List.cons_ne_nil _ _
  unfold delete
  rw [deleted]
  cases row with
  | nil => exact absurd rfl nonempty
  | cons n rest => rfl

theorem moveLast_eq (valid : m.Valid) (known : g ∈ m.groups) {before after : Forest}
    (children : g.children = before ++ .condition c :: after) :
    g.moveLast c = { g with children := before ++ after ++ [.condition c] } := by
  have row := nodup_children valid known
  rw [children] at row
  have absent := (List.nodup_middle.mp row).notMem
  have first : .condition c ∉ before := fun mem => absent (List.mem_append_left after mem)
  rw [Group.moveLast, children, List.erase_append_right _ first, List.erase_cons_head]

/-- The last child is moved nowhere. -/
theorem moveLast_eq_self (valid : m.Valid) (known : g ∈ m.groups)
    (last : g.children.getLast? = some (.condition c)) : g.moveLast c = g := by
  obtain ⟨front, children⟩ := List.getLast?_eq_some_iff.mp last
  rw [moveLast_eq valid known children, List.append_nil, ← children]

/-- **A split is taken back by deleting its blank condition.** In a valid and normal model, split a
condition off from an AND group below another group, and delete the blank condition from the new OR
group. If the group has other children, this leaves the model with the condition behind them, so the
very model if it was behind them before. If it has none, this leaves the model with the group under the
identifier of the new one. -/
theorem delete_split (accepted : m.Accepted) (normal : m.Normal) (distinct : fresh.ids.Nodup)
    (unused : ∀ id ∈ fresh.ids, id ∉ m.ids) {p : Group} (above : p ∈ m.groups)
    (nested : .group g ∈ p.children) (and : g.kind = .and) (held : .condition c ∈ g.children)
    (later : Fresh) :
    ∃ k, m.split g.id c.id fresh = ⟨k, true⟩ ∧
      k.group? fresh.group = some (Group.blank .or fresh (some (.condition c))) ∧
      (2 ≤ g.children.length →
        k.delete fresh.group fresh.condition later = ⟨m.regroup g.id (Group.moveLast c), true⟩) ∧
      (2 ≤ g.children.length → g.children.getLast? = some (.condition c) →
        k.delete fresh.group fresh.condition later = ⟨m, true⟩) ∧
      (g.children = [.condition c] →
        k.delete fresh.group fresh.condition later =
          ⟨m.regroup g.id fun g => { g with id := fresh.group }, true⟩) := by
  have valid := accepted_iff_valid.mp accepted
  have known : g ∈ m.groups :=
    (Forest.groups_children_sublist above).subset (Forest.mem_groups_of_mem nested)
  obtain ⟨k, split, before, after, children, path⟩ := splitOff_split valid known held fresh
  have path : m.Replaces g (Forest.splitRow fresh g c (before ++ after)) k := path
  obtain ⟨row, deleted, moved⟩ :=
    exists_delete_of_split valid normal unused above nested and children path later
  have made : k.Valid := by
    have := Action.valid_apply valid distinct unused (a := .split g.id c.id) rfl
    rwa [Action.apply, split] at this
  have together (many : 2 ≤ g.children.length) :
      Forest.rejoined fresh g c (before ++ after) = g.moveLast c := by
    have others : before ++ after ≠ [] := by
      intro emptied
      obtain ⟨rfl, rfl⟩ := List.append_eq_nil_iff.mp emptied
      simp [children] at many
    rw [Forest.rejoined, if_neg others, moveLast_eq valid known children]
  have lifted : Group.blank .or fresh (some (.condition c)) ∈ k.groups := by
    refine path.mem_groups_of_made ?_
    rintro _ _ ⟨rest, rfl, rfl⟩
    unfold Forest.splitRow
    split <;> simp
  refine ⟨k, split, group?_of_mem made lifted, ?_, ?_, ?_⟩
  · intro many
    rw [together many] at moved
    rw [deleted, regroup_eq valid moved]
  · intro many last
    rw [together many, moveLast_eq_self valid known last] at moved
    rw [deleted, moved.eq_of_same (by rintro _ _ ⟨rest, rfl, rfl⟩; rfl), ofForest_forest]
  · intro only
    have alone : before ++ after = [] := by
      rw [children, List.append_eq_singleton_iff] at only
      simpa using only
    rw [alone, Forest.rejoined, if_pos rfl] at moved
    rw [deleted, regroup_eq valid moved]

/-- A condition goes behind its neighbour in an AND group inside an OR group; the only condition of
another such group leaves it under a new name. -/
theorem delete_split_branching :
    let fresh : Fresh := ⟨⟨"r"⟩, ⟨"g"⟩, ⟨"k"⟩⟩
    let two := branching.groups[1]
    let three := branching.groups[2]
    let four := branching.groups[3]
    let five := branching.groups[4]
    let a := branching.leaves[0]
    let e := branching.leaves[4]
    branching.Accepted ∧ branching.Normal ∧ fresh.ids.Nodup ∧
      (∀ id ∈ fresh.ids, id ∉ branching.ids) ∧
      two ∈ branching.groups ∧ .group three ∈ two.children ∧ three.kind = .and ∧
      .condition a ∈ three.children ∧
      (∃ k, branching.split three.id a.id fresh = ⟨k, true⟩ ∧
        k.delete fresh.group fresh.condition fresh =
          ⟨branching.regroup three.id (Group.moveLast a), true⟩) ∧
      (branching.regroup three.id (Group.moveLast a)).leaves.map (·.id.text) =
        ["b", "a", "c", "d", "e", "f"] ∧
      four ∈ branching.groups ∧ .group five ∈ four.children ∧ five.kind = .and ∧
      .condition e ∈ five.children ∧
      (∃ k, branching.split five.id e.id fresh = ⟨k, true⟩ ∧
        k.delete fresh.group fresh.condition fresh =
          ⟨branching.regroup five.id fun g => { g with id := fresh.group }, true⟩) ∧
      (branching.regroup five.id fun g => { g with id := fresh.group }).groups.map (·.id.text) =
        ["one", "two", "three", "four", "g"] := by
  intro fresh two three four five a e
  have accepted : branching.Accepted := rfl
  have normal : branching.Normal := by decide
  have distinct : fresh.ids.Nodup := by decide
  have unused : ∀ id ∈ fresh.ids, id ∉ branching.ids := by decide
  have above : two ∈ branching.groups := List.getElem_mem _
  have nested : .group three ∈ two.children := List.mem_cons_self
  have held : .condition a ∈ three.children := List.mem_cons_self
  have above' : four ∈ branching.groups := List.getElem_mem _
  have nested' : .group five ∈ four.children := List.mem_cons_self
  have held' : .condition e ∈ five.children := List.mem_cons_self
  obtain ⟨k, split, _, moved, _, _⟩ :=
    delete_split accepted normal distinct unused above nested rfl held fresh
  obtain ⟨k', split', _, _, _, renamed⟩ :=
    delete_split accepted normal distinct unused above' nested' rfl held' fresh
  exact ⟨accepted, normal, distinct, unused, above, nested, rfl, held,
    ⟨k, split, moved (Nat.le_refl 2)⟩, by decide, above', nested', rfl, held',
    ⟨k', split', renamed rfl⟩, by decide⟩

end Model

end FilterTree
