import FilterTree.Proofs.Acceptance
import FilterTree.Proofs.Rewriting

namespace FilterTree

/-- If no two entries of a list have the same key, each is found by its own. -/
theorem find?_key {α : Type} {key : α → NodeId} {l : List α} (nodup : (l.map key).Nodup) {a : α}
    (mem : a ∈ l) : l.find? (key · = key a) = some a := by
  obtain ⟨before, after, split⟩ := List.append_of_mem mem
  rw [List.find?_eq_some_iff_append]
  refine ⟨by simp, before, after, split, ?_⟩
  intro b hb
  rw [split, List.map_append, List.nodup_append] at nodup
  have other := nodup.2.2 (key b) (List.mem_map_of_mem hb) (key a) (by simp)
  simpa using other

namespace Forest

theorem condition?_group (c : NodeId) (g : Group) (rest : Forest) :
    condition? c (.group g :: rest) = condition? c rest := rfl

theorem condition?_condition (c : NodeId) (d : Condition) (rest : Forest) :
    condition? c (.condition d :: rest) = if d.id = c then some d else condition? c rest := by
  have head : Node.condition? (.condition d) = some d := rfl
  by_cases same : d.id = c <;>
    simp [condition?, List.filterMap_cons_some head, same]

theorem condition?_eq_map_locate? (c : NodeId) (f : Forest) :
    condition? c f = (locate? c f).map fun (_, d, _) => d := by
  induction f with
  | nil => rfl
  | cons n rest ih =>
    cases n with
    | group g => simp [condition?_group, locate?, ih, Function.comp_def]
    | condition d =>
      by_cases h : d.id = c <;> simp [condition?_condition, locate?, h, ih, Function.comp_def]

theorem mem_of_condition? {c : NodeId} {f : Forest} {d : Condition} (h : condition? c f = some d) :
    .condition d ∈ f ∧ d.id = c := by
  rw [condition?_eq_map_locate?] at h
  obtain ⟨⟨before, _, after⟩, place, rfl⟩ := Option.map_eq_some_iff.mp h
  obtain ⟨rfl, same, _⟩ := locate?_eq_some_iff.mp place
  exact ⟨by simp, same⟩

theorem ids_groups_sublist (f : Forest) : ((groups f).map (·.id)).Sublist (ids f) := by
  induction f using induct with
  | nil => exact .slnil
  | condition c rest ih => exact ih.cons c.id
  | group g rest ihg ih =>
    rw [groups_group, List.map_cons, List.map_append, ids_group]
    exact (ihg.append ih).cons_cons g.id

theorem ids_conditions_sublist (f : Forest) :
    ((f.filterMap Node.condition?).map (·.id)).Sublist (ids f) := by
  induction f using induct with
  | nil => exact .slnil
  | condition c rest ih => exact ih.cons_cons c.id
  | group g rest _ ih => exact (ih.trans (List.sublist_append_right _ _)).cons g.id

theorem lacks_of_absent {c : NodeId} {f : Forest} (absent : c ∉ ids f) : Lacks c f := by
  intro d mem same
  apply absent
  rw [← same]
  exact (ids_conditions_sublist f).subset
    (List.mem_map.mpr ⟨d, List.mem_filterMap.mpr ⟨_, mem, rfl⟩, rfl⟩)

/-- In a row without repeated identifiers each condition is located. -/
theorem locate?_append {before after : Forest} {c : Condition}
    (nodup : (ids (before ++ .condition c :: after)).Nodup) :
    locate? c.id (before ++ .condition c :: after) = some (before, c, after) := by
  rw [ids_append, ids_condition, List.nodup_append] at nodup
  have absent : c.id ∉ ids before := fun mem => nodup.2.2 _ mem _ List.mem_cons_self rfl
  exact locate?_eq_some_iff.mpr ⟨rfl, rfl, lacks_of_absent absent⟩

/-- A list that is made of a forest part by part holds what is made of the children of each group. -/
theorem children_sublist {α : Type} {view : Forest → List α}
    (condition : ∀ c rest, (view rest).Sublist (view (.condition c :: rest)))
    (below : ∀ g rest, (view g.children).Sublist (view (.group g :: rest)))
    (later : ∀ g rest, (view rest).Sublist (view (.group g :: rest))) {f : Forest} {g : Group}
    (mem : g ∈ groups f) : (view g.children).Sublist (view f) := by
  induction f using induct with
  | nil => cases mem
  | condition c rest ih => exact (ih mem).trans (condition c rest)
  | group k rest ihk ih =>
    rw [groups_group, List.mem_cons, List.mem_append] at mem
    rcases mem with rfl | inner | after
    · exact below g rest
    · exact (ihk inner).trans (below k rest)
    · exact (ih after).trans (later k rest)

theorem ids_children_sublist {f : Forest} {g : Group} (mem : g ∈ groups f) :
    (ids g.children).Sublist (ids f) :=
  children_sublist (fun _ _ => List.sublist_cons_self _ _)
    (fun _ _ => (List.sublist_append_left _ _).cons _)
    (fun _ _ => (List.sublist_append_right _ _).cons _) mem

theorem leaves_children_sublist {f : Forest} {g : Group} (mem : g ∈ groups f) :
    (leaves g.children).Sublist (leaves f) :=
  children_sublist (fun _ _ => List.sublist_cons_self _ _)
    (fun _ _ => List.sublist_append_left _ _) (fun _ _ => List.sublist_append_right _ _) mem

theorem groups_children_sublist {f : Forest} {g : Group} (mem : g ∈ groups f) :
    (groups g.children).Sublist (groups f) :=
  children_sublist (fun _ _ => .refl _) (fun _ _ => (List.sublist_append_left _ _).cons _)
    (fun _ _ => (List.sublist_append_right _ _).cons _) mem

/-- A leaf stands in the row itself or among the children of a group. -/
theorem exists_of_mem_leaves {f : Forest} {c : Condition} (mem : c ∈ leaves f) :
    .condition c ∈ f ∨ ∃ g ∈ groups f, .condition c ∈ g.children := by
  induction f using induct with
  | nil => cases mem
  | condition d rest ih =>
    rcases List.mem_cons.mp mem with rfl | later
    · exact .inl List.mem_cons_self
    · exact (ih later).imp_left (List.mem_cons_of_mem _)
  | group k rest ihk ih =>
    rw [leaves_group, List.mem_append] at mem
    simp only [groups_group, List.mem_cons, List.mem_append]
    rcases mem with below | later
    · rcases ihk below with held | ⟨g, mem, held⟩
      · exact .inr ⟨k, .inl rfl, held⟩
      · exact .inr ⟨g, .inr (.inl mem), held⟩
    · rcases ih later with held | ⟨g, mem, held⟩
      · exact .inl (.inr held)
      · exact .inr ⟨g, .inr (.inr mem), held⟩

theorem mem_leaves_of_mem {f : Forest} {c : Condition} (mem : .condition c ∈ f) : c ∈ leaves f := by
  obtain ⟨before, after, rfl⟩ := List.append_of_mem mem
  simp

theorem mem_groups_of_mem {f : Forest} {g : Group} (mem : .group g ∈ f) : g ∈ groups f := by
  obtain ⟨before, after, rfl⟩ := List.append_of_mem mem
  simp

end Forest

namespace Model

theorem group?_of_mem {m : Model} (valid : m.Valid) {g : Group} (mem : g ∈ m.groups) :
    m.group? g.id = some g :=
  find?_key (valid.nodup_ids.sublist (Forest.ids_groups_sublist m.forest)) mem

/-- What is found is a group with the identifier. -/
theorem known_of_group? {m : Model} {group : NodeId} {g : Group} (found : m.group? group = some g) :
    g ∈ m.groups ∧ g.id = group :=
  ⟨List.mem_of_find?_eq_some found, by simpa using List.find?_some found⟩

/-- A condition is found by its identifier in the group that holds it. -/
theorem condition?_of_mem {m : Model} (valid : m.Valid) {g : Group} (mem : g ∈ m.groups)
    {c : Condition} (held : .condition c ∈ g.children) : m.condition? g.id c.id = some c := by
  have nodup := valid.nodup_ids.sublist (Forest.ids_children_sublist mem)
  rw [condition?, group?_of_mem valid mem, Option.bind_some]
  exact find?_key (nodup.sublist (Forest.ids_conditions_sublist _))
    (List.mem_filterMap.mpr ⟨_, held, rfl⟩)

theorem exists_holder {m : Model} {c : Condition} (mem : c ∈ m.leaves) :
    ∃ g ∈ m.groups, .condition c ∈ g.children := by
  rcases Forest.exists_of_mem_leaves mem with root | held
  · exact absurd (m.onlyGroups_forest _ root) nofun
  · exact held

theorem mem_leaves_of_held {m : Model} {g : Group} (mem : g ∈ m.groups) {c : Condition}
    (held : .condition c ∈ g.children) : c ∈ m.leaves :=
  (Forest.leaves_children_sublist mem).subset (Forest.mem_leaves_of_mem held)

/-- What is found is a condition with the identifier, in a group with the other one. -/
theorem held_of_condition? {m : Model} {group condition : NodeId} {c : Condition}
    (found : m.condition? group condition = some c) :
    ∃ g ∈ m.groups, .condition c ∈ g.children ∧ g.id = group ∧ c.id = condition := by
  obtain ⟨g, there, within⟩ := Option.bind_eq_some_iff.mp found
  obtain ⟨known, named⟩ := known_of_group? there
  obtain ⟨held, same⟩ := Forest.mem_of_condition? within
  exact ⟨g, known, held, named, same⟩

/-- An edit of a group takes hold at the group that the identifier finds. -/
theorem exists_rewrite_of_alter? {m : Model} (valid : m.Valid) {target : NodeId}
    {change : Group → Forest → Option Forest} {f : Forest}
    (h : Forest.alter? target change m.forest = some f) :
    ∃ g, m.group? target = some g ∧
      Forest.Rewrite (fun row row' => ∃ rest, row = .group g :: rest ∧ change g rest = some row')
        m.forest f := by
  obtain ⟨g, mem, rfl, made⟩ := Forest.exists_rewrite_of_alter? h
  exact ⟨g, group?_of_mem valid mem, made⟩

end Model

end FilterTree
