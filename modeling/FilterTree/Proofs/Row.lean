import FilterTree.Model

namespace FilterTree

namespace Forest

theorem leaves_cons (n : Node) (rest : Forest) : leaves (n :: rest) = n.leaves ++ leaves rest := rfl

theorem groups_cons (n : Node) (rest : Forest) : groups (n :: rest) = n.groups ++ groups rest := rfl

theorem ids_cons (n : Node) (rest : Forest) : ids (n :: rest) = n.ids ++ ids rest := rfl

@[simp] theorem leaves_append (f g : Forest) : leaves (f ++ g) = leaves f ++ leaves g := by
  induction f with
  | nil => rfl
  | cons n rest ih => simp only [List.cons_append, leaves_cons, ih, List.append_assoc]

@[simp] theorem leafCount_append (f g : Forest) :
    leafCount (f ++ g) = leafCount f + leafCount g := by
  simp only [← length_leaves, leaves_append, List.length_append]

@[simp] theorem groups_append (f g : Forest) : groups (f ++ g) = groups f ++ groups g := by
  induction f with
  | nil => rfl
  | cons n rest ih => simp only [List.cons_append, groups_cons, ih, List.append_assoc]

@[simp] theorem ids_append (f g : Forest) : ids (f ++ g) = ids f ++ ids g := by
  induction f with
  | nil => rfl
  | cons n rest ih => simp only [List.cons_append, ids_cons, ih, List.append_assoc]

/-- Every group of the forest, at any depth, has a child. -/
def Full (f : Forest) : Prop := ∀ g ∈ groups f, g.children ≠ []

@[simp] theorem full_nil : Full [] := nofun

@[simp] theorem full_condition (c : Condition) (rest : Forest) :
    Full (.condition c :: rest) ↔ Full rest := .rfl

@[simp] theorem full_group (g : Group) (rest : Forest) :
    Full (.group g :: rest) ↔ g.children ≠ [] ∧ Full g.children ∧ Full rest := by
  simp only [Full, groups_group, List.forall_mem_cons, List.forall_mem_append]

@[simp] theorem full_append (f g : Forest) : Full (f ++ g) ↔ Full f ∧ Full g := by
  simp only [Full, groups_append, List.forall_mem_append]

theorem full_cons (n : Node) (rest : Forest) : Full (n :: rest) ↔ Full [n] ∧ Full rest :=
  full_append [n] rest

theorem leafCount_pos {f : Forest} (full : Full f) (ne : f ≠ []) : 0 < leafCount f := by
  induction f using induct with
  | nil => exact absurd rfl ne
  | condition c rest _ => simp only [leafCount_condition]; omega
  | group g rest ihg _ =>
    obtain ⟨inhabited, below, _⟩ := (full_group g rest).mp full
    have := ihg below inhabited
    simp only [leafCount_group]; omega

def OnlyGroups (f : Forest) : Prop := ∀ n ∈ f, n.condition? = none

@[simp] theorem onlyGroups_nil : OnlyGroups [] := nofun

@[simp] theorem not_onlyGroups_condition (c : Condition) (rest : Forest) :
    ¬ OnlyGroups (.condition c :: rest) := fun h => nomatch h _ List.mem_cons_self

@[simp] theorem onlyGroups_group (g : Group) (rest : Forest) :
    OnlyGroups (.group g :: rest) ↔ OnlyGroups rest := by
  simp [OnlyGroups, Node.condition?]

@[simp] theorem onlyGroups_append (f g : Forest) :
    OnlyGroups (f ++ g) ↔ OnlyGroups f ∧ OnlyGroups g := List.forall_mem_append

theorem onlyGroups_cons (n : Node) (rest : Forest) :
    OnlyGroups (n :: rest) ↔ OnlyGroups [n] ∧ OnlyGroups rest := onlyGroups_append [n] rest

end Forest

namespace Model

theorem onlyGroups_forest (m : Model) : Forest.OnlyGroups m.forest := by
  intro n hn
  obtain ⟨g, _, rfl⟩ := List.mem_map.mp hn
  rfl

@[simp] theorem forest_ofForest {f : Forest} (h : Forest.OnlyGroups f) :
    (ofForest f).forest = f := by
  simp only [ofForest, forest]
  induction f with
  | nil => rfl
  | cons n rest ih =>
    cases n with
    | condition c => exact absurd h (Forest.not_onlyGroups_condition c rest)
    | group g =>
      simp only [List.filterMap_cons, Node.group?, List.map_cons,
        ih ((Forest.onlyGroups_group g rest).mp h)]

theorem forest_eq_nil {m : Model} : m.forest = [] ↔ m.roots = [] := List.map_eq_nil_iff

end Model

end FilterTree
