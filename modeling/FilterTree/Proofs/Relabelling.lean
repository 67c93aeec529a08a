import FilterTree.Proofs.Integrity
import FilterTree.Proofs.Siblings

/-!
# Changing what conditions hold

Where an edit takes hold, and what becomes of the groups, depends on identifiers, kinds and order. So
the conditions may be changed before an edit or after it, as long as they keep their identifiers.
-/

namespace FilterTree

section
variable (h : Condition → Condition)

mutual

def Node.mapLeaves : Node → Node
  | .condition c => .condition (h c)
  | .group ⟨id, kind, children⟩ => .group ⟨id, kind, Forest.mapLeaves children⟩

/-- The forest with `h` applied to each of its conditions. -/
def Forest.mapLeaves : List Node → Forest
  | [] => []
  | n :: rest => n.mapLeaves :: Forest.mapLeaves rest

end

def Group.mapLeaves (g : Group) : Group := { g with children := Forest.mapLeaves h g.children }

@[simp] theorem Group.id_mapLeaves (g : Group) : (Group.mapLeaves h g).id = g.id := rfl

@[simp] theorem Group.kind_mapLeaves (g : Group) : (Group.mapLeaves h g).kind = g.kind := rfl

@[simp] theorem Group.children_mapLeaves (g : Group) :
    (Group.mapLeaves h g).children = Forest.mapLeaves h g.children := rfl

@[simp] theorem Node.mapLeaves_group (g : Group) :
    (Node.group g).mapLeaves h = .group (Group.mapLeaves h g) := rfl

def Model.mapLeaves (m : Model) : Model := ⟨m.roots.map (Group.mapLeaves h)⟩

def Edited.mapLeaves (e : Edited) : Edited := ⟨e.model.mapLeaves h, e.changed⟩

end

namespace Forest

variable {h : Condition → Condition}

/-! ## What is seen of the tree -/

@[simp] theorem mapLeaves_nil : mapLeaves h [] = [] := rfl

theorem mapLeaves_cons (n : Node) (rest : Forest) :
    mapLeaves h (n :: rest) = n.mapLeaves h :: mapLeaves h rest := rfl

@[simp] theorem mapLeaves_condition (c : Condition) (rest : Forest) :
    mapLeaves h (.condition c :: rest) = .condition (h c) :: mapLeaves h rest := rfl

@[simp] theorem mapLeaves_group (g : Group) (rest : Forest) :
    mapLeaves h (.group g :: rest) = .group (g.mapLeaves h) :: mapLeaves h rest := rfl

theorem mapLeaves_eq_map (f : Forest) : mapLeaves h f = f.map (Node.mapLeaves h) := by
  induction f with
  | nil => rfl
  | cons n rest ih => rw [mapLeaves_cons, ih, List.map_cons]

@[simp] theorem mapLeaves_append (f g : Forest) :
    mapLeaves h (f ++ g) = mapLeaves h f ++ mapLeaves h g := by
  simp only [mapLeaves_eq_map, List.map_append]

@[simp] theorem mapLeaves_eq_nil {f : Forest} : mapLeaves h f = [] ↔ f = [] := by
  rw [mapLeaves_eq_map, List.map_eq_nil_iff]

theorem leaves_mapLeaves (f : Forest) : leaves (mapLeaves h f) = (leaves f).map h := by
  induction f using induct with
  | nil => rfl
  | condition c rest ih => rw [mapLeaves_condition, leaves_condition, ih, leaves_condition,
      List.map_cons]
  | group g rest ihg ih => rw [mapLeaves_group, leaves_group, Group.mapLeaves, ihg, ih, leaves_group,
      List.map_append]

theorem leafCount_mapLeaves (f : Forest) : leafCount (mapLeaves h f) = leafCount f := by
  rw [← length_leaves, leaves_mapLeaves, List.length_map, length_leaves]

theorem groups_mapLeaves (f : Forest) :
    groups (mapLeaves h f) = (groups f).map (Group.mapLeaves h) := by
  induction f using induct with
  | nil => rfl
  | condition c rest ih => exact ih
  | group g rest ihg ih => rw [mapLeaves_group, groups_group, Group.mapLeaves, ihg, ih, groups_group,
      List.map_cons, List.map_append, Group.mapLeaves]

theorem full_mapLeaves {f : Forest} (full : Full f) : Full (mapLeaves h f) := by
  intro g mem
  rw [groups_mapLeaves, List.mem_map] at mem
  obtain ⟨k, mem, rfl⟩ := mem
  exact mt mapLeaves_eq_nil.mp (full k mem)

/-- A row whose conditions stay as they are stays as it is. -/
theorem mapLeaves_eq_self {f : Forest} (same : ∀ c ∈ leaves f, h c = c) : mapLeaves h f = f := by
  induction f using induct with
  | nil => rfl
  | condition c rest ih =>
    rw [leaves_condition, List.forall_mem_cons] at same
    rw [mapLeaves_condition, same.1, ih same.2]
  | group g rest ihg ih =>
    rw [leaves_group, List.forall_mem_append] at same
    rw [mapLeaves_group, Group.mapLeaves, ihg same.1, ih same.2]

theorem mapLeaves_mapLeaves (h' : Condition → Condition) (f : Forest) :
    mapLeaves h' (mapLeaves h f) = mapLeaves (h' ∘ h) f := by
  induction f using induct with
  | nil => rfl
  | condition c rest ih => simp only [mapLeaves_condition, ih, Function.comp_apply]
  | group g rest ihg ih => simp only [mapLeaves_group, Group.mapLeaves, ihg, ih]

end Forest

namespace Forest

variable {h : Condition → Condition} (keeps : ∀ c, (h c).id = c.id)
include keeps

theorem ids_mapLeaves (f : Forest) : ids (mapLeaves h f) = ids f := by
  induction f using induct with
  | nil => rfl
  | condition c rest ih => rw [mapLeaves_condition, ids_condition, ih, keeps, ids_condition]
  | group g rest ihg ih => rw [mapLeaves_group, ids_group, Group.mapLeaves, ihg, ih, ids_group]

/-! ## Searches -/

theorem locate?_mapLeaves (c : NodeId) (f : Forest) :
    locate? c (mapLeaves h f) =
      (locate? c f).map fun (before, d, after) => (mapLeaves h before, h d, mapLeaves h after) := by
  induction f with
  | nil => rfl
  | cons n rest ih =>
    cases n with
    | group g => simp [locate?, ih, Function.comp_def]
    | condition d =>
      by_cases same : d.id = c
      · simp [locate?, keeps, same]
      · simp [locate?, keeps, same, ih, Function.comp_def]

theorem pluck?_mapLeaves (c : NodeId) (f : Forest) :
    pluck? c (mapLeaves h f) =
      (pluck? c f).map fun (d, others) => (h d, mapLeaves h others) := by
  simp only [pluck?_eq_map_locate?, locate?_mapLeaves keeps, Option.map_map, Function.comp_def,
    mapLeaves_append]

theorem condition?_mapLeaves (c : NodeId) (f : Forest) :
    condition? c (mapLeaves h f) = (condition? c f).map h := by
  simp only [condition?_eq_map_locate?, locate?_mapLeaves keeps, Option.map_map, Function.comp_def]

/-- A patch may come before the change or after it, if this is all the same for the conditions that
are patched. -/
theorem patch?_mapLeaves {c : NodeId} {p : Patch}
    (comm : ∀ d, d.id = c → (h d).patch p = h (d.patch p)) (f : Forest) :
    patch? c p (mapLeaves h f) = (patch? c p f).map (mapLeaves h) := by
  rw [patch?_eq_map_locate?, patch?_eq_map_locate?, locate?_mapLeaves keeps, Option.map_map,
    Option.map_map]
  apply Option.map_congr
  rintro ⟨before, d, after⟩ found
  have same := (locate?_eq_some_iff.mp found).2.1
  simp only [Function.comp_apply, mapLeaves_append, mapLeaves_condition, comm d same]

omit keeps

theorem append_mapLeaves {c : Condition} (fixed : h c = c) (g : Group) :
    Group.append (Group.mapLeaves h g) c = Group.mapLeaves h (Group.append g c) := by
  simp only [Group.append, Group.mapLeaves, mapLeaves_append, mapLeaves_condition, fixed,
    mapLeaves_nil]

theorem appendToAnd?_mapLeaves {c : Condition} (fixed : h c = c) (f : Forest) :
    appendToAnd? c (mapLeaves h f) = (appendToAnd? c f).map (mapLeaves h) := by
  induction f with
  | nil => rfl
  | cons n rest ih =>
    cases n with
    | condition d => simp [appendToAnd?, ih, Function.comp_def]
    | group g =>
      by_cases and : g.kind = .and
      · simp [appendToAnd?, and, append_mapLeaves fixed]
      · simp [appendToAnd?, and, ih, Function.comp_def]

theorem growAfter_mapLeaves {fresh : Fresh}
    (fixed : h (.blank fresh.condition) = .blank fresh.condition) (g : Group) (rest : Forest) :
    Group.growAfter fresh (Group.mapLeaves h g) (mapLeaves h rest) =
      mapLeaves h (g.growAfter fresh rest) := by
  unfold Group.growAfter
  rw [appendToAnd?_mapLeaves fixed]
  cases appendToAnd? (.blank fresh.condition) rest with
  | none => simp [Group.blank, Group.mapLeaves, fixed]
  | some grown => simp

/-- An edit ends at the same group, if there it may come before the change or after it. -/
theorem alter?_mapLeaves {target : NodeId} {change : Group → Forest → Option Forest}
    (comm : ∀ g rest, change (Group.mapLeaves h g) (mapLeaves h rest) =
      (change g rest).map (mapLeaves h)) (f : Forest) :
    alter? target change (mapLeaves h f) = (alter? target change f).map (mapLeaves h) := by
  induction f using induct with
  | nil => rfl
  | condition c rest ih => simp [ih, Function.comp_def]
  | group g rest ihg ih =>
    simp only [mapLeaves_group, alter?_group, Option.orElse_eq_orElse, Option.orElse_eq_or,
      Option.map_or, comm, Group.children_mapLeaves, Group.id_mapLeaves, ihg, ih]
    by_cases same : g.id = target
    · simp [same, Function.comp_def]
    · simp [same, Function.comp_def, Group.mapLeaves]

/-! ## Tidying and cutting -/

theorem absorb_mapLeaves (n : Node) (f : Forest) :
    (n.mapLeaves h).absorb (mapLeaves h f) = mapLeaves h (n.absorb f) := by
  cases n with
  | condition c => rfl
  | group a =>
    cases f with
    | nil => rfl
    | cons n rest =>
      cases n with
      | condition c => rfl
      | group b =>
        by_cases kinds : a.kind = .and ∧ b.kind = .and
        · simp [Node.absorb, kinds, Group.mapLeaves]
        · simp [Node.absorb, kinds]

theorem mergeAnds_mapLeaves (f : Forest) :
    mergeAnds (mapLeaves h f) = mapLeaves h (mergeAnds f) := by
  induction f with
  | nil => rfl
  | cons n rest ih =>
    show (n.mapLeaves h).absorb (mergeAnds (mapLeaves h rest)) = mapLeaves h (n.absorb (mergeAnds rest))
    rw [ih, absorb_mapLeaves]

theorem settle_mapLeaves (id : NodeId) (kind : Kind) (row : Forest) :
    Group.settle id kind (mapLeaves h row) = mapLeaves h (Group.settle id kind row) := by
  unfold Group.settle
  rw [mergeAnds_mapLeaves]
  cases mergeAnds row with
  | nil => rfl
  | cons n rest =>
    cases rest with
    | nil => rfl
    | cons k rest => rfl

theorem keep_mapLeaves (n : Nat) (f : Forest) :
    keep n (mapLeaves h f) = mapLeaves h (keep n f) := by
  induction f using induct generalizing n with
  | nil => rfl
  | condition c rest ih =>
    have kept : (Node.condition (h c)).keep n = mapLeaves h ((Node.condition c).keep n) := by
      unfold Node.keep
      split <;> rfl
    rw [mapLeaves_condition, keep_cons, keep_cons, mapLeaves_append, kept, ← ih]
    rfl
  | group g rest ihg ih =>
    have count : (Node.group (Group.mapLeaves h g)).leafCount = (Node.group g).leafCount :=
      leafCount_mapLeaves g.children
    have kept : (Node.group (Group.mapLeaves h g)).keep n = mapLeaves h ((Node.group g).keep n) := by
      obtain ⟨id, kind, children⟩ := g
      simp only [Group.mapLeaves, Node.keep, ihg]
      cases keep n children with
      | nil => rfl
      | cons node later => rfl
    rw [mapLeaves_group, keep_cons, keep_cons, mapLeaves_append, kept, count, ih]

include keeps

theorem splitOff?_mapLeaves {fresh : Fresh}
    (fixed : h (.blank fresh.condition) = .blank fresh.condition) (condition : NodeId) (g : Group)
    (rest : Forest) :
    Group.splitOff? condition fresh (Group.mapLeaves h g) (mapLeaves h rest) =
      (g.splitOff? condition fresh rest).map (mapLeaves h) := by
  unfold Group.splitOff?
  rw [Group.children_mapLeaves, pluck?_mapLeaves keeps, Option.map_map, Option.map_map]
  apply Option.map_congr
  rintro ⟨d, others⟩ _
  cases others <;> simp [Group.blank, Group.mapLeaves, fixed]

theorem delete?_mapLeaves (group condition : NodeId) (f : Forest) :
    delete? group condition (mapLeaves h f) =
      (delete? group condition f).map (mapLeaves h) := by
  induction f using induct with
  | nil => rfl
  | condition c rest ih => simp [ih, Function.comp_def]
  | group g rest ihg ih =>
    simp only [mapLeaves_group, delete?_group, Option.orElse_eq_orElse, Option.orElse_eq_or,
      Option.map_or, Group.children_mapLeaves, Group.id_mapLeaves, Group.kind_mapLeaves, ihg, ih,
      pluck?_mapLeaves keeps]
    by_cases same : g.id = group
    · simp [same, Function.comp_def, settle_mapLeaves]
    · simp [same, Function.comp_def, settle_mapLeaves]

end Forest

namespace Model

variable {h : Condition → Condition} {m : Model}

theorem forest_mapLeaves (m : Model) : (m.mapLeaves h).forest = Forest.mapLeaves h m.forest := by
  obtain ⟨roots⟩ := m
  simp only [mapLeaves, forest]
  induction roots with
  | nil => rfl
  | cons g rest ih => rw [List.map_cons, List.map_cons, ih, List.map_cons, Forest.mapLeaves_group]

theorem mapLeaves_ofForest (f : Forest) :
    (ofForest f).mapLeaves h = ofForest (Forest.mapLeaves h f) := by
  simp only [mapLeaves, ofForest, mk.injEq]
  induction f with
  | nil => rfl
  | cons n rest ih =>
    cases n with
    | condition c => exact ih
    | group g =>
      rw [Forest.mapLeaves_group]
      simp only [List.filterMap_cons, Node.group?, List.map_cons, ih]

theorem mapLeaves_eq_self (same : ∀ c ∈ m.leaves, h c = c) : m.mapLeaves h = m := by
  rw [← ofForest_forest m, mapLeaves_ofForest, Forest.mapLeaves_eq_self same]

theorem mapLeaves_mapLeaves (h' : Condition → Condition) (m : Model) :
    (m.mapLeaves h).mapLeaves h' = m.mapLeaves (h' ∘ h) := by
  rw [← ofForest_forest m]
  simp only [mapLeaves_ofForest, Forest.mapLeaves_mapLeaves]

theorem mapLeaves_blank {fresh : Fresh}
    (fixed : h (.blank fresh.condition) = .blank fresh.condition) :
    (blank fresh).mapLeaves h = blank fresh := by
  apply mapLeaves_eq_self
  intro c mem
  rw [List.mem_singleton.mp mem, fixed]

theorem ofForest_mapLeaves (m : Model) (found : Option Forest) :
    Edited.ofForest (m.mapLeaves h) (found.map (Forest.mapLeaves h)) =
      (Edited.ofForest m found).mapLeaves h := by
  cases found with
  | none => rfl
  | some f => simp only [Option.map_some, Edited.ofForest, Edited.mapLeaves, mapLeaves_ofForest]

theorem alter_mapLeaves {target : NodeId} {change : Group → Forest → Option Forest}
    (comm : ∀ g rest, change (Group.mapLeaves h g) (Forest.mapLeaves h rest) =
      (change g rest).map (Forest.mapLeaves h)) (m : Model) :
    (m.mapLeaves h).alter target change = (m.alter target change).mapLeaves h := by
  unfold alter
  rw [forest_mapLeaves, Forest.alter?_mapLeaves comm, ofForest_mapLeaves]

theorem cut_mapLeaves (m : Model) (root leaf : Nat) :
    (m.mapLeaves h).cut root leaf = (m.cut root leaf).mapLeaves h := by
  have roots : (m.mapLeaves h).roots = m.roots.map (Group.mapLeaves h) := rfl
  unfold cut
  rw [forest_mapLeaves, roots, List.getElem?_map, List.length_map]
  cases m.roots[root]? with
  | none => rfl
  | some g =>
    have kept : (Node.group (Group.mapLeaves h g)).keep (leaf + 1) =
        Forest.mapLeaves h ((Node.group g).keep (leaf + 1)) := by
      have row := Forest.keep_mapLeaves (h := h) (leaf + 1) [.group g]
      simpa only [Forest.mapLeaves_group, Forest.mapLeaves_nil, Forest.keep_cons, Forest.keep_nil,
        List.append_nil] using row
    have before : (Forest.mapLeaves h m.forest).take root =
        Forest.mapLeaves h (m.forest.take root) := by
      rw [Forest.mapLeaves_eq_map, Forest.mapLeaves_eq_map, List.map_take]
    simp only [Option.map_some, Group.children_mapLeaves, Forest.leafCount_mapLeaves, kept]
    split
    · rw [Edited.mapLeaves, mapLeaves_ofForest, Forest.mapLeaves_append, before]
    · rfl

section
variable (keeps : ∀ c, (h c).id = c.id)
include keeps

theorem valid_mapLeaves (valid : m.Valid) : (m.mapLeaves h).Valid := by
  obtain ⟨roots, full, nodup⟩ := valid_iff.mp valid
  rw [valid_iff, forest_mapLeaves, Forest.ids_mapLeaves keeps]
  exact ⟨mt Forest.mapLeaves_eq_nil.mp roots, Forest.full_mapLeaves full, nodup⟩

theorem condition?_mapLeaves (m : Model) (group condition : NodeId) :
    (m.mapLeaves h).condition? group condition = (m.condition? group condition).map h := by
  unfold condition? group? groups
  rw [forest_mapLeaves, Forest.groups_mapLeaves, List.find?_map, Option.bind_map, Option.map_bind]
  simp only [Function.comp_def, Group.id_mapLeaves, Group.children_mapLeaves,
    Forest.condition?_mapLeaves keeps]
  rfl

theorem delete_mapLeaves {fresh : Fresh}
    (fixed : h (.blank fresh.condition) = .blank fresh.condition) (m : Model)
    (group condition : NodeId) :
    (m.mapLeaves h).delete group condition fresh = (m.delete group condition fresh).mapLeaves h := by
  unfold delete
  rw [forest_mapLeaves, Forest.delete?_mapLeaves keeps]
  cases Forest.delete? group condition m.forest with
  | none => rfl
  | some row =>
    cases row with
    | nil => rw [Edited.mapLeaves, mapLeaves_blank fixed]; rfl
    | cons n rest => rw [Edited.mapLeaves, mapLeaves_ofForest]; rfl

end

end Model

/-- An action may come before the change of the conditions or after it, if the change leaves the blank
condition as it is, and if it is all the same for the condition that the action patches. -/
theorem Action.apply_mapLeaves {h : Condition → Condition} (keeps : ∀ c, (h c).id = c.id) {m : Model}
    (valid : m.Valid) {fresh : Fresh}
    (fixed : h (.blank fresh.condition) = .blank fresh.condition) {a : Action}
    (replaces : a.isReplace = false)
    (comm : ∀ g c p, a = .update g c p → ∀ d, d.id = c → (h d).patch p = h (d.patch p)) :
    a.apply fresh (m.mapLeaves h) = (a.apply fresh m).mapLeaves h := by
  have valid' := Model.valid_mapLeaves keeps valid
  cases a with
  | update g c p =>
    apply Model.alter_mapLeaves
    intro k rest
    rw [Group.children_mapLeaves, Forest.patch?_mapLeaves keeps (comm g c p rfl), Option.map_map,
      Option.map_map]
    rfl
  | add g =>
    apply Model.alter_mapLeaves
    intro k rest
    rw [Forest.append_mapLeaves fixed]
    rfl
  | addAfter g =>
    show Model.addAfter _ _ _ = (Model.addAfter _ _ _).mapLeaves h
    rw [Model.addAfter_eq_alter valid', Model.addAfter_eq_alter valid]
    apply Model.alter_mapLeaves
    intro k rest
    rw [Forest.growAfter_mapLeaves fixed]
    rfl
  | split g c =>
    show Model.split _ _ _ _ = (Model.split _ _ _ _).mapLeaves h
    rw [Model.split_eq_alter valid', Model.split_eq_alter valid]
    exact Model.alter_mapLeaves (Forest.splitOff?_mapLeaves keeps fixed c) m
  | delete g c => exact Model.delete_mapLeaves keeps fixed m g c
  | cut root leaf => exact m.cut_mapLeaves root leaf
  | cutTo crumb => exact m.cut_mapLeaves crumb.root crumb.leaf
  | reset => exact congrArg (Edited.mk · true) (Model.mapLeaves_blank fixed).symm
  | replace k => cases replaces

end FilterTree
