import FilterTree.Console.Execute
import FilterTree.Proofs.Recital
import Mathlib.Data.List.Nodup

namespace FilterTree

theorem NodeId.opensWith_iff {id : NodeId} {opening : String} :
    id.opensWith opening = true ↔ opening.toList <+: id.text.toList := List.isPrefixOf_iff_prefix

/-- One entry is left of a list without repetitions if it alone has the property. -/
theorem filter_eq_singleton_iff {α : Type} {l : List α} (nodup : l.Nodup) {p : α → Bool} {a : α} :
    l.filter p = [a] ↔ a ∈ l ∧ p a = true ∧ ∀ b ∈ l, p b = true → b = a := by
  constructor
  · intro one
    have mem (b : α) : b ∈ l ∧ p b = true ↔ b = a := by
      rw [← List.mem_filter, one, List.mem_singleton]
    exact ⟨((mem a).mpr rfl).1, ((mem a).mpr rfl).2, fun b here takes => (mem b).mp ⟨here, takes⟩⟩
  · rintro ⟨mem, takes, only⟩
    rw [← List.perm_singleton]
    apply (List.perm_ext_iff_of_nodup (nodup.filter p) (List.nodup_singleton a)).mpr
    intro b
    rw [List.mem_filter, List.mem_singleton]
    constructor
    · rintro ⟨here, takes⟩
      exact only b here takes
    · rintro rfl
      exact ⟨mem, takes⟩

namespace Forest

/-- The identifiers of the conditions that stand in the row itself. -/
def rowIds (f : Forest) : List NodeId := (f.filterMap Node.condition?).map (·.id)

/-- Group after group, the conditions that stand in it are the leaves, apart from their order and those
that stand in the row itself. -/
theorem placed_perm (f : Forest) :
    (rowIds f ++ (groups f).flatMap fun g => rowIds g.children).Perm ((leaves f).map (·.id)) := by
  induction f using induct with
  | nil => exact .nil
  | condition c rest ih => exact ih.cons c.id
  | group g rest ihg ih =>
    rw [groups_group, leaves_group, List.flatMap_cons, List.flatMap_append, List.map_append]
    have row : rowIds (.group g :: rest) = rowIds rest := rfl
    refine List.Perm.trans ?_ (ihg.append ih)
    rw [row, List.perm_iff_count]
    intro id
    simp only [List.count_append]
    omega

end Forest

namespace Model

variable {m : Model} {opening : String}

/-- Of all groups of the model this one alone has an identifier that starts with the opening. -/
structure OnlyGroup (m : Model) (opening : String) (g : Group) : Prop where
  known : g ∈ m.groups
  opens : opening.toList <+: g.id.text.toList
  only : ∀ k ∈ m.groups, opening.toList <+: k.id.text.toList → k = g

/-- Of all conditions of the model this one alone has an identifier that starts with the opening, and
it stands in the group. -/
structure OnlyCondition (m : Model) (opening : String) (g : Group) (c : Condition) : Prop where
  known : g ∈ m.groups
  held : .condition c ∈ g.children
  opens : opening.toList <+: c.id.text.toList
  only : ∀ d ∈ m.leaves, opening.toList <+: d.id.text.toList → d = c

theorem mem_placed {group condition : NodeId} :
    (group, condition) ∈ m.placed ↔
      ∃ g ∈ m.groups, ∃ c, .condition c ∈ g.children ∧ g.id = group ∧ c.id = condition := by
  simp only [placed, List.mem_flatMap, List.mem_map, List.mem_filterMap, Prod.mk.injEq]
  constructor
  · rintro ⟨g, known, c, ⟨n, held, found⟩, same⟩
    cases n with
    | condition d =>
      cases found
      exact ⟨g, known, _, held, same⟩
    | group k => cases found
  · rintro ⟨g, known, c, held, same⟩
    exact ⟨g, known, c, ⟨_, held, rfl⟩, same⟩

/-- The conditions that are listed with their groups are the leaves, apart from their order. -/
theorem map_placed_perm (m : Model) : (m.placed.map Prod.snd).Perm (m.leaves.map (·.id)) := by
  have rootless : Forest.rowIds m.forest = [] := by
    rw [Forest.rowIds, List.map_eq_nil_iff, List.filterMap_eq_nil_iff]
    exact m.onlyGroups_forest
  have perm := Forest.placed_perm m.forest
  rw [rootless, List.nil_append] at perm
  have ids : m.placed.map Prod.snd = m.groups.flatMap fun g => Forest.rowIds g.children := by
    simp only [placed, Forest.rowIds, List.map_flatMap, List.map_map]
    rfl
  rw [ids]
  exact perm

/-- A condition stands in one place. -/
theorem nodup_placed (valid : m.Valid) : (m.placed.map Prod.snd).Nodup :=
  m.map_placed_perm.nodup_iff.mpr (nodup_leaves valid)

theorem resolveGroup_eq_ok_iff (valid : m.Valid) {group : NodeId} :
    m.resolveGroup opening = .ok group ↔ ∃ g, m.OnlyGroup opening g ∧ g.id = group := by
  have nodup : (m.groups.map (·.id)).Nodup :=
    valid.nodup_ids.sublist (Forest.ids_groups_sublist m.forest)
  have found : m.resolveGroup opening = .ok group ↔
      (m.groups.map (·.id)).filter (·.opensWith opening) = [group] := by
    unfold resolveGroup
    split
    · rename_i id one
      rw [one, List.singleton_inj, Except.ok.injEq]
    · rename_i absent
      exact iff_of_false nofun fun one => List.cons_ne_nil _ _ (one.symm.trans absent)
    · rename_i others _
      exact iff_of_false nofun fun one => others _ one
  rw [found, filter_eq_singleton_iff nodup]
  simp only [NodeId.opensWith_iff, List.mem_map]
  constructor
  · rintro ⟨⟨g, known, rfl⟩, opens, only⟩
    refine ⟨g, ⟨known, opens, ?_⟩, rfl⟩
    intro k here starts
    exact List.inj_on_of_nodup_map nodup here known (only k.id ⟨k, here, rfl⟩ starts)
  · rintro ⟨g, one, rfl⟩
    refine ⟨⟨g, one.known, rfl⟩, one.opens, ?_⟩
    rintro _ ⟨k, here, rfl⟩ starts
    rw [one.only k here starts]

theorem resolveCondition_eq_ok_iff (valid : m.Valid) {group condition : NodeId} :
    m.resolveCondition opening = .ok (group, condition) ↔
      ∃ g c, m.OnlyCondition opening g c ∧ g.id = group ∧ c.id = condition := by
  have found : m.resolveCondition opening = .ok (group, condition) ↔
      m.placed.filter (·.2.opensWith opening) = [(group, condition)] := by
    unfold resolveCondition
    split
    · rename_i place one
      rw [one, List.singleton_inj, Except.ok.injEq]
    · rename_i others
      exact iff_of_false nofun fun one => others _ one
  rw [found, filter_eq_singleton_iff (nodup_placed valid).of_map]
  simp only [NodeId.opensWith_iff, Prod.forall, Prod.mk.injEq]
  constructor
  · rintro ⟨place, opens, only⟩
    obtain ⟨g, known, c, held, rfl, rfl⟩ := mem_placed.mp place
    refine ⟨g, c, ⟨known, held, opens, ?_⟩, rfl, rfl⟩
    intro d leaf starts
    obtain ⟨k, there, within⟩ := exists_holder leaf
    have same := only k.id d.id (mem_placed.mpr ⟨k, there, d, within, rfl, rfl⟩) starts
    exact List.inj_on_of_nodup_map (nodup_leaves valid) leaf (mem_leaves_of_held known held) same.2
  · rintro ⟨g, c, one, rfl, rfl⟩
    have here : (g.id, c.id) ∈ m.placed := mem_placed.mpr ⟨g, one.known, c, one.held, rfl, rfl⟩
    refine ⟨here, one.opens, ?_⟩
    intro group condition place starts
    obtain ⟨k, there, d, within, rfl, rfl⟩ := mem_placed.mp place
    obtain rfl := one.only d (mem_leaves_of_held there within) starts
    have same := List.inj_on_of_nodup_map (nodup_placed valid) place here rfl
    exact ⟨congrArg Prod.fst same, rfl⟩

/-- An opening leads to a group if one group has it, and no other. -/
theorem exists_resolveGroup_iff (valid : m.Valid) :
    (∃ group, m.resolveGroup opening = .ok group) ↔
      ∃! g, g ∈ m.groups ∧ opening.toList <+: g.id.text.toList := by
  simp only [resolveGroup_eq_ok_iff valid]
  constructor
  · rintro ⟨_, g, one, _⟩
    exact ⟨g, ⟨one.known, one.opens⟩, fun k other => one.only k other.1 other.2⟩
  · rintro ⟨g, ⟨known, opens⟩, only⟩
    exact ⟨g.id, g, ⟨known, opens, fun k there starts => only k ⟨there, starts⟩⟩, rfl⟩

/-- An opening leads to a condition if one condition has it, and no other. -/
theorem exists_resolveCondition_iff (valid : m.Valid) :
    (∃ place, m.resolveCondition opening = .ok place) ↔
      ∃! c, c ∈ m.leaves ∧ opening.toList <+: c.id.text.toList := by
  simp only [Prod.exists, resolveCondition_eq_ok_iff valid]
  constructor
  · rintro ⟨_, _, g, c, one, _⟩
    exact ⟨c, ⟨mem_leaves_of_held one.known one.held, one.opens⟩,
      fun d other => one.only d other.1 other.2⟩
  · rintro ⟨c, ⟨leaf, opens⟩, only⟩
    obtain ⟨g, known, held⟩ := exists_holder leaf
    exact ⟨g.id, c.id, g, c, ⟨known, held, opens, fun d there starts => only d ⟨there, starts⟩⟩,
      rfl, rfl⟩

end Model

end FilterTree
