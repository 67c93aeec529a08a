import FilterTree.Proofs.Lifetime
import FilterTree.Proofs.Targets

namespace FilterTree

/-- If no two entries of a list have the same key, taking out the key of one takes out this one. -/
theorem filter_key {α : Type} {key : α → NodeId} {before after : List α} {a : α}
    (nodup : ((before ++ a :: after).map key).Nodup) :
    (before ++ a :: after).filter (key · ≠ key a) = before ++ after := by
  have apart := (List.perm_middle.map key).nodup nodup
  rw [List.map_cons, List.nodup_cons] at apart
  have others : ∀ b ∈ before ++ after, decide (key b ≠ key a) = true := by
    intro b mem
    have other : key b ≠ key a := fun same => apart.1 (same ▸ List.mem_map_of_mem mem)
    exact decide_eq_true other
  rw [List.filter_append, List.filter_cons_of_neg (by simp), ← List.filter_append,
    List.filter_eq_self.mpr others]

namespace Model

def holder? (m : Model) (condition : NodeId) : Option Group :=
  m.groups.find? fun g => (Forest.condition? condition g.children).isSome

theorem holder?_of_mem {m : Model} {c : Condition} (mem : c ∈ m.leaves) :
    ∃ g ∈ m.groups, m.holder? c.id = some g ∧ (Forest.condition? c.id g.children).isSome = true := by
  obtain ⟨k, known, held⟩ := exists_holder mem
  have found : (Forest.condition? c.id k.children).isSome = true :=
    List.find?_isSome.mpr ⟨c, List.mem_filterMap.mpr ⟨_, held, rfl⟩, decide_eq_true rfl⟩
  have holds : (m.holder? c.id).isSome = true := List.find?_isSome.mpr ⟨k, known, found⟩
  obtain ⟨g, first⟩ := Option.isSome_iff_exists.mp holds
  refine ⟨g, List.mem_of_find?_eq_some first, first, ?_⟩
  simpa using List.find?_some first

def others (m : Model) (condition : NodeId) : List Condition := m.leaves.filter (·.id ≠ condition)

/-- What a deletion leaves in the row of roots is the conditions but one. -/
theorem others_of_deletes {m : Model} (valid : m.Valid) {group condition : NodeId} {row : Forest}
    {tidied : List Group} (path : Forest.Deletes group condition m.forest row tidied) :
    m.others condition = Forest.leaves row := by
  obtain ⟨before, d, after, whole, rfl, left⟩ := path.leaves_eq
  have nodup := nodup_leaves valid
  rw [leaves, whole] at nodup
  rw [others, leaves, whole, filter_key nodup, left]

/-- A deletion that finds its condition takes it out, and starts the model again if no row is left. -/
theorem exists_deletes {m : Model} (valid : m.Valid) {group condition : NodeId}
    (found : (m.condition? group condition).isSome = true) (fresh : Fresh) :
    ∃ row, Forest.Deletes group condition m.forest row (m.tidied group condition) ∧
      Forest.OnlyGroups row ∧
      m.delete group condition fresh = ⟨if row = [] then .blank fresh else .ofForest row, true⟩ := by
  have changed := (answers_delete valid group condition fresh).changed.trans found
  rcases m.delete_cases group condition fresh with ⟨_, _, kept⟩ | deleted
  · rw [kept] at changed
    cases changed
  · exact deleted

/-- A deletion that finds its condition leaves the others, and starts the model again if there are
none. -/
theorem exists_of_delete {m : Model} (valid : m.Valid) {group condition : NodeId}
    (found : (m.condition? group condition).isSome = true) (fresh : Fresh) :
    ∃ k, m.delete group condition fresh = ⟨k, true⟩ ∧
      (m.others condition ≠ [] → k.leaves = m.others condition) ∧
      (m.others condition = [] → k = .blank fresh) := by
  obtain ⟨row, path, groups, edited⟩ := exists_deletes valid found fresh
  have others := others_of_deletes valid path
  refine ⟨_, edited, ?_, ?_⟩
  · intro left
    rw [others] at left ⊢
    rw [if_neg (mt (congrArg Forest.leaves) left), leaves, forest_ofForest groups]
  · intro leafless
    -- a row that is not empty has a leaf, for no group in it is empty
    have full := path.full (valid_iff.mp valid).2.1
    have empty : row = [] := by
      by_contra ne
      have shown := Forest.leafCount_pos full ne
      rw [← Forest.length_leaves, ← others, leafless] at shown
      exact Nat.lt_irrefl 0 shown
    rw [if_pos empty]

end Model

namespace Draft

/-- The draft after the condition is deleted from the group that holds it, if this changes the
model. -/
def deleteLeaf? (d : Draft) (condition : NodeId) : Option Draft :=
  (d.model.holder? condition).bind fun g =>
    let (next, changed) := d.perform (.delete g.id condition)
    if changed then some next else none

/-- The draft after the conditions are deleted in the order of the list, if every deletion changes
the model. -/
def deleteEach? (d : Draft) (conditions : List NodeId) : Option Draft :=
  conditions.foldlM deleteLeaf? d

/-- The second draft is the first without a condition, and blank if that was the only one. -/
structure Loses (d : Draft) (condition : NodeId) (e : Draft) : Prop where
  sound : e.Sound
  spares : ∀ ids, d.supply.Spares ids → e.supply.Spares ids
  leaves : d.model.others condition ≠ [] → e.model.leaves = d.model.others condition
  blank : d.model.others condition = [] → e.model = .blank d.supply.next

theorem loses_of_mem {d : Draft} (sound : d.Sound) {c : Condition} (mem : c ∈ d.model.leaves) :
    ∃ e, d.deleteLeaf? c.id = some e ∧ d.Loses c.id e := by
  obtain ⟨g, known, holder, held⟩ := Model.holder?_of_mem mem
  have found : (d.model.condition? g.id c.id).isSome = true := by
    rw [Model.isSome_condition?, Model.group?_of_mem sound.valid known]
    exact held
  obtain ⟨k, deleted, leaves, blank⟩ := Model.exists_of_delete sound.valid found d.supply.next
  have performed : d.perform (.delete g.id c.id) = (⟨d.table, k, d.supply.rest⟩, true) := by
    simp only [perform, Action.apply, deleted, ↓reduceIte]
  have admissible : (Action.delete g.id c.id).Admissible Model.Accepted d.supply := trivial
  have next := sound_perform sound (fun _ => Model.accepted_iff_valid.mp) admissible
  rw [performed] at next
  refine ⟨⟨d.table, k, d.supply.rest⟩, ?_, next, fun _ => Supply.Spares.rest, leaves, blank⟩
  rw [deleteLeaf?, holder, Option.bind_some, performed]
  rfl

theorem deleteEach?_append_singleton (d : Draft) (done : List NodeId) (last : NodeId) :
    d.deleteEach? (done ++ [last]) = (d.deleteEach? done).bind (·.deleteLeaf? last) := by
  simp only [deleteEach?, List.foldlM_append, List.foldlM_cons, List.foldlM_nil, bind_pure]
  rfl

/-- The second draft is the first after the conditions of the list are deleted, and the others are
left. -/
structure Rest (d : Draft) (done : List NodeId) (e : Draft) : Prop where
  reached : d.deleteEach? done = some e
  sound : e.Sound
  spares : ∀ ids, d.supply.Spares ids → e.supply.Spares ids
  leaves : e.model.leaves = d.model.leaves.filter (·.id ∉ done)

section
variable {d e : Draft} {done todo : List NodeId}

/-- The identifiers of the conditions that are left, if the first ones of a list are deleted. -/
theorem perm_of_append (sound : d.Sound)
    (all : (done ++ todo).Perm (d.model.leaves.map (·.id))) :
    ((d.model.leaves.filter (·.id ∉ done)).map (·.id)).Perm todo := by
  have nodup : (done ++ todo).Nodup := all.nodup_iff.mpr (Model.nodup_leaves sound.valid)
  have apart := (List.nodup_append.mp nodup).2.2
  have dropped : (done ++ todo).filter (· ∉ done) = todo := by
    rw [List.filter_append, List.filter_eq_nil_iff.mpr (by simp), List.nil_append,
      List.filter_eq_self]
    intro id mem
    simpa using fun gone => apart id gone id mem rfl
  have kept := all.symm.filter (· ∉ done)
  rwa [List.filter_map, dropped] at kept

/-- The next condition of the list is still there, and its deletion leaves what is left by then. -/
theorem Rest.next {last : NodeId} (sound : d.Sound) (rest : d.Rest done e)
    (all : (done ++ last :: todo).Perm (d.model.leaves.map (·.id))) :
    ∃ e', d.deleteEach? (done ++ [last]) = some e' ∧ e.Loses last e' ∧
      e.model.others last = d.model.leaves.filter (·.id ∉ done ++ [last]) := by
  have left := perm_of_append sound all
  rw [← rest.leaves] at left
  obtain ⟨c, mem, rfl⟩ := List.mem_map.mp (left.symm.subset List.mem_cons_self)
  obtain ⟨e', deleted, loses⟩ := loses_of_mem rest.sound mem
  refine ⟨e', ?_, loses, ?_⟩
  · rw [deleteEach?_append_singleton, rest.reached, Option.bind_some, deleted]
  · rw [Model.others, rest.leaves, List.filter_filter]
    apply List.filter_congr
    simp [and_comm]

end

end Draft

end FilterTree
