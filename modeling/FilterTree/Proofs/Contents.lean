import FilterTree.Proofs.Step

namespace FilterTree

namespace Forest

variable {P : Condition → Prop}

/-- All conditions of the forest, at any depth, have the property. -/
def Every (P : Condition → Prop) (f : Forest) : Prop := ∀ c ∈ leaves f, P c

@[simp] theorem every_nil : Every P [] := nofun

@[simp] theorem every_condition (c : Condition) (rest : Forest) :
    Every P (.condition c :: rest) ↔ P c ∧ Every P rest := by
  simp only [Every, leaves_condition, List.forall_mem_cons]

@[simp] theorem every_group (g : Group) (rest : Forest) :
    Every P (.group g :: rest) ↔ Every P g.children ∧ Every P rest := by
  simp only [Every, leaves_group, List.forall_mem_append]

@[simp] theorem every_append (f g : Forest) : Every P (f ++ g) ↔ Every P f ∧ Every P g := by
  simp only [Every, leaves_append, List.forall_mem_append]

theorem every_cons (n : Node) (rest : Forest) :
    Every P (n :: rest) ↔ Every P [n] ∧ Every P rest := every_append [n] rest

theorem every_of_rewrite {change : Forest → Forest → Prop}
    (row : ∀ f f', change f f' → Every P f → Every P f') {f f' : Forest}
    (h : Rewrite change f f') (every : Every P f) : Every P f' := by
  induction h with
  | here made => exact row _ _ made every
  | after n _ ih =>
    rw [every_cons] at every ⊢
    exact ⟨every.1, ih every.2⟩
  | inside g rest _ ih =>
    rw [every_group] at every ⊢
    exact ⟨ih every.1, every.2⟩

theorem every_keep (n : Nat) {node : Node} (every : Every P [node]) : Every P (node.keep n) := by
  intro c mem
  have kept := leaves_keep n [node]
  rw [keep_cons, keep_nil, List.append_nil] at kept
  rw [kept] at mem
  exact every c (List.mem_of_mem_take mem)

theorem every_blank {fresh : Fresh} (blank : P (.blank fresh.condition)) :
    Every P (Model.blank fresh).forest := by
  simpa [Model.forest, Model.blank, Group.blank] using blank

theorem every_mergeAnds {f : Forest} (every : Every P f) : Every P (mergeAnds f) := by
  induction f using mergeAnds_induct with
  | nil => exact every
  | stay n rest _ ih =>
    rw [every_cons] at every ⊢
    exact ⟨every.1, ih every.2⟩
  | fold a b rest after _ _ _ ih =>
    obtain ⟨first, later⟩ := (every_group a rest).mp every
    obtain ⟨second, others⟩ := (every_group b after).mp (ih later)
    rw [every_group, every_append]
    exact ⟨⟨first, second⟩, others⟩

theorem every_settle {id : NodeId} {kind : Kind} {row : Forest} (every : Every P row) :
    Every P (Group.settle id kind row) := by
  rcases Group.settle_cases id kind row with ⟨_, settled⟩ | ⟨_, kind', settled, _⟩
  · rw [settled]; exact every_nil
  · rw [settled, every_group]
    exact ⟨every_mergeAnds every, every_nil⟩

theorem Deletes.every {group condition : NodeId} {f row : Forest} {tidied : List Group}
    (h : Deletes group condition f row tidied) (every : Every P f) : Every P row := by
  induction h with
  | here _ found =>
    obtain ⟨before, after, _, children, rfl⟩ := pluck?_eq_some found
    rw [every_group, children, every_append, every_condition] at every
    rw [every_append]
    exact ⟨every_settle ((every_append _ _).mpr ⟨every.1.1, every.1.2.2⟩), every.2⟩
  | inside _ _ ih =>
    rw [every_group] at every
    rw [every_append]
    exact ⟨every_settle (ih every.1), every.2⟩
  | after _ _ ih =>
    rw [every_cons] at every ⊢
    exact ⟨every.1, ih every.2⟩

section
variable {patched : Condition → Patch → Prop} {fresh : Fresh}
  (kept : ∀ d p, patched d p → P d → P (d.patch p)) (blank : P (.blank fresh.condition))
include kept blank

theorem every_of_rowEdit {row row' : Forest} (h : RowEdit patched fresh row row')
    (every : Every P row) : Every P row' := by
  cases h with
  | @patch g before after rest d p related children =>
    rw [every_group, children, every_append, every_condition] at every
    rw [every_group, every_append, every_condition]
    exact ⟨⟨every.1.1, kept d p related every.1.2.1, every.1.2.2⟩, every.2⟩
  | append =>
    rw [every_group] at every
    simpa [Group.append] using ⟨⟨every.1, blank⟩, every.2⟩
  | appendLater =>
    rw [every_group, every_append, every_group] at every
    simpa [Group.append] using ⟨every.1, every.2.1, ⟨every.2.2.1, blank⟩, every.2.2.2⟩
  | insert =>
    rw [every_group] at every
    simpa [Group.blank] using ⟨every.1, blank, every.2⟩
  | split children =>
    rw [every_group, children, every_append, every_condition] at every
    simpa [Group.blank] using ⟨⟨every.1.1, every.1.2.2⟩, ⟨every.1.2.1, blank⟩, every.2⟩
  | lift children =>
    rw [every_group, children, every_condition] at every
    simpa [Group.blank] using ⟨⟨every.1.1, blank⟩, every.2⟩

theorem every_of_step {f f' : Forest} (h : Step patched fresh f f') (every : Every P f) :
    Every P f' := by
  cases h with
  | edit made => exact every_of_rewrite (fun _ _ => every_of_rowEdit kept blank) made every
  | delete path _ => exact path.every every
  | cut before g after n =>
    rw [every_append, every_cons] at every
    rw [every_append]
    exact ⟨every.1, every_keep (n + 1) every.2.1⟩
  | begin => exact every_blank blank

end

end Forest

/-- If all conditions of a model have a property, and so has the blank one of the batch, then an
action leaves conditions with the property, provided a patch keeps it of the condition that it
changes and the model is not replaced. -/
theorem Action.every_apply {P : Condition → Prop} {m : Model} (valid : m.Valid)
    (every : Forest.Every P m.forest) {fresh : Fresh} (blank : P (.blank fresh.condition))
    {a : Action} (h : a.isReplace = false)
    (kept : ∀ d p, a.Patches m d p → P d → P (d.patch p)) :
    Forest.Every P (a.apply fresh m).model.forest := by
  rcases next_apply valid fresh h with same | step
  · rwa [same]
  · exact Forest.every_of_step kept blank step every

end FilterTree
