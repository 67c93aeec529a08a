import FilterTree.Proofs.NormalForm
import FilterTree.Proofs.Placement
import FilterTree.Proofs.Relabelling

namespace FilterTree

/-- The condition patched, if it has the identifier. -/
def Condition.patchIf (condition : NodeId) (p : Patch) (c : Condition) : Condition :=
  if c.id = condition then c.patch p else c

namespace Condition

variable {condition : NodeId} {p : Patch} {c : Condition}

theorem patchIf_of_eq (same : c.id = condition) : c.patchIf condition p = c.patch p := if_pos same

theorem patchIf_of_ne (other : c.id ≠ condition) : c.patchIf condition p = c := if_neg other

theorem id_patchIf (condition : NodeId) (p : Patch) (c : Condition) :
    (c.patchIf condition p).id = c.id := by
  unfold patchIf
  split <;> rfl

theorem patchIf_patchIf (condition : NodeId) (p q : Patch) :
    patchIf condition q ∘ patchIf condition p = patchIf condition (p.andThen q) := by
  funext c
  by_cases same : c.id = condition
  · have same' : (c.patch p).id = condition := same
    rw [Function.comp_apply, patchIf_of_eq same, patchIf_of_eq same', patchIf_of_eq same,
      patch_andThen]
  · rw [Function.comp_apply, patchIf_of_ne same, patchIf_of_ne same, patchIf_of_ne same]

end Condition

namespace Forest

variable {condition : NodeId} {p : Patch}

theorem mapLeaves_patchIf_of_absent {f : Forest} (absent : condition ∉ ids f) :
    mapLeaves (Condition.patchIf condition p) f = f := by
  apply mapLeaves_eq_self
  intro c mem
  apply Condition.patchIf_of_ne
  intro same
  exact absent (same ▸ (ids_leaves_sublist f).subset (List.mem_map_of_mem mem))

/-- If a row is changed as its condition with the identifier is patched, the forest is changed so, for
no other condition has the identifier. -/
theorem eq_mapLeaves_of_rewrite {change : Forest → Forest → Prop}
    (row : ∀ f f', change f f' → (ids f).Nodup →
      condition ∈ ids f ∧ f' = mapLeaves (Condition.patchIf condition p) f)
    {f f' : Forest} (h : Rewrite change f f') (nodup : (ids f).Nodup) :
    condition ∈ ids f ∧ f' = mapLeaves (Condition.patchIf condition p) f := by
  induction h with
  | here made => exact row _ _ made nodup
  | @after n f f' _ ih =>
    rw [ids_cons, List.nodup_append] at nodup
    obtain ⟨_, later, apart⟩ := nodup
    obtain ⟨mem, rfl⟩ := ih later
    have first : mapLeaves (Condition.patchIf condition p) [n] = [n] := by
      apply mapLeaves_patchIf_of_absent
      intro here
      rw [ids_cons, ids_nil, List.append_nil] at here
      exact apart _ here _ mem rfl
    refine ⟨List.mem_append_right _ mem, ?_⟩
    show [n] ++ _ = mapLeaves _ ([n] ++ f)
    rw [mapLeaves_append, first]
  | @inside g rest f' _ ih =>
    rw [ids_group, List.nodup_cons, List.nodup_append] at nodup
    obtain ⟨_, below, _, apart⟩ := nodup
    obtain ⟨mem, rfl⟩ := ih below
    have later : mapLeaves (Condition.patchIf condition p) rest = rest := by
      apply mapLeaves_patchIf_of_absent
      intro there
      exact apart _ mem _ there rfl
    refine ⟨?_, by rw [mapLeaves_group, later]; rfl⟩
    rw [ids_group, List.mem_cons, List.mem_append]
    exact .inr (.inl mem)

/-- One condition of a group is patched, and neither the other children nor the rest of the row is. -/
theorem eq_mapLeaves_of_children {g : Group} {before after rest : Forest} {c : Condition}
    (nodup : (ids (.group g :: rest)).Nodup) (children : g.children = before ++ .condition c :: after) :
    c.id ∈ ids (.group g :: rest) ∧
      .group { g with children := before ++ .condition (c.patch p) :: after } :: rest =
        mapLeaves (Condition.patchIf c.id p) (.group g :: rest) := by
  have once := List.nodup_iff_count.mp nodup c.id
  simp only [ids_group, children, ids_append, ids_condition, List.count_cons, List.count_append,
    beq_self_eq_true, ↓reduceIte] at once
  have others : (ids before).count c.id = 0 ∧ (ids after).count c.id = 0 ∧
      (ids rest).count c.id = 0 := by omega
  simp only [List.count_eq_zero] at others
  obtain ⟨first, last, later⟩ := others
  constructor
  · simp [children]
  · simp only [mapLeaves_group, Group.mapLeaves, children, mapLeaves_append, mapLeaves_condition,
      mapLeaves_patchIf_of_absent first, mapLeaves_patchIf_of_absent last,
      mapLeaves_patchIf_of_absent later, Condition.patchIf_of_eq]

/-! ## Conditions that stay -/

/-- How many conditions of the forest have the identifier. -/
def countLeaf (condition : NodeId) (f : Forest) : Nat := ((leaves f).map (·.id)).count condition

@[simp] theorem countLeaf_nil : countLeaf condition [] = 0 := rfl

@[simp] theorem countLeaf_condition (c : Condition) (rest : Forest) :
    countLeaf condition (.condition c :: rest) =
      [c.id].count condition + countLeaf condition rest := by
  simp only [countLeaf, leaves_condition, List.map_cons, List.count_cons, List.count_nil]
  omega

@[simp] theorem countLeaf_append (f g : Forest) :
    countLeaf condition (f ++ g) = countLeaf condition f + countLeaf condition g := by
  simp only [countLeaf, leaves_append, List.map_append, List.count_append]

@[simp] theorem countLeaf_group (g : Group) (rest : Forest) :
    countLeaf condition (.group g :: rest) =
      countLeaf condition g.children + countLeaf condition rest := by
  simp only [countLeaf, leaves_group, List.map_append, List.count_append]

/-- A condition stays in the forest if it stays in the one row that is replaced. -/
theorem countLeaf_le_of_rewrite {change : Forest → Forest → Prop}
    (row : ∀ f f', change f f' → countLeaf condition f ≤ countLeaf condition f') {f f' : Forest}
    (h : Rewrite change f f') : countLeaf condition f ≤ countLeaf condition f' := by
  induction h with
  | here made => exact row _ _ made
  | @after n f f' _ ih =>
    have before : countLeaf condition (n :: f) = _ := countLeaf_append [n] f
    have after : countLeaf condition (n :: f') = _ := countLeaf_append [n] f'
    omega
  | inside g rest _ ih =>
    simp only [countLeaf_group]
    omega

theorem countLeaf_le_of_rowEdit {patched : Condition → Patch → Prop} {fresh : Fresh}
    {row row' : Forest} (h : RowEdit patched fresh row row') :
    countLeaf condition row ≤ countLeaf condition row' := by
  cases h with
  | patch _ children =>
    simp only [countLeaf_group, children, countLeaf_append, countLeaf_condition, Condition.id_patch]
    omega
  | append | appendLater =>
    simp only [Group.append, countLeaf_group, countLeaf_append]
    omega
  | insert =>
    simp only [countLeaf_group]
    omega
  | split children | lift children =>
    simp only [children, Group.blank, countLeaf_group, Option.toList_some, countLeaf_append,
      countLeaf_condition, countLeaf_nil]
    omega

end Forest

namespace Model

variable {m : Model} {group condition : NodeId} {p : Patch}

theorem update_eq_mapLeaves (valid : m.Valid)
    (found : (m.condition? group condition).isSome = true) (p : Patch) :
    m.update group condition p = ⟨m.mapLeaves (Condition.patchIf condition p), true⟩ := by
  obtain ⟨c, found⟩ := Option.isSome_iff_exists.mp found
  obtain ⟨g, known, held, rfl, rfl⟩ := held_of_condition? found
  obtain ⟨k, updated, before, after, children, path⟩ := patched_update valid known held p
  have whole : k.forest = Forest.mapLeaves (Condition.patchIf c.id p) m.forest := by
    refine (Forest.eq_mapLeaves_of_rewrite ?_ path valid.nodup_ids).2
    rintro row row' ⟨rest, rfl, rfl⟩ nodup
    exact Forest.eq_mapLeaves_of_children nodup children
  rw [updated, ← ofForest_forest k, whole, ← mapLeaves_ofForest, ofForest_forest]

/-- Patches the condition in the group that holds it. -/
def updateLeaf (m : Model) (condition : NodeId) (p : Patch) : Edited :=
  (m.holder? condition).elim ⟨m, false⟩ fun g => m.update g.id condition p

theorem updateLeaf_of_mem (valid : m.Valid) {c : Condition} (mem : c ∈ m.leaves) (p : Patch) :
    m.updateLeaf c.id p = ⟨m.mapLeaves (Condition.patchIf c.id p), true⟩ := by
  obtain ⟨g, known, holder, held⟩ := holder?_of_mem mem
  have found : (m.condition? g.id c.id).isSome = true := by
    rw [isSome_condition?, group?_of_mem valid known]
    exact held
  rw [updateLeaf, holder, Option.elim_some, update_eq_mapLeaves valid found]

theorem updateLeaf_of_absent (absent : ∀ c ∈ m.leaves, c.id ≠ condition) (p : Patch) :
    m.updateLeaf condition p = ⟨m, false⟩ := by
  have unheld : m.holder? condition = none := by
    apply List.find?_eq_none.mpr
    intro g known held
    obtain ⟨c, found⟩ := Option.isSome_iff_exists.mp held
    obtain ⟨mem, same⟩ := Forest.mem_of_condition? found
    exact absent c (mem_leaves_of_held known mem) same
  rw [updateLeaf, unheld, Option.elim_none]

end Model

namespace Action

/-- The action does not reach into the condition, and it does not put another model in the place of
the old one. -/
def PassesBy (condition : NodeId) : Action → Prop
  | .update _ other _ | .split _ other | .delete _ other => other ≠ condition
  | .add _ | .addAfter _ | .cut _ _ | .cutTo _ => True
  | .reset | .replace _ => False

def isCut : Action → Bool
  | .cut _ _ | .cutTo _ => true
  | _ => false

variable {condition : NodeId} {a : Action}

theorem PassesBy.isReplace (passes : a.PassesBy condition) : a.isReplace = false := by
  cases a with
  | replace m => exact passes.elim
  | _ => rfl

/-- What passes by a condition leaves it in the model, unless it is a cut. -/
theorem mem_leaves_apply {m : Model} {fresh : Fresh} (passes : a.PassesBy condition)
    (cuts : a.isCut = false) (mem : condition ∈ m.leaves.map (·.id)) :
    condition ∈ (a.apply fresh m).model.leaves.map (·.id) := by
  have reworked {k : Model} (h : m.Reworked (fun _ _ => True) fresh k) :
      condition ∈ k.leaves.map (·.id) := by
    rcases h with rfl | path
    · exact mem
    · have stays : Forest.countLeaf condition m.forest ≤ Forest.countLeaf condition k.forest :=
        Forest.countLeaf_le_of_rewrite (fun _ _ => Forest.countLeaf_le_of_rowEdit) path
      exact List.count_pos_iff.mp (Nat.lt_of_lt_of_le (List.count_pos_iff.mpr mem) stays)
  cases a with
  | update g c p => exact reworked (Model.reworked_update fun _ _ _ _ _ => trivial)
  | add g => exact reworked (Model.reworked_add g)
  | addAfter g => exact reworked (Model.reworked_addAfter g)
  | split g c => exact reworked (Model.reworked_split g c)
  | delete g c =>
    show condition ∈ (m.delete g c fresh).model.leaves.map (·.id)
    rcases m.delete_cases g c fresh with ⟨_, _, kept⟩ | ⟨row, path, groups, deleted⟩
    · rw [kept]
      exact mem
    · obtain ⟨before, d, after, whole, same, left⟩ := path.leaves_eq
      have other : condition ≠ d.id := fun here => passes (same.symm.trans here.symm)
      have stays : condition ∈ (Forest.leaves row).map (·.id) := by
        rw [Model.leaves, whole, List.map_append, List.map_cons, List.mem_append,
          List.mem_cons] at mem
        rw [left, List.map_append, List.mem_append]
        exact mem.imp_right (·.resolve_left other)
      have nonempty : row ≠ [] := by
        rintro rfl
        cases stays
      rw [deleted, if_neg nonempty, Model.leaves, Model.forest_ofForest groups]
      exact stays
  | cut root leaf => cases cuts
  | cutTo crumb => cases cuts
  | reset => exact passes.elim
  | replace k => exact passes.elim

end Action

namespace Model

variable {m : Model} {group condition : NodeId} {fresh : Fresh}

theorem mem_leaves_of_found (found : (m.condition? group condition).isSome = true) :
    condition ∈ m.leaves.map (·.id) := by
  obtain ⟨c, found⟩ := Option.isSome_iff_exists.mp found
  obtain ⟨g, known, held, _, rfl⟩ := held_of_condition? found
  exact List.mem_map_of_mem (mem_leaves_of_held known held)

/-- What passes by a condition comes to the same before the condition is patched, wherever it stands,
and after. -/
theorem apply_mapLeaves_patchIf (valid : m.Valid)
    (found : (m.condition? group condition).isSome = true)
    (unused : ∀ id ∈ fresh.ids, id ∉ m.ids) {a : Action} (passes : a.PassesBy condition)
    (p : Patch) :
    a.apply fresh (m.mapLeaves (Condition.patchIf condition p)) =
      (a.apply fresh m).mapLeaves (Condition.patchIf condition p) := by
  apply Action.apply_mapLeaves (Condition.id_patchIf condition p) valid
  · -- the blank condition is new, and the condition is not
    apply Condition.patchIf_of_ne
    intro same
    have same : fresh.condition = condition := same
    apply unused fresh.condition
    · simp [Fresh.ids]
    · rw [same]
      exact (Forest.ids_leaves_sublist m.forest).subset (mem_leaves_of_found found)
  · exact passes.isReplace
  · rintro g other q rfl d rfl
    have away : d.id ≠ condition := passes
    have away' : (d.patch q).id ≠ condition := passes
    rw [Condition.patchIf_of_ne away, Condition.patchIf_of_ne away']

/-- **A patch can be made at any time.** In an accepted model, if a condition is patched and something
is done then that passes by the condition, the model and the answer are the same as if it is done
first, with the same new identifiers, and the condition is patched in the group that holds it by then.
The condition is still there, unless a cut has dropped it: then there is nothing to patch. Two patches
of the condition are one, in which the second wins. -/
theorem update_commutes (accepted : m.Accepted) (distinct : fresh.ids.Nodup)
    (unused : ∀ id ∈ fresh.ids, id ∉ m.ids)
    (found : (m.condition? group condition).isSome = true) (p : Patch) :
    (∀ a : Action, a.PassesBy condition →
      let edited := a.apply fresh m
      let patched := edited.model.updateLeaf condition p
      a.apply fresh (m.update group condition p).model = ⟨patched.model, edited.changed⟩ ∧
        (patched.changed = true ↔ condition ∈ edited.model.leaves.map (·.id)) ∧
        (patched.changed = false → a.isCut = true ∧ patched.model = edited.model)) ∧
      ∀ q, (m.update group condition p).model.update group condition q =
        m.update group condition (p.andThen q) := by
  have valid := accepted_iff_valid.mp accepted
  have keeps := Condition.id_patchIf condition p
  rw [update_eq_mapLeaves valid found]
  constructor
  · intro a passes edited patched
    have valid' : edited.model.Valid := Action.valid_apply valid distinct unused passes.isReplace
    rw [apply_mapLeaves_patchIf valid found unused passes]
    by_cases left : condition ∈ edited.model.leaves.map (·.id)
    · have made : patched = ⟨edited.model.mapLeaves (Condition.patchIf condition p), true⟩ := by
        obtain ⟨c, mem, rfl⟩ := List.mem_map.mp left
        exact updateLeaf_of_mem valid' mem p
      rw [made]
      exact ⟨rfl, by simpa using left, nofun⟩
    · have absent : ∀ c ∈ edited.model.leaves, c.id ≠ condition := by
        intro c mem same
        exact left (same ▸ List.mem_map_of_mem mem)
      have kept : patched = ⟨edited.model, false⟩ := updateLeaf_of_absent absent p
      have same : edited.model.mapLeaves (Condition.patchIf condition p) = edited.model :=
        mapLeaves_eq_self fun c mem => Condition.patchIf_of_ne (absent c mem)
      have cuts : a.isCut = true := by
        by_contra other
        rw [Bool.not_eq_true] at other
        exact left (Action.mem_leaves_apply passes other (mem_leaves_of_found found))
      rw [kept]
      refine ⟨?_, by simpa using left, fun _ => ⟨cuts, rfl⟩⟩
      show Edited.mk _ edited.changed = _
      rw [same]
  · intro q
    have found' : ((m.mapLeaves (Condition.patchIf condition p)).condition? group condition).isSome =
        true := by
      rw [condition?_mapLeaves keeps, Option.isSome_map, found]
    rw [update_eq_mapLeaves (valid_mapLeaves keeps valid) found', mapLeaves_mapLeaves,
      Condition.patchIf_patchIf, update_eq_mapLeaves valid found]

/-- The group of the condition goes into another group when a condition between them is deleted, and
the condition is patched there; a cut after the first condition drops it. Of two patches the second
wins where both set a part. -/
theorem update_commutes_meeting :
    let fresh : Fresh := ⟨⟨"r"⟩, ⟨"g"⟩, ⟨"k"⟩⟩
    let p : Patch := { operator := some "<", value := some "2", displayValue := some (some "two") }
    let q : Patch := { value := some "3", displayValue := some none }
    let patched := (meeting.update ⟨"right"⟩ ⟨"e"⟩ p).model
    let edited := (meeting.delete ⟨"root"⟩ ⟨"c"⟩ fresh).model
    meeting.Accepted ∧ fresh.ids.Nodup ∧ (∀ id ∈ fresh.ids, id ∉ meeting.ids) ∧
      (meeting.condition? ⟨"right"⟩ ⟨"e"⟩).isSome = true ∧
      (edited.holder? ⟨"e"⟩).map (·.id) = some ⟨"left"⟩ ∧
      patched.delete ⟨"root"⟩ ⟨"c"⟩ fresh = ⟨(edited.updateLeaf ⟨"e"⟩ p).model, true⟩ ∧
      (edited.updateLeaf ⟨"e"⟩ p).changed = true ∧
      (edited.updateLeaf ⟨"e"⟩ p).model.leaf? ⟨"e"⟩ = some
        { id := ⟨"e"⟩, field := "e", operator := "<", value := "2", displayValue := some "two" } ∧
      patched.cut 0 0 = ⟨(meeting.cut 0 0).model, true⟩ ∧
      patched.update ⟨"right"⟩ ⟨"e"⟩ q = meeting.update ⟨"right"⟩ ⟨"e"⟩ (p.andThen q) ∧
      (patched.update ⟨"right"⟩ ⟨"e"⟩ q).model.leaf? ⟨"e"⟩ = some
        { id := ⟨"e"⟩, field := "e", operator := "<", value := "3" } := by
  intro fresh p q patched edited
  have accepted : meeting.Accepted := accepted_iff_valid.mpr (by constructor <;> decide)
  have distinct : fresh.ids.Nodup := by decide
  have unused : ∀ id ∈ fresh.ids, id ∉ meeting.ids := by decide
  have found : (meeting.condition? ⟨"right"⟩ ⟨"e"⟩).isSome = true := by decide
  obtain ⟨passing, twice⟩ := update_commutes accepted distinct unused found p
  have other : (⟨"c"⟩ : NodeId) ≠ ⟨"e"⟩ := by decide
  obtain ⟨deleted, left, _⟩ := passing (.delete ⟨"root"⟩ ⟨"c"⟩) other
  obtain ⟨cut, _, kept⟩ := passing (.cut 0 0) trivial
  have there : (⟨"e"⟩ : NodeId) ∈ edited.leaves.map (·.id) := by decide
  have gone : ((meeting.cut 0 0).model.updateLeaf ⟨"e"⟩ p).changed = false := by decide
  have same := (kept gone).2
  exact ⟨accepted, distinct, unused, found, by decide, deleted, left.mpr there, by decide,
    cut.trans (congrArg (Edited.mk · true) same), twice q, by decide⟩

end Model

end FilterTree
