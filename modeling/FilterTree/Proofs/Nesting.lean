import FilterTree.Document.Model
import FilterTree.Proofs.Record
import FilterTree.Proofs.Step

/-!
# How deep a written model nests

Arrays and objects of a document may nest only so deep. A model that was read from a document is
written no deeper than that document was, and no edit puts a node deeper than nodes stood before.
-/

namespace FilterTree

open Document Json

namespace Json

theorem depth_le_of_mem_items {j : Json} {items : List Json} (h : j ∈ items) :
    j.depth ≤ depthItems items := by
  induction items with
  | nil => cases h
  | cons k rest ih =>
    rw [depthItems]
    rcases List.mem_cons.mp h with rfl | later
    · exact Nat.le_max_left _ _
    · exact Nat.le_trans (ih later) (Nat.le_max_right _ _)

theorem depth_le_of_mem_members {name : Option String} {j : Json}
    {members : List (Option String × Json)} (h : (name, j) ∈ members) :
    j.depth ≤ depthMembers members := by
  induction members with
  | nil => cases h
  | cons m rest ih =>
    rw [depthMembers]
    rcases List.mem_cons.mp h with rfl | later
    · exact Nat.le_max_left _ _
    · exact Nat.le_trans (ih later) (Nat.le_max_right _ _)

theorem depth_pos_of_record? {names : List String} {j : Json} {find : String → Option Json}
    (h : j.record? names = some find) : 0 < j.depth := by
  cases j with
  | array | object => exact Nat.succ_pos _
  | null | bool | number | text => cases h

/-- A member of a record nests less deep than the record. -/
theorem depth_lt_of_record? {names : List String} {j value : Json} {name : String}
    {find : String → Option Json} (h : j.record? names = some find)
    (found : find name = some value) : value.depth < j.depth := by
  cases j with
  | object members =>
    simp only [record?, Option.ite_none_right_eq_some, Option.some.injEq] at h
    obtain ⟨_, rfl⟩ := h
    obtain ⟨⟨_, _⟩, mem, rfl⟩ := Option.map_eq_some_iff.mp found
    exact Nat.lt_succ_of_le (depth_le_of_mem_members (List.mem_of_find?_eq_some mem))
  | array items =>
    simp only [record?, Option.ite_none_right_eq_some, Option.some.injEq] at h
    obtain ⟨_, rfl⟩ := h
    obtain ⟨⟨_, _⟩, mem, rfl⟩ := Option.map_eq_some_iff.mp found
    have item := (List.of_mem_zip (List.mem_of_find?_eq_some mem)).2
    exact Nat.lt_succ_of_le (depth_le_of_mem_items item)
  | null | bool | number | text => cases h

/-- What was read from the items of an array was read from one of them. -/
theorem exists_of_mem_mapM {α : Type} {read : Json → Option α} {items : List Json} {all : List α}
    (h : items.mapM read = some all) {a : α} (mem : a ∈ all) : ∃ j ∈ items, read j = some a := by
  induction items generalizing all with
  | nil =>
    rw [List.mapM_nil] at h
    cases h
    cases mem
  | cons j rest ih =>
    rw [List.mapM_cons] at h
    obtain ⟨first, here, h⟩ := Option.bind_eq_some_iff.mp h
    obtain ⟨others, there, h⟩ := Option.bind_eq_some_iff.mp h
    cases h
    rcases List.mem_cons.mp mem with rfl | later
    · exact ⟨j, List.mem_cons_self, here⟩
    · obtain ⟨k, hk, made⟩ := ih there later
      exact ⟨k, List.mem_cons_of_mem _ hk, made⟩

end Json

namespace Forest

theorem nesting_le_iff {f : Forest} {depth : Nat} :
    nesting f ≤ depth ↔ ∀ n ∈ f, nesting [n] ≤ depth := by
  constructor
  · intro h n hn
    exact Nat.le_trans (nesting_le_of_mem hn) h
  · intro h
    induction f with
    | nil => exact Nat.zero_le _
    | cons n rest ih =>
      obtain ⟨first, others⟩ := List.forall_mem_cons.mp h
      rw [nesting_cons, nesting_nil, Nat.max_zero] at first
      rw [nesting_cons]
      exact Nat.max_le.mpr ⟨first, ih others⟩

@[simp] theorem nesting_append (f g : Forest) :
    nesting (f ++ g) = max (nesting f) (nesting g) := by
  induction f with
  | nil => simp
  | cons n rest ih => rw [List.cons_append, nesting_cons, nesting_cons, ih, Nat.max_assoc]

theorem nesting_pos {f : Forest} (h : f ≠ []) : 0 < nesting f := by
  cases f with
  | nil => exact absurd rfl h
  | cons n rest =>
    cases n with
    | condition c => rw [nesting_condition]; omega
    | group g => rw [nesting_group]; omega

end Forest

/-! ## What was read -/

/-- The children of a group that was read were read from the items of its member `conditions`. -/
theorem Group.ofMembers?_conditions {inNode : Bool} {read : Json → Option Node}
    {find : String → Option Json} {g : Group} (h : ofMembers? inNode read find = some g) :
    ∃ items, find "conditions" = some (.array items) ∧ items.mapM read = some g.children := by
  obtain ⟨id, _, h⟩ := Option.bind_eq_some_iff.mp h
  obtain ⟨kind, _, h⟩ := Option.bind_eq_some_iff.mp h
  obtain ⟨children, made, h⟩ := Option.bind_eq_some_iff.mp h
  cases h
  obtain ⟨row, found, made⟩ := Option.bind_eq_some_iff.mp made
  cases row with
  | array items => exact ⟨items, found, made⟩
  | null | bool | number | text | object => cases made

/-- A node that was read is written no deeper than what it was read from. -/
theorem Node.nesting_of_ofRecord? {depth : Nat} {nested : Bool} {j : Json} {n : Node}
    (h : ofRecord? depth nested j = some n) : Forest.nesting [n] ≤ j.depth := by
  induction depth generalizing nested j n with
  | zero => cases h
  | succ depth ih =>
    obtain ⟨sort, _, h⟩ := Option.bind_eq_some_iff.mp h
    cases sort with
    | condition =>
      obtain ⟨find, record, h⟩ := Option.bind_eq_some_iff.mp h
      obtain ⟨c, _, h⟩ := Option.bind_eq_some_iff.mp h
      cases h
      rw [Forest.nesting_condition, Forest.nesting_nil]
      exact depth_pos_of_record? record
    | group =>
      obtain ⟨find, record, h⟩ := Option.bind_eq_some_iff.mp h
      obtain ⟨g, made, h⟩ := Option.bind_eq_some_iff.mp h
      cases h
      obtain ⟨items, found, children⟩ := Group.ofMembers?_conditions made
      -- each child nests no deeper than the item that it was read from
      have below : Forest.nesting g.children ≤ depthItems items := by
        rw [Forest.nesting_le_iff]
        intro n hn
        obtain ⟨k, hk, read⟩ := exists_of_mem_mapM children hn
        exact Nat.le_trans (ih read) (depth_le_of_mem_items hk)
      have row : depthItems items + 1 < j.depth := depth_lt_of_record? record found
      rw [Forest.nesting_group, Forest.nesting_nil]
      omega

theorem Node.nesting_of_ofJson? {above : Nat} {j : Json} {n : Node}
    (h : ofJson? above j = some n) : above + Forest.nesting [n] ≤ maxDepth := by
  unfold ofJson? at h
  split at h
  · rename_i taken
    have bound : above + j.depth ≤ maxDepth := of_decide_eq_true (Bool.and_eq_true_iff.mp taken).2
    have := nesting_of_ofRecord? h
    omega
  · cases h

namespace Model

theorem depth_toJson (m : Model) : m.toJson.depth = Forest.nesting m.forest + 1 := by
  obtain ⟨roots⟩ := m
  show depthItems (roots.map Group.toJson) + 1 = _
  congr 1
  induction roots with
  | nil => rfl
  | cons g rest ih =>
    rw [List.map_cons, depthItems, ih, Group.depth_toJson]
    exact (Forest.nesting_group g (rest.map .group)).symm

/-- Roots that were read are written no deeper than a document may nest. -/
theorem depth_of_rootsOfJson? {j : Json} {m : Model} (h : rootsOfJson? j = some m.roots) :
    m.toJson.depth ≤ maxDepth := by
  cases j with
  | null | bool | number | text | object => cases h
  | array items =>
    suffices Forest.nesting m.forest ≤ 126 by
      rw [depth_toJson]
      exact Nat.succ_le_succ this
    rw [Forest.nesting_le_iff]
    intro n hn
    obtain ⟨g, root, rfl⟩ := List.mem_map.mp hn
    obtain ⟨k, _, read⟩ := exists_of_mem_mapM h root
    obtain ⟨find, _, made⟩ := Option.bind_eq_some_iff.mp read
    obtain ⟨rows, _, children⟩ := Group.ofMembers?_conditions made
    have below : Forest.nesting g.children ≤ 124 := by
      rw [Forest.nesting_le_iff]
      intro n hn
      obtain ⟨k, _, read⟩ := exists_of_mem_mapM children hn
      have bound : 3 + Forest.nesting [n] ≤ 127 := Node.nesting_of_ofJson? read
      omega
    rw [Forest.nesting_group, Forest.nesting_nil]
    omega

end Model

/-! ## What was edited -/

namespace Forest

theorem nesting_of_rewrite {change : Forest → Forest → Prop}
    (row : ∀ f f', change f f' → Full f → nesting f' ≤ nesting f) {f f' : Forest}
    (h : Rewrite change f f') (full : Full f) : nesting f' ≤ nesting f := by
  induction h with
  | here made => exact row _ _ made full
  | after n _ ih =>
    have := ih ((full_cons n _).mp full).2
    rw [nesting_cons, nesting_cons]
    omega
  | inside g rest _ ih =>
    have := ih ((full_group g rest).mp full).2.1
    simp only [nesting_group]
    omega

theorem nesting_mergeAnds_le (f : Forest) : nesting (mergeAnds f) ≤ nesting f := by
  induction f using mergeAnds_induct with
  | nil => exact Nat.le_refl _
  | stay n rest _ ih =>
    rw [nesting_cons, nesting_cons]
    omega
  | fold a b rest after _ _ _ ih =>
    rw [nesting_group] at ih
    rw [nesting_group, nesting_append, nesting_group]
    omega

theorem nesting_settle_le (id : NodeId) (kind : Kind) (row : Forest) :
    nesting (Group.settle id kind row) ≤ nesting row + 2 := by
  have merged := nesting_mergeAnds_le row
  rcases Group.settle_cases id kind row with ⟨_, settled⟩ | ⟨_, kind', settled, _⟩
  · rw [settled]; exact Nat.zero_le _
  · simp only [settled, nesting_group, nesting_nil]
    omega

theorem Deletes.nesting_le {group condition : NodeId} {f row : Forest} {tidied : List Group}
    (h : Deletes group condition f row tidied) : nesting row ≤ nesting f := by
  induction h with
  | @here g d others rest _ found =>
    obtain ⟨before, after, _, children, rfl⟩ := pluck?_eq_some found
    have := nesting_settle_le g.id g.kind (before ++ after)
    simp only [nesting_append, nesting_group, children, nesting_condition] at this ⊢
    omega
  | @inside g row rest _ _ _ ih =>
    have := nesting_settle_le g.id g.kind row
    simp only [nesting_append, nesting_group] at this ⊢
    omega
  | after _ _ ih =>
    rw [nesting_cons, nesting_cons]
    omega

theorem nesting_keep_le (n : Nat) (f : Forest) : nesting (keep n f) ≤ nesting f := by
  induction f using induct generalizing n with
  | nil => exact Nat.le_refl _
  | condition c rest ih =>
    have := ih (n - (Node.condition c).leafCount)
    rw [keep_cons, nesting_append, nesting_condition]
    unfold Node.keep
    split
    · rw [nesting_nil]; omega
    · rw [nesting_condition, nesting_nil]; omega
  | group g rest ihg ih =>
    have := ih (n - (Node.group g).leafCount)
    have := ihg n
    rw [keep_cons, nesting_append, nesting_group]
    rcases Node.keep_group_cases n g with ⟨_, kept⟩ | ⟨_, kept⟩
    · rw [kept, nesting_nil]
      omega
    · simp only [kept, nesting_group, nesting_nil]
      omega

section
variable {patched : Condition → Patch → Prop} {fresh : Fresh}

/-- An edit puts a blank condition or a group of conditions only where a group with a child stands. -/
theorem nesting_of_rowEdit {row row' : Forest} (h : RowEdit patched fresh row row')
    (full : Full row) : nesting row' ≤ nesting row := by
  cases h with
  | patch _ children =>
    simp only [nesting_group, children, nesting_append, nesting_condition]
    exact Nat.le_refl _
  | append g rest =>
    have := nesting_pos ((full_group g rest).mp full).1
    simp only [Group.append, nesting_group, nesting_append, nesting_condition, nesting_nil]
    omega
  | appendLater g =>
    rw [full_group, full_append, full_group] at full
    have := nesting_pos full.2.2.2.1
    simp only [Group.append, nesting_group, nesting_append, nesting_condition, nesting_nil]
    omega
  | @insert g rest =>
    have := nesting_pos ((full_group g rest).mp full).1
    simp only [Group.blank, Option.toList_none, List.nil_append, nesting_group, nesting_condition,
      nesting_nil]
    omega
  | split children | lift children =>
    simp only [Group.blank, Option.toList_some, children, nesting_group, nesting_append,
      nesting_condition, nesting_nil]
    omega

theorem nesting_blank (fresh : Fresh) : nesting (Model.blank fresh).forest = 5 := by
  simp [Model.blank, Model.forest, Group.blank]

theorem nesting_of_step {f f' : Forest} (h : Step patched fresh f f') (full : Full f) :
    nesting f' ≤ max (nesting f) 5 := by
  cases h with
  | edit made =>
    have := nesting_of_rewrite (fun _ _ => nesting_of_rowEdit) made full
    omega
  | delete path _ =>
    have := path.nesting_le
    omega
  | cut before g after n =>
    have kept := nesting_keep_le (n + 1) [.group g]
    rw [keep_cons, keep_nil, List.append_nil, nesting_cons, nesting_nil] at kept
    rw [nesting_append, nesting_append, nesting_cons]
    omega
  | begin =>
    rw [nesting_blank]
    omega

end

end Forest

/-- No action but a replacement puts nodes deeper than nodes stood before or stand in a blank
model. -/
theorem Action.nesting_apply_le {m : Model} (valid : m.Valid) (fresh : Fresh) {a : Action}
    (h : a.isReplace = false) :
    Forest.nesting (a.apply fresh m).model.forest ≤ max (Forest.nesting m.forest) 5 := by
  rcases next_apply valid fresh h with same | step
  · rw [same]
    omega
  · exact Forest.nesting_of_step step (Model.valid_iff.mp valid).2.1

end FilterTree
