import FilterTree.Edit.Conditions
import FilterTree.Proofs.Rewriting
import Mathlib.Data.List.Chain

/-!
# What a deletion tidies

A deletion goes down to the group of the condition and tidies every group on the way back up.

* `mergeAnds_induct`: a row is merged from its end; each node either stays as it is or, as an AND
  group before another, takes that one in;
* `mergeAnds_apart`, `mergeAnds_eq_self`: afterwards no two AND groups are neighbours, and a row where
  none are stays as it is;
* `Forest.Deletes`: a deletion as a path from a row down to the condition, with the groups tidied;
* `Forest.tidied`, `deletes_of_delete?`: the groups a given deletion tidies, each over the row that
  is left to it before it is tidied;
* `Model.delete_cases`: what becomes of the model.
-/

namespace FilterTree

namespace Forest

/-- A row without a `p` right before a `q`, read from its head. -/
theorem isChain_not_and_cons {p q : Node → Bool} {n : Node} {f : Forest} :
    (n :: f).IsChain (fun a b => ¬ (p a = true ∧ q b = true)) ↔
      (p n = true → ∀ b ∈ f.head?, q b = false) ∧
        f.IsChain fun a b => ¬ (p a = true ∧ q b = true) := by
  simp only [List.isChain_cons, not_and, Bool.not_eq_true]
  apply and_congr_left'
  constructor
  · intro h first b hb
    exact h b hb first
  · intro h b hb first
    exact h first b hb

/-- No two AND groups are neighbours in the row. -/
def Apart (f : Forest) : Prop := f.IsChain fun a b => ¬ (a.isAnd = true ∧ b.isAnd = true)

theorem apart_cons {n : Node} {f : Forest} :
    Apart (n :: f) ↔ (n.isAnd = true → ∀ b ∈ f.head?, b.isAnd = false) ∧ Apart f :=
  isChain_not_and_cons

theorem apart_append {f g : Forest} :
    Apart (f ++ g) ↔ Apart f ∧ Apart g ∧
      ∀ a ∈ f.getLast?, ∀ b ∈ g.head?, ¬ (a.isAnd = true ∧ b.isAnd = true) :=
  List.isChain_append

theorem isAnd_group {g : Group} : (Node.group g).isAnd = true ↔ g.kind = .and := by
  simp [Node.isAnd]

theorem absorb_of_apart {n : Node} {f : Forest}
    (h : n.isAnd = true → ∀ b ∈ f.head?, b.isAnd = false) : n.absorb f = n :: f := by
  cases n with
  | condition c => rfl
  | group a =>
    cases f with
    | nil => rfl
    | cons b after =>
      cases b with
      | condition c => rfl
      | group b =>
        have kinds : ¬ (a.kind = .and ∧ b.kind = .and) := by
          rintro ⟨ha, hb⟩
          have other := h (isAnd_group.mpr ha) (.group b) rfl
          rw [isAnd_group.mpr hb] at other
          cases other
        simp only [Node.absorb, kinds, ↓reduceIte]

theorem absorb_of_and {a b : Group} (ha : a.kind = .and) (hb : b.kind = .and) (after : Forest) :
    Node.absorb (.group a) (.group b :: after) =
      .group { a with children := a.children ++ b.children } :: after := by
  simp [Node.absorb, ha, hb]

/-- A row is merged from its end: a node is put before the merged rest of its row, or it is an AND
group and takes in the AND group with which that rest begins. -/
@[elab_as_elim]
theorem mergeAnds_induct {motive : Forest → Forest → Prop} (nil : motive [] [])
    (stay : ∀ n rest, (n.isAnd = true → ∀ b ∈ (mergeAnds rest).head?, b.isAnd = false) →
      motive rest (mergeAnds rest) → motive (n :: rest) (n :: mergeAnds rest))
    (fold : ∀ (a b : Group) rest after, a.kind = .and → b.kind = .and →
      mergeAnds rest = .group b :: after → motive rest (.group b :: after) →
      motive (.group a :: rest) (.group { a with children := a.children ++ b.children } :: after))
    (f : Forest) : motive f (mergeAnds f) := by
  induction f with
  | nil => exact nil
  | cons n rest ih =>
    show motive (n :: rest) (n.absorb (mergeAnds rest))
    by_cases apart : n.isAnd = true → ∀ b ∈ (mergeAnds rest).head?, b.isAnd = false
    · rw [absorb_of_apart apart]
      exact stay n rest apart ih
    · obtain ⟨and, b, head, band⟩ : n.isAnd = true ∧ ∃ b ∈ (mergeAnds rest).head?, b.isAnd = true := by
        simpa using apart
      obtain ⟨after, merged⟩ := List.head?_eq_some_iff.mp head
      cases n with
      | condition c => cases and
      | group a =>
        cases b with
        | condition c => cases band
        | group b =>
          rw [isAnd_group] at and band
          rw [merged] at ih ⊢
          rw [absorb_of_and and band]
          exact fold a b rest after and band merged ih

theorem mergeAnds_eq_nil {f : Forest} : mergeAnds f = [] ↔ f = [] := by
  induction f using mergeAnds_induct with
  | nil => simp
  | stay n rest => simp
  | fold a b rest after => simp

theorem mergeAnds_apart (f : Forest) : Apart (mergeAnds f) := by
  induction f using mergeAnds_induct with
  | nil => exact .nil
  | stay n rest apart ih => exact apart_cons.mpr ⟨apart, ih⟩
  | fold a b rest after ha hb _ ih =>
    obtain ⟨head, tail⟩ := apart_cons.mp ih
    exact apart_cons.mpr ⟨fun _ => head (isAnd_group.mpr hb), tail⟩

theorem mergeAnds_eq_self {f : Forest} (apart : Apart f) : mergeAnds f = f := by
  induction f with
  | nil => rfl
  | cons n rest ih =>
    obtain ⟨head, apart⟩ := apart_cons.mp apart
    show n.absorb (mergeAnds rest) = n :: rest
    rw [ih apart, absorb_of_apart head]

end Forest

namespace Group

/-- What is left of a group is nothing, or one group over the merged row, an AND group or one of
the old kind over more than one node. -/
theorem settle_cases (id : NodeId) (kind : Kind) (row : Forest) :
    row = [] ∧ settle id kind row = [] ∨
      row ≠ [] ∧ ∃ kind', settle id kind row = [.group ⟨id, kind', Forest.mergeAnds row⟩] ∧
        ((∃ n, Forest.mergeAnds row = [n]) ∧ kind' = .and ∨
          (Forest.mergeAnds row).length ≠ 1 ∧ kind' = kind) := by
  have empty := Forest.mergeAnds_eq_nil (f := row)
  unfold settle
  split
  · rename_i merged
    exact .inl ⟨empty.mp merged, rfl⟩
  · rename_i n merged
    refine .inr ⟨fun h => ?_, .and, by rw [merged], .inl ⟨⟨n, merged⟩, rfl⟩⟩
    rw [empty.mpr h] at merged
    cases merged
  · rename_i nonempty more
    refine .inr ⟨fun h => nonempty (empty.mpr h), kind, rfl, .inr ⟨?_, rfl⟩⟩
    intro one
    obtain ⟨n, merged⟩ := List.length_eq_one_iff.mp one
    exact more n merged

end Group

section
variable (group condition : NodeId)

mutual

def Node.tidied : Node → List Group
  | .condition _ => []
  | .group ⟨id, kind, children⟩ =>
    if id = group then
      (Forest.pluck? condition children).toList.map fun (_, others) => ⟨id, kind, others⟩
    else
      Forest.tidied children ++
        (Forest.delete? group condition children).toList.map fun row => ⟨id, kind, row⟩

/-- The groups of the forest that the deletion tidies. -/
def Forest.tidied : List Node → List Group
  | [] => []
  | n :: rest => if (n.delete? group condition).isSome then n.tidied else Forest.tidied rest

end

/-- Deleting the condition makes the second forest of the first and tidies the groups of the list,
the innermost first, each over the row that is left to it. -/
inductive Forest.Deletes : Forest → Forest → List Group → Prop where
  | here {g : Group} {d : Condition} {others rest : Forest} (same : g.id = group)
      (found : Forest.pluck? condition g.children = some (d, others)) :
      Deletes (.group g :: rest) (Group.settle g.id g.kind others ++ rest)
        [{ g with children := others }]
  | inside {g : Group} {row rest : Forest} {tidied : List Group} (other : g.id ≠ group)
      (step : Deletes g.children row tidied) :
      Deletes (.group g :: rest) (Group.settle g.id g.kind row ++ rest)
        (tidied ++ [{ g with children := row }])
  | after {n : Node} {f row : Forest} {tidied : List Group}
      (before : n.delete? group condition = none) (step : Deletes f row tidied) :
      Deletes (n :: f) (n :: row) tidied

end

namespace Forest

variable {group condition : NodeId}

theorem delete?_cons (n : Node) (rest : Forest) :
    delete? group condition (n :: rest) =
      ((n.delete? group condition).map (· ++ rest)).or
        ((delete? group condition rest).map (n :: ·)) := by
  rw [← Option.orElse_eq_or (f := fun _ => (delete? group condition rest).map (n :: ·))]
  rfl

theorem tidied_cons (n : Node) (rest : Forest) :
    tidied group condition (n :: rest) =
      if (n.delete? group condition).isSome then n.tidied group condition
      else tidied group condition rest := rfl

theorem tidied_eq_nil {f : Forest} (h : delete? group condition f = none) :
    tidied group condition f = [] := by
  induction f with
  | nil => rfl
  | cons n rest ih =>
    rw [delete?_cons, Option.or_eq_none_iff, Option.map_eq_none_iff, Option.map_eq_none_iff] at h
    rw [tidied_cons, h.1]
    exact ih h.2

theorem deletes_of_delete? {f row : Forest} (h : delete? group condition f = some row) :
    Deletes group condition f row (tidied group condition f) := by
  induction f using induct generalizing row with
  | nil => cases h
  | condition c rest ih =>
    obtain ⟨later, found, rfl⟩ := Option.map_eq_some_iff.mp h
    exact .after rfl (ih found)
  | group g rest ihg ih =>
    rw [delete?_cons] at h
    rw [tidied_cons]
    obtain ⟨id, kind, children⟩ := g
    cases within : (Node.group ⟨id, kind, children⟩).delete? group condition with
    | none =>
      rw [within, Option.map_none, Option.none_or] at h
      obtain ⟨after, found, rfl⟩ := Option.map_eq_some_iff.mp h
      exact .after within (ih found)
    | some settled =>
      rw [within, Option.map_some, Option.some_or] at h
      cases h
      simp only [Option.isSome_some, ↓reduceIte, Node.tidied]
      simp only [Node.delete?] at within
      split
      · rename_i same
        rw [if_pos same, Option.map_map, Option.map_eq_some_iff] at within
        obtain ⟨⟨d, others⟩, found, rfl⟩ := within
        simp only [found, Option.toList_some, List.map_cons, List.map_nil]
        exact .here (g := ⟨id, kind, children⟩) same found
      · rename_i other
        rw [if_neg other, Option.map_eq_some_iff] at within
        obtain ⟨below, found, rfl⟩ := within
        simp only [found, Option.toList_some, List.map_cons, List.map_nil]
        exact .inside (g := ⟨id, kind, children⟩) other (ihg found)

theorem count_ids_mergeAnds_le (id : NodeId) (f : Forest) :
    (ids (mergeAnds f)).count id ≤ (ids f).count id := by
  induction f using mergeAnds_induct with
  | nil => exact Nat.le_refl _
  | stay n rest _ ih =>
    simp only [ids_cons, List.count_append]
    omega
  | fold a b rest after _ _ _ ih =>
    simp only [ids_group, ids_append, List.count_cons, List.count_append] at ih ⊢
    omega

theorem full_mergeAnds {f : Forest} (h : Full f) : Full (mergeAnds f) := by
  induction f using mergeAnds_induct with
  | nil => exact h
  | stay n rest _ ih =>
    rw [full_cons] at h ⊢
    exact ⟨h.1, ih h.2⟩
  | fold a b rest after _ _ _ ih =>
    obtain ⟨ne, below, later⟩ := (full_group a rest).mp h
    obtain ⟨_, inner, outer⟩ := (full_group b after).mp (ih later)
    rw [full_group, full_append]
    exact ⟨by simp [ne], ⟨below, inner⟩, outer⟩

theorem leaves_mergeAnds (f : Forest) : leaves (mergeAnds f) = leaves f := by
  induction f using mergeAnds_induct with
  | nil => rfl
  | stay n rest _ ih => rw [leaves_cons, leaves_cons, ih]
  | fold a b rest after _ _ _ ih =>
    rw [leaves_group, leaves_append, List.append_assoc, leaves_group, ← ih, leaves_group]

theorem leaves_settle (id : NodeId) (kind : Kind) (row : Forest) :
    leaves (Group.settle id kind row) = leaves row := by
  rcases Group.settle_cases id kind row with ⟨rfl, settled⟩ | ⟨_, kind', settled, _⟩
  · rw [settled]
  · rw [settled, leaves_group, leaves_nil, List.append_nil, leaves_mergeAnds]

theorem count_ids_settle_le (id id' : NodeId) (kind : Kind) (row : Forest) :
    (ids (Group.settle id' kind row)).count id ≤ [id'].count id + (ids row).count id := by
  have merged := count_ids_mergeAnds_le id row
  rcases Group.settle_cases id' kind row with ⟨_, settled⟩ | ⟨_, kind', settled, _⟩
  · simp [settled]
  · simp only [settled, ids_group, ids_nil, List.append_nil, List.count_cons, List.count_nil]
    omega

theorem full_settle {id : NodeId} {kind : Kind} {row : Forest} (h : Full row) :
    Full (Group.settle id kind row) := by
  rcases Group.settle_cases id kind row with ⟨_, settled⟩ | ⟨ne, kind', settled, _⟩
  · rw [settled]; exact full_nil
  · rw [settled, full_group]
    exact ⟨fun h => ne (mergeAnds_eq_nil.mp h), full_mergeAnds h, full_nil⟩

theorem onlyGroups_settle (id : NodeId) (kind : Kind) (row : Forest) :
    OnlyGroups (Group.settle id kind row) := by
  rcases Group.settle_cases id kind row with ⟨_, settled⟩ | ⟨_, kind', settled, _⟩ <;> simp [settled]

section
variable {group condition : NodeId} {f row : Forest} {tidied : List Group}

theorem Deletes.count_ids_le (h : Deletes group condition f row tidied) (id : NodeId) :
    (ids row).count id ≤ (ids f).count id := by
  induction h with
  | @here g d others rest _ found =>
    obtain ⟨before, after, _, children, rfl⟩ := pluck?_eq_some found
    have := count_ids_settle_le id g.id g.kind (before ++ after)
    simp only [children, ids_append, ids_group, ids_condition, List.count_append,
      List.count_cons, List.count_nil] at this ⊢
    omega
  | @inside g row rest _ _ _ ih =>
    have := count_ids_settle_le id g.id g.kind row
    simp only [ids_append, ids_group, List.count_append, List.count_cons, List.count_nil] at this ⊢
    omega
  | after _ _ ih =>
    simp only [ids_cons, List.count_append]
    omega

/-- One condition goes out of the leaves, and the others stay in their order. -/
theorem Deletes.leaves_eq (h : Deletes group condition f row tidied) :
    ∃ before d after, leaves f = before ++ d :: after ∧ d.id = condition ∧
      leaves row = before ++ after := by
  induction h with
  | @here g d others rest _ found =>
    obtain ⟨before, after, located, children, rfl⟩ := pluck?_eq_some found
    refine ⟨leaves before, d, leaves after ++ leaves rest, ?_, (locate?_eq_some_iff.mp located).2.1, ?_⟩
    · rw [leaves_group, children, leaves_append, leaves_condition, List.append_assoc, List.cons_append]
    · rw [leaves_append, leaves_settle, leaves_append, List.append_assoc]
  | @inside g row rest _ _ _ ih =>
    obtain ⟨before, d, after, whole, same, left⟩ := ih
    refine ⟨before, d, after ++ leaves rest, ?_, same, ?_⟩
    · rw [leaves_group, whole, List.append_assoc, List.cons_append]
    · rw [leaves_append, leaves_settle, left, List.append_assoc]
  | @after n f row _ _ _ ih =>
    obtain ⟨before, d, after, whole, same, left⟩ := ih
    refine ⟨n.leaves ++ before, d, after, ?_, same, ?_⟩
    · rw [leaves_cons, whole, List.append_assoc]
    · rw [leaves_cons, left, List.append_assoc]

theorem Deletes.full (h : Deletes group condition f row tidied) (hf : Full f) : Full row := by
  induction h with
  | here _ found =>
    obtain ⟨before, after, _, children, rfl⟩ := pluck?_eq_some found
    rw [full_group, children] at hf
    rw [full_append]
    refine ⟨full_settle ?_, hf.2.2⟩
    simpa using hf.2.1
  | inside _ _ ih =>
    rw [full_group] at hf
    rw [full_append]
    exact ⟨full_settle (ih hf.2.1), hf.2.2⟩
  | after _ _ ih =>
    rw [full_cons] at hf ⊢
    exact ⟨hf.1, ih hf.2⟩

theorem Deletes.onlyGroups (h : Deletes group condition f row tidied) (hf : OnlyGroups f) :
    OnlyGroups row := by
  induction h with
  | here | inside =>
    rw [onlyGroups_append]
    exact ⟨onlyGroups_settle _ _ _, (onlyGroups_group _ _).mp hf⟩
  | after _ _ ih =>
    rw [onlyGroups_cons] at hf ⊢
    exact ⟨hf.1, ih hf.2⟩

end

end Forest

namespace Model

/-- The groups of the model that deleting the condition tidies, the innermost first, each over the
row that is left to it before it is tidied. -/
def tidied (m : Model) (group condition : NodeId) : List Group :=
  Forest.tidied group condition m.forest

/-- A deletion that finds nothing changes nothing; one that leaves no root starts the model again. -/
theorem delete_cases (m : Model) (group condition : NodeId) (fresh : Fresh) :
    Forest.delete? group condition m.forest = none ∧ m.tidied group condition = [] ∧
        m.delete group condition fresh = ⟨m, false⟩ ∨
      ∃ row, Forest.Deletes group condition m.forest row (m.tidied group condition) ∧
        Forest.OnlyGroups row ∧
        m.delete group condition fresh =
          ⟨if row = [] then .blank fresh else .ofForest row, true⟩ := by
  unfold delete
  cases found : Forest.delete? group condition m.forest with
  | none => exact .inl ⟨rfl, Forest.tidied_eq_nil found, rfl⟩
  | some row =>
    have path := Forest.deletes_of_delete? found
    refine .inr ⟨row, path, path.onlyGroups m.onlyGroups_forest, ?_⟩
    cases row with
    | nil => rfl
    | cons n rest => rfl

end Model

end FilterTree
