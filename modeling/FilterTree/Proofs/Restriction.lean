import FilterTree.Proofs.Cutting
import Mathlib.Data.List.Nodup

/-!
# What a cut leaves

A cut walks through one root from left to right and counts down how many leaves it may still keep. What
it leaves is the root restricted to its first leaves.

* `Forest.spend`, `Model.cutByWalk`: the walk, with one budget for the whole root;
* `run_spend`, `cutByWalk_eq_cut`: it keeps the first leaves, and tells truly if that is all;
* `Forest.restrict`: a forest restricted to some of its leaves;
* `leaves_restrict`, `groups_restrict`: it has these leaves, and the groups above them;
* `keep_eq_restrict`: the first leaves are kept by a restriction;
* `cut_restricts`: what is left of a model.
-/

namespace FilterTree

/-! ## Counting down -/

/-- What a walk keeps of a row, and whether that is all of it. -/
structure Kept where
  row : Forest
  whole : Bool

mutual

/-- What is kept of the node. Each leaf takes one off the budget; a group is kept as it is, in part or,
without a leaf, not at all. -/
def Node.spend : Node → StateM Nat Kept
  | .condition c => do
    modify (· - 1)
    return ⟨[.condition c], true⟩
  | .group ⟨id, kind, children⟩ => do
    let kept ← Forest.spend children
    return if kept.whole then ⟨[.group ⟨id, kind, children⟩], true⟩
      else if kept.row.isEmpty then ⟨[], false⟩
      else ⟨[.group ⟨id, kind, kept.row⟩], false⟩

/-- What is kept of the row until the budget is spent. -/
def Forest.spend : List Node → StateM Nat Kept
  | [] => return ⟨[], true⟩
  | n :: rest => do
    if (← get) = 0 then return ⟨[], false⟩
    else
      let first ← n.spend
      let later ← Forest.spend rest
      return ⟨first.row ++ later.row, first.whole && later.whole⟩

end

/-- The cut as a walk through the root, with a counter that goes no further than `limit`. If no root
were left, the model would start again blank. -/
def Model.cutByWalk (limit : Nat) (fresh : Fresh) (m : Model) (root leaf : Nat) : Edited :=
  match m.roots[root]? with
  | none => ⟨m, false⟩
  | some g =>
    let kept := ((Node.group g).spend.run (min (leaf + 1) limit)).1
    if kept.whole ∧ ¬ root + 1 < m.roots.length then ⟨m, false⟩
    else
      match m.forest.take root ++ kept.row with
      | [] => ⟨.blank fresh, true⟩
      | row => ⟨.ofForest row, true⟩

namespace Forest

/-- What a walk over the row with this budget should come to: the first leaves, whether there are no
more, and what is left of the budget. -/
def spent (budget : Nat) (f : Forest) : Kept × Nat :=
  (⟨keep budget f, decide (leafCount f ≤ budget)⟩, budget - leafCount f)

theorem spent_zero {f : Forest} (full : Full f) (ne : f ≠ []) : spent 0 f = (⟨[], false⟩, 0) := by
  have more : ¬ leafCount f ≤ 0 := by
    have := leafCount_pos full ne
    omega
  rw [spent, keep_zero, decide_eq_false more, Nat.zero_sub]

theorem spent_cons (budget : Nat) (n : Node) (rest : Forest) :
    spent budget (n :: rest) =
      let (first, left) := spent budget [n]
      let (later, left) := spent left rest
      (⟨first.row ++ later.row, first.whole && later.whole⟩, left) := by
  have one : leafCount [n] = n.leafCount := Nat.add_zero _
  have sum : leafCount (n :: rest) = n.leafCount + leafCount rest := rfl
  have all : (decide (n.leafCount ≤ budget) && decide (leafCount rest ≤ budget - n.leafCount)) =
      decide (n.leafCount + leafCount rest ≤ budget) := by
    rw [← Bool.decide_and, decide_eq_decide]
    omega
  simp only [spent, one, sum, all, keep_cons, keep_nil, List.append_nil, Nat.sub_sub]

/-- A group is kept as its children are. -/
theorem run_spend_group {g : Group} {budget : Nat} (positive : budget ≠ 0) (full : Full [.group g])
    (below : (spend g.children).run budget = spent budget g.children) :
    (Node.group g).spend.run budget = spent budget [.group g] := by
  obtain ⟨inhabited, inner, _⟩ := (full_group g []).mp full
  have walk : (Node.group g).spend.run budget =
      let (kept, left) := (spend g.children).run budget
      (if kept.whole then ⟨[.group g], true⟩
        else if kept.row.isEmpty then ⟨[], false⟩
        else ⟨[.group { g with children := kept.row }], false⟩, left) := rfl
  rw [walk, below]
  simp only [spent, keep_group positive full, keep_nil, leafCount_group, leafCount_nil, Nat.add_zero]
  by_cases all : leafCount g.children ≤ budget
  · simp only [all, decide_true, ↓reduceIte, keep_of_le inner all]
  · have first : keep budget g.children ≠ [] := by
      intro gone
      have count := leafCount_keep budget g.children
      rw [gone, leafCount_nil] at count
      omega
    simp only [all, decide_false, Bool.false_eq_true, ↓reduceIte, List.isEmpty_iff, first]

/-- The walk keeps the first leaves. -/
theorem run_spend (budget : Nat) {f : Forest} (full : Full f) :
    (spend f).run budget = spent budget f := by
  induction f using induct generalizing budget with
  | nil => rfl
  | condition c rest ih =>
    cases budget with
    | zero => exact (spent_zero full (List.cons_ne_nil _ _)).symm
    | succ budget =>
      have walk : (spend (.condition c :: rest)).run (budget + 1) =
          let (later, left) := (spend rest).run budget
          (⟨.condition c :: later.row, later.whole⟩, left) := rfl
      have first : spent (budget + 1) [.condition c] = (⟨[.condition c], true⟩, budget) := by
        simp [spent, keep_condition]
      rw [walk, ih _ full, spent_cons, first]
      rfl
  | group g rest ihg ih =>
    cases budget with
    | zero => exact (spent_zero full (List.cons_ne_nil _ _)).symm
    | succ budget =>
      obtain ⟨one, later⟩ := (full_cons _ _).mp full
      have walk : (spend (.group g :: rest)).run (budget + 1) =
          let (first, left) := (Node.group g).spend.run (budget + 1)
          let (later, left) := (spend rest).run left
          (⟨first.row ++ later.row, first.whole && later.whole⟩, left) := rfl
      have below := ihg (budget + 1) ((full_group g rest).mp full).2.1
      rw [walk, run_spend_group (Nat.succ_ne_zero budget) one below, spent_cons _ _ rest]
      simp only [ih _ later]

/-- A budget that does not reach beyond the leaves may be cut off there. -/
theorem keep_min {n limit : Nat} {f : Forest} (full : Full f) (room : leafCount f ≤ limit) :
    keep (min n limit) f = keep n f := by
  rcases Nat.le_total n limit with within | beyond
  · rw [Nat.min_eq_left within]
  · rw [Nat.min_eq_right beyond, keep_of_le full room, keep_of_le full (Nat.le_trans room beyond)]

end Forest

def Group.keep (n : Nat) (g : Group) : Group := { g with children := Forest.keep n g.children }

namespace Model

variable {m : Model} {root : Nat} {g : Group}

theorem nodup_leaves_root (valid : m.Valid) (here : m.roots[root]? = some g) :
    (Forest.leaves g.children).Nodup := by
  have known : g ∈ m.groups :=
    Forest.mem_groups_of_mem (List.mem_map_of_mem (List.mem_of_getElem? here))
  have distinct := (nodup_leaves valid).sublist ((Forest.leaves_children_sublist known).map (·.id))
  exact distinct.of_map

theorem full_root (full : Forest.Full m.forest) (here : m.roots[root]? = some g) :
    Forest.Full [.group g] := by
  rw [forest_eq_of_root here, Forest.full_append, Forest.full_cons] at full
  exact full.2.1

/-- What a cut does at a root that is there. -/
theorem cut_eq (full : Forest.Full m.forest) (here : m.roots[root]? = some g) (leaf : Nat) :
    m.cut root leaf =
      if root + 1 < m.roots.length ∨ leaf + 1 < Forest.leafCount g.children then
        ⟨⟨m.roots.take root ++ [g.keep (leaf + 1)]⟩, true⟩
      else ⟨m, false⟩ := by
  obtain ⟨bound, rfl⟩ := List.getElem?_eq_some_iff.mp here
  have length : (m.roots.take root).length = root :=
    List.length_take_of_le (Nat.le_of_lt bound)
  have split : m.roots = m.roots.take root ++ m.roots[root] :: m.roots.drop (root + 1) := by
    rw [← List.drop_eq_getElem_cons bound, List.take_append_drop]
  have more : m.roots.drop (root + 1) ≠ [] ↔ root + 1 < m.roots.length := by
    rw [ne_eq, List.drop_eq_nil_iff, Nat.not_le]
  have cut : (⟨m.roots.take root ++ m.roots[root] :: m.roots.drop (root + 1)⟩ : Model).cut
      (m.roots.take root).length leaf = _ := cut_append (full_root full here)
  simp only [length, more] at cut
  rwa [← split] at cut

/-- A cut leaves the roots before its own and the first leaves of that one, be this a change or not. -/
theorem roots_cut (full : Forest.Full m.forest) (here : m.roots[root]? = some g) (leaf : Nat) :
    (m.cut root leaf).model.roots = m.roots.take root ++ [g.keep (leaf + 1)] := by
  rw [cut_eq full here]
  split
  · rfl
  · rename_i kept
    obtain ⟨bound, rfl⟩ := List.getElem?_eq_some_iff.mp here
    obtain ⟨last, all⟩ := not_or.mp kept
    have below := ((Forest.full_group _ []).mp (full_root full here)).2.1
    have whole : m.roots[root].keep (leaf + 1) = m.roots[root] := by
      rw [Group.keep, Forest.keep_of_le below (by omega)]
    rw [whole, List.take_append_getElem, List.take_of_length_le (by omega)]

/-- The same, as a row. -/
theorem forest_cut (full : Forest.Full m.forest) (here : m.roots[root]? = some g) (leaf : Nat) :
    (m.cut root leaf).model.forest =
      m.forest.take root ++ Forest.keep (leaf + 1) [.group g] := by
  have kept : Forest.keep (leaf + 1) [.group g] = [.group (g.keep (leaf + 1))] :=
    Forest.keep_group (Nat.succ_ne_zero leaf) (full_root full here)
  rw [forest, roots_cut full here, kept, List.map_append, List.map_take]
  rfl

theorem ids_cut_sublist (full : Forest.Full m.forest) (here : m.roots[root]? = some g)
    (leaf : Nat) : (m.cut root leaf).model.ids.Sublist m.ids := by
  have later : (Forest.ids [.group g]).Sublist
      (Forest.ids (.group g :: m.forest.drop (root + 1))) := by
    rw [Forest.ids_cons, Forest.ids_cons, Forest.ids_nil, List.append_nil]
    exact List.sublist_append_left _ _
  have first := (Forest.ids_keep_sublist (leaf + 1) [.group g]).trans later
  rw [ids, ids, forest_cut full here, Forest.ids_append]
  have whole := (List.Sublist.refl (Forest.ids (m.forest.take root))).append first
  rwa [← Forest.ids_append _ (.group g :: m.forest.drop (root + 1)), ← forest_eq_of_root here]
    at whole

/-- The walk makes the cut, as long as its counter goes as far as there are leaves below a root. No
model is left without roots. -/
theorem cutByWalk_eq_cut (full : Forest.Full m.forest) {limit : Nat}
    (room : ∀ g ∈ m.roots, Forest.leafCount g.children ≤ limit) (fresh : Fresh) (root leaf : Nat) :
    m.cutByWalk limit fresh root leaf = m.cut root leaf := by
  cases here : m.roots[root]? with
  | none => simp only [cutByWalk, cut, here]
  | some g =>
    have one := full_root full here
    obtain ⟨inhabited, below, _⟩ := (Forest.full_group g []).mp one
    have shown := Forest.leafCount_pos below inhabited
    have fits := room g (List.mem_of_getElem? here)
    have budget : min (leaf + 1) limit ≠ 0 := by omega
    have kept : Forest.keep (leaf + 1) [.group g] = [.group (g.keep (leaf + 1))] :=
      Forest.keep_group (Nat.succ_ne_zero leaf) one
    have walk := Forest.run_spend_group budget one (Forest.run_spend _ below)
    rw [Forest.spent, Forest.keep_min one (by simpa using fits), kept] at walk
    have row : m.forest.take root ++ [.group (g.keep (leaf + 1))] =
        (⟨m.roots.take root ++ [g.keep (leaf + 1)]⟩ : Model).forest := by
      simp [forest, List.map_take]
    have whole : decide (Forest.leafCount [.group g] ≤ min (leaf + 1) limit) = true ↔
        ¬ leaf + 1 < Forest.leafCount g.children := by
      rw [decide_eq_true_eq, Forest.leafCount_group, Forest.leafCount_nil]
      omega
    simp only [cut_eq full here, cutByWalk, here, walk, whole]
    by_cases dropped : root + 1 < m.roots.length ∨ leaf + 1 < Forest.leafCount g.children
    · rw [if_neg (by omega), if_pos dropped]
      split
      · rename_i gone
        exact absurd gone (by simp)
      · rw [row, ofForest_forest]
    · rw [if_pos (by omega), if_neg dropped]

end Model

/-! ## Restricting to leaves -/

section
variable (p : Condition → Bool)

mutual

def Node.restrict : Node → Forest
  | .condition c => if p c then [.condition c] else []
  | .group ⟨id, kind, children⟩ =>
    if (Forest.leaves children).any p then [.group ⟨id, kind, Forest.restrict children⟩] else []

/-- The forest restricted to the leaves that have the property. Each group over one of them stays, with
the children that are left to it, in their order. -/
def Forest.restrict : List Node → Forest
  | [] => []
  | n :: rest => n.restrict ++ Forest.restrict rest

end

end

namespace Forest

variable {p : Condition → Bool}

theorem restrict_condition (c : Condition) (rest : Forest) :
    restrict p (.condition c :: rest) = (if p c then [.condition c] else []) ++ restrict p rest := rfl

theorem restrict_group (g : Group) (rest : Forest) :
    restrict p (.group g :: rest) =
      (if (leaves g.children).any p then [.group { g with children := restrict p g.children }]
        else []) ++ restrict p rest := rfl

theorem leaves_restrict (p : Condition → Bool) (f : Forest) :
    leaves (restrict p f) = (leaves f).filter p := by
  induction f using induct with
  | nil => rfl
  | condition c rest ih =>
    rw [restrict_condition, leaves_append, ih, leaves_condition, List.filter_cons]
    split <;> rfl
  | group g rest ihg ih =>
    rw [restrict_group, leaves_append, ih, leaves_group, List.filter_append]
    congr 1
    split
    · rw [leaves_group, leaves_nil, List.append_nil, ihg]
    · rename_i lacks
      rw [List.any_eq_true] at lacks
      rw [leaves_nil, List.filter_eq_nil_iff.mpr fun c mem has => lacks ⟨c, mem, has⟩]

/-- The groups of a restricted forest are those over one of its leaves, each restricted. -/
theorem groups_restrict (p : Condition → Bool) (f : Forest) :
    groups (restrict p f) = ((groups f).filter fun g => (leaves g.children).any p).map
      fun g => { g with children := restrict p g.children } := by
  induction f using induct with
  | nil => rfl
  | condition c rest ih =>
    rw [restrict_condition, groups_append, ih, groups_condition]
    split <;> rfl
  | group g rest ihg ih =>
    rw [restrict_group, groups_append, ih, groups_group, List.filter_cons, List.filter_append]
    split
    · rw [List.map_cons, List.map_append, ← ihg]
      simp
    · rename_i lacks
      -- no group below can be over a leaf if the group itself is not
      have below : (groups g.children).filter (fun h => (leaves h.children).any p) = [] := by
        refine List.filter_eq_nil_iff.mpr fun h mem has => lacks ?_
        obtain ⟨c, leaf, has⟩ := List.any_eq_true.mp has
        exact List.any_eq_true.mpr ⟨c, (leaves_children_sublist mem).subset leaf, has⟩
      rw [below, List.nil_append, groups_nil, List.nil_append]

theorem restrict_eq_nil_iff {f : Forest} : restrict p f = [] ↔ (leaves f).any p = false := by
  induction f using induct with
  | nil => exact iff_of_true rfl rfl
  | condition c rest ih =>
    rw [restrict_condition, List.append_eq_nil_iff, ih, leaves_condition, List.any_cons,
      Bool.or_eq_false_iff]
    cases p c <;> simp
  | group g rest _ ih =>
    rw [restrict_group, List.append_eq_nil_iff, ih, leaves_group, List.any_append,
      Bool.or_eq_false_iff]
    cases (leaves g.children).any p <;> simp

/-- If a property holds of the first leaves and of no others, these are kept by a restriction. -/
theorem keep_eq_restrict {n : Nat} {f : Forest} (first : ∀ c ∈ (leaves f).take n, p c = true)
    (others : ∀ c ∈ (leaves f).drop n, p c = false) : keep n f = restrict p f := by
  induction f using induct generalizing n with
  | nil => rfl
  | condition c rest ih =>
    cases n with
    | zero =>
      rw [List.drop_zero, leaves_condition, List.forall_mem_cons] at others
      rw [keep_zero, restrict_condition, others.1, ← ih (n := 0) nofun others.2, keep_zero]
      rfl
    | succ n =>
      rw [leaves_condition, List.take_succ_cons, List.forall_mem_cons] at first
      rw [keep_condition, restrict_condition, first.1, ih first.2 others]
      rfl
  | group g rest ihg ih =>
    have count : (Node.group g).leafCount = (leaves g.children).length := (length_leaves _).symm
    rw [leaves_group, List.take_append, List.forall_mem_append] at first
    rw [leaves_group, List.drop_append, List.forall_mem_append] at others
    rw [keep_cons, restrict_group, count, ih first.2 others.2]
    congr 1
    have below := ihg first.1 others.1
    rcases Node.keep_group_cases n g with ⟨gone, kept⟩ | ⟨remains, kept⟩
    · rw [below, restrict_eq_nil_iff] at gone
      rw [kept, gone]
      rfl
    · rw [below, ne_eq, restrict_eq_nil_iff, Bool.not_eq_false] at remains
      rw [kept, remains, below]
      rfl

/-- The leaves of a list, if no leaf of the forest comes twice. -/
theorem keep_eq_restrict_take {f : Forest} (nodup : (leaves f).Nodup) (n : Nat) :
    keep n f = restrict (· ∈ (leaves f).take n) f := by
  apply keep_eq_restrict
  · intro c mem
    exact decide_eq_true mem
  · intro c later
    apply decide_eq_false
    intro earlier
    rw [← List.take_append_drop n (leaves f), List.nodup_append] at nodup
    exact nodup.2.2 c earlier c later rfl

end Forest

namespace Model

/-- **A cut restricts one root to its first leaves.** Cut an accepted model at leaf `leaf` of root
`root`. If there is no such root, nothing changes. Otherwise the roots before it are left as they are,
and then comes this root with its first `leaf + 1` leaves, or all it has: the groups above one of these
leaves are left, with their names and kinds and those of their children that are left. It is a change
unless the root is the last one and has no further leaf. No identifier is new. A walk that counts down
to the last leaf that is kept comes to the same, whatever its counter can hold beyond the number of
leaves, and whatever the identifiers with which it would begin anew. -/
theorem cut_restricts {m : Model} (accepted : m.Accepted) (root leaf : Nat) :
    (m.roots.length ≤ root → m.cut root leaf = ⟨m, false⟩) ∧
      (∀ g, m.roots[root]? = some g →
        let count := Forest.leafCount g.children
        let kept := (Forest.leaves g.children).take (min (leaf + 1) count)
        let left : Group := { g with children := Forest.restrict (· ∈ kept) g.children }
        (m.cut root leaf).model.roots = m.roots.take root ++ [left] ∧
          Forest.leaves left.children = kept ∧
          Forest.groups left.children =
            ((Forest.groups g.children).filter fun h =>
              (Forest.leaves h.children).any (· ∈ kept)).map
                (fun h => { h with children := Forest.restrict (· ∈ kept) h.children }) ∧
          ((m.cut root leaf).changed = true ↔
            root + 1 ≠ m.roots.length ∨ leaf + 1 < count)) ∧
      (m.cut root leaf).model.ids.Sublist m.ids ∧
      ∀ limit fresh, (∀ g ∈ m.roots, Forest.leafCount g.children ≤ limit) →
        m.cutByWalk limit fresh root leaf = m.cut root leaf := by
  have valid := accepted_iff_valid.mp accepted
  have full : Forest.Full m.forest := (valid_iff.mp valid).2.1
  have outside (beyond : m.roots.length ≤ root) : m.cut root leaf = ⟨m, false⟩ := by
    simp only [cut, List.getElem?_eq_none beyond]
  refine ⟨outside, ?_, ?_, fun limit fresh room => cutByWalk_eq_cut full room fresh root leaf⟩
  · intro g here count kept left
    obtain ⟨bound, _⟩ := List.getElem?_eq_some_iff.mp here
    have nodup := nodup_leaves_root valid here
    have first : kept = (Forest.leaves g.children).take (leaf + 1) := by
      rw [List.take_eq_take_min, Forest.length_leaves]
    have restricted : left = g.keep (leaf + 1) := by
      rw [Group.keep, Forest.keep_eq_restrict_take nodup, ← first]
    refine ⟨?_, ?_, Forest.groups_restrict _ _, ?_⟩
    · rw [restricted, roots_cut full here]
    · rw [restricted, Group.keep, Forest.leaves_keep, first]
    · rw [cut_eq full here]
      split
      · rename_i dropped
        exact iff_of_true rfl (dropped.imp_left (by omega))
      · rename_i whole
        refine iff_of_false Bool.false_ne_true ?_
        omega
  · rcases Nat.lt_or_ge root m.roots.length with bound | beyond
    · exact ids_cut_sublist full (List.getElem?_eq_getElem bound) leaf
    · rw [outside beyond]

/-- Two leaves of the first root are kept with the groups above them. A place past the end, as far as a
counter of 64 bits goes, leaves the root whole and drops the other one. -/
theorem cut_restricts_branching :
    let fresh : Fresh := ⟨⟨"r"⟩, ⟨"g"⟩, ⟨"k"⟩⟩
    let last := 18446744073709551615
    let one := branching.roots[0]
    let kept := (Forest.leaves one.children).take 2
    let left : Group := { one with children := Forest.restrict (· ∈ kept) one.children }
    branching.Accepted ∧ branching.roots[0]? = some one ∧
      (∀ g ∈ branching.roots, Forest.leafCount g.children ≤ last) ∧
      (branching.cut 0 1).model.roots = [left] ∧ Forest.leaves left.children = kept ∧
      (Forest.groups left.children).map (·.id) = [⟨"two"⟩, ⟨"three"⟩] ∧
      (branching.cut 0 1).changed = true ∧
      branching.cutByWalk last fresh 0 1 = branching.cut 0 1 ∧
      branching.cutByWalk last fresh 0 last = ⟨⟨[one]⟩, true⟩ := by
  intro fresh last one kept left
  have accepted : branching.Accepted := rfl
  have here : branching.roots[0]? = some one := rfl
  have room : ∀ g ∈ branching.roots, Forest.leafCount g.children ≤ last := by decide
  obtain ⟨_, inside, _, walk⟩ := cut_restricts accepted 0 1
  obtain ⟨roots, leaves, groups, changed⟩ := inside one here
  obtain ⟨_, _, _, walkOn⟩ := cut_restricts accepted 0 last
  have names : (Forest.groups left.children).map (·.id) = [⟨"two"⟩, ⟨"three"⟩] :=
    (congrArg (List.map (·.id)) groups).trans (by decide)
  exact ⟨accepted, here, room, roots, leaves, names, changed.mpr (.inl (by decide)),
    walk last fresh room, (walkOn last fresh room).trans rfl⟩

end Model

end FilterTree
