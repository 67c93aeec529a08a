import FilterTree.Trail
import FilterTree.Proofs.Row

namespace FilterTree

theorem Node.keep_group_cases (n : Nat) (g : Group) :
    Forest.keep n g.children = [] ∧ (Node.group g).keep n = [] ∨
      Forest.keep n g.children ≠ [] ∧
        (Node.group g).keep n = [.group { g with children := Forest.keep n g.children }] := by
  obtain ⟨id, kind, children⟩ := g
  simp only [Node.keep]
  split
  · rename_i gone
    exact .inl ⟨gone, rfl⟩
  · rename_i inhabited
    exact .inr ⟨inhabited, rfl⟩

namespace Forest

@[simp] theorem keep_nil (n : Nat) : keep n [] = [] := rfl

theorem keep_cons (n : Nat) (node : Node) (rest : Forest) :
    keep n (node :: rest) = node.keep n ++ keep (n - node.leafCount) rest := rfl

theorem leaves_keep (n : Nat) (f : Forest) : leaves (keep n f) = (leaves f).take n := by
  induction f using induct generalizing n with
  | nil => simp
  | condition c rest ih =>
    rw [keep_cons, leaves_append, ih, leaves_condition]
    cases n with
    | zero => simp [Node.keep]
    | succ n => simp [Node.keep, Node.leafCount]
  | group g rest ihg ih =>
    have count : (Node.group g).leafCount = (leaves g.children).length := (length_leaves _).symm
    rw [keep_cons, leaves_append, ih, leaves_group, List.take_append, count, ← ihg n]
    congr 1
    rcases Node.keep_group_cases n g with ⟨gone, kept⟩ | ⟨_, kept⟩
    · rw [kept, gone]
    · rw [kept, leaves_group, leaves_nil, List.append_nil]

theorem leafCount_keep (n : Nat) (f : Forest) : leafCount (keep n f) = min n (leafCount f) := by
  rw [← length_leaves, leaves_keep, List.length_take, length_leaves]

theorem full_keep (n : Nat) (f : Forest) : Full (keep n f) := by
  induction f using induct generalizing n with
  | nil => simp
  | condition c rest ih =>
    rw [keep_cons, full_append]
    refine ⟨?_, ih _⟩
    unfold Node.keep
    split <;> simp
  | group g rest ihg ih =>
    rw [keep_cons, full_append]
    refine ⟨?_, ih _⟩
    rcases Node.keep_group_cases n g with ⟨_, kept⟩ | ⟨inhabited, kept⟩
    · rw [kept]; exact full_nil
    · rw [kept, full_group]
      exact ⟨inhabited, ihg n, full_nil⟩

theorem ids_keep_sublist (n : Nat) (f : Forest) : (ids (keep n f)).Sublist (ids f) := by
  induction f using induct generalizing n with
  | nil => exact .slnil
  | condition c rest ih =>
    rw [keep_cons, ids_append, ids_cons]
    refine List.Sublist.append ?_ (ih _)
    unfold Node.keep
    split
    · exact List.nil_sublist _
    · exact .refl _
  | group g rest ihg ih =>
    rw [keep_cons, ids_append, ids_cons]
    refine List.Sublist.append ?_ (ih _)
    rcases Node.keep_group_cases n g with ⟨_, kept⟩ | ⟨_, kept⟩
    · rw [kept]; exact List.nil_sublist _
    · rw [kept, ids_group, ids_nil, List.append_nil]
      exact (ihg n).cons_cons g.id

theorem onlyGroups_keep_group (n : Nat) (g : Group) : OnlyGroups ((Node.group g).keep n) := by
  rcases Node.keep_group_cases n g with ⟨_, kept⟩ | ⟨_, kept⟩ <;> simp [kept]

end Forest

theorem Model.forest_eq_of_root {m : Model} {root : Nat} {g : Group} (h : m.roots[root]? = some g) :
    m.forest = m.forest.take root ++ .group g :: m.forest.drop (root + 1) := by
  obtain ⟨bound, rfl⟩ := List.getElem?_eq_some_iff.mp h
  have bound' : root < m.forest.length := by simpa [forest] using bound
  have here : m.forest[root] = .group m.roots[root] := by simp [forest]
  rw [← here, ← List.drop_eq_getElem_cons bound', List.take_append_drop]

end FilterTree
