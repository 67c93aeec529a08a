import FilterTree.Proofs.Restriction
import Mathlib.Data.Prod.Lex

namespace FilterTree

theorem Node.keep_group (n : Nat) (g : Group) :
    (Node.group g).keep n = if Forest.keep n g.children = [] then []
      else [.group { g with children := Forest.keep n g.children }] := by
  rcases Node.keep_group_cases n g with ⟨gone, kept⟩ | ⟨remains, kept⟩
  · rw [kept, if_pos gone]
  · rw [kept, if_neg remains]

namespace Forest

theorem keep_append (n : Nat) (f g : Forest) :
    keep n (f ++ g) = keep n f ++ keep (n - leafCount f) g := by
  induction f generalizing n with
  | nil => rfl
  | cons node rest ih =>
    have count : leafCount (node :: rest) = node.leafCount + leafCount rest := rfl
    rw [List.cons_append, keep_cons, ih, keep_cons, List.append_assoc, Nat.sub_sub, count]

/-- The first leaves of a row of first leaves, if it is so for the first node of the row. -/
theorem keep_keep_cons {node : Node} (first : ∀ n k, keep n (node.keep k) = node.keep (min k n))
    {rest : Forest} (later : ∀ n k, keep n (keep k rest) = keep (min k n) rest) (n k : Nat) :
    keep n (keep k (node :: rest)) = keep (min k n) (node :: rest) := by
  have count : leafCount (node.keep k) = min k node.leafCount := by
    have one : keep k [node] = node.keep k := List.append_nil _
    rw [← one, leafCount_keep]
    rfl
  have left : min (k - node.leafCount) (n - min k node.leafCount) = min k n - node.leafCount := by
    omega
  rw [keep_cons, keep_append, first, count, later, left, keep_cons]

theorem keep_keep (n k : Nat) (f : Forest) : keep n (keep k f) = keep (min k n) f := by
  induction f using induct generalizing n k with
  | nil => rfl
  | condition c rest ih =>
    refine keep_keep_cons (fun n k => ?_) ih n k
    cases k with
    | zero => rw [Nat.zero_min]; rfl
    | succ k =>
      cases n with
      | zero => rfl
      | succ n => rw [Nat.succ_min_succ]; rfl
  | group g rest ihg ih =>
    refine keep_keep_cons (fun n k => ?_) ih n k
    rw [Node.keep_group k, Node.keep_group (min k n), ← ihg n k]
    split
    · rename_i gone
      rw [gone, keep_nil, if_pos rfl]
    · rw [keep_cons, keep_nil, List.append_nil, Node.keep_group n]

end Forest

theorem Group.keep_keep (n k : Nat) (g : Group) : (g.keep k).keep n = g.keep (min k n) := by
  rw [keep, keep, keep, Forest.keep_keep]

namespace Model

/-- What a cut at the place leaves. -/
def upTo (m : Model) (place : Nat ×ₗ Nat) : Model :=
  (m.cut (ofLex place).1 (ofLex place).2).model

variable {m : Model}

/-- The roots that a cut leaves: those before the place, that of the place in part, and no other. -/
theorem getElem?_roots_upTo (full : Forest.Full m.forest) (place : Nat ×ₗ Nat) (i : Nat) :
    (m.upTo place).roots[i]? =
      if i < (ofLex place).1 then m.roots[i]?
      else if i = (ofLex place).1 then m.roots[i]?.map (Group.keep ((ofLex place).2 + 1))
      else none := by
  obtain ⟨root, leaf⟩ := place
  show (m.cut root leaf).model.roots[i]? =
    if i < root then m.roots[i]? else if i = root then m.roots[i]?.map (Group.keep (leaf + 1)) else none
  cases here : m.roots[root]? with
  | none =>
    have beyond := List.getElem?_eq_none_iff.mp here
    simp only [cut, here]
    split
    · rfl
    · have beyond : m.roots[i]? = none := List.getElem?_eq_none (by omega)
      rw [beyond, Option.map_none, ite_self]
  | some g =>
    have bound := (List.getElem?_eq_some_iff.mp here).1
    have length : (m.roots.take root).length = root := List.length_take_of_le (Nat.le_of_lt bound)
    rw [roots_cut full here, List.getElem?_append, length, List.getElem?_take]
    by_cases before : i < root
    · rw [if_pos before, if_pos before, if_pos before]
    by_cases there : i = root
    · rw [if_neg before, if_neg before, if_pos there, there, here, Nat.sub_self]
      rfl
    · rw [if_neg before, if_neg before, if_neg there]
      exact List.getElem?_eq_none (by simp only [List.length_singleton]; omega)

theorem full_upTo (full : Forest.Full m.forest) (place : Nat ×ₗ Nat) :
    Forest.Full (m.upTo place).forest := by
  obtain ⟨root, leaf⟩ := place
  show Forest.Full (m.cut root leaf).model.forest
  cases here : m.roots[root]? with
  | none =>
    simp only [cut, here]
    exact full
  | some g =>
    rw [forest_cut full here, Forest.full_append]
    have whole := full
    rw [forest_eq_of_root here, Forest.full_append] at whole
    exact ⟨whole.1, Forest.full_keep _ _⟩

/-- Of two cuts the earlier one decides about each root. -/
theorem getElem?_roots_upTo_upTo (full : Forest.Full m.forest) (p q : Nat ×ₗ Nat) (i : Nat) :
    ((m.upTo p).upTo q).roots[i]? = (m.upTo (min p q)).roots[i]? := by
  rw [getElem?_roots_upTo (full_upTo full p), getElem?_roots_upTo full,
    getElem?_roots_upTo full]
  have twice (n k : Nat) : (m.roots[i]?.map (Group.keep n)).map (Group.keep k) =
      m.roots[i]?.map (Group.keep (min n k)) := by
    rw [Option.map_map]
    congr 1
    funext g
    exact Group.keep_keep k n g
  rcases le_total p q with first | first
  · rw [min_eq_left first]
    rcases Prod.Lex.le_iff.mp first with before | ⟨same, shorter⟩
    -- the second cut is at a root that is gone
    · grind
    -- the second cut is in the same root, behind the last leaf that is left
    · have less : min ((ofLex p).2 + 1) ((ofLex q).2 + 1) = (ofLex p).2 + 1 := by omega
      rw [← same]
      grind
  · rw [min_eq_right first]
    rcases Prod.Lex.le_iff.mp first with before | ⟨same, shorter⟩
    -- the second cut is at a root that the first one left whole
    · grind
    -- the second cut is in the same root, before the last leaf that is left
    · have less : min ((ofLex p).2 + 1) ((ofLex q).2 + 1) = (ofLex q).2 + 1 := by omega
      rw [← same]
      grind

/-- **Of two cuts the earlier one decides.** Cut an accepted model at one place, and what is left at
another, be the places there or not. This leaves what a single cut leaves at the earlier place. So the
same cut made again leaves the model as it is, and the order of two cuts does not matter. -/
theorem upTo_upTo (accepted : m.Accepted) (p q : Nat ×ₗ Nat) :
    (m.upTo p).upTo q = m.upTo (min p q) ∧ (m.upTo p).upTo p = m.upTo p ∧
      (m.upTo p).upTo q = (m.upTo q).upTo p := by
  have full : Forest.Full m.forest := (valid_iff.mp (accepted_iff_valid.mp accepted)).2.1
  have both (p q : Nat ×ₗ Nat) : (m.upTo p).upTo q = m.upTo (min p q) :=
    congrArg Model.mk (List.ext_getElem? (getElem?_roots_upTo_upTo full p q))
  refine ⟨both p q, ?_, ?_⟩
  · rw [both, min_self]
  · rw [both, both, min_comm]

/-- Of a cut deep inside the first root and one at the second root the former decides. -/
theorem upTo_upTo_branching :
    let p : Nat ×ₗ Nat := toLex (1, 0)
    let q : Nat ×ₗ Nat := toLex (0, 1)
    branching.Accepted ∧ (branching.upTo p).upTo q = branching.upTo q ∧
      (branching.upTo q).upTo p = branching.upTo q ∧
      (branching.upTo q).leaves = branching.leaves.take 2 := by
  intro p q
  have accepted : branching.Accepted := rfl
  have earlier : min p q = q := min_eq_right (Prod.Lex.le_iff.mpr (.inl (by decide)))
  obtain ⟨both, _, swap⟩ := upTo_upTo accepted p q
  rw [earlier] at both
  exact ⟨accepted, both, swap.symm.trans both, by decide⟩

end Model

end FilterTree
