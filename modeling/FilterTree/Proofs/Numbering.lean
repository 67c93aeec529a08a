import FilterTree.Proofs.Cutting
import FilterTree.Proofs.Running
import Mathlib.Algebra.GroupWithZero.Nat

namespace FilterTree

section
variable (root : Nat)

mutual

def Node.walk (first : Option Join) : Node → StateM Nat (List Crumb)
  | .condition c => do
    let leaf ← getModify (· + 1)
    return [⟨root, leaf, c.id, first, c.label⟩]
  | .group ⟨_, kind, children⟩ => Forest.walk (some kind.join) first children

/-- The crumbs of the row, if `first` joins the first node and `later` every further one. -/
def Forest.walk (later first : Option Join) : List Node → StateM Nat (List Crumb)
  | [] => return []
  | n :: rest => do
    let here ← n.walk first
    let there ← Forest.walk later later rest
    return here ++ there

end

end

/-- The crumbs of all roots. The ordinals begin anew below each. -/
def Model.walk (m : Model) : List Crumb :=
  (m.roots.mapIdx fun root g =>
    (((Node.group g).walk root (if root = 0 then none else some .newQuery)).run 0).1).flatten

/-- The joined leaves as crumbs of the root, numbered from `start` on. -/
def Crumb.number (root start : Nat) (leaves : List (Option Join × Condition)) : List Crumb :=
  leaves.mapIdx fun i (join, c) => ⟨root, start + i, c.id, join, c.label⟩

/-- Where the leaf of the crumb stands: the root, and the ordinal below it. -/
def Crumb.place (crumb : Crumb) : Nat × Nat := (crumb.root, crumb.leaf)

namespace Crumb

variable {root start : Nat}

theorem number_append (xs ys : List (Option Join × Condition)) :
    number root start (xs ++ ys) = number root start xs ++ number root (start + xs.length) ys := by
  simp [number, List.mapIdx_append, Nat.add_left_comm, Nat.add_comm]

theorem map_place_number (xs : List (Option Join × Condition)) :
    (number root start xs).map place = (List.range xs.length).map fun i => (root, start + i) := by
  apply List.ext_getElem
  · simp [number]
  · intro i _ _
    simp [number, place]

end Crumb

namespace Forest

/-- The walk numbers the leaves with their joins. -/
theorem run_walk (root : Nat) (later first : Option Join) (f : Forest) (start : Nat) :
    (walk root later first f).run start =
      (Crumb.number root start (joined later first f), start + leafCount f) := by
  induction f using induct generalizing later first start with
  | nil => rfl
  | condition c rest ih =>
    have step : (walk root later first (.condition c :: rest)).run start =
        let (there, next) := (walk root later later rest).run (start + 1)
        (⟨root, start, c.id, first, c.label⟩ :: there, next) := rfl
    have number : Crumb.number root start (joined later first (.condition c :: rest)) =
        ⟨root, start, c.id, first, c.label⟩ ::
          Crumb.number root (start + 1) (joined later later rest) := Crumb.number_append [_] _
    rw [step, ih, number, leafCount_condition, Nat.add_assoc]
  | group g rest ihg ih =>
    have step : (walk root later first (.group g :: rest)).run start =
        let (here, next) := (walk root (some g.kind.join) first g.children).run start
        let (there, next) := (walk root later later rest).run next
        (here ++ there, next) := rfl
    rw [step, ihg]
    simp only [ih, joined_group, Crumb.number_append, length_joined, leafCount_group, Nat.add_assoc]

theorem leafCount_map_group (roots : List Group) :
    leafCount (roots.map .group) = (roots.map fun g => leafCount g.children).sum := by
  induction roots with
  | nil => rfl
  | cons g rest ih => rw [List.map_cons, leafCount_group, ih, List.map_cons, List.sum_cons]

end Forest

theorem Group.crumbs_eq_number (root : Nat) (g : Group) :
    g.crumbs root = Crumb.number root 0
      (Forest.joined (some g.kind.join) (if root = 0 then none else some .newQuery) g.children) := by
  simp only [Crumb.number, Nat.zero_add]
  rfl

namespace Model

/-- The walk makes the trail. -/
theorem walk_eq_trail (m : Model) : m.walk = m.trail := by
  have crumbs (root : Nat) (g : Group) :
      (((Node.group g).walk root (if root = 0 then none else some .newQuery)).run 0).1 =
        g.crumbs root := by
    rw [Group.crumbs_eq_number]
    exact congrArg Prod.fst (Forest.run_walk root _ _ g.children 0)
  simp only [walk, crumbs]
  rfl

/-- The places of the leaves: below each root in turn, the ordinals from 0 on. -/
def places (m : Model) : List (Nat × Nat) :=
  (List.range m.roots.length).flatMap fun root =>
    (List.range ((m.rootLeafCount? root).getD 0)).map fun leaf => (root, leaf)

theorem map_place_trail (m : Model) : m.trail.map Crumb.place = m.places := by
  obtain ⟨roots⟩ := m
  rw [trail_eq_flatten, List.map_flatten, places, List.flatMap_def]
  congr 1
  apply List.ext_getElem
  · simp
  · intro root bound _
    have here : root < roots.length := by simpa using bound
    simp [Group.crumbs_eq_number, Crumb.map_place_number, Forest.length_joined, rootLeafCount?, here]

theorem pairwise_root_trail (m : Model) : m.trail.Pairwise fun a b => a.root ≤ b.root := by
  have ordered : m.places.Pairwise fun p q => p.1 ≤ q.1 := by
    rw [places, List.pairwise_flatMap]
    constructor
    · intro root _
      simp [List.pairwise_map, List.pairwise_of_forall]
    · refine List.pairwise_lt_range.imp fun less p hp q hq => ?_
      obtain ⟨_, _, rfl⟩ := List.mem_map.mp hp
      obtain ⟨_, _, rfl⟩ := List.mem_map.mp hq
      exact Nat.le_of_lt less
  rwa [← map_place_trail, List.pairwise_map] at ordered

theorem rootLeafCount?_eq_none_iff {m : Model} {root : Nat} :
    m.rootLeafCount? root = none ↔ m.roots.length ≤ root := by
  rw [rootLeafCount?, Option.map_eq_none_iff, List.getElem?_eq_none_iff]

theorem leafCount_eq_sum (m : Model) :
    m.leafCount =
      ((List.range m.roots.length).map fun root => (m.rootLeafCount? root).getD 0).sum := by
  have counts : ((List.range m.roots.length).map fun root => (m.rootLeafCount? root).getD 0) =
      m.roots.map fun g => Forest.leafCount g.children := by
    apply List.ext_getElem
    · simp
    · intro root bound _
      have here : root < m.roots.length := by simpa using bound
      simp [rootLeafCount?, here]
  rw [counts]
  exact Forest.leafCount_map_group m.roots

theorem length_trail_eq (m : Model) : m.trail.length = m.leaves.length :=
  m.length_trail.trans (Forest.length_leaves m.forest).symm

/-- A crumb has the identifier of its leaf. -/
theorem id_eq_of_mem_zip {m : Model} : ∀ x ∈ m.trail.zip m.leaves, x.1.id = x.2.id := by
  apply List.map_inj_left.mp
  calc (m.trail.zip m.leaves).map (fun x => x.1.id)
      = ((m.trail.zip m.leaves).map Prod.fst).map (·.id) := by rw [List.map_map]; rfl
    _ = m.leaves.map (·.id) := by rw [List.map_fst_zip m.length_trail_eq.le, map_id_trail]
    _ = ((m.trail.zip m.leaves).map Prod.snd).map (·.id) := by
      rw [List.map_snd_zip m.length_trail_eq.ge]
    _ = (m.trail.zip m.leaves).map fun x => x.2.id := by rw [List.map_map]; rfl

/-- The incomplete conditions are named as their crumbs are. -/
theorem incomplete_eq_zip (m : Model) :
    m.incomplete =
      ((m.trail.zip m.leaves).filter fun (_, c) => c.field = "" ∨ c.operator = "").map (·.1.id) := by
  calc m.incomplete
      = (((m.trail.zip m.leaves).map Prod.snd).filter fun c => c.field = "" ∨ c.operator = "").map
          (·.id) := by rw [List.map_snd_zip m.length_trail_eq.ge, incomplete_eq]
    _ = ((m.trail.zip m.leaves).filter fun (_, c) => c.field = "" ∨ c.operator = "").map
          (·.2.id) := by rw [List.filter_map, List.map_map]; rfl
    _ = ((m.trail.zip m.leaves).filter fun (_, c) => c.field = "" ∨ c.operator = "").map
          (·.1.id) :=
      List.map_congr_left fun x mem => (id_eq_of_mem_zip x (List.mem_of_mem_filter mem)).symm

/-- **All ways through the leaves go by one order.** The trail has a crumb for each leaf, in the order of the
leaves and with their identifiers. The number of leaves is the sum of those below the roots, and such a
number is there for each root and for nothing past the last one. The crumbs of the roots come one root after
the other, and below a root they have the ordinals from 0 up to the number of its leaves. The incomplete
conditions are named by those crumbs whose condition has no field or no operator, in their order. A walk that
carries the next ordinal along makes the same trail. -/
theorem trail_numbers (m : Model) :
    m.trail.map (·.id) = m.leaves.map (·.id) ∧
      m.leafCount = m.trail.length ∧ m.leafCount = m.leaves.length ∧
      m.leafCount =
        ((List.range m.roots.length).map fun root => (m.rootLeafCount? root).getD 0).sum ∧
      (∀ root, m.rootLeafCount? root = none ↔ m.roots.length ≤ root) ∧
      m.trail.map Crumb.place = m.places ∧ m.trail.Pairwise (fun a b => a.root ≤ b.root) ∧
      m.incomplete =
        ((m.trail.zip m.leaves).filter fun (_, c) => c.field = "" ∨ c.operator = "").map (·.1.id) ∧
      m.incomplete.Sublist (m.trail.map (·.id)) ∧ m.walk = m.trail := by
  have named : m.incomplete.Sublist (m.trail.map (·.id)) := by
    rw [incomplete_eq, map_id_trail]
    exact List.filter_sublist.map _
  exact ⟨m.map_id_trail, m.length_trail.symm, (Forest.length_leaves m.forest).symm, m.leafCount_eq_sum,
    fun _ => rootLeafCount?_eq_none_iff, m.map_place_trail, m.pairwise_root_trail,
    m.incomplete_eq_zip, named, m.walk_eq_trail⟩

/-- Below the second root the ordinals begin anew. -/
example : branching.trail.map Crumb.place = [(0, 0), (0, 1), (0, 2), (0, 3), (1, 0), (1, 1)] := by
  decide

end Model

end FilterTree
