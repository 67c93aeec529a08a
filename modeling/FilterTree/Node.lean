import FilterTree.Condition

/-!
# Nodes and forests

A filter tree is built of groups, whose children are conditions and further groups. A forest is a
row of siblings: the children of one group, or the roots of a tree. Everything said about trees is
said about forests, by one recursion over a node and the row it stands in.
-/

namespace FilterTree

/-- How the children of a group are combined. -/
inductive Kind where
  | and
  | or
  deriving DecidableEq

/-- A group over children of the type `α`. -/
structure Branch (α : Type) where
  id : NodeId
  kind : Kind
  children : List α
  deriving DecidableEq

inductive Node where
  | condition (c : Condition)
  | group (g : Branch Node)

/-- A group of a filter tree; the order of its children is the order of query and display. -/
abbrev Group := Branch Node

/-- A row of sibling nodes. -/
abbrev Forest := List Node

namespace Node

def id : Node → NodeId
  | .condition c => c.id
  | .group g => g.id

def condition? : Node → Option Condition
  | .condition c => some c
  | .group _ => none

def group? : Node → Option Group
  | .condition _ => none
  | .group g => some g

def isAnd : Node → Bool
  | .condition _ => false
  | .group g => g.kind = .and

end Node

mutual

def Node.leaves : Node → List Condition
  | .condition c => [c]
  | .group ⟨_, _, children⟩ => Forest.leaves children

def Forest.leaves : List Node → List Condition
  | [] => []
  | n :: rest => n.leaves ++ Forest.leaves rest

end

mutual

def Node.leafCount : Node → Nat
  | .condition _ => 1
  | .group ⟨_, _, children⟩ => Forest.leafCount children

def Forest.leafCount : List Node → Nat
  | [] => 0
  | n :: rest => n.leafCount + Forest.leafCount rest

end

mutual

def Node.groups : Node → List Group
  | .condition _ => []
  | .group ⟨id, kind, children⟩ => ⟨id, kind, children⟩ :: Forest.groups children

/-- The groups of the forest, each before the groups below it. -/
def Forest.groups : List Node → List Group
  | [] => []
  | n :: rest => n.groups ++ Forest.groups rest

end

mutual

def Node.ids : Node → List NodeId
  | .condition c => [c.id]
  | .group ⟨id, _, children⟩ => id :: Forest.ids children

/-- The identifiers of the forest, each before those below it. -/
def Forest.ids : List Node → List NodeId
  | [] => []
  | n :: rest => n.ids ++ Forest.ids rest

end

mutual

def Node.decEq : (a b : Node) → Decidable (a = b)
  | .condition c, .condition d => decidable_of_iff (c = d) (by simp)
  | .condition _, .group _ => .isFalse nofun
  | .group _, .condition _ => .isFalse nofun
  | .group ⟨i, k, cs⟩, .group ⟨j, l, ds⟩ =>
    have := Forest.decEq cs ds
    decidable_of_iff (i = j ∧ k = l ∧ cs = ds) (by simp)

def Forest.decEq : (a b : List Node) → Decidable (a = b)
  | [], [] => .isTrue rfl
  | [], _ :: _ => .isFalse nofun
  | _ :: _, [] => .isFalse nofun
  | a :: as, b :: bs =>
    have := Node.decEq a b
    have := Forest.decEq as bs
    decidable_of_iff (a = b ∧ as = bs) (by simp)

end

instance : DecidableEq Node := Node.decEq

namespace Forest

/-- The first condition with the identifier `c` that stands in the row itself. -/
def condition? (c : NodeId) (f : Forest) : Option Condition :=
  (f.filterMap Node.condition?).find? (·.id = c)

@[simp] theorem leaves_nil : leaves [] = [] := rfl

@[simp] theorem leaves_condition (c : Condition) (rest : Forest) :
    leaves (.condition c :: rest) = c :: leaves rest := rfl

@[simp] theorem leaves_group (g : Group) (rest : Forest) :
    leaves (.group g :: rest) = leaves g.children ++ leaves rest := rfl

@[simp] theorem leafCount_nil : leafCount [] = 0 := rfl

@[simp] theorem leafCount_condition (c : Condition) (rest : Forest) :
    leafCount (.condition c :: rest) = 1 + leafCount rest := rfl

@[simp] theorem leafCount_group (g : Group) (rest : Forest) :
    leafCount (.group g :: rest) = leafCount g.children + leafCount rest := rfl

@[simp] theorem groups_nil : groups [] = [] := rfl

@[simp] theorem groups_condition (c : Condition) (rest : Forest) :
    groups (.condition c :: rest) = groups rest := rfl

@[simp] theorem groups_group (g : Group) (rest : Forest) :
    groups (.group g :: rest) = g :: (groups g.children ++ groups rest) := rfl

@[simp] theorem ids_nil : ids [] = [] := rfl

@[simp] theorem ids_condition (c : Condition) (rest : Forest) :
    ids (.condition c :: rest) = c.id :: ids rest := rfl

@[simp] theorem ids_group (g : Group) (rest : Forest) :
    ids (.group g :: rest) = g.id :: (ids g.children ++ ids rest) := rfl

/-- Induction over a forest and, at each group, over the forest of its children. -/
@[elab_as_elim]
theorem induct {motive : List Node → Prop} (nil : motive [])
    (condition : ∀ c rest, motive rest → motive (.condition c :: rest))
    (group : ∀ (g : Group) rest, motive g.children → motive rest → motive (.group g :: rest)) :
    ∀ f, motive f
  | [] => nil
  | .condition c :: rest => condition c rest (induct nil condition group rest)
  | .group ⟨id, kind, children⟩ :: rest =>
    group ⟨id, kind, children⟩ rest (induct nil condition group children)
      (induct nil condition group rest)

theorem length_leaves (f : Forest) : (leaves f).length = leafCount f := by
  induction f using induct with
  | nil => rfl
  | condition c rest ih => simp [ih, Nat.add_comm]
  | group g rest ihg ih => simp [ihg, ih]

end Forest

end FilterTree
