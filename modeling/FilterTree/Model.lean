import FilterTree.Node

namespace FilterTree

/-- A filter: its root groups in order, each a query of its own. -/
structure Model where
  roots : List Group
  deriving DecidableEq

namespace Model

def forest (m : Model) : Forest := m.roots.map .group

/-- The model whose roots are the groups of the row `f`. -/
def ofForest (f : Forest) : Model := ⟨f.filterMap Node.group?⟩

def leaves (m : Model) : List Condition := Forest.leaves m.forest

def leafCount (m : Model) : Nat := Forest.leafCount m.forest

def rootLeafCount? (m : Model) (index : Nat) : Option Nat :=
  m.roots[index]?.map fun root => Forest.leafCount root.children

/-- The groups in preorder, the roots among them. -/
def groups (m : Model) : List Group := Forest.groups m.forest

def ids (m : Model) : List NodeId := Forest.ids m.forest

/-- The first group in preorder with the identifier `id`. -/
def group? (m : Model) (id : NodeId) : Option Group := m.groups.find? (·.id = id)

/-- The condition `condition` directly inside the group `group`. -/
def condition? (m : Model) (group condition : NodeId) : Option Condition :=
  (m.group? group).bind fun g => Forest.condition? condition g.children

@[simp] theorem ofForest_forest (m : Model) : ofForest m.forest = m := by
  obtain ⟨roots⟩ := m
  simp only [ofForest, forest, mk.injEq]
  induction roots with
  | nil => rfl
  | cons g rest ih => simp only [List.map_cons, List.filterMap_cons, Node.group?, ih]

end Model

namespace Model

/-- What is wrong with root groups that make no valid model. -/
inductive Flaw where
  | noRoots
  | emptyGroup (id : NodeId)
  | repeatedId (id : NodeId)
  deriving DecidableEq

def Flaw.message : Flaw → String
  | .noRoots => "model has no root groups"
  | .emptyGroup id => "group " ++ id.text ++ " has no children"
  | .repeatedId id => "node id " ++ id.text ++ " appears more than once"

/-- There is a root, every group has a child, and all identifiers differ. -/
structure Valid (m : Model) : Prop where
  roots_ne_nil : m.roots ≠ []
  children_ne_nil : ∀ g ∈ m.groups, g.children ≠ []
  nodup_ids : m.ids.Nodup

end Model

mutual

def Node.visits : Node → List (NodeId × Bool)
  | .condition c => [(c.id, false)]
  | .group ⟨id, _, children⟩ => (id, children.isEmpty) :: Forest.visits children

/-- The identifiers of the forest in preorder, each with whether its group is childless. -/
def Forest.visits : List Node → List (NodeId × Bool)
  | [] => []
  | n :: rest => n.visits ++ Forest.visits rest

end

namespace Forest

/-- The first visit whose identifier was met before or that names a childless group. -/
def firstFlaw? (seen : List NodeId) : List (NodeId × Bool) → Option Model.Flaw
  | [] => none
  | (id, childless) :: rest =>
    if id ∈ seen then some (.repeatedId id)
    else if childless then some (.emptyGroup id)
    else firstFlaw? (id :: seen) rest

@[simp] theorem visits_nil : visits [] = [] := rfl

@[simp] theorem visits_condition (c : Condition) (rest : Forest) :
    visits (.condition c :: rest) = (c.id, false) :: visits rest := rfl

@[simp] theorem visits_group (g : Group) (rest : Forest) :
    visits (.group g :: rest) =
      (g.id, g.children.isEmpty) :: (visits g.children ++ visits rest) := rfl

end Forest

/-- The model with these roots, or its first flaw in preorder. Of two flaws at one node the repeated
identifier is reported. -/
def Model.ofRoots? (roots : List Group) : Except Model.Flaw Model :=
  if roots.isEmpty then .error .noRoots
  else
    match Forest.firstFlaw? [] (Forest.visits (roots.map .group)) with
    | some flaw => .error flaw
    | none => .ok ⟨roots⟩

end FilterTree
