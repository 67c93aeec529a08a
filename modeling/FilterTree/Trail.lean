import FilterTree.Edit.Basic
import FilterTree.Text.Basic

/-!
# Trails and cuts

The trail of a model lists its leaves in display order. Each crumb gives the place of its leaf, what
joins it to the leaf before, and a label. A place is a root and the ordinal of a leaf below that root,
counted from 0. Cutting at a place keeps everything up to that leaf and drops what follows. Nothing is
tidied afterwards: a group keeps its kind even with a single child left, and only a group without a
kept leaf goes.
-/

namespace FilterTree

/-- What stands between a leaf and the one before it. -/
inductive Join where
  | and
  | or
  | newQuery
  deriving DecidableEq

def Kind.join : Kind → Join
  | .and => .and
  | .or => .or

/-- One leaf of a trail. Only the first crumb of a model has no join. -/
structure Crumb where
  root : Nat
  leaf : Nat
  id : NodeId
  join : Option Join
  label : String
  deriving DecidableEq

/-- The non-empty displayed parts, a space between each two. -/
def Condition.label (c : Condition) : String := Text.joinFilled " " c.display

mutual

def Node.joined (first : Option Join) : Node → List (Option Join × Condition)
  | .condition c => [(first, c)]
  | .group ⟨_, kind, children⟩ => Forest.joined (some kind.join) first children

/-- The leaves of the forest with their joins, if `first` joins the first node and `later` every
further one. -/
def Forest.joined (later first : Option Join) : List Node → List (Option Join × Condition)
  | [] => []
  | n :: rest => n.joined first ++ Forest.joined later later rest

end

def Group.trail (root : Nat) (first : Option Join) (g : Group) : List Crumb :=
  (Node.joined first (.group g)).mapIdx fun leaf (join, c) =>
    ⟨root, leaf, c.id, join, c.label⟩

/-- One crumb for each leaf, in display order. -/
def Model.trail (m : Model) : List Crumb :=
  (m.roots.mapIdx fun root g =>
    Group.trail root (if root = 0 then none else some .newQuery) g).flatten

mutual

def Node.keep (n : Nat) : Node → Forest
  | .condition c => if n = 0 then [] else [.condition c]
  | .group ⟨id, kind, children⟩ =>
    match Forest.keep n children with
    | [] => []
    | kept => [.group ⟨id, kind, kept⟩]

/-- The forest with its first `n` leaves; groups without a kept leaf are dropped. -/
def Forest.keep (n : Nat) : List Node → Forest
  | [] => []
  | node :: rest => node.keep n ++ Forest.keep (n - node.leafCount) rest

end

/-- The model up to the leaf `leaf` of the root `root`: the roots before it whole, that root with
its first `leaf + 1` leaves, and no root after it. A root past the end, or a place at the last leaf,
changes nothing. -/
def Model.cut (m : Model) (root leaf : Nat) : Edited :=
  match m.roots[root]? with
  | none => ⟨m, false⟩
  | some g =>
    if root + 1 < m.roots.length ∨ leaf + 1 < Forest.leafCount g.children then
      ⟨.ofForest ((m.forest.take root) ++ Node.keep (leaf + 1) (.group g)), true⟩
    else ⟨m, false⟩

end FilterTree
