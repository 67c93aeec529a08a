import FilterTree.Edit.Basic
import FilterTree.Fresh

/-!
# Editing conditions

A condition is patched, added, split off or deleted. An edit names the group and, if it needs one, a
condition directly inside it.

* `Model.update`: it counts as a change even if the patch sets what was there before.
* `Model.add`, `Model.addAfter`: a blank condition at the end of a group, and one beside a group. The
  first AND group among the later siblings takes the second; if there is none, a new AND group is put
  right after the group. Earlier siblings never take it.
* `Model.split`: a condition leaves its group for a new OR group that follows the group and holds the
  condition and a blank one. A group left without children is replaced by the OR group.
* `Model.delete`: the groups above the condition are tidied from the inside out. A group left without
  children goes too, neighbouring AND groups become one, and an OR group left with one child becomes an
  AND group. Groups that do not hold the condition stay as they are, and the roots are never joined.
-/

namespace FilterTree

/-- The first condition named `c` in the row, and the row without it. -/
def Forest.pluck? (c : NodeId) : Forest → Option (Condition × Forest)
  | [] => none
  | .condition d :: rest =>
    if d.id = c then some (d, rest)
    else (Forest.pluck? c rest).map fun (found, others) => (found, .condition d :: others)
  | .group g :: rest =>
    (Forest.pluck? c rest).map fun (found, others) => (found, .group g :: others)

def Forest.patch? (c : NodeId) (p : Patch) : Forest → Option Forest
  | [] => none
  | .condition d :: rest =>
    if d.id = c then some (.condition (d.patch p) :: rest)
    else (Forest.patch? c p rest).map (.condition d :: ·)
  | .group g :: rest => (Forest.patch? c p rest).map (.group g :: ·)

def Model.update (m : Model) (group condition : NodeId) (p : Patch) : Edited :=
  m.alter group fun g rest =>
    (Forest.patch? condition p g.children).map fun patched =>
      .group { g with children := patched } :: rest

def Group.append (g : Group) (c : Condition) : Group :=
  { g with children := g.children ++ [.condition c] }

/-- The row with `c` added to its first AND group. -/
def Forest.appendToAnd? (c : Condition) : Forest → Option Forest
  | [] => none
  | .condition d :: rest => (Forest.appendToAnd? c rest).map (.condition d :: ·)
  | .group g :: rest =>
    if g.kind = .and then some (.group (Group.append g c) :: rest)
    else (Forest.appendToAnd? c rest).map (.group g :: ·)

def Model.add (m : Model) (group : NodeId) (fresh : Fresh) : Edited :=
  m.alter group fun g rest => some (.group (Group.append g (.blank fresh.condition)) :: rest)

/-- The group `g` and the siblings after it with one more AND condition: in the first AND group among
them, or in a new one right after `g`. -/
def Group.growAfter (fresh : Fresh) (g : Group) (rest : Forest) : Forest :=
  .group g :: (Forest.appendToAnd? (.blank fresh.condition) rest).getD
    (.group (Group.blank .and fresh none) :: rest)

def Model.addAfter (m : Model) (group : NodeId) (fresh : Fresh) : Edited :=
  m.alterBeside group fun g rest => some (g.growAfter fresh rest)

/-- The group `g` without the condition `condition`, which stands with a blank one in a new OR group
after it. A group that is left without children is dropped. -/
def Group.splitOff? (condition : NodeId) (fresh : Fresh) (g : Group) (rest : Forest) :
    Option Forest :=
  (Forest.pluck? condition g.children).map fun (found, others) =>
    let lifted := Node.group (Group.blank .or fresh (some (.condition found)))
    if others.isEmpty then lifted :: rest
    else .group { g with children := others } :: lifted :: rest

def Model.split (m : Model) (group condition : NodeId) (fresh : Fresh) : Edited :=
  m.alterBeside group (Group.splitOff? condition fresh)

/-- The row `n :: rest`, with a leading pair of AND groups made into one under the first name. -/
def Node.absorb : Node → Forest → Forest
  | .group a, .group b :: rest =>
    if a.kind = .and ∧ b.kind = .and then
      .group { a with children := a.children ++ b.children } :: rest
    else .group a :: .group b :: rest
  | n, rest => n :: rest

/-- The row with each run of AND groups made into one group, named as the first and holding the
children of all. -/
def Forest.mergeAnds : Forest → Forest
  | [] => []
  | n :: rest => n.absorb (Forest.mergeAnds rest)

/-- What becomes of a group whose children are now `children`: nothing without children, otherwise
the group over the merged row, an AND group if that row has one node. -/
def Group.settle (id : NodeId) (kind : Kind) (children : Forest) : Forest :=
  match Forest.mergeAnds children with
  | [] => []
  | [n] => [.group ⟨id, .and, [n]⟩]
  | merged => [.group ⟨id, kind, merged⟩]

section
variable (group condition : NodeId)

mutual

def Node.delete? : Node → Option Forest
  | .condition _ => none
  | .group ⟨id, kind, children⟩ =>
    (if id = group then (Forest.pluck? condition children).map (·.2)
      else Forest.delete? children).map (Group.settle id kind)

/-- The forest without the condition `condition` of the group `group`. -/
def Forest.delete? : List Node → Option Forest
  | [] => none
  | n :: rest => n.delete?.map (· ++ rest) <|> (Forest.delete? rest).map (n :: ·)

end

end

namespace Forest

variable {group condition : NodeId}

@[simp] theorem delete?_nil : delete? group condition [] = none := rfl

@[simp] theorem delete?_condition (c : Condition) (rest : Forest) :
    delete? group condition (.condition c :: rest) =
      (delete? group condition rest).map (.condition c :: ·) := rfl

theorem delete?_group (g : Group) (rest : Forest) :
    delete? group condition (.group g :: rest) =
      (((if g.id = group then (pluck? condition g.children).map (·.2)
          else delete? group condition g.children).map
            (Group.settle g.id g.kind)).map (· ++ rest) <|>
        (delete? group condition rest).map (.group g :: ·)) := rfl

end Forest

def Model.delete (m : Model) (group condition : NodeId) (fresh : Fresh) : Edited :=
  match Forest.delete? group condition m.forest with
  | none => ⟨m, false⟩
  | some [] => ⟨.blank fresh, true⟩
  | some f => ⟨.ofForest f, true⟩

end FilterTree
