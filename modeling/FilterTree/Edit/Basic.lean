import FilterTree.Model

/-!
# Editing one group

Most edits find one group and make something else of it and the siblings after it. A patch changes
what is in the group, so the group itself is looked for. An insertion beside the group works on its
row, so the row is looked for: the roots are a row, and so are the children of each group.

* `Edited`: a model and whether it differs from the one before; an edit that finds nothing changes
  nothing.
* `Forest.alter?`, `Model.alter`: the forest with one group and the rest of its row changed, `none` if
  no group is found or the change declines.
* `Forest.alterRow?`, `Forest.alterBelow?`, `Model.alterBeside`: the same change, made by way of the
  row in which the group stands.
-/

namespace FilterTree

/-- The model after an edit, and whether the edit found what it was to change. -/
structure Edited where
  model : Model
  changed : Bool
  deriving DecidableEq

/-- The model of the new row of roots, or `m` as it was if there is none. -/
def Edited.ofForest (m : Model) : Option Forest → Edited
  | some f => ⟨.ofForest f, true⟩
  | none => ⟨m, false⟩

section
variable (target : NodeId) (change : Group → Forest → Option Forest)

mutual

/-- The row `n :: rest`, changed at the node `n` or below it. -/
def Node.alter? : Node → Forest → Option Forest
  | .condition _, _ => none
  | .group ⟨id, kind, children⟩, rest =>
    if id = target then change ⟨id, kind, children⟩ rest
    else (Forest.alter? children).map fun altered => .group ⟨id, kind, altered⟩ :: rest

/-- The forest with the group `target` and the siblings after it replaced by what `change` makes of
them. -/
def Forest.alter? : List Node → Option Forest
  | [] => none
  | n :: rest => n.alter? rest <|> (Forest.alter? rest).map (n :: ·)

end

end

namespace Forest

variable {target : NodeId} {change : Group → Forest → Option Forest}

@[simp] theorem alter?_condition (c : Condition) (rest : Forest) :
    alter? target change (.condition c :: rest) =
      (alter? target change rest).map (.condition c :: ·) := rfl

theorem alter?_group (g : Group) (rest : Forest) :
    alter? target change (.group g :: rest) =
      ((if g.id = target then change g rest
        else (alter? target change g.children).map fun altered =>
          .group { g with children := altered } :: rest) <|>
        (alter? target change rest).map (.group g :: ·)) := rfl

end Forest

def Model.alter (m : Model) (target : NodeId) (change : Group → Forest → Option Forest) : Edited :=
  .ofForest m (Forest.alter? target change m.forest)

/-- Whether the group `target` stands in the row itself. -/
def Forest.holds (target : NodeId) (f : Forest) : Bool := f.any fun n => n.group?.any (·.id = target)

section
variable (target : NodeId) (change : Group → Forest → Option Forest)

/-- The row with its first group named `target` and the siblings after it replaced by what `change`
makes of them. -/
def Forest.alterRow? : Forest → Option Forest
  | [] => none
  | .condition c :: rest => (Forest.alterRow? rest).map (.condition c :: ·)
  | .group g :: rest =>
    if g.id = target then change g rest else (Forest.alterRow? rest).map (.group g :: ·)

mutual

def Node.alterBelow? : Node → Option Node
  | .condition _ => none
  | .group ⟨id, kind, children⟩ =>
    (if Forest.holds target children then Forest.alterRow? target change children
      else Forest.alterBelow? children).map fun altered => .group ⟨id, kind, altered⟩

/-- The forest with a row of children changed, the first that holds the group `target`. -/
def Forest.alterBelow? : List Node → Option Forest
  | [] => none
  | n :: rest => n.alterBelow?.map (· :: rest) <|> (Forest.alterBelow? rest).map (n :: ·)

end

end

namespace Forest

variable {target : NodeId} {change : Group → Forest → Option Forest}

@[simp] theorem holds_nil : holds target [] = false := rfl

@[simp] theorem holds_condition (c : Condition) (rest : Forest) :
    holds target (.condition c :: rest) = holds target rest := rfl

@[simp] theorem holds_group (g : Group) (rest : Forest) :
    holds target (.group g :: rest) = (g.id = target || holds target rest) := rfl

@[simp] theorem alterBelow?_nil : alterBelow? target change [] = none := rfl

@[simp] theorem alterBelow?_condition (c : Condition) (rest : Forest) :
    alterBelow? target change (.condition c :: rest) =
      (alterBelow? target change rest).map (.condition c :: ·) := rfl

theorem alterBelow?_group (g : Group) (rest : Forest) :
    alterBelow? target change (.group g :: rest) =
      (((if holds target g.children then alterRow? target change g.children
          else alterBelow? target change g.children).map fun altered =>
            Node.group { g with children := altered }).map (· :: rest) <|>
        (alterBelow? target change rest).map (.group g :: ·)) := rfl

end Forest

/-- The model with the row in which the group `target` stands changed from that group on. It is sought
among the roots, and if it is none of these, among the children of each group. -/
def Model.alterBeside (m : Model) (target : NodeId) (change : Group → Forest → Option Forest) :
    Edited :=
  .ofForest m (if Forest.holds target m.forest then Forest.alterRow? target change m.forest
    else Forest.alterBelow? target change m.forest)

end FilterTree
