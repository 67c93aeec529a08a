import FilterTree.Model
import FilterTree.Text.Basic

/-!
# Encoded queries

The text of a filter: predicates joined by `^` in AND groups and by `^OR` in OR groups, and root
groups joined by `^NQ`. Groups are flattened: there are no brackets.
-/

namespace FilterTree

/-- What stands between the texts of a group's children. -/
def Kind.separator : Kind → String
  | .and => "^"
  | .or => "^OR"

/-- What stands between the texts of the roots. -/
def Model.separator : String := "^NQ"

/-- The predicate, or nothing if the condition is incomplete. -/
def Condition.encode (c : Condition) : String := if c.isComplete then c.predicate else ""

mutual

def Node.encode : Node → String
  | .condition c => c.encode
  | .group ⟨_, kind, children⟩ => Text.joinFilled kind.separator (Forest.encode children)

def Forest.encode : List Node → List String
  | [] => []
  | n :: rest => n.encode :: Forest.encode rest

end

def Group.encode (g : Group) : String := Text.joinFilled g.kind.separator (Forest.encode g.children)

namespace Model

/-- The text of the model; what is incomplete leaves no trace in it. -/
def encode (m : Model) : String := Text.joinFilled separator (Forest.encode m.forest)

/-- The identifiers of the incomplete conditions, from left to right. -/
def incomplete (m : Model) : List NodeId :=
  (m.leaves.filter fun c => !c.isComplete).map (·.id)

/-- The text of the model if every condition is complete. -/
def query? (m : Model) : Option String :=
  if m.leaves.all Condition.isComplete then some m.encode else none

end Model

end FilterTree
