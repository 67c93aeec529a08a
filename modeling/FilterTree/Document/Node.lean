import FilterTree.Node
import FilterTree.Json.Basic

/-!
# Nodes as documents

The written form of conditions, groups and nodes. A node is the record of its condition or group
with a further member `kind` in front. A node is taken in as a whole before its parts are read:
every text and number in it has to be plain, also where a member is passed over, and its nesting is
limited.
-/

namespace FilterTree

namespace Document

/-- Arrays and objects of a document nest at most this deep. -/
def maxDepth : Nat := 127

/-- What messages say of a text that is no document of the right form: neither the fault nor its
place is told. -/
def fault : String := "<json>"

/-- Whether a value below `above` arrays and objects of its document can be taken in as a whole. -/
def fits (above : Nat) (j : Json) : Bool := j.isPlain && above + j.depth ≤ maxDepth

def conditionNames : List String :=
  ["id", "field", "operator", "value", "field_label", "operator_label", "display_value",
    "field_type", "table"]

def groupNames : List String := ["id", "type", "conditions"]

def id? (j : Json) : Option NodeId := j.text?.map NodeId.mk

end Document

open Document Json

def Kind.word : Kind → String
  | .and => "and"
  | .or => "or"

def Kind.ofWord? (word : String) : Option Kind :=
  if word = "and" then some .and
  else if word = "or" then some .or
  else none

/-- A kind is written as its word, or as an object with the word as its only member and nothing for
its value. Inside a node an empty object is nothing too. -/
def Kind.ofJson? (inNode : Bool) : Json → Option Kind
  | .text (some word) => Kind.ofWord? word
  | .object [(some word, .null)] => Kind.ofWord? word
  | .object [(some word, .object [])] => if inNode then Kind.ofWord? word else none
  | _ => none

inductive NodeSort where
  | condition
  | group
  deriving DecidableEq

def NodeSort.word : NodeSort → String
  | .condition => "condition"
  | .group => "group"

/-- A sort is written as its word; a node inside another may give its number instead. -/
def NodeSort.ofJson? (nested : Bool) : Json → Option NodeSort
  | .text (some word) =>
    if word = "condition" then some .condition
    else if word = "group" then some .group
    else none
  | .number digits =>
    if nested && digits = "0" then some .condition
    else if nested && digits = "1" then some .group
    else none
  | _ => none

namespace Condition

/-- The members of a condition; labels that are not there are not written. -/
def members (c : Condition) : List (Option String × Json) :=
  [textMember "id" c.id.text, textMember "field" c.field, textMember "operator" c.operator,
    textMember "value" c.value] ++
  optionalText "field_label" c.fieldLabel ++ optionalText "operator_label" c.operatorLabel ++
  optionalText "display_value" c.displayValue ++ optionalText "field_type" c.fieldType ++
  optionalText "table" c.table

def toJson (c : Condition) : Json := .object c.members

/-- The condition with these members. Only the identifier must be there. -/
def ofMembers? (find : String → Option Json) : Option Condition := do
  let id ← required id? (find "id")
  let field ← defaulted text? "" (find "field")
  let operator ← defaulted text? "" (find "operator")
  let value ← defaulted text? "" (find "value")
  let fieldLabel ← optional text? (find "field_label")
  let operatorLabel ← optional text? (find "operator_label")
  let displayValue ← optional text? (find "display_value")
  let fieldType ← optional text? (find "field_type")
  let table ← optional text? (find "table")
  return { id, field, operator, value, fieldLabel, operatorLabel, displayValue, fieldType, table }

def ofJson? (j : Json) : Option Condition := (j.record? conditionNames).bind ofMembers?

end Condition

mutual

/-- The node as a record, its sort first. -/
def Node.toJson : Node → Json
  | .condition c => .object (textMember "kind" NodeSort.condition.word :: c.members)
  | .group ⟨id, kind, children⟩ =>
    .object [textMember "kind" NodeSort.group.word, textMember "id" id.text,
      textMember "type" kind.word, member "conditions" (.array (Forest.toJson children))]

def Forest.toJson : List Node → List Json
  | [] => []
  | n :: rest => n.toJson :: Forest.toJson rest

end

namespace Group

/-- The group as a record, without a sort. -/
def toJson (g : Group) : Json :=
  .object [textMember "id" g.id.text, textMember "type" g.kind.word,
    member "conditions" (.array (Forest.toJson g.children))]

/-- The group with these members, its children read by `node`. -/
def ofMembers? (inNode : Bool) (node : Json → Option Node) (find : String → Option Json) :
    Option Group := do
  let id ← required id? (find "id")
  let kind ← required (Kind.ofJson? inNode) (find "type")
  let children ← required (list? node) (find "conditions")
  return ⟨id, kind, children⟩

end Group

namespace Node

/-- The value that tells the sort of a node: its member `kind`, or the first of an array. -/
def sortJson? : Json → Option Json
  | .object members => (members.find? (·.1 = some "kind")).map (·.2)
  | .array (first :: _) => some first
  | _ => none

/-- The node that is written as this record, down to a nesting of `depth` nodes. -/
def ofRecord? : (depth : Nat) → (nested : Bool) → Json → Option Node
  | 0, _, _ => none
  | depth + 1, nested, j => do
    match ← (sortJson? j).bind (NodeSort.ofJson? nested) with
    | .condition =>
      let find ← j.record? ("kind" :: conditionNames)
      return .condition (← Condition.ofMembers? find)
    | .group =>
      let find ← j.record? ("kind" :: groupNames)
      return .group (← Group.ofMembers? true (ofRecord? depth true) find)

/-- The node that is written as this record, below `above` arrays and objects of its document. -/
def ofJson? (above : Nat) (j : Json) : Option Node :=
  if fits above j then ofRecord? maxDepth false j else none

end Node

/-- The group that is written as this record, below `above` arrays and objects of its document. Its
children stand two levels further down. -/
def Group.ofJson? (above : Nat) (j : Json) : Option Group :=
  (j.record? groupNames).bind (Group.ofMembers? false (Node.ofJson? (above + 2)))

end FilterTree
