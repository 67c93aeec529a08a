import FilterTree.Document.Node
import FilterTree.Json.Reader
import FilterTree.Text.Decimal
import FilterTree.Text.Shown

/-!
# Nodes that do not fit

A node can be a document of its own. Its text has to be JSON that can be taken in as a whole and
tells the sort of the node; a text that fails in this is malformed, and no more is said of it. After
that the first part of the record that does not fit is named, and text after the record is the last
thing to be refused.
-/

namespace FilterTree

open Document

/-- What a message calls a number. -/
def Number.describe (digits : String) : String :=
  let x := Number.read digits
  if x.integer?.isSome then "integer `" ++ digits ++ "`"
  else "floating point `" ++ Decimal.render x.estimate ++ "`"

def Json.describe : Json → String
  | .null => "null"
  | .bool b => "boolean `" ++ (if b then "true" else "false") ++ "`"
  | .number digits => Number.describe digits
  | .text s => "string " ++ Text.quoted (s.getD "")
  | .array _ => "sequence"
  | .object _ => "map"

/-- Why a value is not the record of a node. -/
inductive Mismatch where
  | type (found : Json) (wanted : String)
  | value (found : Json) (wanted : String)
  | word (found : String) (known : List String)
  | length (found : Nat) (wanted : String)
  | missing (name : String)
  | repeated (name : String)

namespace Mismatch

def message : Mismatch → String
  | .type found wanted => "invalid type: " ++ found.describe ++ ", expected " ++ wanted
  | .value found wanted => "invalid value: " ++ found.describe ++ ", expected " ++ wanted
  | .word found known =>
    "unknown variant `" ++ found ++ "`, expected " ++
      " or ".intercalate (known.map fun word => "`" ++ word ++ "`")
  | .length found wanted => "invalid length " ++ toString found ++ ", expected " ++ wanted
  | .missing name => "missing field `" ++ name ++ "`"
  | .repeated name => "duplicate field `" ++ name ++ "`"

def ofText? (j : Json) : Option Mismatch :=
  if j.text?.isSome then none else some (.type j "a string")

/-- The form of a record: its title, its members, and how many of the first must be there. -/
structure Form where
  title : String
  names : List String
  needed : Nat

def Form.ofSort : NodeSort → Form
  | .condition => ⟨"struct Condition", conditionNames, 1⟩
  | .group => ⟨"struct Group", groupNames, 3⟩

section
variable (form : Form) (part? : String → Json → Option Mismatch)

/-- The first mismatch among the members of an object. The known names so far are in `seen`; what
is missing shows at the end. -/
def ofMembers? : (seen : List String) → List (Option String × Json) → Option Mismatch
  | seen, [] => ((form.names.take form.needed).find? (· ∉ seen)).map .missing
  | seen, (none, _) :: rest => ofMembers? seen rest
  | seen, (some name, j) :: rest =>
    if name ∉ form.names then ofMembers? seen rest
    else if name ∈ seen then some (.repeated name)
    else part? name j <|> ofMembers? (name :: seen) rest

def ofItems? (items : List Json) : Option Mismatch :=
  let count := toString form.names.length ++ " elements"
  (form.names.zip items).findSome? (fun (name, j) => part? name j) <|>
    if items.length < form.needed then
      some (.length items.length (form.title ++ " with " ++ count))
    else if form.names.length < items.length then
      some (.length items.length (count ++ " in sequence"))
    else none

/-- The first mismatch of a record, the sort of its node already taken away. -/
def ofRecord? : Json → Option Mismatch
  | .object members => ofMembers? form part? [] members
  | .array items => ofItems? form part? items
  | j => some (.type j form.title)

end

end Mismatch

/-- The mismatch of a member of a condition. A label may be `null`. -/
def Condition.memberMismatch? (name : String) : Json → Option Mismatch
  | .null => if name ∈ conditionNames.drop 4 then none else Mismatch.ofText? .null
  | j => Mismatch.ofText? j

def Kind.mismatch? (j : Json) : Option Mismatch :=
  let unknown (word : String) : Mismatch := .word word [Kind.and.word, Kind.or.word]
  if (Kind.ofJson? true j).isSome then none
  else some <|
    match j with
    | .text (some word) => unknown word
    | .object [(some word, nothing)] =>
      if (Kind.ofWord? word).isSome then .type nothing "unit" else unknown word
    | .object _ => .value j "map with a single key"
    | _ => .type j "string or map"

def NodeSort.mismatch? (j : Json) : Option Mismatch :=
  if (NodeSort.ofJson? true j).isSome then none
  else some <|
    match j with
    | .text (some word) => .word word [NodeSort.condition.word, NodeSort.group.word]
    | .number digits =>
      match (Number.read digits).integer? with
      | some (.ofNat _) => .value j "variant index 0 <= i < 2"
      | _ => .type j "variant identifier"
    | _ => .type j "variant identifier"

/-- The mismatch of a member of a group, its children judged by `child?`. -/
def Group.memberMismatch? (child? : Json → Option Mismatch) (name : String) (j : Json) :
    Option Mismatch :=
  if name = "id" then Mismatch.ofText? j
  else if name = "type" then Kind.mismatch? j
  else
    match j with
    | .array children => children.findSome? child?
    | _ => some (.type j "a sequence")

namespace Node

/-- The values that are there for the sort of a node, and the record without them. -/
def taken? : Json → Option (List Json × Json)
  | .object members =>
    let (sorts, rest) := members.partition (·.1 = some "kind")
    some (sorts.map (·.2), .object rest)
  | .array items => some (items.take 1, .array (items.drop 1))
  | _ => none

/-- The mismatch of the record of a node of this sort, its children judged by `child?`. -/
def recordMismatch? (child? : Json → Option Mismatch) (sort : NodeSort) : Json → Option Mismatch :=
  Mismatch.ofRecord? (Mismatch.Form.ofSort sort) <|
    match sort with
    | .condition => Condition.memberMismatch?
    | .group => Group.memberMismatch? child?

/-- The first mismatch of a node inside another, down to a nesting of `depth` nodes. -/
def mismatch? : (depth : Nat) → Json → Option Mismatch
  | 0, _ => none
  | depth + 1, j =>
    match taken? j with
    | none => some (.type j "internally tagged enum Node")
    | some ([], _) => some (.missing "kind")
    | some (sort :: more, record) =>
      NodeSort.mismatch? sort <|>
        if !more.isEmpty then some (.repeated "kind")
        else (NodeSort.ofJson? true sort).bind (recordMismatch? (mismatch? depth) · record)

end Node

inductive NodeError where
  | malformed
  | mismatch (m : Mismatch)

namespace Node

/-- Why a value is not the document of a node. -/
def fault (j : Json) : NodeError :=
  match taken? j with
  | some ([sort], record) =>
    let first :=
      (NodeSort.ofJson? false sort).bind (recordMismatch? (mismatch? maxDepth) · record)
    if fits 0 j then first.elim .malformed .mismatch else .malformed
  | _ => .malformed

/-- The node that the text is, blanks around it aside. -/
def ofDocument? (s : String) : Except NodeError Node :=
  match Json.readFront? s with
  | none => .error .malformed
  | some (j, rest) =>
    match ofJson? 0 j with
    | none => .error (fault j)
    | some node => if Json.isEnd rest then .ok node else .error .malformed

end Node

end FilterTree
