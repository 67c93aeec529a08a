import FilterTree.Catalog.Basic
import FilterTree.Text.Basic
import FilterTree.Trail

/-!
# What the console shows

Every function here gives a text of whole lines, each closed by a line feed.
-/

namespace FilterTree

namespace Screen

def line (s : String) : String := s ++ "\n"

def block (rows : List String) : String := String.join (rows.map line)

/-- The opening of an identifier that stands for it on the screen. -/
def short (id : NodeId) : String := Text.opening 8 id.text

def indent (depth : Nat) : String := String.join (List.replicate depth "  ")

def kind : Kind → String
  | .and => "And"
  | .or => "Or"

/-- What is shown of a condition: its three parts, or a note that it has no field yet. -/
def condition (c : Condition) : String :=
  if c.field = "" then "(空条件)" else Text.trimEnd (" ".intercalate c.display)

end Screen

mutual

def Node.rows (depth : Nat) : Node → List String
  | .condition c =>
    [Screen.indent depth ++ "[" ++ Screen.short c.id ++ "] " ++ Screen.condition c]
  | .group ⟨id, kind, children⟩ =>
    (Screen.indent depth ++ Screen.kind kind ++ " [" ++ Screen.short id ++ "]") ::
      Forest.rows (depth + 1) children

def Forest.rows (depth : Nat) : List Node → List String
  | [] => []
  | n :: rest => n.rows depth ++ Forest.rows depth rest

end

namespace Screen

def newQuery : String := "-- 新查询 --"

/-- The rows of a model, a row between each two roots. -/
def rows (m : Model) : List String :=
  [newQuery].intercalate (m.roots.map fun g => Node.rows 0 (.group g))

def model (m : Model) : String := block (rows m)

/-- What stands before a crumb. -/
def join : Option Join → String
  | none => ""
  | some .and => "and "
  | some .or => "or "
  | some .newQuery => "new query: "

def trail (crumbs : List Crumb) : String :=
  block <| crumbs.mapIdx fun index crumb =>
    "  " ++ Text.padLeft 2 (toString index) ++ ". " ++ join crumb.join ++ crumb.label

/-- The fields of a table: name, label and operators. -/
def fields (fields : Index FieldInfo) : String :=
  block <| fields.entries.map fun (name, info) =>
    "  " ++ Text.padRight 20 name ++ " " ++ Text.padRight 20 info.label ++ " " ++
      " ".intercalate (info.operators.map (·.operator))

end Screen

end FilterTree
