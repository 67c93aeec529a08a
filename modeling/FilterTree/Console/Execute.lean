import FilterTree.Catalog.Path
import FilterTree.Console.Command
import FilterTree.Console.Error
import FilterTree.Console.Screen
import FilterTree.Draft

/-!
# Carrying out commands

A node is addressed by the opening of its identifier, with which the identifier of no other node of
its sort may start. Arguments are looked at from left to right, and each is resolved before the next
is asked for.
-/

namespace FilterTree

def NodeId.opensWith (id : NodeId) (opening : String) : Bool :=
  opening.toList.isPrefixOf id.text.toList

namespace Model

/-- The conditions with the groups they stand in, group after group in preorder. -/
def placed (m : Model) : List (NodeId × NodeId) :=
  m.groups.flatMap fun g => (g.children.filterMap Node.condition?).map fun c => (g.id, c.id)

/-- The group whose identifier starts with `opening`, if there is just one. -/
def resolveGroup (m : Model) (opening : String) : Except ConsoleError NodeId :=
  match (m.groups.map (·.id)).filter (·.opensWith opening) with
  | [id] => .ok id
  | [] => .error (.noSuchGroup opening)
  | _ => .error (.ambiguousGroup opening)

/-- The group and the identifier of the condition whose identifier starts with `opening`, if there
is just one. -/
def resolveCondition (m : Model) (opening : String) : Except ConsoleError (NodeId × NodeId) :=
  match m.placed.filter (·.2.opensWith opening) with
  | [place] => .ok place
  | found => .error (.conditionMatches opening found.length)

end Model

/-- What a command leads to: the text it prints, the draft after it, and whether the console goes
on. -/
structure Reply where
  output : String
  draft : Draft
  goesOn : Bool := true

namespace Console

def argument (name : String) : Option String → Except ConsoleError String
  | some word => .ok word
  | none => .error (.missingArgument name)

def condition (d : Draft) (word : Option String) : Except ConsoleError (NodeId × NodeId) := do
  d.model.resolveCondition (← argument "cond" word)

def group (d : Draft) (word : Option String) : Except ConsoleError NodeId := do
  d.model.resolveGroup (← argument "group" word)

def orElse {α : Type} (error : ConsoleError) : Option α → Except ConsoleError α
  | some a => .ok a
  | none => .error error

def print (d : Draft) (output : String) : Reply := { output, draft := d }

/-- The reply to an action on the draft; that nothing changed is told. -/
def act (d : Draft) (a : Action) : Reply :=
  let (next, changed) := d.perform a
  { output := if changed then "" else Screen.line "(未改变)", draft := next }

/-- Prints a query instead of running it. -/
def announce (table query : String) : StateM String (Except Empty Unit) := do
  modify (· ++ Screen.line ("▶ " ++ table ++ "?sysparm_query=" ++ query))
  return .ok ()

def run (d : Draft) : Reply :=
  match (d.run announce).run "" with
  | (.ok _, output) => print d output
  | (.error (.incomplete ids), output) =>
    print d (output ++ Screen.line
      ("✗ 请先完成所有条件: " ++ ", ".intercalate (ids.map Screen.short)))

def modelOf (files : Files) (path : String) : Except ConsoleError Model :=
  match files path with
  | .error cause => .error (.unreadable path cause)
  | .ok content =>
    match Model.ofStream? content with
    | .ok m => .ok m
    | .error .malformed => .error (.malformed path)
    | .error (.flawed flaw) => .error (.flawed path flaw)

end Console

section
open Console

def Command.execute (files : Files) (catalog : Catalog) (d : Draft) :
    Command → Except ConsoleError Reply
  | .nothing => .ok (print d "")
  | .help => .ok (print d (Screen.line Console.help))
  | .quit => .ok { output := "", draft := d, goesOn := false }
  | .show => .ok (print d (Screen.model d.model))
  | .fields => do
    let fields ← (catalog.fields d.table).mapError ConsoleError.catalog
    return print d (Screen.fields fields)
  | .set word field => do
    let (g, c) ← condition d word
    let field ← argument "field" field
    let p ← orElse (.noSuchField d.table field) (catalog.fieldPatch? d.table field)
    return act d (.update g c p)
  | .op word operator => do
    let (g, c) ← condition d word
    let operator ← argument "operator" operator
    let field := ((d.model.condition? g c).map Condition.field).getD ""
    let p ← orElse (.noSuchOperator field operator) (catalog.operatorPatch? d.table field operator)
    return act d (.update g c p)
  | .value word words => do
    let (g, c) ← condition d word
    return act d (.update g c (.ofValue (" ".intercalate words)))
  | .add word => do return act d (.add (← group d word))
  | .addAfter word => do return act d (.addAfter (← group d word))
  | .split word => do
    let (g, c) ← condition d word
    return act d (.split g c)
  | .delete word => do
    let (g, c) ← condition d word
    return act d (.delete g c)
  | .crumbs => .ok (print d (Screen.trail d.model.trail))
  | .cut word => do
    let index ← (Numeral.read (← argument "n" word)).mapError ConsoleError.noNumeral
    let crumb ← orElse (.noSuchCrumb index) d.model.trail[index]?
    return act d (.cutTo crumb)
  | .query => .ok (print d (Screen.line d.model.encode))
  | .run => .ok (Console.run d)
  | .load word => do
    let path ← argument "file.json" word
    return act d (.replace (← modelOf files path))
  | .reset => .ok (act d .reset)
  | .unknown word => .ok (print d (Screen.line ("未知命令: " ++ word ++ " (输入 help 查看帮助)")))

end

def Console.answer (files : Files) (catalog : Catalog) (d : Draft) (line : String) : Reply :=
  match (Command.ofLine line).execute files catalog d with
  | .ok reply => reply
  | .error e => Console.print d (Screen.line ("✗ " ++ e.message))

end FilterTree
