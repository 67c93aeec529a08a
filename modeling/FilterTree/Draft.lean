import FilterTree.Edit.Conditions
import FilterTree.Trail
import FilterTree.Query

namespace FilterTree

inductive Action where
  | update (group condition : NodeId) (p : Patch)
  | add (group : NodeId)
  | addAfter (group : NodeId)
  | split (group condition : NodeId)
  | delete (group condition : NodeId)
  | cut (root leaf : Nat)
  | cutTo (crumb : Crumb)
  | reset
  | replace (m : Model)

/-- The model after an action, made with the identifiers `fresh`. -/
def Action.apply (fresh : Fresh) (m : Model) : Action → Edited
  | .update group condition p => m.update group condition p
  | .add group => m.add group fresh
  | .addAfter group => m.addAfter group fresh
  | .split group condition => m.split group condition fresh
  | .delete group condition => m.delete group condition fresh
  | .cut root leaf => m.cut root leaf
  | .cutTo crumb => m.cut crumb.root crumb.leaf
  | .reset => ⟨.blank fresh, true⟩
  | .replace m => ⟨m, true⟩

/-- A filter being worked on: the table it is for, the model as it stands, and the supply of identifiers
for new nodes. -/
structure Draft where
  table : String
  model : Model
  supply : Supply

inductive RunError (ε : Type) where
  | incomplete (ids : List NodeId)
  | executor (cause : ε)

def RunError.message : RunError String → String
  | .incomplete ids => toString ids.length ++ " condition(s) are missing a field or operator"
  | .executor cause => "query execution failed: " ++ cause

namespace Draft

def start (table : String) (supply : Supply) : Draft := ⟨table, .blank supply.next, supply.rest⟩

/-- The draft after an action, and whether the model changed. Identifiers are spent only on a
change. -/
def perform (d : Draft) (a : Action) : Draft × Bool :=
  let edited := a.apply d.supply.next d.model
  if edited.changed then ({ d with model := edited.model, supply := d.supply.rest }, true)
  else (d, false)

/-- Hands the table and the query to `execute` and returns the query. While a condition is
incomplete nothing is executed. -/
def run {μ : Type → Type} [Monad μ] {ε : Type} (d : Draft)
    (execute : String → String → μ (Except ε Unit)) : μ (Except (RunError ε) String) :=
  match d.model.query? with
  | none => pure (.error (.incomplete d.model.incomplete))
  | some query => do
    match ← execute d.table query with
    | .ok () => pure (.ok query)
    | .error cause => pure (.error (.executor cause))

end Draft

end FilterTree
