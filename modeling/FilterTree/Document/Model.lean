import FilterTree.Document.Node
import FilterTree.Json.Reader
import FilterTree.Json.Writer
import FilterTree.Model

/-!
# Models as documents

A model is written as the array of its root groups. A text is read in three steps: it has to be JSON
of the right form, nothing may follow it, and the groups have to make a valid model.
-/

namespace FilterTree

inductive DocumentError where
  | malformed
  | flawed (flaw : Model.Flaw)
  deriving DecidableEq

def DocumentError.message : DocumentError → String
  | .malformed => "invalid model document: " ++ Document.fault
  | .flawed flaw => "invalid model: " ++ flaw.message

namespace Model

def toJson (m : Model) : Json := .array (m.roots.map Group.toJson)

def document (m : Model) : String := m.toJson.render

/-- The root groups of a document, not yet checked. -/
def rootsOfJson? (j : Json) : Option (List Group) := j.list? (Group.ofJson? 1)

/-- The model with these roots, or the flaw in them. -/
def checked? (roots : List Group) : Except DocumentError Model :=
  match ofRoots? roots with
  | .ok m => .ok m
  | .error flaw => .error (.flawed flaw)

/-- The model of a document. Text after the groups is reported before a flaw in them. -/
def ofDocument? (s : String) : Except DocumentError Model :=
  match (Json.read? s).bind rootsOfJson? with
  | none => .error .malformed
  | some roots => checked? roots

/-- The model that a text starts with, if nothing follows it. A flaw in the groups is reported before
text after them. -/
def ofStream? (s : String) : Except DocumentError Model :=
  match Json.readFront? s with
  | none => .error .malformed
  | some (j, rest) =>
    match rootsOfJson? j with
    | none => .error .malformed
    | some roots => do
      let m ← checked? roots
      if Json.isEnd rest then .ok m else .error .malformed

end Model

end FilterTree
