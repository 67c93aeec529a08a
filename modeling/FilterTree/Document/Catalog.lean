import FilterTree.Catalog.Basic
import FilterTree.Document.Node
import FilterTree.Json.Reader
import FilterTree.Json.Writer

/-!
# Catalogs as documents

A catalog is written as an object of tables, a table as an object of fields, a field as a record. Of
a table or field that is there twice, the last one counts.
-/

namespace FilterTree

open Json

namespace Json

/-- The members of an object under their names, each read by `read`. Of two members with one name the
last one counts. -/
def entries? {α : Type} (read : Json → Option α) : Json → Option (List (String × α))
  | .object members => members.mapM fun (name, j) => do return (← name, ← read j)
  | _ => none

end Json

namespace Operator

def toJson (o : Operator) : Json :=
  .object [textMember "operator" o.operator, textMember "label" o.label]

def ofJson? (j : Json) : Option Operator := do
  let find ← j.record? ["operator", "label"]
  return ⟨← required text? (find "operator"), ← required text? (find "label")⟩

end Operator

namespace Choice

def toJson (c : Choice) : Json := .object [textMember "value" c.value, textMember "label" c.label]

def ofJson? (j : Json) : Option Choice := do
  let find ← j.record? ["value", "label"]
  return ⟨← required text? (find "value"), ← required text? (find "label")⟩

end Choice

namespace FieldInfo

/-- The field as a record; the operators are always written. -/
def toJson (info : FieldInfo) : Json :=
  .object <|
    [textMember "label" info.label, textMember "type" info.fieldType,
      member "operators" (.array (info.operators.map Operator.toJson))] ++
    optionalText "reference" info.reference ++
    (info.choices.map fun choices =>
      member "choices" (.array (choices.map Choice.toJson))).toList

/-- The field that is written as this record. Only label and type must be there. -/
def ofJson? (j : Json) : Option FieldInfo := do
  let find ← j.record? ["label", "type", "operators", "reference", "choices"]
  let label ← required text? (find "label")
  let fieldType ← required text? (find "type")
  let operators ← defaulted (list? Operator.ofJson?) [] (find "operators")
  let reference ← optional text? (find "reference")
  let choices ← optional (list? Choice.ofJson?) (find "choices")
  return { label, fieldType, operators, reference, choices }

end FieldInfo

namespace Catalog

def toJson (catalog : Catalog) : Json :=
  .object <| catalog.tables.entries.map fun (table, fields) =>
    member table (.object (fields.entries.map fun (field, info) => member field info.toJson))

def ofJson? (j : Json) : Option Catalog :=
  (j.entries? fun fields => (fields.entries? FieldInfo.ofJson?).map Index.ofList).map
    fun tables => ⟨Index.ofList tables⟩

/-- The catalog of a document, whose passed-over members only need to be JSON. -/
def ofDocument? (s : String) : Option Catalog := (Json.read? s).bind ofJson?

/-- The catalog of a text, plain throughout and nested no deeper than a document may be. -/
def ofText? (s : String) : Option Catalog := do
  let j ← Json.read? s
  guard (Document.fits 0 j)
  ofJson? j

end Catalog

end FilterTree
