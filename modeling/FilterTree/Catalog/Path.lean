import FilterTree.Catalog.Basic
import FilterTree.Condition

/-!
# Dotted paths

A path names a field by the reference fields that lead to it, with points between. Choosing a field
by its path, or an operator for it, gives the patch to make to a condition.
-/

namespace FilterTree

namespace Path

/-- The parts of a path between its points; there is always one, and any may be empty. -/
def segments (path : String) : List String :=
  (path.toList.splitOn '.').map String.ofList

def isDotted (path : String) : Bool := path.toList.contains '.'

def labelSeparator : String := " > "

end Path

/-- The field at the end of a path: the table it is in, what is known of it, and the labels of all
fields on the way. -/
structure Resolved where
  table : String
  info : FieldInfo
  label : String
  deriving DecidableEq

namespace Catalog

/-- Follows the parts of a path from `table` on. Every part but the last has to be a reference. -/
def follow? (catalog : Catalog) (table : String) : List String → Option Resolved
  | [] => none
  | [last] => (catalog.field? table last).map fun info => ⟨table, info, info.label⟩
  | field :: rest => do
    let info ← catalog.field? table field
    let next ← info.reference
    let resolved ← catalog.follow? next rest
    return { resolved with label := info.label ++ Path.labelSeparator ++ resolved.label }

def resolve? (catalog : Catalog) (table path : String) : Option Resolved :=
  catalog.follow? table (Path.segments path)

/-- The patch for choosing a field: its text and labels are set, operator and value are cleared. -/
def fieldPatch? (catalog : Catalog) (table path : String) : Option Patch :=
  (catalog.resolve? table path).map fun resolved =>
    { field := some path
      operator := some ""
      value := some ""
      fieldLabel := some (some resolved.label)
      operatorLabel := some none
      displayValue := some none
      fieldType := some (some resolved.info.fieldType)
      table := some (if Path.isDotted path then some resolved.table else none) }

/-- The patch for choosing an operator of the field at `path`. -/
def operatorPatch? (catalog : Catalog) (table path operator : String) : Option Patch := do
  let resolved ← catalog.resolve? table path
  let found ← resolved.info.operator? operator
  return { operator := some found.operator, operatorLabel := some (some found.label) }

end Catalog

end FilterTree
