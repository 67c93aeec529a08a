import FilterTree.Document.Catalog
import FilterTree.Files.Directory

namespace FilterTree

inductive CatalogError where
  | missing (path : String)
  | unreadable (path : String) (cause : FileError)
  | malformed (path : String)
  | unknownTable (table : String)
  deriving DecidableEq

def CatalogError.message : CatalogError → String
  | .missing path => "catalog file not found: " ++ path
  | .unreadable path cause => "cannot read catalog file " ++ path ++ ": " ++ cause.message
  | .malformed path => "cannot parse catalog file " ++ path ++ ": " ++ Document.fault
  | .unknownTable table => "unknown table: " ++ table

namespace Catalog

/-- The catalog of the file `path`. A name that leads through a file or cannot be one is the name of
no file. -/
def load (files : Files) (path : String) : Except CatalogError Catalog :=
  match files path with
  | .error .missing | .error .notDirectory | .error .longName | .error .nulInName =>
    .error (.missing path)
  | .error cause => .error (.unreadable path cause)
  | .ok content =>
    match ofDocument? content with
    | none => .error (.malformed path)
    | some catalog => .ok catalog

/-- The fields of the table, or the error of asking for a table that is not there. -/
def fields (catalog : Catalog) (table : String) : Except CatalogError (Index FieldInfo) :=
  match catalog.fields? table with
  | none => .error (.unknownTable table)
  | some fields => .ok fields

end Catalog

end FilterTree
