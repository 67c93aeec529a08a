/-!
# Files and directories

The files a program can see, as a function from names to contents, and such a function for the files
below one directory, found by paths as the operating system finds them. A path is walked step by step,
and each step is taken from a directory that is there.
-/

namespace FilterTree

/-- Why a file cannot be read. `notDirectory` is said of a name that leads through a file,
`nulInName` of one that holds a null character. -/
inductive FileError where
  | missing
  | directory
  | notDirectory
  | notText
  | longName
  | nulInName
  | other (message : String)
  deriving DecidableEq

def FileError.message : FileError → String
  | .missing => "No such file or directory (os error 2)"
  | .directory => "Is a directory (os error 21)"
  | .notDirectory => "Not a directory (os error 20)"
  | .notText => "stream did not contain valid UTF-8"
  | .longName => "File name too long (os error 36)"
  | .nulInName => "file name contained an unexpected NUL byte"
  | .other message => message

/-- The text of each file, or why it cannot be read. -/
abbrev Files := String → Except FileError String

/-- What stands at a name: a directory, a file with a text, or a file whose bytes are no text. -/
inductive Entry where
  | folder
  | text (content : String)
  | bytes

/-- The entries below a directory, each with the names on the way to it. The directories on the way
need not be given. -/
structure Directory where
  entries : List (List String × Entry)

/-- Where a path has led: to the names below the directory, or out of it. Outside, nothing but
directories further up is known. -/
inductive Place where
  | inside (names : List String)
  | outside

namespace Directory

def maxName : Nat := 255

def maxPath : Nat := 4095

def entry? (d : Directory) (names : List String) : Option Entry :=
  match d.entries.lookup names with
  | some e => some e
  | none => if names = [] || d.entries.any (names.isPrefixOf ·.1) then some .folder else none

def isFolder (d : Directory) : Place → Bool
  | .outside => true
  | .inside names =>
    match d.entry? names with
    | some .folder => true
    | _ => false

/-- The place after one more step. Nothing and a point stay, two points go up. -/
def enter (d : Directory) (place : Place) (name : String) : Except FileError Place :=
  if !d.isFolder place then .error .notDirectory
  else if name = "" || name = "." then .ok place
  else
    match place with
    | .outside =>
      if name = ".." then .ok .outside
      else if maxName < name.utf8ByteSize then .error .longName
      else .error .missing
    | .inside names =>
      if name = ".." then .ok (if names = [] then .outside else .inside names.dropLast)
      else if maxName < name.utf8ByteSize then .error .longName
      else if (d.entry? (names ++ [name])).isSome then .ok (.inside (names ++ [name]))
      else .error .missing

def read (d : Directory) : Place → Except FileError String
  | .outside => .error .directory
  | .inside names =>
    match d.entry? names with
    | some .folder => .error .directory
    | some (.text content) => .ok content
    | some .bytes => .error .notText
    | none => .error .missing

/-- The files that paths name. A path that begins with a stroke does not begin here. -/
def files (d : Directory) : Files := fun path =>
  let cs := path.toList
  if cs.contains '\x00' then .error .nulInName
  else if path = "" then .error .missing
  else if maxPath < path.utf8ByteSize then .error .longName
  else do
    let start : Place := if cs.head? = some '/' then .outside else .inside []
    d.read (← ((cs.splitOn '/').map String.ofList).foldlM d.enter start)

end Directory

end FilterTree
