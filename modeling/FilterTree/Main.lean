import FilterTree.Console.Program

/-!
# The program

Reads files and lines for the console and prints what it answers. Before a line is answered, the one
file that its command looks at is read.
-/

namespace FilterTree.Program

def fileError : IO.Error → FileError
  | .noFileOrDirectory .. => .missing
  | .inappropriateType _ 21 _ => .directory
  | .inappropriateType .. => .notDirectory
  | .invalidArgument _ 36 _ => .longName
  | e => .other (toString e)

def readFile (path : String) : IO (Except FileError String) := do
  try
    let bytes ← IO.FS.readBinFile path
    match String.fromUTF8? bytes with
    | some content => return .ok content
    | none => return .error .notText
  catch e => return .error (fileError e)

/-- The files as far as they are looked at: `path` alone, or none. -/
def view (path : Option String) : IO Files := do
  match path with
  | none => return fun _ => .error .missing
  | some path =>
    let content ← readFile path
    return fun _ => content

def emit (s : String) : IO Unit := do
  let output ← IO.getStdout
  output.putStr s
  output.flush

/-- Answers line after line. -/
partial def loop (catalog : Catalog) (d : Draft) : IO Console.Ending := do
  match Text.lines (← (← IO.getStdin).getLine) with
  | [] => return .done
  | typed :: _ =>
    match Text.typed? typed with
    | none => return .broken
    | some line =>
      let files ← view (Command.ofLine line).file?
      let reply := Console.answer files catalog d line
      emit reply.output
      if reply.goesOn then loop catalog reply.draft else return .done

/-- A number that no other run starts from. -/
def seed : IO Nat := do
  let bytes ← IO.getRandomBytes 16
  return bytes.toList.foldl (fun n b => 256 * n + b.toNat) 0

def run (args : List String) : IO Console.Ending := do
  let files ← view (some (args[1]?.getD Console.defaultCatalog))
  let opening := Console.start files (.scattered (← seed)) args
  emit opening.greeting
  loop opening.catalog opening.draft

end FilterTree.Program

/-- Starts with a table and the file of a catalog, both of which may be left out. -/
def main (args : List String) : IO UInt32 := do return (← FilterTree.Program.run args).code
