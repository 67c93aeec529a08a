import FilterTree.Console.Execute
import FilterTree.Text.Typed

namespace FilterTree.Console

def defaultTable : String := "incident"

def defaultCatalog : String := "field_catalog.json"

/-- The catalog of the file and a note on it; a catalog that cannot be had is replaced by the
sample. -/
def openCatalog (files : Files) (path : String) : Catalog × String :=
  match Catalog.load files path with
  | .ok catalog => (catalog, Screen.line ("✅ 成功从JSON文件加载字段目录: " ++ path))
  | .error e =>
    (.sample, Screen.line ("⚠️ 无法加载字段目录 (" ++ e.message ++ "), 使用内置目录"))

/-- What the program starts with: the table, the catalog and what is printed at once. -/
structure Opening where
  catalog : Catalog
  draft : Draft
  greeting : String

def start (files : Files) (supply : Supply) (args : List String) : Opening :=
  let table := args[0]?.getD defaultTable
  let (catalog, note) := openCatalog files (args[1]?.getD defaultCatalog)
  let draft := Draft.start table supply
  { catalog
    draft
    greeting := Screen.line "--- Condition Builder: 条件树编辑器 ---" ++ note ++
      Screen.line ("表: " ++ table ++ " (输入 help 查看帮助)") ++ Screen.model draft.model }

/-- How the program ends: as it should, or broken off by a line that cannot be made out. -/
inductive Ending where
  | done
  | broken
  deriving DecidableEq

def Ending.code : Ending → UInt32
  | .done => 0
  | .broken => 101

structure Transcript where
  output : String
  draft : Draft
  ending : Ending

/-- What comes of the lines, as they were typed. -/
def converse (files : Files) (catalog : Catalog) (d : Draft) : List String → Transcript
  | [] => ⟨"", d, .done⟩
  | typed :: rest =>
    match Text.typed? typed with
    | none => ⟨"", d, .broken⟩
    | some line =>
      let reply := answer files catalog d line
      if reply.goesOn then
        let later := converse files catalog reply.draft rest
        { later with output := reply.output ++ later.output }
      else ⟨reply.output, reply.draft, .done⟩

def transcript (files : Files) (supply : Supply) (args : List String) (input : String) :
    Transcript :=
  let opening := start files supply args
  let later := converse files opening.catalog opening.draft (Text.lines input)
  { later with output := opening.greeting ++ later.output }

end FilterTree.Console
