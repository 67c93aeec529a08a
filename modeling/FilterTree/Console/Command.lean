import FilterTree.Text.Basic

namespace FilterTree

/-- A command with the arguments that were given. Which of them it needs is checked when it is carried
out. -/
inductive Command where
  | nothing
  | help
  | quit
  | show
  | fields
  | set (condition field : Option String)
  | op (condition operator : Option String)
  | value (condition : Option String) (words : List String)
  | add (group : Option String)
  | addAfter (group : Option String)
  | split (condition : Option String)
  | delete (condition : Option String)
  | crumbs
  | cut (crumb : Option String)
  | query
  | run
  | load (file : Option String)
  | reset
  | unknown (word : String)
  deriving DecidableEq

namespace Command

/-- The command that the words make. Arguments past those a command takes are passed over. -/
def ofWords : List String → Command
  | [] => .nothing
  | word :: args =>
    match word with
    | "help" => .help
    | "?" => .help
    | "quit" => .quit
    | "exit" => .quit
    | "show" => .show
    | "fields" => .fields
    | "set" => .set args[0]? args[1]?
    | "op" => .op args[0]? args[1]?
    | "value" => .value args[0]? (args.drop 1)
    | "add" => .add args[0]?
    | "new" => .addAfter args[0]?
    | "split" => .split args[0]?
    | "del" => .delete args[0]?
    | "crumbs" => .crumbs
    | "trunc" => .cut args[0]?
    | "query" => .query
    | "run" => .run
    | "load" => .load args[0]?
    | "reset" => .reset
    | other => .unknown other

def ofLine (line : String) : Command := ofWords (Text.words line)

def file? : Command → Option String
  | .load file => file
  | _ => none

end Command

namespace Console

def help : String :=
  "\n".intercalate
    ["命令:",
      "  show                      显示条件树",
      "  fields                    列出当前表的字段",
      "  set <cond> <field>        选择字段 (支持点号路径)",
      "  op <cond> <operator>      选择运算符",
      "  value <cond> <value...>   设置值",
      "  add <group>               在分组中追加条件",
      "  new <group>               在分组之后追加 AND 条件",
      "  split <cond>              把条件拆分为 OR 分组",
      "  del <cond>                删除条件",
      "  crumbs                    显示面包屑",
      "  trunc <n>                 截断到第 n 个面包屑",
      "  query                     显示编码查询 (不校验)",
      "  run                       校验并执行查询",
      "  load <file.json>          从 JSON 载入条件树",
      "  reset                     清空条件树",
      "  quit                      退出",
      "节点 id 可以只写前缀。"]

end Console

end FilterTree
