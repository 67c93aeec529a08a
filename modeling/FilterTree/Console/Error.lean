import FilterTree.Catalog.Load
import FilterTree.Document.Model

namespace FilterTree

inductive NumeralError where
  | invalidDigit
  | tooLarge
  deriving DecidableEq

def NumeralError.message : NumeralError → String
  | .invalidDigit => "invalid digit found in string"
  | .tooLarge => "number too large to fit in target type"

namespace Numeral

def bound : Nat := 18446744073709551616

/-- Reads further digits behind the number `n`. -/
def readFrom (n : Nat) : List Char → Except NumeralError Nat
  | [] => .ok n
  | c :: rest =>
    if !c.isDigit then .error .invalidDigit
    else
      let next := 10 * n + (c.toNat - '0'.toNat)
      if next < bound then readFrom next rest else .error .tooLarge

/-- The number of a crumb as it is typed: decimal digits, perhaps after a plus sign, for a number below
2^64. The first fault from the left is reported. -/
def read (s : String) : Except NumeralError Nat :=
  let digits :=
    match s.toList with
    | '+' :: rest => rest
    | all => all
  if digits.isEmpty then .error .invalidDigit else readFrom 0 digits

end Numeral

inductive ConsoleError where
  | missingArgument (name : String)
  | noSuchGroup (opening : String)
  | ambiguousGroup (opening : String)
  | conditionMatches (opening : String) (count : Nat)
  | noSuchField (table field : String)
  | noSuchOperator (field operator : String)
  | noNumeral (cause : NumeralError)
  | noSuchCrumb (index : Nat)
  | catalog (cause : CatalogError)
  | unreadable (path : String) (cause : FileError)
  | malformed (path : String)
  | flawed (path : String) (flaw : Model.Flaw)
  deriving DecidableEq

def ConsoleError.message : ConsoleError → String
  | .missingArgument name => "缺少参数 <" ++ name ++ ">"
  | .noSuchGroup opening => "没有匹配 '" ++ opening ++ "' 的分组"
  | .ambiguousGroup opening => "'" ++ opening ++ "' 匹配了多个分组"
  | .conditionMatches opening count =>
    "'" ++ opening ++ "' 匹配了 " ++ toString count ++ " 个条件"
  | .noSuchField table field => "表 " ++ table ++ " 中没有字段 " ++ field
  | .noSuchOperator field operator => "字段 '" ++ field ++ "' 不支持运算符 " ++ operator
  | .noNumeral cause => "n 必须是数字: " ++ cause.message
  | .noSuchCrumb index => "没有第 " ++ toString index ++ " 个面包屑"
  | .catalog cause => cause.message
  | .unreadable path cause => "无法读取 " ++ path ++ ": " ++ cause.message
  | .malformed path => "无法解析 " ++ path ++ ": " ++ Document.fault
  | .flawed path flaw => "无法解析 " ++ path ++ ": " ++ flaw.message

end FilterTree
