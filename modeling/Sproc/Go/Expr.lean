import Sproc.GoType
import Sproc.Text.Quoted

/-!
# Go expressions

The expressions of generated code as trees. Parentheses are nodes of the tree: rendering adds none,
so the text of a tree shows exactly the parentheses that were put into it.

## Main definitions

* `Go.TypeExpr`: types as they are written
* `Go.Expr`, `Go.Expr.render`
-/

namespace Sproc.Go

/-- A type as it is written in Go. -/
inductive TypeExpr where
  | value (type : GoType)
  /-- A type that Go itself declares. -/
  | builtin (name : String)
  | named (package name : String)
  | pointer (target : TypeExpr)
  deriving DecidableEq, Repr

/-- The spelling of a type. -/
def TypeExpr.render : TypeExpr → String
  | .value type => type.name
  | .builtin name => name
  | .named package name => package ++ "." ++ name
  | .pointer target => "*" ++ target.render

/-- Operators in front of their operand. -/
inductive UnaryOp where
  | not
  | neg
  | address
  deriving DecidableEq, Repr

/-- The spelling of an operator in front of its operand. -/
def UnaryOp.symbol : UnaryOp → String
  | not => "!"
  | neg => "-"
  | address => "&"

/-- An expression. -/
inductive Expr where
  | name (id : String)
  | int (value : Int)
  /-- A numeric constant by its spelling. -/
  | number (spelling : String)
  | bool (value : Bool)
  | nil
  | str (value : String)
  /-- Query text as a constant. -/
  | query (sql : String)
  /-- The zero value of a type. -/
  | zero (type : GoType)
  /-- A member of a package or of a value. -/
  | member (owner : Expr) (field : String)
  | call (function : Expr) (args : List Expr)
  /-- A conversion to a type that is given by its spelling. -/
  | convert (type : String) (operand : Expr)
  | unary (op : UnaryOp) (operand : Expr)
  | binary (symbol : String) (left right : Expr)
  /-- Operands joined by one operator. -/
  | chain (symbol : String) (operands : List Expr)
  | paren (operand : Expr)
  /-- A function literal that is called at once and returns the result of the first test that
  holds. -/
  | choose (type : GoType) (arms : List (Expr × Expr)) (otherwise : Expr)
  /-- The address of a message with the given fields. -/
  | message (package type : String) (fields : List (String × Expr))
  /-- The assertion that a value is an error. -/
  | asError (operand : Expr)
  /-- Any number of arguments behind those that are always there. Go allows the comma in front of
  them to stay when there are none. -/
  | spread (items : List Expr)

namespace Expr

mutual

/-- The text of an expression. -/
def render : Expr → String
  | .name id => id
  | .int n => toString n
  | .number spelling => spelling
  | .bool b => if b then "true" else "false"
  | .nil => "nil"
  | .str s => Text.goLiteral s
  | .query sql => Text.queryLiteral sql
  | .zero type => type.zeroText
  | .member owner field => owner.render ++ "." ++ field
  | .call function args => function.render ++ "(" ++ Text.commaSeparated (renderList args) ++ ")"
  | .convert type operand => type ++ "(" ++ operand.render ++ ")"
  | .unary op operand => op.symbol ++ operand.render
  | .binary symbol left right => left.render ++ " " ++ symbol ++ " " ++ right.render
  | .chain symbol operands => String.intercalate (" " ++ symbol ++ " ") (renderList operands)
  | .paren operand => "(" ++ operand.render ++ ")"
  | .choose type arms otherwise =>
    "func() " ++ type.name ++ " \x7b " ++ renderArms arms ++
      "return " ++ otherwise.render ++ " \x7d()"
  | .message package type fields =>
    "&" ++ package ++ "." ++ type ++ "\x7b" ++ Text.commaSeparated (renderFields fields) ++ "\x7d"
  | .asError operand => operand.render ++ ".(error)"
  | .spread items => Text.commaSeparated (renderList items)

/-- The texts of a list of expressions. -/
def renderList : List Expr → List String
  | [] => []
  | e :: rest => e.render :: renderList rest

/-- The tests of a choice with their results. -/
def renderArms : List (Expr × Expr) → String
  | [] => ""
  | (test, result) :: rest =>
    "if " ++ test.render ++ " \x7b return " ++ result.render ++ " \x7d; " ++ renderArms rest

/-- The fields of a message. -/
def renderFields : List (String × Expr) → List String
  | [] => []
  | (field, value) :: rest => (field ++ ": " ++ value.render) :: renderFields rest

end

/-- A call of a method or of a function in a package. -/
def invoke (owner : Expr) (method : String) (args : List Expr) : Expr :=
  .call (.member owner method) args

/-- A function of the runtime helpers. -/
def runtime (function : String) (args : List Expr) : Expr :=
  invoke (.name "tsqlrt") function args

/-- Whether an expression calls a function of the runtime helpers. -/
def isRuntimeCall : Expr → Bool
  | .call (.member (.name "tsqlrt") _) _ => true
  | _ => false

end Expr

end Sproc.Go
