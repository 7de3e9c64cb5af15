/-!
# Operators and server variables

The operators of T-SQL expressions with their spelling in query text and in Go, and the server
variables that begin with two at signs.

## Main definitions

* `BinaryOp`, `UnaryOp`, `GlobalVar`
* `BinaryOp.precedence`: binding strength, higher binding tighter
-/

namespace Sproc

/-- A binary operator. -/
inductive BinaryOp where
  | add
  | sub
  | mul
  | div
  | mod
  | eq
  | notEq
  | lt
  | ltEq
  | gt
  | gtEq
  | and
  | or
  | like
  | notLike
  deriving DecidableEq, Repr

namespace BinaryOp

/-- Every binary operator. -/
def all : List BinaryOp :=
  [add, sub, mul, div, mod, eq, notEq, lt, ltEq, gt, gtEq, and, or, like, notLike]

/-- The name of an operator in documents. -/
def id : BinaryOp → String
  | add => "add"
  | sub => "sub"
  | mul => "mul"
  | div => "div"
  | mod => "mod"
  | eq => "eq"
  | notEq => "not_eq"
  | lt => "lt"
  | ltEq => "lt_eq"
  | gt => "gt"
  | gtEq => "gt_eq"
  | and => "and"
  | or => "or"
  | like => "like"
  | notLike => "not_like"

/-- The operator of a name. -/
def ofId? (name : String) : Option BinaryOp :=
  all.find? (·.id == name)

/-- The spelling in query text. -/
def sqlSymbol : BinaryOp → String
  | add => "+"
  | sub => "-"
  | mul => "*"
  | div => "/"
  | mod => "%"
  | eq => "="
  | notEq => "<>"
  | lt => "<"
  | ltEq => "<="
  | gt => ">"
  | gtEq => ">="
  | and => "AND"
  | or => "OR"
  | like => "LIKE"
  | notLike => "NOT LIKE"

/-- The spelling in Go, which has no operator for pattern matching. -/
def goSymbol : BinaryOp → String
  | add => "+"
  | sub => "-"
  | mul => "*"
  | div => "/"
  | mod => "%"
  | eq => "=="
  | notEq => "!="
  | lt => "<"
  | ltEq => "<="
  | gt => ">"
  | gtEq => ">="
  | and => "&&"
  | or => "||"
  | like | notLike => ""

/-- The six comparisons. -/
def isComparison : BinaryOp → Bool
  | eq | notEq | lt | ltEq | gt | gtEq => true
  | _ => false

/-- The five arithmetic operators. -/
def isArithmetic : BinaryOp → Bool
  | add | sub | mul | div | mod => true
  | _ => false

/-- Conjunction and disjunction. -/
def isLogical : BinaryOp → Bool
  | and | or => true
  | _ => false

/-- Binding strength. -/
def precedence : BinaryOp → Nat
  | or => 1
  | and => 2
  | eq | notEq | lt | ltEq | gt | gtEq | like | notLike => 3
  | add | sub => 4
  | mul | div | mod => 5

end BinaryOp

/-- A unary operator. -/
inductive UnaryOp where
  | neg
  | not
  deriving DecidableEq, Repr

namespace UnaryOp

/-- The name of an operator in documents. -/
def id : UnaryOp → String
  | neg => "neg"
  | not => "not"

/-- The operator of a name. -/
def ofId? : String → Option UnaryOp
  | "neg" => some neg
  | "not" => some not
  | _ => none

end UnaryOp

/-- A server variable. -/
inductive GlobalVar where
  | fetchStatus
  | rowCount
  | identity
  | error
  | tranCount
  deriving DecidableEq, Repr

namespace GlobalVar

/-- The name of a server variable in documents. -/
def id : GlobalVar → String
  | fetchStatus => "fetch_status"
  | rowCount => "row_count"
  | identity => "identity"
  | error => "error"
  | tranCount => "tran_count"

/-- The server variable of a name. -/
def ofId? : String → Option GlobalVar
  | "fetch_status" => some fetchStatus
  | "row_count" => some rowCount
  | "identity" => some identity
  | "error" => some error
  | "tran_count" => some tranCount
  | _ => none

/-- The spelling in T-SQL. -/
def sqlName : GlobalVar → String
  | fetchStatus => "@@FETCH_STATUS"
  | rowCount => "@@ROWCOUNT"
  | identity => "@@IDENTITY"
  | error => "@@ERROR"
  | tranCount => "@@TRANCOUNT"

end GlobalVar

end Sproc
