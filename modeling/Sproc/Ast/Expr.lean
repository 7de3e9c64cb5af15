import Sproc.Ast.Operator
import Sproc.Text.Basic

/-!
# Expressions and queries

T-SQL expressions. A query can be an operand, so expressions and `SELECT` are one family of types.

## Main definitions

* `Expr`, `Select` and the parts of queries
* `Expr.walk`: an expression and everything inside it, outermost first
* `Expr.conjuncts`, `Expr.andAll?`: a chain of conjunctions as a list
-/

namespace Sproc

/-- A constant. -/
inductive Literal where
  | int (value : Int)
  /-- An exact number, by its spelling. -/
  | decimal (spelling : String)
  | string (value : String)
  | bool (value : Bool)
  | null
  deriving DecidableEq, Repr

/-- A column, which may name its table. -/
structure ColumnRef where
  table : Option String := none
  name : String
  deriving DecidableEq, Repr

/-- A table as it is named in a statement. -/
structure TableRef where
  name : String
  aliasName : Option String := none
  deriving DecidableEq, Repr

namespace TableRef

/-- The name without qualifier and brackets. -/
def baseName (table : TableRef) : String :=
  Text.baseName table.name

/-- Whether the table lives for one call only: a temporary table or a table variable. -/
def isTransient (table : TableRef) : Bool :=
  Text.beginsWith "#" table.baseName || Text.beginsWith "@" table.baseName

end TableRef

/-- The kinds of joins. -/
inductive JoinKind where
  | inner
  | left
  deriving DecidableEq, Repr

mutual

/-- An expression. -/
inductive Expr where
  | literal (value : Literal)
  /-- A variable or parameter with its at sign. -/
  | variable (name : String)
  | global (var : GlobalVar)
  | column (ref : ColumnRef)
  | star
  | unary (op : UnaryOp) (operand : Expr)
  | binary (op : BinaryOp) (left right : Expr)
  | isNull (operand : Expr) (negated : Bool)
  | inList (operand : Expr) (list : List Expr) (negated : Bool)
  | between (operand low high : Expr) (negated : Bool)
  | function (name : String) (args : List Expr)
  | cast (operand : Expr) (type : String)
  | case (branches : List CaseBranch) (otherwise : Option Expr)
  | exists (query : Select)
  | subquery (query : Select)

/-- One arm of a searched case. -/
structure CaseBranch where
  test : Expr
  result : Expr

/-- One entry of a select list, which may assign a variable. -/
structure SelectItem where
  expr : Expr
  aliasName : Option String
  assignTo : Option String

/-- A join. -/
structure Join where
  kind : JoinKind
  table : TableRef
  condition : Expr

/-- One entry of an ordering. -/
structure OrderBy where
  expr : Expr
  descending : Bool

/-- A query. -/
structure Select where
  top : Option Expr
  distinct : Bool
  items : List SelectItem
  source : Option TableRef
  joins : List Join
  filter : Option Expr
  groupBy : List Expr
  orderBy : List OrderBy

end

mutual

/-- An expression and every expression inside it, outermost first; queries are entered. -/
def Expr.walk : Expr → List Expr
  | .literal value => [.literal value]
  | .variable name => [.variable name]
  | .global var => [.global var]
  | .column ref => [.column ref]
  | .star => [.star]
  | .unary op operand => .unary op operand :: operand.walk
  | .binary op left right => .binary op left right :: (left.walk ++ right.walk)
  | .isNull operand negated => .isNull operand negated :: operand.walk
  | .inList operand list negated => .inList operand list negated :: (operand.walk ++ walkList list)
  | .between operand low high negated =>
    .between operand low high negated :: (operand.walk ++ (low.walk ++ high.walk))
  | .function name args => .function name args :: walkList args
  | .cast operand type => .cast operand type :: operand.walk
  | .case branches otherwise =>
    .case branches otherwise :: (walkBranches branches ++ walkOption otherwise)
  | .exists query => .exists query :: query.walk
  | .subquery query => .subquery query :: query.walk

/-- All expressions of a list, in order. -/
def walkList : List Expr → List Expr
  | [] => []
  | expr :: rest => expr.walk ++ walkList rest

/-- All expressions of an optional expression. -/
def walkOption : Option Expr → List Expr
  | none => []
  | some expr => expr.walk

/-- All expressions of the arms of a case. -/
def walkBranches : List CaseBranch → List Expr
  | [] => []
  | ⟨test, result⟩ :: rest => test.walk ++ (result.walk ++ walkBranches rest)

/-- All expressions of a select list. -/
def walkItems : List SelectItem → List Expr
  | [] => []
  | ⟨expr, _, _⟩ :: rest => expr.walk ++ walkItems rest

/-- All expressions of the conditions of joins. -/
def walkJoins : List Join → List Expr
  | [] => []
  | ⟨_, _, condition⟩ :: rest => condition.walk ++ walkJoins rest

/-- All expressions of an ordering. -/
def walkOrders : List OrderBy → List Expr
  | [] => []
  | ⟨expr, _⟩ :: rest => expr.walk ++ walkOrders rest

/-- All expressions of a query, clause by clause. -/
def Select.walk : Select → List Expr
  | ⟨top, _, items, _, joins, filter, groupBy, orderBy⟩ =>
    walkOption top ++ (walkItems items ++ (walkJoins joins ++ (walkOption filter ++
      (walkList groupBy ++ walkOrders orderBy))))

end

namespace Expr

/-- Whether some expression inside satisfies a test. -/
def any (expr : Expr) (p : Expr → Bool) : Bool :=
  expr.walk.any p

/-- Whether an expression is the constant NULL. -/
def isNullLiteral : Expr → Bool
  | .literal .null => true
  | _ => false

/-- Whether an expression calls the given function; case does not matter. -/
def isFunction (wanted : String) : Expr → Bool
  | .function name _ => Text.sameIgnoringCase name wanted
  | _ => false

/-- Whether an expression is a query evaluated as an operand. -/
def isQuery : Expr → Bool
  | .exists _ => true
  | .subquery _ => true
  | _ => false

/-- Whether the value of an expression depends on a query, which has to run before the value is
used. -/
def needsHoist (expr : Expr) : Bool :=
  expr.any isQuery

/-- The conjuncts of a condition from left to right. -/
def conjuncts : Expr → List Expr
  | .binary .and left right => left.conjuncts ++ right.conjuncts
  | expr => [expr]

/-- The conjunction of a list, associated to the left; an empty list has none. -/
def andAll? : List Expr → Option Expr
  | [] => none
  | first :: rest => some (rest.foldl (fun condition next => .binary .and condition next) first)

/-- A constant integer. -/
def ofInt (n : Int) : Expr :=
  .literal (.int n)

/-- A constant truth value. -/
def ofBool (b : Bool) : Expr :=
  .literal (.bool b)

/-- A variable for a text that starts with an at sign, a constant string for any other. -/
def ofText (s : String) : Expr :=
  if Text.beginsWith "@" s then .variable s else .literal (.string s)

end Expr

namespace Select

/-- A query over the given items and nothing else. -/
def ofItems (items : List SelectItem) : Select :=
  ⟨none, false, items, none, [], none, [], []⟩

/-- The variables that the select list assigns, in order. -/
def assigned (query : Select) : List String :=
  query.items.filterMap (·.assignTo)

/-- Whether the select list assigns some variable. -/
def assignsVariables (query : Select) : Bool :=
  query.items.any (·.assignTo.isSome)

end Select

end Sproc
