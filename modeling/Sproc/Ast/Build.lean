import Sproc.Ast.Statement

/-!
# Building procedures

Short constructors for expressions, queries, statements and procedures. The names of variables may
be given without their at sign, which is then added.

## Main definitions

* `Build.var` and the other constructors of expressions
* `Select.assign`, `Insert.addRow`, `Exec.outputArg` and the other steps that extend a data
  statement
* `Build.declare` and the other constructors of statements
-/

namespace Sproc

namespace Build

/-- A name of a variable with its at sign. -/
def sigil (name : String) : String :=
  if Text.beginsWith "@" name then name else "@" ++ name

/-- A variable. -/
def var (name : String) : Expr :=
  .variable (sigil name)

/-- A constant integer. -/
def int (n : Int) : Expr :=
  .literal (.int n)

/-- A constant exact number. -/
def dec (spelling : String) : Expr :=
  .literal (.decimal spelling)

/-- A constant string. -/
def text (s : String) : Expr :=
  .literal (.string s)

/-- A constant truth value. -/
def boolean (b : Bool) : Expr :=
  .literal (.bool b)

/-- The constant NULL. -/
def null : Expr :=
  .literal .null

/-- A column. -/
def col (name : String) : Expr :=
  .column ⟨none, name⟩

/-- A column of a given table. -/
def qcol (table name : String) : Expr :=
  .column ⟨some table, name⟩

/-- The status of the last fetch. -/
def fetchStatus : Expr :=
  .global .fetchStatus

/-- Equality. -/
def eq (left right : Expr) : Expr :=
  .binary .eq left right

/-- Inequality. -/
def ne (left right : Expr) : Expr :=
  .binary .notEq left right

/-- The comparison `<`. -/
def lt (left right : Expr) : Expr :=
  .binary .lt left right

/-- The comparison `<=`. -/
def lte (left right : Expr) : Expr :=
  .binary .ltEq left right

/-- The comparison `>`. -/
def gt (left right : Expr) : Expr :=
  .binary .gt left right

/-- The comparison `>=`. -/
def gte (left right : Expr) : Expr :=
  .binary .gtEq left right

/-- Conjunction. -/
def and (left right : Expr) : Expr :=
  .binary .and left right

/-- Disjunction. -/
def or (left right : Expr) : Expr :=
  .binary .or left right

/-- Addition, or concatenation of strings. -/
def add (left right : Expr) : Expr :=
  .binary .add left right

/-- Subtraction. -/
def sub (left right : Expr) : Expr :=
  .binary .sub left right

/-- Multiplication. -/
def mul (left right : Expr) : Expr :=
  .binary .mul left right

/-- Division. -/
def div (left right : Expr) : Expr :=
  .binary .div left right

/-- Remainder. -/
def modulo (left right : Expr) : Expr :=
  .binary .mod left right

/-- Pattern matching. -/
def like (left pattern : Expr) : Expr :=
  .binary .like left pattern

/-- Negation of a condition. -/
def not (operand : Expr) : Expr :=
  .unary .not operand

/-- Negation of a number. -/
def neg (operand : Expr) : Expr :=
  .unary .neg operand

/-- The test for NULL. -/
def isNull (operand : Expr) : Expr :=
  .isNull operand false

/-- The test for a value other than NULL. -/
def isNotNull (operand : Expr) : Expr :=
  .isNull operand true

/-- Membership in a list. -/
def inList (operand : Expr) (list : List Expr) : Expr :=
  .inList operand list false

/-- Membership in an interval. -/
def between (operand low high : Expr) : Expr :=
  .between operand low high false

/-- A searched case. -/
def caseWhen (branches : List (Expr × Expr)) (otherwise : Option Expr) : Expr :=
  .case (branches.map fun branch => ⟨branch.1, branch.2⟩) otherwise

/-- A query over the given expressions. -/
def select (exprs : List Expr) : Select :=
  .ofItems (exprs.map fun expr => ⟨expr, none, none⟩)

/-- An insertion without columns and rows. -/
def insert (table : String) : Insert :=
  ⟨⟨table, none⟩, [], .values []⟩

/-- An update without assignments. -/
def update (table : String) : Update :=
  ⟨⟨table, none⟩, [], none⟩

/-- A deletion of all rows. -/
def delete (table : String) : Delete :=
  ⟨⟨table, none⟩, none⟩

/-- A procedure call without arguments. -/
def exec (procedure : String) : Exec :=
  ⟨procedure, [], none⟩

/-- The conjunction of a condition that may be absent with another one. -/
def conjoin (condition : Option Expr) (other : Expr) : Option Expr :=
  match condition with
  | some condition => some (.binary .and condition other)
  | none => some other

/-- The declaration of a variable. -/
def declare (name type : String) : Statement :=
  .declare [⟨sigil name, type, none⟩]

/-- The declaration of a variable with a first value. -/
def declareInit (name type : String) (init : Expr) : Statement :=
  .declare [⟨sigil name, type, some init⟩]

/-- An assignment. -/
def set (name : String) (value : Expr) : Statement :=
  .set (sigil name) value

/-- A conditional without alternative. -/
def ifThen (condition : Expr) (thenBranch : List Statement) : Statement :=
  .ifElse condition thenBranch none

/-- A conditional. -/
def ifElse (condition : Expr) (thenBranch elseBranch : List Statement) : Statement :=
  .ifElse condition thenBranch (some elseBranch)

/-- A fetch into variables. -/
def fetch (cursor : String) (direction : FetchDirection) (into : List String) : Statement :=
  .fetch ⟨cursor, direction, into.map sigil⟩

/-- A fetch of the next row. -/
def fetchNext (cursor : String) (into : List String) : Statement :=
  fetch cursor .next into

/-- Raises an error with a number, a message and a state. -/
def throw (number message state : Expr) : Statement :=
  .throw (some ⟨number, message, state⟩)

/-- An input parameter. -/
def input (name type : String) (default : Option Expr) : Parameter :=
  ⟨name, type, .input, default⟩

/-- An output parameter. -/
def output (name type : String) (default : Option Expr) : Parameter :=
  ⟨name, type, .output, default⟩

end Build

namespace Select

/-- Adds an item that assigns a variable. -/
def assign (query : Select) (target : String) (expr : Expr) : Select :=
  { query with items := query.items ++ [⟨expr, none, some (Build.sigil target)⟩] }

/-- Adds a result column. -/
def addColumn (query : Select) (expr : Expr) : Select :=
  { query with items := query.items ++ [⟨expr, none, none⟩] }

/-- Sets the table. -/
def readFrom (query : Select) (table : TableRef) : Select :=
  { query with source := some table }

/-- Adds a join. -/
def addJoin (query : Select) (kind : JoinKind) (table : TableRef) (condition : Expr) : Select :=
  { query with joins := query.joins ++ [⟨kind, table, condition⟩] }

/-- Narrows the rows by a condition. -/
def restrict (query : Select) (condition : Expr) : Select :=
  { query with filter := Build.conjoin query.filter condition }

/-- Limits the number of rows. -/
def limit (query : Select) (count : Int) : Select :=
  { query with top := some (.ofInt count) }

/-- Adds an entry to the ordering. -/
def addOrder (query : Select) (expr : Expr) (descending : Bool) : Select :=
  { query with orderBy := query.orderBy ++ [⟨expr, descending⟩] }

/-- Adds an entry to the grouping. -/
def addGroup (query : Select) (expr : Expr) : Select :=
  { query with groupBy := query.groupBy ++ [expr] }

end Select

namespace Update

/-- Adds an assignment. -/
def assign (update : Update) (column : String) (value : Expr) : Update :=
  { update with assignments := update.assignments ++ [⟨column, value⟩] }

/-- Narrows the rows by a condition. -/
def restrict (update : Update) (condition : Expr) : Update :=
  { update with filter := Build.conjoin update.filter condition }

end Update

namespace Insert

/-- Sets the columns. -/
def withColumns (insert : Insert) (columns : List String) : Insert :=
  { insert with columns }

/-- Adds a row; rows replace a query. -/
def addRow (insert : Insert) (row : List Expr) : Insert :=
  match insert.source with
  | .values rows => { insert with source := .values (rows ++ [row]) }
  | .query _ => { insert with source := .values [row] }

/-- Takes the rows of a query. -/
def fromQuery (insert : Insert) (query : Select) : Insert :=
  { insert with source := .query query }

end Insert

/-- Narrows the rows by a condition. -/
def Delete.restrict (delete : Delete) (condition : Expr) : Delete :=
  { delete with filter := Build.conjoin delete.filter condition }

namespace Exec

/-- Adds an argument by position. -/
def addArg (exec : Exec) (value : Expr) : Exec :=
  { exec with args := exec.args ++ [⟨none, value, false⟩] }

/-- Adds an argument by name. -/
def namedArg (exec : Exec) (name : String) (value : Expr) : Exec :=
  { exec with args := exec.args ++ [⟨some name, value, false⟩] }

/-- Adds a variable that receives a value. -/
def outputArg (exec : Exec) (target : String) : Exec :=
  { exec with args := exec.args ++ [⟨none, .variable (Build.sigil target), true⟩] }

/-- Stores the return status in a variable. -/
def statusInto (exec : Exec) (target : String) : Exec :=
  { exec with returnStatus := some (Build.sigil target) }

end Exec

namespace Procedure

/-- Adds a parameter. -/
def addParam (procedure : Procedure) (param : Parameter) : Procedure :=
  { procedure with params := procedure.params ++ [param] }

/-- Adds statements at the end of the body. -/
def addBody (procedure : Procedure) (statements : List Statement) : Procedure :=
  { procedure with body := procedure.body ++ statements }

end Procedure

end Sproc
