import Sproc.Ast.Expr

/-!
# Statements and procedures

The statements of a procedure body, the data statements among them, and procedures themselves.

## Main definitions

* `Statement`, `Procedure`
* `Statement.nested`: a statement and all statements inside it, outermost first
* `Statement.ownExprs`: the expressions of a statement that belong to no nested statement
* `Statement.alwaysReturns`: whether control cannot pass beyond a statement
-/

namespace Sproc

/-- What an insertion adds. -/
inductive InsertSource where
  | values (rows : List (List Expr))
  | query (query : Select)

/-- An `INSERT`. -/
structure Insert where
  table : TableRef
  columns : List String
  source : InsertSource

/-- One assignment of an `UPDATE`. -/
structure Assignment where
  column : String
  value : Expr

/-- An `UPDATE`. -/
structure Update where
  table : TableRef
  assignments : List Assignment
  filter : Option Expr

/-- A `DELETE`. -/
structure Delete where
  table : TableRef
  filter : Option Expr

/-- An argument of a procedure call. -/
structure ExecArg where
  name : Option String
  value : Expr
  output : Bool

/-- A procedure call. -/
structure Exec where
  procedure : String
  args : List ExecArg
  returnStatus : Option String

/-- The name of the called procedure without qualifier and brackets. -/
def Exec.baseName (exec : Exec) : String :=
  Text.baseName exec.procedure

/-- A declared variable. -/
structure VarDecl where
  name : String
  type : String
  init : Option Expr

/-- Which row a fetch takes. -/
inductive FetchDirection where
  | next
  | prior
  | first
  | last
  | absolute (offset : Expr)
  | relative (offset : Expr)

namespace FetchDirection

/-- The keyword of a direction. -/
def keyword : FetchDirection → String
  | next => "NEXT"
  | prior => "PRIOR"
  | first => "FIRST"
  | last => "LAST"
  | absolute _ => "ABSOLUTE"
  | relative _ => "RELATIVE"

/-- Whether a fetch takes the row behind the current one. -/
def isNext : FetchDirection → Bool
  | next => true
  | _ => false

end FetchDirection

/-- A `FETCH`. -/
structure Fetch where
  cursor : String
  direction : FetchDirection
  into : List String

/-- The arguments of a `THROW`. -/
structure ThrowArgs where
  number : Expr
  message : Expr
  state : Expr

/-- A statement. -/
inductive Statement where
  | declare (vars : List VarDecl)
  | declareCursor (name : String) (query : Select)
  | set (target : String) (value : Expr)
  | ifElse (condition : Expr) (thenBranch : List Statement) (elseBranch : Option (List Statement))
  | while (condition : Expr) (body : List Statement)
  | block (body : List Statement)
  | ret (value : Option Expr)
  | print (value : Expr)
  | breakLoop
  | continueLoop
  | select (query : Select)
  | insert (insert : Insert)
  | update (update : Update)
  | delete (delete : Delete)
  | exec (exec : Exec)
  /-- Execution of a text that is computed at run time. -/
  | execDynamic (text : Expr)
  | openCursor (cursor : String)
  | fetch (fetch : Fetch)
  | closeCursor (cursor : String)
  | deallocate (cursor : String)
  | beginTransaction (name : Option String)
  | commit (name : Option String)
  | rollback (name : Option String)
  | savepoint (name : String)
  | tryCatch (tryBody catchBody : List Statement)
  | raiserror (message severity state : Expr)
  /-- Without arguments, the error being handled is raised again. -/
  | throw (args : Option ThrowArgs)

/-- The direction of a parameter. -/
inductive Direction where
  | input
  | output
  deriving DecidableEq, Repr

/-- A parameter. -/
structure Parameter where
  name : String
  type : String
  direction : Direction
  default : Option Expr

/-- Whether a parameter hands a value back. -/
def Parameter.isOutput (parameter : Parameter) : Bool :=
  parameter.direction = .output

/-- A stored procedure. -/
structure Procedure where
  name : String
  params : List Parameter := []
  body : List Statement := []

namespace Procedure

/-- The parameters that hand a value back. -/
def outputs (procedure : Procedure) : List Parameter :=
  procedure.params.filter (·.isOutput)

/-- The parameters that only take a value. -/
def inputs (procedure : Procedure) : List Parameter :=
  procedure.params.filter (!·.isOutput)

end Procedure

/-- Whether a severity is a constant that makes `RAISERROR` print only. -/
def Expr.isInformational : Expr → Bool
  | .literal (.int n) => n ≤ 10
  | _ => false

/-- The expressions of what an insertion adds. -/
def InsertSource.walk : InsertSource → List Expr
  | .values rows => rows.flatMap walkList
  | .query q => q.walk

namespace Statement

/-- The keyword of a statement. -/
def kind : Statement → String
  | declare _ => "DECLARE"
  | declareCursor _ _ => "DECLARE CURSOR"
  | set _ _ => "SET"
  | ifElse _ _ _ => "IF"
  | .while _ _ => "WHILE"
  | block _ => "BEGIN"
  | ret _ => "RETURN"
  | print _ => "PRINT"
  | breakLoop => "BREAK"
  | continueLoop => "CONTINUE"
  | select _ => "SELECT"
  | insert _ => "INSERT"
  | update _ => "UPDATE"
  | delete _ => "DELETE"
  | exec _ => "EXEC"
  | execDynamic _ => "EXEC (dynamic)"
  | openCursor _ => "OPEN"
  | fetch _ => "FETCH"
  | closeCursor _ => "CLOSE"
  | deallocate _ => "DEALLOCATE"
  | beginTransaction _ => "BEGIN TRANSACTION"
  | commit _ => "COMMIT"
  | rollback _ => "ROLLBACK"
  | savepoint _ => "SAVE TRANSACTION"
  | tryCatch _ _ => "BEGIN TRY"
  | raiserror _ _ _ => "RAISERROR"
  | throw _ => "THROW"

/-- Whether a statement reaches a backend. -/
def isDml : Statement → Bool
  | select _ | insert _ | update _ | delete _ | exec _ => true
  | _ => false

/-- The statement lists of a statement, in source order. -/
def children : Statement → List (List Statement)
  | ifElse _ thenBranch elseBranch => thenBranch :: elseBranch.toList
  | .while _ body => [body]
  | block body => [body]
  | tryCatch tryBody catchBody => [tryBody, catchBody]
  | _ => []

mutual

/-- A statement and all statements inside it, outermost first. -/
def nested : Statement → List Statement
  | ifElse condition thenBranch elseBranch =>
    ifElse condition thenBranch elseBranch :: (nestedList thenBranch ++ nestedElse elseBranch)
  | .while condition body => .while condition body :: nestedList body
  | block body => block body :: nestedList body
  | tryCatch tryBody catchBody =>
    tryCatch tryBody catchBody :: (nestedList tryBody ++ nestedList catchBody)
  | declare vars => [declare vars]
  | declareCursor name query => [declareCursor name query]
  | set target value => [set target value]
  | ret value => [ret value]
  | print value => [print value]
  | breakLoop => [breakLoop]
  | continueLoop => [continueLoop]
  | select query => [select query]
  | insert i => [insert i]
  | update u => [update u]
  | delete d => [delete d]
  | exec e => [exec e]
  | execDynamic text => [execDynamic text]
  | openCursor cursor => [openCursor cursor]
  | fetch f => [fetch f]
  | closeCursor cursor => [closeCursor cursor]
  | deallocate cursor => [deallocate cursor]
  | beginTransaction name => [beginTransaction name]
  | commit name => [commit name]
  | rollback name => [rollback name]
  | savepoint name => [savepoint name]
  | raiserror message severity state => [raiserror message severity state]
  | throw args => [throw args]

/-- All statements of a list, in order. -/
def nestedList : List Statement → List Statement
  | [] => []
  | statement :: rest => nested statement ++ nestedList rest

/-- All statements of an optional branch. -/
def nestedElse : Option (List Statement) → List Statement
  | none => []
  | some body => nestedList body

end

/-- The expressions of a statement that belong to no nested statement, with everything inside
them. -/
def ownExprs : Statement → List Expr
  | declare vars => vars.flatMap fun v => walkOption v.init
  | declareCursor _ query => query.walk
  | set _ value => value.walk
  | ifElse condition _ _ => condition.walk
  | .while condition _ => condition.walk
  | ret value => walkOption value
  | print value => value.walk
  | execDynamic text => text.walk
  | select query => query.walk
  | insert i => i.source.walk
  | update u => u.assignments.flatMap (·.value.walk) ++ walkOption u.filter
  | delete d => walkOption d.filter
  | exec e => e.args.flatMap (·.value.walk)
  | raiserror message severity state => message.walk ++ (severity.walk ++ state.walk)
  | throw (some args) => args.number.walk ++ (args.message.walk ++ args.state.walk)
  | _ => []

mutual

/-- Whether control cannot pass beyond a statement. -/
def alwaysReturns : Statement → Bool
  | ret _ => true
  | throw _ => true
  | block body => listReturns body
  | ifElse _ thenBranch (some elseBranch) => listReturns thenBranch && listReturns elseBranch
  | _ => false

/-- Whether control cannot pass beyond the last statement of a list. -/
def listReturns : List Statement → Bool
  | [] => false
  | [last] => alwaysReturns last
  | _ :: rest => listReturns rest

end

end Statement

/-- All statements of a procedure, outermost first. -/
def Procedure.statements (procedure : Procedure) : List Statement :=
  Statement.nestedList procedure.body

end Sproc
