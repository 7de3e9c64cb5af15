import Sproc.Lower.Coerce
import Sproc.Lower.Exit

/-!
# Server variables and functions of the server

Values that T-SQL takes from the server: the count of open transactions, the error being handled,
the clock. They can stand in Go code and, as arguments, in query text.

## Main definitions

* `errorIntrinsic?`: functions that describe the error being handled
* `lowerGlobal`, `clock?`
* `renderQuery`: query text with the variables of the procedure as arguments
-/

namespace Sproc

/-- The value of a function that describes the error being handled. Outside of a handler it is
empty. -/
def errorIntrinsic? (inCatch : Bool) (procedure name : String) : Option Value :=
  let int (n : Int) : Option Value := some (.atom (.int n) (.intConst n))
  let text (s : String) : Option Value := some (.atom (.str s) (.strConst s))
  match Text.toUpper name with
  | "ERROR_MESSAGE" =>
    if inCatch then some (.ofType (.invoke (.name "caught") "Error" []) .string) else text ""
  | "ERROR_NUMBER" => int (if inCatch then 50000 else 0)
  | "ERROR_SEVERITY" => int (if inCatch then 16 else 0)
  | "ERROR_STATE" => int (if inCatch then 1 else 0)
  | "ERROR_LINE" => int 0
  | "ERROR_PROCEDURE" => text (if inCatch then procedure else "")
  | _ => none

/-- The count of open transactions as Go code. Where the paths disagree, the transaction is asked at
run time. -/
def tranCountCode (usesDb : Bool) (state : TransactionState) : Go.Expr :=
  if state.uncertain && usesDb then .runtime "TranCount" [.name "tx"]
  else .int (if state.active then 1 else 0)

namespace Lower

/-- The count of open transactions. -/
def tranCount : Lower Value := do
  let usesDb := (← read).survey.usesDb
  let state := (← get).transaction
  let code := tranCountCode usesDb state
  if state.uncertain && usesDb then
    importRuntime
    return .ofType code .int32
  else
    return .atom code (.intConst (if state.active then 1 else 0))

/-- A server variable. -/
def lowerGlobal (var : GlobalVar) : Lower Value := do
  match var with
  | .rowCount => return .ofType (.name "rowCount") .int64
  | .identity => return .ofType (.name "lastInsertID") .int64
  | .error =>
    warn .approximation "@@ERROR is always 0: failed statements leave through the error path"
    return .ofInt 0
  | .tranCount => tranCount
  | .fetchStatus =>
    unsupported "@@FETCH_STATUS" "only supported as the condition of a WHILE loop over a cursor"

/-- A variable of the procedure. -/
def lowerVariable (name : String) : Lower Value := do
  let symbol ← lookup name
  return .ofType (.name symbol.goName) symbol.type.go

/-- The current time, for functions that yield it; the name is given in capitals. -/
def clock? : String → Option Go.Expr
  | "GETDATE" | "SYSDATETIME" | "CURRENT_TIMESTAMP" | "SYSDATETIMEOFFSET" =>
    some (.invoke (.name "time") "Now" [])
  | "GETUTCDATE" | "SYSUTCDATETIME" =>
    some (.invoke (.invoke (.name "time") "Now" []) "UTC" [])
  | _ => none

/-- The handle of data calls: the transaction when one is open. -/
def sqlHandle (usesDb : Bool) (state : TransactionState) : String :=
  if state.active && usesDb then "tx" else "db"

/-- The handle of data calls at this point. -/
def handle : Lower Go.Expr := do
  return .name (sqlHandle (← read).survey.usesDb (← get).transaction)

/-- What is bound in query text: variables by their Go names, and what the server would know. -/
def queryArgs (context : Context) (progress : Progress) : Resolver Go.Expr where
  ofVariable name := (progress.symbols.lookup name).map fun symbol => .name symbol.goName
  ofGlobal var :=
    match var with
    | .rowCount => .ok (.name "rowCount")
    | .identity => .ok (.name "lastInsertID")
    | .error => .ok (.int 0)
    | .tranCount => .ok (tranCountCode context.survey.usesDb progress.transaction)
    | .fetchStatus => .error (.unsupported "@@FETCH_STATUS" "cannot be referenced inside a query")
  ofFunction name :=
    if name == "SCOPE_IDENTITY" then some (.ok (.name "lastInsertID"))
    else
      (errorIntrinsic? context.inCatch context.procedure.name name).map fun value =>
        .ok value.code
  isString name := (progress.symbols.get? name).any (·.type.category == .string)

/-- The text of a data statement. -/
def renderQuery (build : Dialect → Resolver Go.Expr → Except Fault (Query Go.Expr)) :
    Lower (Query Go.Expr) := do
  let context ← read
  let query ← ofExcept (build context.config.dialect (queryArgs context (← get)))
  if query.args.any (·.isRuntimeCall) then
    importRuntime
  return query

/-- A data call: the query and its arguments follow the context. -/
def dataCall (owner : Go.Expr) (method : String) (query : Query Go.Expr) : Go.Expr :=
  .invoke owner method (ctx :: .query query.sql :: query.args)

end Lower

end Sproc
