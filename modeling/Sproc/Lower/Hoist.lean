import Sproc.Lower.Request

/-!
# Queries inside expressions

Go has no queries inside expressions, so a query whose value an expression needs runs before the
statement that holds the expression, and its result waits in a variable.

## Main definitions

* `backendFor`: the backend of a table, with a warning where it is not the usual one
* `emitScan`: a query for a single row
* `hoistExists`, `hoistScalar`
-/

namespace Sproc.Lower

/-- The backend of a statement on a table. -/
def backendFor (table : TableRef) : Lower Backend := do
  let (backend, forced) := (← read).config.backendOf (some table)
  if forced then
    warn .fallbackBackend s!"temporary table forced to fallback backend: {table.name}"
  return backend

/-- The addresses of variables. -/
def addresses (targets : List String) : List Go.Expr :=
  targets.map fun target => .unary .address (.name target)

/-- Runs a query for a single row and reads it into variables. A missing row leaves them as they are
and is no failure. -/
def emitScan (query : Query Go.Expr) (targets : List String) (trackRows : Bool) : Lower Unit := do
  let row := dataCall (← handle) "QueryRowContext" query
  importPath "errors"
  importPath "database/sql"
  let init := assignTo [err] (.invoke row "Scan" (addresses targets))
  let noRow : Go.Expr :=
    .invoke (.name "errors") "Is" [err, .member (.name "sql") "ErrNoRows"]
  let missing ← block do
    emit (.assign (assignTo [err] .nil))
    if trackRows then
      emitAssign "rowCount" (.int 0)
  let failure ← block errorExit
  if trackRows then
    let found ← block emitOneRow
    emit (.branch (.mk (some init) noRow missing) [.mk none failed failure] (some found))
  else
    emit (.branch (.mk (some init) noRow missing) [.mk none failed failure] none)

/-- The value of `EXISTS`. A query without table always has its one row. -/
def hoistExists (query : Select) : Lower Value := do
  match query.source with
  | none => return .ofType (.bool true) .bool
  | some table =>
    let target ← fresh "exists"
    emit (.declare target (.value .bool) none)
    match ← backendFor table with
    | .sql =>
      let probe ← renderQuery fun dialect resolver => Query.probe dialect resolver query
      let row := dataCall (← handle) "QueryRowContext" probe
      emitGuarded (assignTo [err] (.invoke row "Scan" (addresses [target])))
    | backend => requestExists backend query table target
    return .ofType (.name target) .bool

/-- The type of a query for a single value: counts have their own, and any other takes the type that
it flows into. -/
def scalarType? (query : Select) (hint : Option GoType) : Option GoType :=
  match query.items with
  | [item] =>
    if item.expr.isFunction "COUNT" then some .int32
    else if item.expr.isFunction "COUNT_BIG" then some .int64
    else hint
  | _ => hint

/-- The value of a query for a single value from a table. -/
def hoistScalar (query : Select) (table : TableRef) (hint : Option GoType) : Lower Value := do
  let backend ← backendFor table
  if backend ≠ .sql then
    unsupported "scalar subquery" s!"not expressible on the {backend.id} backend"
  match scalarType? query hint with
  | none => unsupported "scalar subquery" "result type cannot be inferred"
  | some type =>
    importType type
    let target ← fresh "scalar"
    emit (.declare target (.value type) none)
    let rendered ← renderQuery fun dialect resolver => Query.ofSelect dialect resolver query
    emitScan rendered [target] false
    return .ofType (.name target) type

end Sproc.Lower
