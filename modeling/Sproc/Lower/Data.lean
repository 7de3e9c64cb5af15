import Sproc.Lower.Expr

/-!
# Data statements

Queries, changes and procedure calls. A statement goes to the backend of its table: to the database
as query text, or as a request.

## Main definitions

* `lowerSelect`, `lowerInsert`, `lowerUpdate`, `lowerDelete`, `lowerExec`
-/

namespace Sproc.Lower

/-- Refuses a select list that assigns some variables and yields columns as well. -/
def mixedSelect {α : Type} : Lower α :=
  unsupported "SELECT" "variable assignment mixed with result columns"

/-- Runs a statement for its effect. The result of the call is kept where the count of rows or the
last identity is read. -/
def emitExec (query : Query Go.Expr) (identity : Bool) : Lower Unit := do
  let call := dataCall (← handle) "ExecContext" query
  let survey := (← read).survey
  let rows := survey.tracksRowCount
  let identity := identity && survey.tracksIdentity
  if !rows && !identity then
    emitGuarded (assignTo [.name "_", err] call)
  else
    importPath "database/sql"
    let result ← localName "res"
    let define ← bindLocal result (.named "sql" "Result")
    emit (.assign ⟨[.name result, err], define, call⟩)
    let keep (target method : String) : Lower Unit :=
      emit (.assign (assignTo [.name target, .name "_"] (.invoke (.name result) method [])))
    emitChecked do
      if rows then
        keep "rowCount" "RowsAffected"
      if identity then
        keep "lastInsertID" "LastInsertId"

/-- The Go names of variables. -/
def goNames : List String → Lower (List String)
  | [] => return []
  | name :: rest => do
    let symbol ← lookup name
    return symbol.goName :: (← goNames rest)

/-- Assigns an expression to a variable of the procedure. -/
def assignVariable (name : String) (value : Expr) : Lower Unit := do
  let symbol ← lookup name
  emitAssign symbol.goName (← lowerValue value symbol.type.go)

/-- The assignments of a select list without table. -/
def assignItems : List SelectItem → Lower Unit
  | [] => return ()
  | ⟨expr, _, some target⟩ :: rest => do
    assignVariable target expr
    assignItems rest
  | ⟨_, _, none⟩ :: _ => mixedSelect

/-- A value of a result row. Constants get the type that they have in T-SQL. -/
def rowValue (value : Value) : Lower Go.Expr := do
  match value.goType?, value.kind with
  | some _, _ => return value.code
  | none, .decConst _ => return (← coerce value .decimal).code
  | none, .null => return .nil
  | none, _ => return (← coerce value .int32).code

/-- The values of a select list without table. -/
def rowValues : List SelectItem → Lower (List Go.Expr)
  | [] => return []
  | ⟨expr, _, _⟩ :: rest => do
    let value ← rowValue (← lowerExpr expr none)
    return value :: (← rowValues rest)

/-- A query without table: assignments in Go, or a result row of values. -/
def lowerValues (query : Select) : Lower Unit := do
  if query.assignsVariables then
    assignItems query.items
  else
    let values ← rowValues query.items
    emit (.run (← runtimeCall "EmitValues" [ctx, .spread values]))
  if (← read).survey.tracksRowCount then
    emitOneRow

/-- A query on the database. Its row is read into variables, or its rows are handed to the
caller. -/
def lowerQuery (query : Select) : Lower Unit := do
  let rendered ← renderQuery fun dialect resolver => Query.ofSelect dialect resolver query
  let tracksRows := (← read).survey.tracksRowCount
  if query.assignsVariables then
    -- A query either assigns variables or has a result, never both.
    if query.items.any (·.assignTo.isNone) then
      mixedSelect
    let targets ← goNames query.assigned
    emitScan rendered targets tracksRows
  else
    let sink := if query.isSingleRow then "EmitRow" else "EmitRows"
    let count := if tracksRows then "rowCount" else "_"
    let call ← runtimeCall sink (ctx :: (← handle) :: .query rendered.sql :: rendered.args)
    emitGuarded (assignTo [.name count, err] call)

/-- A query. -/
def lowerSelect (query : Select) : Lower Unit := do
  match query.source with
  | none => lowerValues query
  | some table =>
    match ← backendFor table with
    | .sql => lowerQuery query
    | backend => requestSelect backend query table

/-- An insertion. -/
def lowerInsert (insert : Insert) : Lower Unit := do
  match ← backendFor insert.table with
  | .sql =>
    emitExec (← renderQuery fun dialect resolver => Query.ofInsert dialect resolver insert) true
  | backend => requestInsert backend insert

/-- An update. -/
def lowerUpdate (update : Update) : Lower Unit := do
  match ← backendFor update.table with
  | .sql =>
    emitExec (← renderQuery fun dialect resolver => Query.ofUpdate dialect resolver update) false
  | backend => requestUpdate backend update

/-- A deletion. -/
def lowerDelete (delete : Delete) : Lower Unit := do
  match ← backendFor delete.table with
  | .sql =>
    emitExec (← renderQuery fun dialect resolver => Query.ofDelete dialect resolver delete) false
  | backend => requestDelete backend delete

/-- The Go names of the variables that receive output arguments. -/
def outputTargets : List ExecArg → Lower (List String)
  | [] => return []
  | arg :: rest => do
    if arg.output then
      let (_, goName) ← outputVariable arg
      return goName :: (← outputTargets rest)
    else
      outputTargets rest

/-- A procedure call on the database. Output arguments come back as a single row; a status does not
come back at all. -/
def callDatabase (exec : Exec) : Lower Unit := do
  let query ← renderQuery fun dialect resolver => Query.ofExec dialect resolver exec
  let outputs ← outputTargets exec.args
  if outputs.isEmpty then
    emitExec query false
  else
    emitScan query outputs false
  match exec.returnStatus with
  | none => return ()
  | some status =>
    let symbol ← lookup status
    warn .approximation (s!"return status of {exec.baseName} is not reported by database/sql; " ++
      s!"{status} is set to its zero value")
    emitAssign symbol.goName (.zero symbol.type.go)

/-- A procedure call. -/
def lowerExec (exec : Exec) : Lower Unit := do
  match (← read).config.backend with
  | .sql => callDatabase exec
  | backend => requestExec backend exec

end Sproc.Lower
