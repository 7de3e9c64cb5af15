import Sproc.Lower.Generator

/-!
# Generation with stacks: statements

The handlers of statements, with every push and every pop where it is made. A part that can fail and
that leaves something to take off the stacks is attempted first: the stacks are put right, and only
then is its failure passed on. Expressions and single lines only read the stacks and are performed
as they are, an expression with the query in front of it and the check of that query.

## Main definitions

* `emitGuarded`, `emitChecked`: calls that can fail
* `emitScan`, `emitExec`, `emitCall`, `emitCallWith`: data statements by their backends
* `lowerStatements`, `lowerStatement`, `lowerElse`: statements with parts
* `Procedure.generate`: the function of a procedure with its text
-/

namespace Sproc

namespace Go

/-- The line that opens a conditional. -/
def ifHead (init : Option Assign) (test : Expr) : String :=
  "if " ++ renderTest init test ++ " \x7b"

/-- The line that goes on with a further test. -/
def elseIfHead (init : Option Assign) (test : Expr) : String :=
  "\x7d else if " ++ renderTest init test ++ " \x7b"

/-- The line that goes on with an alternative. -/
def elseHead : String := "\x7d else \x7b"

/-- The line that opens a loop. -/
def loopHead : Option Expr → String
  | some test => "for " ++ test.render ++ " \x7b"
  | none => "for \x7b"

/-- The line that opens a function literal. -/
def closureHead (deferred : Bool) : String :=
  if deferred then "defer func() \x7b" else "func() \x7b"

/-- The line that closes a conditional or a loop. -/
def blockFoot : String := "\x7d"

/-- The line that closes a function literal, which is called at once. -/
def closureFoot : String := "\x7d()"

end Go

namespace Generate

open Lower (assignTo err ctx failed)

/-- Turns to the part with the given index, and back behind it. -/
def branch {α : Type} (index : Nat) (body : Generate α) : Generate α := do
  enter index
  let outcome ← attempt body
  leave
  resume outcome

/-! ## Ways out -/

/-- Adds a conditional with one arm. -/
def emitIf (init : Option Go.Assign) (test : Go.Expr) (step : Generate Unit) : Generate Unit := do
  openBlock (Go.ifHead init test)
  step
  let body ← closeBlock Go.blockFoot
  record (.branch (.mk init test body) [] none)

/-- Adds a function literal. -/
def emitClosure (deferred : Bool) (step : Generate Unit) : Generate Unit := do
  openBlock (Go.closureHead deferred)
  step
  let body ← closeBlock Go.closureFoot
  record (.closure deferred body)

/-- A call whose failure leaves at once. -/
def emitGuarded (init : Go.Assign) : Generate Unit :=
  emitIf (some init) failed (perform Lower.errorExit)

/-- Checks the call just made, and goes on when it has succeeded. In a handler, where a failure does
not leave, what follows is the alternative of the check. -/
def emitChecked (success : Generate Unit) : Generate Unit := do
  openBlock (Go.ifHead none failed)
  perform Lower.errorExit
  if (← exitScope) = .catchHalf then
    let failure ← reopenBlock Go.elseHead
    success
    let rest ← closeBlock Go.blockFoot
    record (.branch (.mk none failed failure) [] (some rest))
  else
    let failure ← closeBlock Go.blockFoot
    record (.branch (.mk none failed failure) [] none)
    success

/-- Prepares an assignment to a generated variable, and returns whether the assignment introduces
it. -/
def bindLocal (name : String) (type : Go.TypeExpr) : Generate Bool := do
  let (binding, names) := (← get).progress.names.bind name
  change fun p => { p with names }
  match binding with
  | .assign => return false
  | .define =>
    if names.depth = 0 then
      return true
    else
      emit (.declare name type none)
      return false

/-- Refuses a jump that has no loop to act on. -/
def checkJump (keyword : String) : Generate Unit := do
  let loops := (← get).loops
  if loops.headD 0 = 0 then
    if loops.any (· > 0) then
      perform (Lower.unsupported keyword "cannot leave a loop across a TRY/CATCH boundary")
    else
      perform (Lower.unsupported keyword "outside of a WHILE loop")

/-! ## Transactions -/

/-- Notes what is known about the transaction from here on. -/
def setTransaction (transaction : TransactionState) : Generate Unit :=
  perform (Lower.setTransaction transaction)

/-- Opens the handle of a transaction, which is rolled back if the function fails. -/
def emitBegin : Generate Unit := do
  emitGuarded (assignTo [Lower.tx, err] (.invoke (.name "db") "BeginTx" [ctx, .nil]))
  emitClosure true <| emitIf none (.chain "&&" [failed, Lower.txOpen]) do
    emit (.assign (assignTo [.name "_"] (.invoke Lower.tx "Rollback" [])))
    perform Lower.emitNoTransaction

/-- Starts a transaction. -/
def beginTransaction (name : Option String) : Generate Unit := do
  if (← get).progress.transaction.active then
    perform (Lower.transactionFault "nested BEGIN TRANSACTION is not supported")
  match name with
  | some name =>
    perform (Lower.warn .ignored s!"transaction name {name} has no Go counterpart")
  | none => pure ()
  setTransaction ⟨true, false⟩
  if (← read).survey.usesDb then
    emitBegin
  else
    perform (Lower.warnNoHandle "BEGIN TRANSACTION")

/-- Ends the transaction by a method of its handle. Where it is not known whether one is open, the
handle is asked. -/
def endTransaction (keyword method : String) : Generate Unit := do
  let state := (← get).progress.transaction
  if !state.active && !state.uncertain then
    perform (Lower.transactionFault s!"{keyword} without an open transaction")
  setTransaction {}
  if (← read).survey.usesDb then
    let finish : Generate Unit := do
      emitGuarded (assignTo [err] (.invoke Lower.tx method []))
      perform Lower.emitNoTransaction
    if state.uncertain then emitIf none Lower.txOpen finish else finish
  else
    perform (Lower.warnNoHandle keyword)

/-! ## Data statements -/

/-- What happens where a query for a single row has none. -/
def emitMissing (trackRows : Bool) : Generate Unit := do
  emit (.assign (assignTo [err] .nil))
  if trackRows then
    perform (Lower.emitAssign "rowCount" (.int 0))

/-- Runs a query for a single row and reads it into variables. -/
def emitScan (query : Query Go.Expr) (targets : List String) (trackRows : Bool) :
    Generate Unit := do
  let row := Lower.dataCall (← perform Lower.handle) "QueryRowContext" query
  perform (Lower.importPath "errors")
  perform (Lower.importPath "database/sql")
  let init := assignTo [err] (.invoke row "Scan" (Lower.addresses targets))
  let noRow : Go.Expr :=
    .invoke (.name "errors") "Is" [err, .member (.name "sql") "ErrNoRows"]
  openBlock (Go.ifHead (some init) noRow)
  emitMissing trackRows
  let missing ← reopenBlock (Go.elseIfHead none failed)
  perform Lower.errorExit
  if trackRows then
    let failure ← reopenBlock Go.elseHead
    perform Lower.emitOneRow
    let found ← closeBlock Go.blockFoot
    record (.branch (.mk (some init) noRow missing) [.mk none failed failure] (some found))
  else
    let failure ← closeBlock Go.blockFoot
    record (.branch (.mk (some init) noRow missing) [.mk none failed failure] none)

/-- Runs a statement for its effect. -/
def emitExec (query : Query Go.Expr) (identity : Bool) : Generate Unit := do
  let call := Lower.dataCall (← perform Lower.handle) "ExecContext" query
  let survey := (← read).survey
  let rows := survey.tracksRowCount
  let identity := identity && survey.tracksIdentity
  if !rows && !identity then
    emitGuarded (assignTo [.name "_", err] call)
  else
    perform (Lower.importPath "database/sql")
    let result ← perform (Lower.localName "res")
    let define ← bindLocal result (.named "sql" "Result")
    emit (.assign ⟨[.name result, err], define, call⟩)
    let keep (target method : String) : Generate Unit :=
      emit (.assign (assignTo [.name target, .name "_"] (.invoke (.name result) method [])))
    emitChecked do
      if rows then
        keep "rowCount" "RowsAffected"
      if identity then
        keep "lastInsertID" "LastInsertId"

/-- Calls a method and hands the variable that holds the response to what follows. -/
def emitCallWith (backend : Backend) (client : ClientRef) (method : String) (fields : Lower.Fields)
    (onResponse : Go.Expr → Generate Unit) : Generate Unit := do
  let (call, package) ← perform (Lower.remoteCall backend client method fields)
  let response ← perform (Lower.localName (Identifier.camelCase method ++ "Resp"))
  let define ← bindLocal response (.pointer (.named package (method ++ "Response")))
  emit (.assign ⟨[.name response, err], define, call⟩)
  emitChecked (onResponse (.name response))

/-- Calls a method and drops the response. -/
def emitCall (backend : Backend) (client : ClientRef) (method : String) (fields : Lower.Fields) :
    Generate Unit := do
  let (call, _) ← perform (Lower.remoteCall backend client method fields)
  let init := assignTo [.name "_", err] call
  if (← read).survey.tracksRowCount then
    emit (.assign init)
    emitChecked (perform Lower.emitOneRow)
  else
    emitGuarded init

/-- A query over a table as a request. -/
def requestSelect (backend : Backend) (query : Select) (table : TableRef) : Generate Unit := do
  perform (Lower.warnJoins query.joins)
  let single := query.assignsVariables || query.isSingleRow
  let (client, method) ← perform (Lower.tableMethod table .select single)
  let fields ← perform (Lower.filterFields query.filter)
  if query.assignsVariables then
    let reads ← perform (Lower.itemReads query.items)
    emitCallWith backend client method fields fun response => do
      perform (Lower.emitReads response reads)
      if (← read).survey.tracksRowCount then
        perform Lower.emitOneRow
  else
    emitCallWith backend client method fields fun response => do
      emit (.run (← perform (Lower.runtimeCall "EmitMessage" [ctx, response])))

/-- One request for each row of an insertion. -/
def requestRows (backend : Backend) (client : ClientRef) (method : String)
    (columns : List String) : List (List Expr) → Generate Unit
  | [] => return ()
  | row :: rest => do
    let fields ← perform (Lower.addFields "VALUES" [] (columns.zip row))
    emitCall backend client method fields
    requestRows backend client method columns rest

/-- An insertion as requests. -/
def requestInsert (backend : Backend) (insert : Insert) : Generate Unit := do
  let statement := "INSERT INTO " ++ insert.table.name
  if insert.columns.isEmpty then
    perform (Lower.fail (.unmappable statement "no column list to name the request fields"))
  match insert.source with
  | .query _ =>
    perform (Lower.fail (.unmappable statement "INSERT … SELECT has no literal field values"))
  | .values rows =>
    let (client, method) ← perform (Lower.tableMethod insert.table .insert true)
    requestRows backend client method insert.columns rows

/-- An update as a request. -/
def requestUpdate (backend : Backend) (update : Update) : Generate Unit := do
  let (client, method) ← perform (Lower.tableMethod update.table .update true)
  let fields ← perform (Lower.filterFields update.filter)
  let fields ←
    perform (Lower.addFields "SET" fields (update.assignments.map fun a => (a.column, a.value)))
  emitCall backend client method fields

/-- A deletion as a request. -/
def requestDelete (backend : Backend) (delete : Delete) : Generate Unit := do
  let (client, method) ← perform (Lower.tableMethod delete.table .delete true)
  let fields ← perform (Lower.filterFields delete.filter)
  emitCall backend client method fields

/-- A procedure call as a request. -/
def requestExec (backend : Backend) (exec : Exec) : Generate Unit := do
  let method ← perform (Lower.ofExcept (Identifier.functionName exec.procedure))
  let (fields, reads) ← perform (Lower.requestArgs exec.baseName 1 [] [] exec.args)
  let reads ←
    match exec.returnStatus with
    | some status => do
      pure (reads ++ [((← perform (Lower.lookup status)).goName, "ReturnCode")])
    | none => pure reads
  let client := (← read).config.execClient
  if reads.isEmpty then
    emitCall backend client method fields
  else
    emitCallWith backend client method fields fun response =>
      perform (Lower.emitReads response reads)

/-- A query on the database. -/
def lowerQuery (query : Select) : Generate Unit := do
  let rendered ← perform <| Lower.renderQuery fun dialect resolver =>
    Query.ofSelect dialect resolver query
  let tracksRows := (← read).survey.tracksRowCount
  if query.assignsVariables then
    if query.items.any (·.assignTo.isNone) then
      perform Lower.mixedSelect
    let targets ← perform (Lower.goNames query.assigned)
    emitScan rendered targets tracksRows
  else
    let sink := if query.isSingleRow then "EmitRow" else "EmitRows"
    let count := if tracksRows then "rowCount" else "_"
    let handle ← perform Lower.handle
    let call ← perform <| Lower.runtimeCall sink <|
      ctx :: handle :: .query rendered.sql :: rendered.args
    emitGuarded (assignTo [.name count, err] call)

/-- A query. -/
def lowerSelect (query : Select) : Generate Unit := do
  match query.source with
  | none => perform (Lower.lowerValues query)
  | some table =>
    match ← perform (Lower.backendFor table) with
    | .sql => lowerQuery query
    | backend => requestSelect backend query table

/-- An insertion. -/
def lowerInsert (insert : Insert) : Generate Unit := do
  match ← perform (Lower.backendFor insert.table) with
  | .sql =>
    let query ← perform <| Lower.renderQuery fun dialect resolver =>
      Query.ofInsert dialect resolver insert
    emitExec query true
  | backend => requestInsert backend insert

/-- An update. -/
def lowerUpdate (update : Update) : Generate Unit := do
  match ← perform (Lower.backendFor update.table) with
  | .sql =>
    let query ← perform <| Lower.renderQuery fun dialect resolver =>
      Query.ofUpdate dialect resolver update
    emitExec query false
  | backend => requestUpdate backend update

/-- A deletion. -/
def lowerDelete (delete : Delete) : Generate Unit := do
  match ← perform (Lower.backendFor delete.table) with
  | .sql =>
    let query ← perform <| Lower.renderQuery fun dialect resolver =>
      Query.ofDelete dialect resolver delete
    emitExec query false
  | backend => requestDelete backend delete

/-- A procedure call on the database. -/
def callDatabase (exec : Exec) : Generate Unit := do
  let query ← perform <| Lower.renderQuery fun dialect resolver =>
    Query.ofExec dialect resolver exec
  let outputs ← perform (Lower.outputTargets exec.args)
  if outputs.isEmpty then
    emitExec query false
  else
    emitScan query outputs false
  match exec.returnStatus with
  | none => return ()
  | some status =>
    let symbol ← perform (Lower.lookup status)
    perform <| Lower.warn .approximation
      (s!"return status of {exec.baseName} is not reported by database/sql; " ++
        s!"{status} is set to its zero value")
    perform (Lower.emitAssign symbol.goName (.zero symbol.type.go))

/-- A procedure call. -/
def lowerExec (exec : Exec) : Generate Unit := do
  match (← read).config.backend with
  | .sql => callDatabase exec
  | backend => requestExec backend exec

/-- An assignment. -/
def lowerSet (target : String) (value : Expr) : Generate Unit := do
  match Lower.assignmentQuery? target value with
  | some query =>
    let _ ← perform (Lower.lookup target)
    lowerSelect query
  | none => perform (Lower.assignVariable target value)

/-! ## Cursors -/

/-- Releases an iterator, if there is one, when the function returns. -/
def emitRelease (iterator : String) : Generate Unit :=
  emitClosure true <| emitIf none (.binary "!=" (.name iterator) .nil) <|
    emit (.assign (assignTo [.name "_"] (.invoke (.name iterator) "Close" [])))

/-- Declares the iterator of a cursor that is opened inside a Go block. -/
def hoistIterator (name : String) (query : Select) : Generate Unit := do
  let fixed ← read
  let backend := (fixed.config.backendOf query.source).1
  if fixed.survey.hoistsCursor name && query.source.isSome && backend ≠ .rpc then
    let iterator ← perform (Lower.iteratorName name)
    let type ← perform (Lower.iteratorType backend)
    change fun p => { p with names := (p.names.bind iterator).2 }
    emit (.declare iterator type none)
    if fixed.survey.releasesAtEntry name then
      emitRelease iterator

/-- Declares the iterators of the cursors that need it. -/
def hoistIterators : List Statement → Generate Unit
  | [] => return ()
  | .declareCursor name query :: rest => do
    hoistIterator name query
    hoistIterators rest
  | _ :: rest => hoistIterators rest

/-- Starts the stream of rows of a cursor. -/
def openCursor (name : String) : Generate Unit := do
  let cursor ← perform (Lower.getCursor name)
  if cursor.state = .opened then
    perform (Lower.cursorFault name .alreadyOpen)
  let call ← perform (Lower.rowsCall cursor)
  let type ← perform (Lower.iteratorType cursor.backend)
  let define ← bindLocal cursor.iterator type
  emit (.assign ⟨[.name cursor.iterator, err], define, call⟩)
  if (← read).survey.releasesAtEntry name then
    emitIf none failed (perform Lower.errorExit)
  else
    emitChecked (emit (.deferCall (.invoke (.name cursor.iterator) "Close" [])))
  perform (Lower.putCursor name { cursor with state := .opened })

/-- Reads the current row of an iterator into variables. -/
def emitRow (iterator : Go.Expr) (targets : List String) : Generate Unit :=
  emitGuarded (assignTo [err] (.invoke iterator "Scan" (Lower.addresses targets)))

/-- A fetch that belongs to no loop. -/
def fetchRow (fetch : Fetch) : Generate Unit := do
  let iterator ← perform (Lower.fetchIterator fetch)
  if (← get).looping.contains (Text.toLower fetch.cursor) then
    return ()
  let targets ← perform (Lower.goNames fetch.into)
  emitIf none (.invoke iterator "Next" []) (emitRow iterator targets)

/-! ## Loops -/

/-- Leaves the innermost loop unless a condition holds. -/
def emitLoopTest (condition : Expr) : Generate Unit := do
  let test ← perform (Lower.lowerCondition condition)
  emitIf none (.unary .not (.paren test)) (emit .breakLoop)

/-- Adds a loop, and returns how its rounds have gone. -/
def emitLoop (test : Option Go.Expr) (round : Generate Unit) : Generate (Except Error Unit) := do
  openBlock (Go.loopHead test)
  enterLoop
  let outcome ← attempt round
  leaveLoop
  let body ← closeBlock Go.blockFoot
  record (.loop test body)
  return outcome

/-- A loop. A condition that depends on a query is evaluated anew in each round. -/
def lowerWhile (condition : Expr) (body : Generate Unit) : Generate Unit := do
  if condition.needsHoist then
    let outcome ← emitLoop none do
      emitLoopTest condition
      branch 0 body
    resume outcome
  else
    let test ← perform (Lower.lowerCondition condition)
    let outcome ← emitLoop (some test) (branch 0 body)
    resume outcome

/-- What each round of a loop over a cursor starts with. -/
def emitRound (iterator : Go.Expr) (targets : List String) (rest : Option Expr) :
    Generate Unit := do
  emitRow iterator targets
  match rest with
  | some condition => emitLoopTest condition
  | none => pure ()

/-- Adds a loop that advances a cursor. -/
def emitCursorLoop (cursor : String) (test : Go.Expr) (round : Generate Unit) : Generate Unit := do
  pushLooping cursor
  let outcome ← emitLoop (some test) round
  popLooping
  resume outcome

/-- A loop over the rows of a cursor. -/
def lowerCursorLoop (fetch : Fetch) (rest : Option Expr) (body : Generate Unit) :
    Generate Unit := do
  let iterator ← perform (Lower.fetchIterator fetch)
  let targets ← perform (Lower.goNames fetch.into)
  emitCursorLoop (Text.toLower fetch.cursor) (.invoke iterator "Next" []) do
    emitRound iterator targets rest
    body
  emitGuarded (assignTo [err] (.invoke iterator "Err" []))

/-- A loop over the cursor of the fetch that has prepared the loop, or else of the first fetch
inside it. -/
def lowerFetchLoop (prepared : Option Fetch) (rest : Option Expr) (statements : List Statement)
    (body : Generate Unit) : Generate Unit := do
  match prepared.or (Statement.firstFetch? statements) with
  | none =>
    perform (Lower.unsupported "WHILE @@FETCH_STATUS" "no FETCH names the cursor being iterated")
  | some fetch =>
    enter 0
    let outcome ← attempt (lowerCursorLoop fetch rest body)
    leave
    resume outcome

/-! ## Handlers -/

/-- Treats half of a `TRY` statement, which stands in a function literal of its own. -/
def runScoped (scope : ExitScope) (index : Nat) (body : Generate Unit) : Generate Unit := do
  pushExit scope
  enterClosure
  enter index
  let outcome ← attempt body
  leave
  leaveClosure
  popExit
  resume outcome

/-- Names the error that a handler has recovered. -/
def emitCaught : Generate Unit := do
  perform (Lower.importPath "fmt")
  emit (.assign ⟨[.name "caught", .name "ok"], true, .asError (.name "r")⟩)
  emitIf none (.unary .not (.name "ok")) <|
    perform (Lower.emitAssign "caught" (.invoke (.name "fmt") "Errorf" [.str "%v", .name "r"]))

/-- What a handler starts with. -/
def emitHandlerStart (catchBody : List Statement) : Generate Unit := do
  if Statement.anyProtected Statement.readsCaught catchBody then
    emitCaught
  if (← read).survey.needsErr then
    emit (.assign (assignTo [err] .nil))

/-- The test of a handler, which comes with the value that has been recovered. -/
def recovered : Go.Assign := ⟨[.name "r"], true, .call (.name "recover") []⟩

/-- Recovers a failure and runs a handler. Returns what is known about the transaction behind it. -/
def emitRecover (tryBody catchBody : List Statement) (before : TransactionState)
    (handler : Generate Unit) : Generate TransactionState := do
  let caught : Go.Expr := .binary "!=" (.name "r") .nil
  openBlock (Go.closureHead true)
  openBlock (Go.ifHead (some recovered) caught)
  emitHandlerStart catchBody
  setTransaction (Lower.handlerTransaction tryBody before)
  runScoped .catchHalf 1 handler
  let afterCatch := (← get).progress.transaction
  let handled ← closeBlock Go.blockFoot
  record (.branch (.mk (some recovered) caught handled) [] none)
  let deferred ← closeBlock Go.closureFoot
  record (.closure true deferred)
  return afterCatch

/-- What follows the literal of a `TRY` statement, which stands in the given half itself. -/
def emitWayOut (outer : ExitScope) (flag : Option String) (catchBody : List Statement) :
    Generate Unit := do
  let fixed ← read
  match flag with
  | some flag =>
    emitIf none (.name flag) <| perform <|
      if outer = .body then Lower.emitReturn (.name "returnCode") .nil else Lower.propagateReturn
  | none => pure ()
  if fixed.survey.needsErr && Statement.anyHandler Statement.raises catchBody then
    emitIf none failed <|
      if outer = .catchHalf then emit (.ret []) else perform Lower.errorExit

/-- A `TRY` statement, from both halves and their generation. -/
def lowerTryCatch (tryBody catchBody : List Statement) (protect handler : Generate Unit) :
    Generate Unit := do
  let outer ← exitScope
  let before := (← get).progress.transaction
  let flag ← perform (Lower.returnFlag? tryBody)
  openBlock (Go.closureHead false)
  let afterCatch ← emitRecover tryBody catchBody before handler
  setTransaction before
  pushFlag flag
  let outcome ← attempt (runScoped .tryHalf 0 protect)
  popFlag
  resume outcome
  let literal ← closeBlock Go.closureFoot
  record (.closure false literal)
  setTransaction ((← get).progress.transaction.join afterCatch)
  emitWayOut outer flag catchBody

/-! ## Statements -/

mutual

/-- A statement, given the statements behind it and the fetch that has prepared a later loop.
Returns the fetch that is prepared from here on. -/
def lowerStatement (rest : List Statement) (prepared : Option Fetch) :
    Statement → Generate (Option Fetch)
  | .declare vars => do
    perform (Lower.lowerDeclares vars)
    return prepared
  | .declareCursor name query => do
    perform (Lower.declareCursor name query)
    return prepared
  | .set target value => do
    lowerSet target value
    return prepared
  | .ifElse condition thenBranch elseBranch => do
    let test ← perform (Lower.lowerCondition condition)
    openBlock (Go.ifHead none test)
    branch 0 (lowerStatements 0 none thenBranch)
    let (body, others, otherwise) ← lowerElse elseBranch
    record (.branch (.mk none test body) others otherwise)
    return prepared
  | .while condition body => do
    match sentinelRest? condition with
    | some more =>
      lowerFetchLoop prepared more body (lowerStatements 0 none body)
      return none
    | none =>
      lowerWhile condition (lowerStatements 0 none body)
      return prepared
  | .block body => do
    lowerStatements 0 none body
    return prepared
  | .ret value => do
    let status ← perform (Lower.lowerStatus value)
    perform (Lower.lowerReturn status)
    return prepared
  | .print value => do
    let message ← perform (Lower.lowerValue value .string)
    perform (Lower.emitPrint message)
    return prepared
  | .breakLoop => do
    checkJump "BREAK"
    emit .breakLoop
    return prepared
  | .continueLoop => do
    checkJump "CONTINUE"
    emit .continueLoop
    return prepared
  | .select query => do
    lowerSelect query
    return prepared
  | .insert i => do
    lowerInsert i
    return prepared
  | .update u => do
    lowerUpdate u
    return prepared
  | .delete d => do
    lowerDelete d
    return prepared
  | .exec e => do
    lowerExec e
    return prepared
  | .execDynamic _ =>
    perform (Lower.unsupported "dynamic SQL" "EXEC of a runtime string has no static lowering")
  | .openCursor name => do
    openCursor name
    return prepared
  | .fetch f => do
    if ← perform (Lower.ofExcept (primesLoop f false rest)) then
      return some f
    else
      fetchRow f
      return prepared
  | .closeCursor name => do
    perform (Lower.closeCursor name)
    return prepared
  | .deallocate name => do
    perform (Lower.deallocateCursor name)
    return prepared
  | .beginTransaction name => do
    beginTransaction name
    return prepared
  | .commit _ => do
    endTransaction "COMMIT" "Commit"
    return prepared
  | .rollback _ => do
    endTransaction "ROLLBACK" "Rollback"
    return prepared
  | .savepoint name => do
    perform (Lower.savepoint name)
    return prepared
  | .tryCatch tryBody catchBody => do
    lowerTryCatch tryBody catchBody (lowerStatements 0 none tryBody)
      (lowerStatements 0 none catchBody)
    return prepared
  | .raiserror message severity _ => do
    perform (Lower.lowerRaiserror message severity)
    return prepared
  | .throw args => do
    perform (Lower.lowerThrow args)
    return prepared

/-- A list of statements, the first of which has the given index. -/
def lowerStatements (index : Nat) (prepared : Option Fetch) : List Statement → Generate Unit
  | [] => return ()
  | statement :: rest => do
    let prepared ← branch index (located (lowerStatement rest prepared statement))
    lowerStatements (index + 1) prepared rest

/-- The branches behind the block that is open. Returns the statements of that block, the arms
behind it, and the alternative; the last of their blocks is closed. -/
def lowerElse :
    Option (List Statement) → Generate (List Go.Stmt × List Go.Arm × Option (List Go.Stmt))
  | none => do
    let body ← closeBlock Go.blockFoot
    return (body, [], none)
  | some [.ifElse condition thenBranch elseBranch] =>
    if condition.needsHoist then do
      let body ← reopenBlock Go.elseHead
      branch 1 (lowerStatements 0 none [.ifElse condition thenBranch elseBranch])
      let otherwise ← closeBlock Go.blockFoot
      return (body, [], some otherwise)
    else branch 1 <| branch 0 <| located do
      let test ← perform (Lower.lowerCondition condition)
      let body ← reopenBlock (Go.elseIfHead none test)
      branch 0 (lowerStatements 0 none thenBranch)
      let (next, others, otherwise) ← lowerElse elseBranch
      return (body, .mk none test next :: others, otherwise)
  | some alternative => do
    let body ← reopenBlock Go.elseHead
    branch 1 (lowerStatements 0 none alternative)
    let otherwise ← closeBlock Go.blockFoot
    return (body, [], some otherwise)

end

/-! ## Procedures -/

/-- What the statements of a function share. -/
def emitPrologue : Generate Unit := do
  let fixed ← read
  if fixed.config.logHook then
    perform Lower.emitEntry
  perform (Lower.emitDefaults fixed.procedure.outputs)
  perform Lower.emitCounters
  perform (Lower.emitHoisted fixed.survey.hoisted)
  hoistIterators fixed.procedure.statements

/-- Opens the block of a function, which holds the outermost scope for generated names. -/
def openFunction (head : String) : Generate Unit :=
  modify fun g => { g with writer := g.writer.openBlock head }

def closeFunction : Generate Unit :=
  modify fun g => { g with writer := g.writer.closeBlock Go.blockFoot }

/-- Writes lines that are no statements. -/
def writeLines : List String → Generate Unit
  | [] => return ()
  | s :: rest => do
    line s
    writeLines rest

/-- The function of a procedure up to its statements, without a body. -/
def openProcedure : Generate Go.Func := do
  let fixed ← read
  let procedure := fixed.procedure
  perform (Lower.declareParams procedure.params)
  perform (Lower.declareHoisted procedure.statements fixed.survey.hoisted)
  let comment := Lower.commentLines fixed.functionName procedure (← get).progress.symbols
  writeLines comment
  let params ← perform Lower.functionParams
  let results ← perform Lower.functionResults
  let function : Go.Func := { comment, name := fixed.functionName, params, results, body := [] }
  openFunction (function.signature ++ " \x7b")
  emitPrologue
  return function

/-- The function of a procedure. -/
def lowerProcedure : Generate Go.Func := located do
  let function ← openProcedure
  lowerStatements 0 none (← read).procedure.body
  perform Lower.emitFinalReturn
  closeFunction
  return { function with body := (← get).progress.output }

end Generate

/-- What is generated for a procedure: its function, and the text that has been written for it. -/
structure GeneratedProcedure extends LoweredProcedure where
  text : String

/-- The generation of a procedure with its text. The configuration is checked first. -/
def Procedure.generate (procedure : Procedure) (config : Config) :
    Except Error GeneratedProcedure :=
  let survey := Survey.ofProcedure config procedure
  match config.validate, Context.start config survey procedure with
  | .error fault, _ => .error fault
  | .ok _, .error fault => .error fault
  | .ok _, .ok fixed =>
    match Generate.lowerProcedure.execute fixed { progress := Progress.start config survey } with
    | (.error error, _) => .error error
    | (.ok function, g) =>
      .ok ⟨⟨procedure.name, function, g.progress.imports, g.progress.warnings⟩, g.writer.text⟩

end Sproc
