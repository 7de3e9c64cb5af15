import Sproc.Lower.Data

/-!
# Cursors as iterators

A cursor becomes an iterator over rows. Its declaration is remembered, opening it starts the stream,
and the loop `WHILE @@FETCH_STATUS = 0` becomes a loop that advances the iterator. The fetch before
such a loop and those inside it are the advance of the loop and leave no code of their own.

## Main definitions

* `declareCursor`, `openCursor`, `fetchRow`, `closeCursor`, `deallocateCursor`
* `sentinelRest?`: the condition of a loop over a cursor
* `primesLoop`: whether a fetch belongs to a later loop
* `lowerCursorLoop`
-/

namespace Sproc

/-- Whether a condition says that the last fetch has succeeded. -/
def Expr.isSentinel : Expr → Bool
  | .binary .eq (.global .fetchStatus) (.literal (.int 0)) => true
  | .binary .eq (.literal (.int 0)) (.global .fetchStatus) => true
  | _ => false

/-- For the condition of a loop over a cursor, what it requires beyond the success of the last
fetch. Success must be required exactly once. -/
def sentinelRest? (condition : Expr) : Option (Option Expr) :=
  let parts := condition.conjuncts
  if parts.countP Expr.isSentinel = 1 then some (Expr.andAll? (parts.filter (!·.isSentinel)))
  else none

namespace Statement

/-- Whether a statement is a loop over a cursor. -/
def isCursorLoop : Statement → Bool
  | .while condition _ => (sentinelRest? condition).isSome
  | _ => false

/-- The fetch that a statement is. -/
def fetch? : Statement → Option Fetch
  | .fetch f => some f
  | _ => none

/-- The first fetch among some statements and the statements inside them. -/
def firstFetch? (body : List Statement) : Option Fetch :=
  (nestedList body).findSome? fetch?

/-- The cursor that a statement names. -/
def cursorName? : Statement → Option String
  | .openCursor name => some name
  | .closeCursor name => some name
  | .deallocate name => some name
  | .fetch f => some f.cursor
  | _ => none

/-- Whether a statement or one inside it uses a cursor or asks for the success of a fetch. -/
def usesCursor (cursor : String) (statement : Statement) : Bool :=
  statement.nested.any fun s =>
    s.cursorName?.any (Text.sameIgnoringCase · cursor) ||
      s.ownExprs.any fun | .global .fetchStatus => true | _ => false

/-- The variables that a statement assigns or reads by itself. -/
def ownVariables (statement : Statement) : List String :=
  let assigned :=
    match statement with
    | .set target _ => [target]
    | .select query => query.assigned
    | _ => []
  assigned ++ statement.ownExprs.filterMap fun | .variable name => some name | _ => none

/-- Whether a statement or one inside it reads or assigns one of the given variables. -/
def usesVariables (names : List String) (statement : Statement) : Bool :=
  statement.nested.any fun s => s.ownVariables.any fun v => names.any (Text.sameIgnoringCase · v)

end Statement

/-- Whether a fetch is the advance of a later loop in the same list. The statements between them
must not use the cursor; if they use the fetched variables, the row would be seen too late, which is
refused. -/
def primesLoop (fetch : Fetch) (rowUsed : Bool) : List Statement → Except Fault Bool
  | [] => .ok false
  | statement :: rest =>
    if statement.isCursorLoop then
      if rowUsed then .error (.cursor fetch.cursor CursorProblem.rowUsed.message) else .ok true
    else if statement.usesCursor fetch.cursor then
      .ok false
    else
      primesLoop fetch (rowUsed || statement.usesVariables fetch.into) rest

namespace Lower

/-- Stops because of the use of a cursor. -/
def cursorFault {α : Type} (cursor : String) (problem : CursorProblem) : Lower α :=
  fail (.cursor cursor problem.message)

/-- The cursor of a name, which must be declared. -/
def getCursor (name : String) : Lower Cursor := do
  ofExcept ((← get).cursors.get name)

/-- Changes what is known about a cursor. -/
def putCursor (name : String) (cursor : Cursor) : Lower Unit :=
  modify fun p => { p with cursors := p.cursors.put name cursor }

/-- The variable that iterates over the rows of a cursor. -/
def iteratorName (cursor : String) : Lower String :=
  localName (Identifier.camelCase cursor ++ "Rows")

/-- The type of iterators. -/
def iteratorType (backend : Backend) : Lower Go.TypeExpr := do
  if backend = .mock then
    return .pointer (.named (← mockPackage) "Rows")
  else
    importPath "database/sql"
    return .pointer (.named "sql" "Rows")

/-- Releases an iterator, if there is one, when the function returns. -/
def emitRelease (iterator : String) : Lower Unit := do
  let close := assignTo [.name "_"] (.invoke (.name iterator) "Close" [])
  let body ← block (emitIf none (.binary "!=" (.name iterator) .nil) (emit (.assign close)))
  emit (.closure true body)

/-- Declares the iterator of a cursor that is opened inside a Go block, so that code behind the
block can see it. One that is opened inside a function literal is released when the function
returns. -/
def hoistIterator (name : String) (query : Select) : Lower Unit := do
  let context ← read
  let backend := (context.config.backendOf query.source).1
  if context.survey.hoistsCursor name && query.source.isSome && backend ≠ .rpc then
    let iterator ← iteratorName name
    let type ← iteratorType backend
    -- Opening the cursor later only assigns the iterator.
    modify fun p => { p with names := (p.names.bind iterator).2 }
    emit (.declare iterator type none)
    if context.survey.releasesAtEntry name then
      emitRelease iterator

/-- Declares the iterators of the cursors that need it. -/
def hoistIterators : List Statement → Lower Unit
  | [] => return ()
  | .declareCursor name query :: rest => do
    hoistIterator name query
    hoistIterators rest
  | _ :: rest => hoistIterators rest

/-- Remembers a cursor and its query. -/
def declareCursor (name : String) (query : Select) : Lower Unit := do
  if ((← get).cursors.get? name).isSome then
    cursorFault name .alreadyDeclared
  match query.source with
  | none => cursorFault name .noTable
  | some table =>
    let backend ← backendFor table
    if backend = .rpc then
      cursorFault name .remote
    let iterator ← iteratorName name
    putCursor name { query, iterator, state := .declared, backend }

/-- The call that yields the rows of a cursor. -/
def rowsCall (cursor : Cursor) : Lower Go.Expr := do
  match cursor.backend, cursor.query.source with
  | .mock, some table => requestRowsOf cursor.query table
  | .mock, none => unsupported "cursor" "query without FROM"
  | _, _ =>
    let query ← renderQuery fun dialect resolver => Query.ofSelect dialect resolver cursor.query
    return dataCall (← handle) "QueryContext" query

/-- Starts the stream of rows of a cursor. -/
def openCursor (name : String) : Lower Unit := do
  let cursor ← getCursor name
  if cursor.state = .opened then
    cursorFault name .alreadyOpen
  let call ← rowsCall cursor
  let type ← iteratorType cursor.backend
  let define ← bindLocal cursor.iterator type
  emit (.assign ⟨[.name cursor.iterator, err], define, call⟩)
  -- The release stands at function entry already, or else follows the opening.
  if (← read).survey.releasesAtEntry name then
    emitIf none failed errorExit
  else
    emitChecked (emit (.deferCall (.invoke (.name cursor.iterator) "Close" [])))
  putCursor name { cursor with state := .opened }

/-- The iterator that a fetch advances. Only the next row can be fetched, from a cursor that is
open. -/
def fetchIterator (fetch : Fetch) : Lower Go.Expr := do
  if !fetch.direction.isNext then
    unsupported s!"FETCH {fetch.direction.keyword}" "only FETCH NEXT has a static lowering"
  let cursor ← getCursor fetch.cursor
  if cursor.state ≠ .opened then
    cursorFault fetch.cursor .notOpen
  return .name cursor.iterator

/-- Reads the current row of an iterator into variables. -/
def emitRow (iterator : Go.Expr) (targets : List String) : Lower Unit :=
  emitGuarded (assignTo [err] (.invoke iterator "Scan" (addresses targets)))

/-- A fetch that belongs to no loop: one row, if there is one. Inside a loop over the cursor the
loop itself advances. -/
def fetchRow (fetch : Fetch) : Lower Unit := do
  let iterator ← fetchIterator fetch
  if (← read).looping.contains (Text.toLower fetch.cursor) then
    return ()
  let targets ← goNames fetch.into
  emitIf none (.invoke iterator "Next" []) (emitRow iterator targets)

/-- Closes a cursor. The stream itself is released when the function returns. -/
def closeCursor (name : String) : Lower Unit := do
  let cursor ← getCursor name
  match cursor.state with
  | .opened => putCursor name { cursor with state := .closed }
  | .closed => cursorFault name .alreadyClosed
  | .declared => cursorFault name .neverOpened

/-- Forgets a cursor. -/
def deallocateCursor (name : String) : Lower Unit := do
  let _ ← getCursor name
  modify fun p => { p with cursors := p.cursors.remove name }

/-- Leaves the innermost loop unless a condition holds. -/
def emitLoopTest (condition : Expr) : Lower Unit := do
  let test ← lowerCondition condition
  emitIf none (.unary .not (.paren test)) (emit .breakLoop)

/-- The context of the body of a loop over a cursor. -/
def inCursorLoop (fetch : Fetch) (context : Context) : Context :=
  { context.enterLoop with looping := Text.toLower fetch.cursor :: context.looping }

/-- What each round of a loop over a cursor starts with: the row, and the rest of the condition. -/
def emitRound (iterator : Go.Expr) (targets : List String) (rest : Option Expr) : Lower Unit := do
  emitRow iterator targets
  match rest with
  | some condition => emitLoopTest condition
  | none => pure ()

/-- A loop over the rows of a cursor, which ends early when the rest of its condition fails. -/
def lowerCursorLoop (fetch : Fetch) (rest : Option Expr) (body : Lower Unit) : Lower Unit := do
  let iterator ← fetchIterator fetch
  let targets ← goNames fetch.into
  let statements ← within (inCursorLoop fetch) <| block do
    emitRound iterator targets rest
    body
  emit (.loop (some (.invoke iterator "Next" [])) statements)
  emitGuarded (assignTo [err] (.invoke iterator "Err" []))

end Lower

end Sproc
