import Sproc.Lower.Handler
import Sproc.Lower.Iteration

/-!
# Statements

The Go statements of a procedure body. The path of a statement is its index in its list behind the
path of the statement that holds the list and the index of the branch: 0 for the first branch, loop
bodies and `TRY`, 1 for `ELSE` and `CATCH`. A block has no branch of its own.

## Main definitions

* `lowerStatements`: a list of statements
* `lowerStatement`, `lowerElse`
-/

namespace Sproc.Lower

/-- Refuses a jump that has no loop to act on. A jump cannot leave a function literal. -/
def checkJump (keyword : String) : Lower Unit := do
  let context ← read
  if context.loops = 0 then
    if context.outerLoops.any (· > 0) then
      unsupported keyword "cannot leave a loop across a TRY/CATCH boundary"
    else
      unsupported keyword "outside of a WHILE loop"

/-- Uses a variable that is never read, which Go would refuse. -/
def emitUse (name goName : String) : Lower Unit := do
  if !(← read).survey.isRead name then
    emitAssign "_" (.name goName)

/-- The declaration of a variable. One that is declared at function entry is only assigned here. -/
def lowerDeclare (var : VarDecl) : Lower Unit := do
  if (← read).survey.isHoisted var.name then
    match var.init with
    | some init => assignVariable var.name init
    | none => return ()
  else
    let type := (← ofExcept (TypeName.classify var.type)).go
    let value ←
      match var.init with
      | some init => some <$> lowerValue init type
      | none => pure none
    -- The variable is not in scope in its own initial value.
    let symbol ← declare var.name var.type .declared
    importType type
    emit (.declare symbol.goName (.value type) value)
    emitUse var.name symbol.goName

/-- The declarations of several variables. -/
def lowerDeclares : List VarDecl → Lower Unit
  | [] => return ()
  | var :: rest => do
    lowerDeclare var
    lowerDeclares rest

/-- The query that assigns a variable the value of a query for a single value from a table. -/
def assignmentQuery? (target : String) : Expr → Option Select
  | .subquery query =>
    match query.source, query.items with
    | some _, [item] => some { query with items := [⟨item.expr, none, some target⟩] }
    | _, _ => none
  | _ => none

/-- An assignment. -/
def lowerSet (target : String) (value : Expr) : Lower Unit := do
  match assignmentQuery? target value with
  | some query =>
    -- An undeclared variable is reported before anything in the query.
    let _ ← lookup target
    lowerSelect query
  | none => assignVariable target value

/-- The value of a `RETURN`. -/
def lowerStatus : Option Expr → Lower (Option Go.Expr)
  | none => return none
  | some value => do
    return some (← lowerValue value .int32)

/-- A loop. A condition that depends on a query is evaluated anew in each round. -/
def lowerWhile (condition : Expr) (body : Lower Unit) : Lower Unit := do
  if condition.needsHoist then
    -- The statements that evaluate the condition belong to the round, in front of its test.
    let statements ← within Context.enterLoop <| block do
      emitLoopTest condition
      body
    emit (.loop none statements)
  else
    let test ← lowerCondition condition
    let statements ← within Context.enterLoop (block body)
    emit (.loop (some test) statements)

/-- A loop over a cursor. The cursor is that of the fetch that has prepared the loop, or else of the
first fetch inside it. -/
def lowerFetchLoop (prepared : Option Fetch) (rest : Option Expr) (statements : List Statement)
    (body : Lower Unit) : Lower Unit := do
  match prepared.or (Statement.firstFetch? statements) with
  | none => unsupported "WHILE @@FETCH_STATUS" "no FETCH names the cursor being iterated"
  | some fetch => within (Context.enter 0) (lowerCursorLoop fetch rest body)

mutual

/-- A statement, given the statements behind it and the fetch that has prepared a later loop.
Returns the fetch that is prepared from here on. -/
def lowerStatement (rest : List Statement) (prepared : Option Fetch) :
    Statement → Lower (Option Fetch)
  | .declare vars => do
    lowerDeclares vars
    return prepared
  | .declareCursor name query => do
    declareCursor name query
    return prepared
  | .set target value => do
    lowerSet target value
    return prepared
  | .ifElse condition thenBranch elseBranch => do
    let test ← lowerCondition condition
    let body ← block (within (Context.enter 0) (lowerStatements 0 none thenBranch))
    let (others, otherwise) ← lowerElse elseBranch
    emit (.branch (.mk none test body) others otherwise)
    return prepared
  | .while condition body => do
    match sentinelRest? condition with
    | some more =>
      lowerFetchLoop prepared more body (lowerStatements 0 none body)
      -- The loop has used up the fetch in front of it.
      return none
    | none =>
      lowerWhile condition (within (Context.enter 0) (lowerStatements 0 none body))
      return prepared
  | .block body => do
    lowerStatements 0 none body
    return prepared
  | .ret value => do
    lowerReturn (← lowerStatus value)
    return prepared
  | .print value => do
    emitPrint (← lowerValue value .string)
    return prepared
  | .breakLoop => do
    checkJump "BREAK"
    emit .breakLoop
    return prepared
  | .continueLoop => do
    checkJump "CONTINUE"
    emit .continueLoop
    return prepared
  | .select query => do
    lowerSelect query
    return prepared
  | .insert i => do
    lowerInsert i
    return prepared
  | .update u => do
    lowerUpdate u
    return prepared
  | .delete d => do
    lowerDelete d
    return prepared
  | .exec e => do
    lowerExec e
    return prepared
  | .execDynamic _ => unsupported "dynamic SQL" "EXEC of a runtime string has no static lowering"
  | .openCursor name => do
    openCursor name
    return prepared
  | .fetch f => do
    if ← ofExcept (primesLoop f false rest) then
      return some f
    else
      fetchRow f
      return prepared
  | .closeCursor name => do
    closeCursor name
    return prepared
  | .deallocate name => do
    deallocateCursor name
    return prepared
  | .beginTransaction name => do
    beginTransaction name
    return prepared
  | .commit _ => do
    commit
    return prepared
  | .rollback _ => do
    rollback
    return prepared
  | .savepoint name => do
    savepoint name
    return prepared
  | .tryCatch tryBody catchBody => do
    lowerTryCatch tryBody catchBody (lowerStatements 0 none tryBody)
      (lowerStatements 0 none catchBody)
    return prepared
  | .raiserror message severity _ => do
    lowerRaiserror message severity
    return prepared
  | .throw args => do
    lowerThrow args
    return prepared

/-- A list of statements, the first of which has the given index. Errors get the site of the
statement in which they arise. -/
def lowerStatements (index : Nat) (prepared : Option Fetch) : List Statement → Lower Unit
  | [] => return ()
  | statement :: rest => do
    let prepared ← within (Context.enter index) (located (lowerStatement rest prepared statement))
    lowerStatements (index + 1) prepared rest

/-- The branches behind the first one. A conditional that is all of an alternative continues the
chain, unless its condition depends on a query. -/
def lowerElse : Option (List Statement) → Lower (List Go.Arm × Option (List Go.Stmt))
  | none => return ([], none)
  | some [.ifElse condition thenBranch elseBranch] =>
    if condition.needsHoist then do
      -- What the condition needs runs only when the alternative is reached.
      let body ← block (within (Context.enter 1)
        (lowerStatements 0 none [.ifElse condition thenBranch elseBranch]))
      return ([], some body)
    else within (Context.enter 0 ∘ Context.enter 1) <| located do
      let test ← lowerCondition condition
      let body ← block (within (Context.enter 0) (lowerStatements 0 none thenBranch))
      let (others, otherwise) ← lowerElse elseBranch
      return (.mk none test body :: others, otherwise)
  | some body => do
    let body ← block (within (Context.enter 1) (lowerStatements 0 none body))
    return ([], some body)

end

end Sproc.Lower
