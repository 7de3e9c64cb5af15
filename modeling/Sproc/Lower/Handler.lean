import Sproc.Lower.Commit
import Sproc.Lower.Data

/-!
# Errors and their handlers

`TRY` and `CATCH` become a function literal that is called at once. Inside it every failure panics,
and a deferred function literal recovers the panic and runs the handler. A `RETURN` inside `TRY`
sets a flag and leaves the literal; behind the literal the flag is tested.

## Main definitions

* `Statement.sameHalf`: the statements of a body that run in the same half of `TRY`
* `lowerTryCatch`, `lowerReturn`, `lowerThrow`, `lowerRaiserror`
-/

namespace Sproc

namespace Statement

mutual

/-- A statement and the statements inside it, where of a `TRY` statement only one half is entered:
its handler if `handlers` is set, the protected statements otherwise. -/
def sameHalf (handlers : Bool) : Statement → List Statement
  | ifElse condition thenBranch elseBranch =>
    ifElse condition thenBranch elseBranch ::
      (listSameHalf handlers thenBranch ++ elseSameHalf handlers elseBranch)
  | .while condition body => .while condition body :: listSameHalf handlers body
  | block body => block body :: listSameHalf handlers body
  | tryCatch tryBody catchBody =>
    tryCatch tryBody catchBody ::
      (if handlers then listSameHalf handlers catchBody else listSameHalf handlers tryBody)
  | statement => [statement]

/-- The same for a list of statements. -/
def listSameHalf (handlers : Bool) : List Statement → List Statement
  | [] => []
  | statement :: rest => sameHalf handlers statement ++ listSameHalf handlers rest

/-- The same for an optional branch. -/
def elseSameHalf (handlers : Bool) : Option (List Statement) → List Statement
  | none => []
  | some body => listSameHalf handlers body

end

/-- Whether a statement starts or ends a transaction. -/
def isTransaction : Statement → Bool
  | beginTransaction _ | commit _ | rollback _ => true
  | _ => false

/-- Whether a statement returns. -/
def isReturn : Statement → Bool
  | ret _ => true
  | _ => false

/-- Whether a statement raises an error. -/
def raises : Statement → Bool
  | throw _ => true
  | raiserror _ severity _ => !severity.isInformational
  | _ => false

/-- Whether a statement needs the error that is being handled. -/
def readsCaught (statement : Statement) : Bool :=
  match statement with
  | throw none => true
  | _ => statement.ownExprs.any (·.isFunction "ERROR_MESSAGE")

/-- Whether the protected statements of a body satisfy a test somewhere. -/
def anyProtected (p : Statement → Bool) (body : List Statement) : Bool :=
  (listSameHalf false body).any p

/-- Whether the handlers of a body satisfy a test somewhere. -/
def anyHandler (p : Statement → Bool) (body : List Statement) : Bool :=
  (listSameHalf true body).any p

end Statement

namespace Lower

/-- Leaves the function literal of a `TRY` half on behalf of a `RETURN`. -/
def propagateReturn : Lower Unit := do
  match (← read).returnFlags.head?.join with
  | some flag => emitAssign flag (.bool true)
  | none => warn .approximation "RETURN inside TRY only leaves the TRY block here"
  emit (.ret [])

/-- The flag that a `RETURN` in a body sets, if one can leave it. -/
def returnFlag? (body : List Statement) : Lower (Option String) := do
  if (← read).exitScope ≠ .catchHalf && Statement.anyProtected Statement.isReturn body then
    let numbered ← fresh "returned"
    -- The first flag of a function needs no number.
    let flag := if numbered == "returned1" then "returned" else numbered
    emit (.declare flag (.value .bool) none)
    return some flag
  else
    return none

/-- Names the error that a handler has recovered. -/
def emitCaught : Lower Unit := do
  importPath "fmt"
  emit (.assign ⟨[.name "caught", .name "ok"], true, .asError (.name "r")⟩)
  emitIf none (.unary .not (.name "ok")) <|
    emitAssign "caught" (.invoke (.name "fmt") "Errorf" [.str "%v", .name "r"])

/-- What a handler starts with: the error by its name, where it is asked for, and a clean slate. -/
def emitHandlerStart (catchBody : List Statement) : Lower Unit := do
  if Statement.anyProtected Statement.readsCaught catchBody then
    emitCaught
  if (← read).survey.needsErr then
    emit (.assign (assignTo [err] .nil))

/-- The context of the half of a `TRY` statement that stands at the given index. -/
def inHalf (half : ExitScope) (index : Nat) (context : Context) : Context :=
  (context.enterHalf half).enter index

/-- The context of a handler. -/
def inHandler (context : Context) : Context :=
  inHalf .catchHalf 1 context

/-- The context of protected statements, where a `RETURN` sets the given flag. -/
def inTry (flag : Option String) (context : Context) : Context :=
  { inHalf .tryHalf 0 context with returnFlags := flag :: context.returnFlags }

/-- Recovers a failure and runs a handler. -/
def emitRecover (catchBody : List Statement) (handler : Lower Unit) : Lower Unit := do
  let recovered : Go.Assign := ⟨[.name "r"], true, .call (.name "recover") []⟩
  let deferred ← block <| emitIf (some recovered) (.binary "!=" (.name "r") .nil) do
    emitHandlerStart catchBody
    within inHandler handler
  emit (.closure true deferred)

/-- What is known about the transaction where a handler starts, which may be behind any of the
protected statements. -/
def handlerTransaction (tryBody : List Statement) (before : TransactionState) : TransactionState :=
  if Statement.anyProtected Statement.isTransaction tryBody then ⟨false, true⟩ else before

/-- What follows the literal of a `TRY` statement. -/
def emitWayOut (flag : Option String) (catchBody : List Statement) : Lower Unit := do
  let context ← read
  let outer := context.exitScope
  -- A `RETURN` that has left the literal goes on outwards.
  match flag with
  | some flag =>
    emitIf none (.name flag) <|
      if outer = .body then emitReturn (.name "returnCode") .nil else propagateReturn
  | none => pure ()
  -- An error raised by the handler is reported once the literal has ended.
  if context.survey.needsErr && Statement.anyHandler Statement.raises catchBody then
    emitIf none failed <|
      if outer = .catchHalf then emit (.ret []) else errorExit

/-- A `TRY` statement, from both halves and their generation. -/
def lowerTryCatch (tryBody catchBody : List Statement) (attempt handler : Lower Unit) :
    Lower Unit := do
  let before := (← get).transaction
  let flag ← returnFlag? tryBody
  setTransaction (handlerTransaction tryBody before)
  let literal ← block do
    emitRecover catchBody handler
    -- The protected statements stand behind the handler in the text, but run first.
    let afterCatch := (← get).transaction
    setTransaction before
    within (inTry flag) attempt
    setTransaction ((← get).transaction.join afterCatch)
  emit (.closure false literal)
  emitWayOut flag catchBody

/-- Logs a note. -/
def emitLog (hooked plain : String) (message : Go.Expr) : Lower Unit := do
  if (← read).config.logHook then
    importPath "log/slog"
    emit (.run (.invoke (.name "slog") hooked [ctx, message]))
  else
    importPath "log"
    emit (.run (.invoke (.name "log") plain [message]))

/-- Prints a message. -/
def emitPrint (message : Go.Expr) : Lower Unit :=
  emitLog "InfoContext" "Println" message

/-- A `RETURN` with the value of its status. A handler cannot leave the procedure, so there it is
only noted. -/
def lowerReturn (status : Option Go.Expr) : Lower Unit := do
  let context ← read
  match context.exitScope with
  | .body => emitReturn (status.getD (.int 0)) .nil
  | .tryHalf =>
    match status with
    | some value => emitAssign "returnCode" value
    | none => pure ()
    propagateReturn
  | .catchHalf =>
    warn .approximation
      "RETURN inside CATCH cannot leave the procedure; execution continues after the handler"
    emitLog "WarnContext" "Print" (.str (context.functionName ++ ": RETURN inside CATCH ignored"))

/-- Raises an error. -/
def raise (error : Go.Expr) : Lower Unit := do
  match (← read).exitScope with
  | .body => emitReturn (.name "returnCode") error
  | .tryHalf => emit (.panic error)
  | .catchHalf =>
    emit (.assign (assignTo [err] error))
    emit (.ret [])

/-- A `THROW`. Without arguments it raises the error that is being handled. -/
def lowerThrow (args : Option ThrowArgs) : Lower Unit := do
  match args with
  | none =>
    if !(← read).inCatch then
      unsupported "THROW" "bare THROW outside of a CATCH block"
    raise (.name "caught")
  | some args =>
    let number ← lowerValue args.number .int32
    let message ← lowerValue args.message .string
    importPath "fmt"
    raise (.invoke (.name "fmt") "Errorf" [.str "%d: %s", number, message])

/-- A `RAISERROR`, which only prints when its severity is low. -/
def lowerRaiserror (message severity : Expr) : Lower Unit := do
  let message ← lowerValue message .string
  if severity.isInformational then
    emitPrint message
  else
    importPath "errors"
    raise (.invoke (.name "errors") "New" [message])

end Lower

end Sproc
