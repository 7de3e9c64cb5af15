import Sproc.Lower.Context

/-!
# Ways out of a procedure

How failures leave the generated code. In the body of the function a failure returns. Inside a `TRY`
half it panics, and the handler recovers it. Inside a `CATCH` half it is logged and dropped.

## Main definitions

* `resultValues`, `emitReturn`: the values of a return
* `errorExit`: the way out for a failure
* `emitGuarded`, `emitChecked`: calls that can fail
-/

namespace Sproc.Lower

/-- The error result. -/
def err : Go.Expr := .name "err"

/-- The context argument. -/
def ctx : Go.Expr := .name "ctx"

/-- The test whether a call has failed. -/
def failed : Go.Expr := .binary "!=" err .nil

/-- An assignment to variables that exist. -/
def assignTo (targets : List Go.Expr) (value : Go.Expr) : Go.Assign :=
  ⟨targets, false, value⟩

/-- Adds an assignment to one variable. -/
def emitAssign (target : String) (value : Go.Expr) : Lower Unit :=
  emit (.assign (assignTo [.name target] value))

/-- Adds a conditional with one arm. -/
def emitIf (init : Option Go.Assign) (test : Go.Expr) (step : Lower Unit) : Lower Unit := do
  let body ← block step
  emit (.branch (.mk init test body) [] none)

/-- The values of a return: the output parameters, then the status and the error where the function
has them. -/
def resultValues (status error : Go.Expr) : Lower (List Go.Expr) := do
  let context ← read
  let symbols := (← get).symbols
  let outputs := context.procedure.outputs.filterMap fun p =>
    (symbols.get? p.name).map fun symbol => Go.Expr.name symbol.goName
  return outputs ++ (if context.survey.hasStatus then [status] else []) ++
    (if context.survey.needsErr then [error] else [])

/-- Returns from the function. -/
def emitReturn (status error : Go.Expr) : Lower Unit := do
  emit (.ret (← resultValues status error))

/-- Logs a failure that a handler drops. -/
def emitAcknowledge : Lower Unit := do
  let context ← read
  let note := context.functionName ++ ": error ignored in CATCH block"
  if context.config.logHook then
    importPath "log/slog"
    emit (.run (.invoke (.name "slog") "ErrorContext" [ctx, .str note, .str "err", err]))
  else
    importPath "log"
    emit (.run (.invoke (.name "log") "Printf" [.str (note ++ ": %v"), err]))

/-- The way out for the failure that `err` holds. -/
def errorExit : Lower Unit := do
  match (← read).exitScope with
  | .body => emitReturn (.name "returnCode") err
  | .tryHalf => emit (.panic err)
  | .catchHalf =>
    emitAcknowledge
    emit (.assign (assignTo [err] .nil))

/-- A call whose failure leaves at once. -/
def emitGuarded (init : Go.Assign) : Lower Unit :=
  emitIf (some init) failed errorExit

/-- Checks the call just made, and goes on when it has succeeded. In a handler, where a failure does
not leave, what follows is the alternative of the check. -/
def emitChecked (success : Lower Unit) : Lower Unit := do
  let failure ← block errorExit
  if (← read).exitScope = .catchHalf then
    let rest ← block success
    emit (.branch (.mk none failed failure) [] (some rest))
  else
    emit (.branch (.mk none failed failure) [] none)
    success

end Sproc.Lower
