import Sproc.Lower.Context

/-!
# Calls that can fail

Code keeps the error of a call in the variable `err` and asks for it at once: in the conditional that
makes the call, or in the one right behind it. What is done then is the failure branch of the call.
Where a function literal is called at once, the code inside it is protected; where its call is
deferred, the code inside it handles what was raised.

## Main definitions

* `Go.Assign.mayFail`: an assignment that keeps the error of a call
* `Go.Failure`, `Go.listFailures`: the failure branches of statements, with the half of a `TRY`
  statement that they stand in
-/

namespace Sproc.Go

/-- Whether an expression is the variable that keeps errors. -/
def Expr.isError : Expr → Bool
  | .name id => id == "err"
  | _ => false

/-- Whether an expression calls something that can fail. What only builds an error cannot. -/
def Expr.isFallible : Expr → Bool
  | .call (.member (.name "fmt") _) _ => false
  | .call (.member (.name "errors") _) _ => false
  | .call _ _ => true
  | _ => false

/-- Whether an assignment keeps the error of a call. -/
def Assign.mayFail (a : Assign) : Bool :=
  a.targets.any Expr.isError && a.value.isFallible

/-- Whether an expression asks for a kept error. -/
def Expr.isFailureTest : Expr → Bool
  | .binary "!=" (.name "err") .nil => true
  | _ => false

/-- The failure branch of a call: the half of a `TRY` statement that it stands in, and what is done
when the call has failed, if that is asked. -/
structure Failure where
  scope : ExitScope
  branch : Option (List Stmt)

/-- What is done behind a statement when an error is kept. -/
def check? : List Stmt → Option (List Stmt)
  | .branch (.mk none test body) _ _ :: _ => if test.isFailureTest then some body else none
  | _ => none

/-- What the arms of a chain do when an error is kept. -/
def failureArm? : List Arm → Option (List Stmt)
  | [] => none
  | .mk _ test body :: rest => if test.isFailureTest then some body else failureArm? rest

/-- The half of a `TRY` statement that a function literal stands for. -/
def literalScope (deferred : Bool) : ExitScope :=
  if deferred then .catchHalf else .tryHalf

/-- The failure branch of the assignment in front of a chain. -/
def initFailures (scope : ExitScope) (init : Option Assign) (arms : List Arm) : List Failure :=
  if init.any Assign.mayFail then [⟨scope, failureArm? arms⟩] else []

mutual

/-- The failure branches of a statement in a scope. What is done behind the statement when an error
is kept is given. -/
def Stmt.failures (scope : ExitScope) (check : Option (List Stmt)) : Stmt → List Failure
  | .assign a => if a.mayFail then [⟨scope, check⟩] else []
  | .branch (.mk init test body) others otherwise =>
    initFailures scope init (.mk init test body :: others) ++ (listFailures scope body ++
      (armFailures scope others ++ elseFailures scope otherwise))
  | .loop _ body => listFailures scope body
  | .closure deferred body => listFailures (literalScope deferred) body
  | _ => []

/-- The failure branches of a list of statements. -/
def listFailures (scope : ExitScope) : List Stmt → List Failure
  | [] => []
  | s :: rest => s.failures scope (check? rest) ++ listFailures scope rest

/-- The failure branches of the arms of a chain. -/
def armFailures (scope : ExitScope) : List Arm → List Failure
  | [] => []
  | .mk init test body :: rest =>
    initFailures scope init (.mk init test body :: rest) ++ (listFailures scope body ++
      armFailures scope rest)

/-- The failure branches of an alternative. -/
def elseFailures (scope : ExitScope) : Option (List Stmt) → List Failure
  | none => []
  | some body => listFailures scope body

end

/-- The failure branches of a function. -/
def Func.failures (f : Func) : List Failure :=
  listFailures .body f.body

end Sproc.Go
