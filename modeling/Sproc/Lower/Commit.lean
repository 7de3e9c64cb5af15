import Sproc.Lower.Exit

/-!
# Transaction statements

A transaction is one flat scope: `BEGIN` binds the handle that later data statements go through,
`COMMIT` and `ROLLBACK` release it. There are no savepoints and no nested transactions. Without a
database only the scope is tracked.

## Main definitions

* `beginTransaction`, `commit`, `rollback`, `savepoint`
-/

namespace Sproc.Lower

/-- Stops because of the state of the transaction. -/
def transactionFault {α : Type} (problem : String) : Lower α :=
  fail (.transaction problem)

/-- Notes what is known about the transaction from here on. -/
def setTransaction (transaction : TransactionState) : Lower Unit :=
  modify fun p => { p with transaction }

/-- Warns that a transaction statement has no handle to act on. -/
def warnNoHandle (keyword : String) : Lower Unit :=
  warn .ignored s!"{keyword} without a database handle; only the scope is tracked"

/-- The handle of the transaction. -/
def tx : Go.Expr := .name "tx"

/-- The test whether a transaction is open at run time. -/
def txOpen : Go.Expr := .binary "!=" tx .nil

/-- Notes at run time that no transaction is open. -/
def emitNoTransaction : Lower Unit :=
  emitAssign "tx" .nil

/-- Opens the handle of a transaction, which is rolled back if the function fails. -/
def emitBegin : Lower Unit := do
  emitGuarded (assignTo [tx, err] (.invoke (.name "db") "BeginTx" [ctx, .nil]))
  let body ← block <| emitIf none (.chain "&&" [failed, txOpen]) do
    emit (.assign (assignTo [.name "_"] (.invoke tx "Rollback" [])))
    emitNoTransaction
  emit (.closure true body)

/-- Starts a transaction. -/
def beginTransaction (name : Option String) : Lower Unit := do
  if (← get).transaction.active then
    transactionFault "nested BEGIN TRANSACTION is not supported"
  match name with
  | some name => warn .ignored s!"transaction name {name} has no Go counterpart"
  | none => pure ()
  setTransaction ⟨true, false⟩
  if (← read).survey.usesDb then
    emitBegin
  else
    warnNoHandle "BEGIN TRANSACTION"

/-- Ends the transaction by a method of its handle. Where it is not known whether one is open, the
handle is asked. -/
def endTransaction (keyword method : String) : Lower Unit := do
  let state := (← get).transaction
  if !state.active && !state.uncertain then
    transactionFault s!"{keyword} without an open transaction"
  setTransaction {}
  if (← read).survey.usesDb then
    let finish : Lower Unit := do
      emitGuarded (assignTo [err] (.invoke tx method []))
      emitNoTransaction
    if state.uncertain then emitIf none txOpen finish else finish
  else
    warnNoHandle keyword

/-- Makes the changes of the transaction permanent. -/
def commit : Lower Unit :=
  endTransaction "COMMIT" "Commit"

/-- Takes the changes of the transaction back. -/
def rollback : Lower Unit :=
  endTransaction "ROLLBACK" "Rollback"

/-- Savepoints are refused. -/
def savepoint (name : String) : Lower Unit :=
  transactionFault s!"SAVE TRANSACTION {name}: savepoints are not supported"

end Sproc.Lower
