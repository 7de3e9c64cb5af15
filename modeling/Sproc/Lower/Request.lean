import Sproc.Lower.Exit
import Sproc.Lower.Function

/-!
# Requests to services

Data statements as calls of a service client or of the store. Both take a request message whose
fields are named after columns and filled from the parts of the statement that are plain values; a
part that is none is left out with a warning. They differ in the receiver of the call and in the
package of the messages.

## Main definitions

* `Fields`, `addField`, `filterFields`: the fields of a request
* `remoteCall`, `emitCall`, `emitCallWith`: the call and what follows it
* `requestSelect`, `requestInsert`, `requestUpdate`, `requestDelete`, `requestExec`, `requestExists`
-/

namespace Sproc.Lower

/-- The fields of a request message with their values. -/
abbrev Fields := List (String × Go.Expr)

/-- The functions for the current time that can fill a field. -/
def fieldClocks : List String :=
  ["GETDATE", "GETUTCDATE", "SYSDATETIME", "SYSUTCDATETIME", "CURRENT_TIMESTAMP"]

/-- The evaluation of an expression that is simple enough to fill a field: a variable, a constant, a
negated constant, a count of the server, or the current time. -/
def fieldValue? : Expr → Option (Lower Value)
  | .variable name => some (lowerVariable name)
  | .literal value => some (return .ofLiteral value)
  | .global .rowCount => some (lowerGlobal .rowCount)
  | .global .identity => some (lowerGlobal .identity)
  | .unary .neg (.literal value) => some (ofExcept (Value.ofLiteral value).negate)
  | .function name [] =>
    if fieldClocks.contains (Text.toUpper name) then some (lowerFunction name [] none) else none
  | _ => none

/-- Warns that a part of a statement was left out of a request. -/
def warnSkipped (message : String) : Lower Unit :=
  warn .skippedField message

/-- Adds the field of a column, which comes from the given part of the statement. The first value of
a field wins. -/
def addField (part : String) (fields : Fields) (column : String) (expr : Expr) : Lower Fields := do
  let field := Identifier.fieldName column
  if expr.isNullLiteral then
    warnSkipped s!"NULL {part} value left unset in remote request: {column}"
    return fields
  match fieldValue? expr with
  | none =>
    warnSkipped s!"{part} expression too complex for remote field: {column}"
    return fields
  | some evaluate =>
    let value ← evaluate
    -- The value is evaluated even if it is dropped, so that its faults are reported.
    if fields.any (·.1 == field) then
      warnSkipped s!"duplicate remote field {field} dropped"
      return fields
    else
      return fields ++ [(field, value.code)]

/-- Adds the fields of several columns in order. -/
def addFields (part : String) (fields : Fields) : List (String × Expr) → Lower Fields
  | [] => return fields
  | (column, expr) :: rest => do
    let fields ← addField part fields column expr
    addFields part fields rest

/-- The name of a column reference. -/
def columnName? : Expr → Option String
  | .column ref => some ref.name
  | _ => none

/-- The column and the value of a condition that compares a column for equality with something that
is no column. -/
def columnTest? : Expr → Option (String × Expr)
  | .binary .eq left right =>
    match columnName? left, columnName? right with
    | some column, none => some (column, right)
    | none, some column => some (column, left)
    | _, _ => none
  | _ => none

/-- Adds the fields of the conditions that a filter requires together. -/
def addConditions (fields : Fields) : List Expr → Lower Fields
  | [] => return fields
  | condition :: rest => do
    match columnTest? condition with
    | some (column, value) =>
      let fields ← addField "WHERE" fields column value
      addConditions fields rest
    | none =>
      let column := (condition.walk.findSome? columnName?).getD "predicate"
      warnSkipped s!"WHERE expression too complex for remote field: {column}"
      addConditions fields rest

/-- The fields of a filter. -/
def filterFields (filter : Option Expr) : Lower Fields :=
  addConditions [] ((filter.map Expr.conjuncts).getD [])

/-- The call of a method with a request, and the package of its messages. -/
def remoteCall (backend : Backend) (client : ClientRef) (method : String) (fields : Fields) :
    Lower (Go.Expr × String) := do
  let (receiver, package) ←
    if backend = .mock then
      pure ("store", ← mockPackage)
    else
      pure (client.var, ← rpcPackage)
  let request := .message package (method ++ "Request") fields
  return (.invoke (.name receiver) method [ctx, request], package)

/-- Calls a method and hands the variable that holds the response to what follows. -/
def emitCallWith (backend : Backend) (client : ClientRef) (method : String) (fields : Fields)
    (onResponse : Go.Expr → Lower Unit) : Lower Unit := do
  let (call, package) ← remoteCall backend client method fields
  let response ← localName (Identifier.camelCase method ++ "Resp")
  let define ← bindLocal response (.pointer (.named package (method ++ "Response")))
  emit (.assign ⟨[.name response, err], define, call⟩)
  emitChecked (onResponse (.name response))

/-- Notes that a statement has affected one row. -/
def emitOneRow : Lower Unit :=
  emitAssign "rowCount" (.int 1)

/-- Calls a method and drops the response. -/
def emitCall (backend : Backend) (client : ClientRef) (method : String) (fields : Fields) :
    Lower Unit := do
  let (call, _) ← remoteCall backend client method fields
  let init := assignTo [.name "_", err] call
  if (← read).survey.tracksRowCount then
    emit (.assign init)
    emitChecked emitOneRow
  else
    emitGuarded init

/-- The client of a table and the method for a kind of statement on it. -/
def tableMethod (table : TableRef) (kind : DmlKind) (single : Bool) :
    Lower (ClientRef × String) := do
  let context ← read
  return (context.config.clientOf table, methodName context.verb kind table.entity single)

/-- Variables with the fields of a response that they are read from. -/
abbrev Reads := List (String × String)

/-- Reads fields of a response into variables. -/
def emitReads (response : Go.Expr) : Reads → Lower Unit
  | [] => return ()
  | (target, field) :: rest => do
    emitAssign target (.invoke response ("Get" ++ field) [])
    emitReads response rest

/-- The variables that a select list assigns, with the columns they are read from. -/
def itemReads : List SelectItem → Lower Reads
  | [] => return []
  | ⟨_, _, none⟩ :: rest => itemReads rest
  | ⟨expr, _, some target⟩ :: rest => do
    let symbol ← lookup target
    match columnName? expr with
    | some column =>
      let reads ← itemReads rest
      return (symbol.goName, Identifier.fieldName column) :: reads
    | none =>
      warnSkipped s!"select item too complex for remote field: {target}"
      itemReads rest

/-- Warns about joins, which no request can carry. -/
def warnJoins : List Join → Lower Unit
  | [] => return ()
  | join :: rest => do
    warnSkipped s!"JOIN on {join.table.name} cannot be expressed as remote fields"
    warnJoins rest

/-- A query over a table as a request. Its rows are read into variables or handed to the caller. -/
def requestSelect (backend : Backend) (query : Select) (table : TableRef) : Lower Unit := do
  warnJoins query.joins
  let single := query.assignsVariables || query.isSingleRow
  let (client, method) ← tableMethod table .select single
  let fields ← filterFields query.filter
  if query.assignsVariables then
    let reads ← itemReads query.items
    emitCallWith backend client method fields fun response => do
      emitReads response reads
      if (← read).survey.tracksRowCount then
        emitOneRow
  else
    emitCallWith backend client method fields fun response => do
      emit (.run (← runtimeCall "EmitMessage" [ctx, response]))

/-- One request for each row of an insertion. -/
def requestRows (backend : Backend) (client : ClientRef) (method : String) (columns : List String) :
    List (List Expr) → Lower Unit
  | [] => return ()
  | row :: rest => do
    let fields ← addFields "VALUES" [] (columns.zip row)
    emitCall backend client method fields
    requestRows backend client method columns rest

/-- An insertion as requests. It needs column names for the fields and values to fill them with. -/
def requestInsert (backend : Backend) (insert : Insert) : Lower Unit := do
  let statement := "INSERT INTO " ++ insert.table.name
  if insert.columns.isEmpty then
    fail (.unmappable statement "no column list to name the request fields")
  match insert.source with
  | .query _ => fail (.unmappable statement "INSERT … SELECT has no literal field values")
  | .values rows =>
    let (client, method) ← tableMethod insert.table .insert true
    requestRows backend client method insert.columns rows

/-- An update as a request, whose filter comes first. -/
def requestUpdate (backend : Backend) (update : Update) : Lower Unit := do
  let (client, method) ← tableMethod update.table .update true
  let fields ← filterFields update.filter
  let fields ← addFields "SET" fields (update.assignments.map fun a => (a.column, a.value))
  emitCall backend client method fields

/-- A deletion as a request. -/
def requestDelete (backend : Backend) (delete : Delete) : Lower Unit := do
  let (client, method) ← tableMethod delete.table .delete true
  let fields ← filterFields delete.filter
  emitCall backend client method fields

/-- The variable that receives an output argument. -/
def outputVariable (arg : ExecArg) : Lower (String × String) := do
  match arg.value with
  | .variable name => return (name, (← lookup name).goName)
  | _ => unsupported "EXEC" "OUTPUT argument must be a variable"

/-- The fields of the arguments of a call, and what is read from its response. Arguments without a
name are named after their position, which counts from one. -/
def requestArgs (callee : String) (position : Nat) (fields : Fields) (reads : Reads) :
    List ExecArg → Lower (Fields × Reads)
  | [] => return (fields, reads)
  | arg :: rest => do
    let field ←
      match arg.name with
      | some name => pure name
      | none => do
        let field := s!"Arg{position}"
        warn .approximation s!"positional argument {position} of {callee} mapped to field {field}"
        pure field
    let fields ← addField "argument" fields field arg.value
    if arg.output then
      let (name, goName) ← outputVariable arg
      let reads := reads ++ [(goName, Identifier.fieldName (arg.name.getD name))]
      requestArgs callee (position + 1) fields reads rest
    else
      requestArgs callee (position + 1) fields reads rest

/-- A procedure call as a request. Output arguments and the status are read from the response. -/
def requestExec (backend : Backend) (exec : Exec) : Lower Unit := do
  let method ← ofExcept (Identifier.functionName exec.procedure)
  let (fields, reads) ← requestArgs exec.baseName 1 [] [] exec.args
  let reads ←
    match exec.returnStatus with
    | some status => do pure (reads ++ [((← lookup status).goName, "ReturnCode")])
    | none => pure reads
  let client := (← read).config.execClient
  if reads.isEmpty then
    emitCall backend client method fields
  else
    emitCallWith backend client method fields fun response => emitReads response reads

/-- The test whether a query over a table has rows, with its result in `target`. -/
def requestExists (backend : Backend) (query : Select) (table : TableRef) (target : String) :
    Lower Unit := do
  let (client, method) ← tableMethod table .exists true
  let fields ← filterFields query.filter
  if backend = .mock then
    let (call, _) ← remoteCall backend client method fields
    emitGuarded (assignTo [.name target, err] call)
  else
    emitCallWith backend client method fields fun response =>
      emitAssign target (.invoke response "GetExists" [])

/-- The call of the store that yields the rows of a query. -/
def requestRowsOf (query : Select) (table : TableRef) : Lower Go.Expr := do
  let method := "List" ++ Identifier.plural table.entity
  let fields ← filterFields query.filter
  let (call, _) ← remoteCall .mock ((← read).config.clientOf table) method fields
  return call

end Sproc.Lower
