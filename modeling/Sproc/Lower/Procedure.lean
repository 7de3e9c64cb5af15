import Sproc.Lower.Statement

/-!
# Procedures

The Go function of a procedure. The survey of the body fixes the parameters and results; a prologue
declares what the statements share; the statements follow, and a return where control can reach the
end.

## Main definitions

* `Procedure.lower`: the function of a procedure
* `LoweredProcedure`
-/

namespace Sproc

/-- The Go function of a procedure. -/
structure LoweredProcedure where
  /-- The name of the procedure. -/
  sourceName : String
  function : Go.Func
  imports : Go.Imports
  warnings : List Warning

/-- The text of the function, with its comment. -/
def LoweredProcedure.source (lowered : LoweredProcedure) : String :=
  lowered.function.render

/-- The context in which the generation of a function starts. -/
def Context.start (config : Config) (survey : Survey) (procedure : Procedure) :
    Except Fault Context := do
  return {
    config
    procedure
    functionName := ← Identifier.functionName procedure.name
    verb := ← Identifier.leadingVerb? procedure.name
    survey }

/-- The progress with which the generation of a function starts. Variables must not take the names
of clients and packages. -/
def Progress.start (config : Config) (survey : Survey) : Progress :=
  let symbols :=
    survey.clients.foldl (fun table client => table.reserve client.var) ({} : SymbolTable)
  { symbols := (symbols.reserve config.rpcPackage.aliasName).reserve config.mockPackage.aliasName }

namespace Lower

/-- Runs a step. -/
def execute {α : Type} (step : Lower α) (context : Context) (progress : Progress) :
    Except Error α × Progress :=
  ((step.run context).run).run progress

/-- Declares parameters. -/
def declareParams : List Parameter → Lower Unit
  | [] => return ()
  | param :: rest => do
    let _ ← declare param.name param.type (if param.isOutput then .output else .input)
    declareParams rest

/-- The type of the first declaration of a variable. -/
def declaredType? (statements : List Statement) (name : String) : Option String :=
  statements.findSome? fun
    | .declare vars => (vars.find? (Text.toLower ·.name == Text.toLower name)).map (·.type)
    | _ => none

/-- Declares the variables that are declared at function entry. -/
def declareHoisted (statements : List Statement) : List String → Lower Unit
  | [] => return ()
  | name :: rest => do
    match declaredType? statements name with
    | some type =>
      let _ ← declare name type .declared
    | none => pure ()
    declareHoisted statements rest

/-- The default value of a parameter as the comment gives it. -/
def defaultText : Expr → String
  | .literal (.int n) => toString n
  | .literal (.decimal spelling) => spelling
  | .literal (.string s) => Text.sqlLiteral s
  | .literal (.bool b) => if b then "1" else "0"
  | .literal .null => "NULL"
  | .unary .neg operand => "-" ++ defaultText operand
  | .function name [] => Text.toUpper name ++ "()"
  | _ => "an expression"

/-- The comment of a function, which lists the default values that Go does not have. -/
def commentLines (functionName : String) (procedure : Procedure) (symbols : SymbolTable) :
    List String :=
  let defaults := procedure.inputs.filterMap fun param => do
    let value ← param.default
    let symbol ← symbols.get? param.name
    return s!"//   - {symbol.goName} defaults to {defaultText value}"
  let head := s!"// {functionName} is generated from the T-SQL procedure {procedure.name}."
  if defaults.isEmpty then [head]
  else head :: "//" :: "// Callers must pass every argument explicitly:" :: defaults

/-- The variables of a role with their types. -/
def symbolFields (kind : SymbolKind) : Lower (List (String × Go.TypeExpr)) := do
  let symbols := (← get).symbols.symbols.filter (·.kind = kind)
  symbols.forM fun symbol => importType symbol.type.go
  return symbols.map fun symbol => (symbol.goName, .value symbol.type.go)

/-- The handle of the database as a parameter, where the function needs it. -/
def databaseParams : Lower (List (String × Go.TypeExpr)) := do
  if (← read).survey.usesDb then
    importPath "database/sql"
    return [("db", .pointer (.named "sql" "DB"))]
  else
    return []

/-- The clients of services as parameters, where the function needs them. -/
def clientParams : Lower (List (String × Go.TypeExpr)) := do
  let clients := (← read).survey.clients
  if clients.isEmpty then
    return []
  else
    let package ← rpcPackage
    return clients.map fun client => (client.var, client.type package)

/-- The store as a parameter, where the function needs it. -/
def storeParams : Lower (List (String × Go.TypeExpr)) := do
  if (← read).survey.usesStore then
    return [("store", .pointer (.named (← mockPackage) "Store"))]
  else
    return []

/-- The parameters of a function: the context, the handles and the input parameters. -/
def functionParams : Lower (List (String × Go.TypeExpr)) := do
  importPath "context"
  let database ← databaseParams
  let clients ← clientParams
  let store ← storeParams
  let inputs ← symbolFields .input
  return ("ctx", .named "context" "Context") :: database ++ clients ++ store ++ inputs

/-- The results of a function: the output parameters, then the status and the error. -/
def functionResults : Lower (List (String × Go.TypeExpr)) := do
  let survey := (← read).survey
  let outputs ← symbolFields .output
  return outputs ++ (if survey.hasStatus then [("returnCode", .value .int32)] else []) ++
    (if survey.needsErr then [("err", .builtin "error")] else [])

/-- The names and values of the input parameters. -/
def inputPairs : List Parameter → Lower (List Go.Expr)
  | [] => return []
  | param :: rest => do
    let symbol ← lookup param.name
    return .str symbol.goName :: .name symbol.goName :: (← inputPairs rest)

/-- Logs that the function is entered. -/
def emitEntry : Lower Unit := do
  let context ← read
  importPath "log/slog"
  let pairs ← inputPairs context.procedure.inputs
  emit (.run (.invoke (.name "slog") "DebugContext"
    (ctx :: .str (context.functionName ++ ": enter") :: pairs)))

/-- Gives output parameters their default values. -/
def emitDefaults : List Parameter → Lower Unit
  | [] => return ()
  | param :: rest => do
    match param.default with
    | some value => assignVariable param.name value
    | none => pure ()
    emitDefaults rest

/-- Declares the variables that stand at function entry. -/
def emitHoisted : List String → Lower Unit
  | [] => return ()
  | name :: rest => do
    match (← get).symbols.get? name with
    | some symbol =>
      importType symbol.type.go
      emit (.declare symbol.goName (.value symbol.type.go) none)
      emitUse name symbol.goName
    | none => pure ()
    emitHoisted rest

/-- Declares the variables that generated code keeps for itself. -/
def emitCounters : Lower Unit := do
  let survey := (← read).survey
  if survey.tracksRowCount then
    emit (.declare "rowCount" (.value .int64) none)
  if survey.tracksIdentity then
    emit (.declare "lastInsertID" (.value .int64) none)
  if survey.hasTransaction && survey.usesDb then
    importPath "database/sql"
    emit (.declare "tx" (.pointer (.named "sql" "Tx")) none)

/-- What the statements of a function share. -/
def emitPrologue : Lower Unit := do
  let context ← read
  if context.config.logHook then
    emitEntry
  emitDefaults context.procedure.outputs
  emitCounters
  emitHoisted context.survey.hoisted
  hoistIterators context.procedure.statements

/-- The return at the end of a function that has results, unless control cannot get there. -/
def emitFinalReturn : Lower Unit := do
  let values ← resultValues (.int 0) .nil
  if !Statement.listReturns (← read).procedure.body && !values.isEmpty then
    emit (.ret values)

/-- The function of a procedure. -/
def lowerProcedure : Lower Go.Func := located do
  let context ← read
  let procedure := context.procedure
  declareParams procedure.params
  declareHoisted procedure.statements context.survey.hoisted
  -- Later declarations do not change the names of parameters.
  let comment := commentLines context.functionName procedure (← get).symbols
  let params ← functionParams
  let results ← functionResults
  emitPrologue
  lowerStatements 0 none procedure.body
  emitFinalReturn
  return { comment, name := context.functionName, params, results, body := (← get).output }

end Lower

/-- The Go function of a procedure. The configuration is checked first. -/
def Procedure.lower (procedure : Procedure) (config : Config) : Except Error LoweredProcedure :=
  let survey := Survey.ofProcedure config procedure
  match config.validate, Context.start config survey procedure with
  | .error fault, _ => .error fault
  | .ok _, .error fault => .error fault
  | .ok _, .ok context =>
    match Lower.lowerProcedure.execute context (Progress.start config survey) with
    | (.error error, _) => .error error
    | (.ok function, progress) =>
      .ok ⟨procedure.name, function, progress.imports, progress.warnings⟩

end Sproc
