import Sproc.Proofs.Go.Failure
import Sproc.Proofs.Go.Unused
import Sproc.Proofs.Lower.Returns

/-!
# The idiom of generated code

All code of a function is put together from few forms: assignments, declarations with what uses them,
calls with the check of their error, conditionals, loops and function literals. This module says what
these forms are, and what they may mention. What a step of the generation writes is then said by a
triple, with what holds of its result.

The handles of a function are its database, its transaction, its store and its clients; its slots are
the error, the status and the counters. Code may mention one of them only if the survey has found a
need for it, and the error that a handler has recovered only if a statement asks for it. Which
mentions are allowed is a parameter, so that a reader who does not care allows all of them.

## Main definitions

* `Permit`, `Permit.Grants`, `Permit.GrantsProcedure`: what code may mention, and that the needs of a
  procedure are met
* `Idiom`: what fixes the code of a function
* `Idiom.failure`: the way out for a failure in each scope
* `IsLocalName`: the names that assignments introduce
* `IsLocalType`: the types of the variables for what calls yield
* `Excuse`: the reasons for which a local variable may be left unused
* `Idiom.Code`: the forms of generated code
* `Idiom.Sound`: what holds of the progress at every moment
* `Lower.Adds`: what a step writes and returns
* `Kind`, `Lower.Yields`: kinds of code, and steps that write code of a kind
* `Lower.Ensures`: steps that write code of the idiom

## Main results

* `adds_bind`, `yields_bind`, `adds_block`, `yields_block`: sequences and blocks
-/

namespace Sproc

open Lower

/-- The names of handles and slots. -/
def handleNames : List String :=
  ["err", "returnCode", "db", "tx", "store", "rowCount", "lastInsertID"]

/-- The names that code may not use without need: those of handles and slots, and that of the error
which a handler has recovered. -/
def privateNames : List String :=
  ["err", "returnCode", "db", "tx", "store", "rowCount", "lastInsertID", "caught"]

/-- The functions that yield the last identity, in capitals. -/
def identityFunctions : List String := ["SCOPE_IDENTITY", "IDENT_CURRENT"]

/-- What code mentions on account of a function, which is known by its name in capitals, whatever
the survey takes it for. Those that describe an error are looked up by the capitals of that name. -/
def functionMentions (name : String) : List Go.Mention :=
  if Text.toUpper name ∈ identityFunctions then [.name "lastInsertID"]
  else if Text.toUpper (Text.toUpper name) = "ERROR_MESSAGE" then [.name "caught"]
  else []

theorem mem_functionMentions_identity {name : String} (h : Text.toUpper name ∈ identityFunctions) :
    .name "lastInsertID" ∈ functionMentions name := by
  rw [functionMentions, if_pos h]
  exact List.mem_cons_self

theorem mem_functionMentions_error {name : String}
    (h : Text.toUpper (Text.toUpper name) = "ERROR_MESSAGE") :
    .name "caught" ∈ functionMentions name := by
  have hother : ∀ name ∈ identityFunctions, Text.toUpper name ≠ "ERROR_MESSAGE" := by decide
  rw [functionMentions, if_neg fun hidentity => hother _ hidentity h, if_pos h]
  exact List.mem_cons_self

/-- What the code of a function may mention. Only the mentions of private names, and those of the
receivers of messages, can be refused; what the function has by its survey cannot. -/
structure Permit where
  config : Config
  survey : Survey
  allows : Go.Mention → Prop
  names : ∀ id, id ∉ privateNames → allows (.name id)
  messages : ∀ package, allows (.message package)
  status : survey.hasStatus = true → allows (.name "returnCode")
  error : survey.needsErr = true → allows (.name "err")
  rowCount : survey.tracksRowCount = true → allows (.name "rowCount")
  identity : survey.tracksIdentity = true → allows (.name "lastInsertID")

namespace Permit

variable (permit : Permit)

/-- What code mentions on account of a need. Transactions only act on a database. -/
def mentionsOf : Need → List Go.Mention
  | .error => [.name "err"]
  | .status => [.name "returnCode"]
  | .database => [.name "db"]
  | .store => [.receiver "store" permit.config.mockPackage.aliasName]
  | .client ref => [.receiver ref.var permit.config.rpcPackage.aliasName]
  | .rowCount => [.name "rowCount"]
  | .identity => [.name "lastInsertID"]
  | .transaction => if permit.survey.usesDb then [.name "err", .name "db", .name "tx"] else []
  | _ => []

/-- The code may mention what a need is about. -/
def Grants (need : Need) : Prop :=
  ∀ m ∈ permit.mentionsOf need, permit.allows m

/-- The code may mention what a node of an expression is about. -/
def GrantsExpr (inGo : Bool) (e : Expr) : Prop :=
  (∀ need ∈ e.needs permit.config inGo, permit.Grants need) ∧
    ∀ name args, e = .function name args → ∀ m ∈ functionMentions name, permit.allows m

/-- The code may mention what a statement itself is about. -/
structure GrantsStatement (s : Statement) : Prop where
  exprs : ∀ e ∈ s.ownExprs, permit.GrantsExpr s.evaluatesInGo e
  needs : ∀ need ∈ s.ownNeeds permit.config false false, permit.Grants need
  rethrow : s = .throw none → permit.allows (.name "caught")

/-- The code may mention what the statements and the default values of a procedure are about. -/
structure GrantsProcedure (procedure : Procedure) : Prop where
  statements : ∀ s ∈ procedure.statements, permit.GrantsStatement s
  defaults : ∀ param ∈ procedure.params, ∀ e ∈ walkOption param.default, permit.GrantsExpr true e

end Permit

/-- What fixes the code of a function: what it may mention, its procedure and its name, and the table
of its parameters. -/
structure Idiom extends Permit where
  procedure : Procedure
  functionName : String
  /-- The variables when the parameters are declared. -/
  table : SymbolTable
  declared : ∀ param ∈ procedure.outputs, (table.get? param.name).isSome
  outputs : ∀ name ∈ procedure.outputNames table, name ∉ privateNames

namespace Idiom

variable (I : Idiom)

/-! ## Expressions -/

/-- An expression only mentions what is allowed. -/
def Admits (e : Go.Expr) : Prop :=
  ∀ m ∈ e.mentions, I.allows m

/-- An expression that a T-SQL value may become: it mentions neither the error nor a message. -/
def IsValue (e : Go.Expr) : Prop :=
  ∀ m ∈ e.mentions, I.allows m ∧ ∃ id, m = .name id ∧ id ≠ "err"

/-! ## Ways out -/

/-- The values of a return: the output parameters, then the status and the error where the function
has them. -/
def results (status error : Go.Expr) : List Go.Expr :=
  (I.procedure.outputNames I.table).map .name ++
    (if I.survey.hasStatus then [status] else []) ++ (if I.survey.needsErr then [error] else [])

/-- The line that logs a failure which a handler drops. -/
def acknowledgement : Go.Expr :=
  let note := I.functionName ++ ": error ignored in CATCH block"
  if I.config.logHook then
    .invoke (.name "slog") "ErrorContext" [ctx, .str note, .str "err", err]
  else
    .invoke (.name "log") "Printf" [.str (note ++ ": %v"), err]

/-- The way out for a failure: a return of all results with the error, a panic with the error, or a
line in the log after which the error is dropped. -/
def failure : ExitScope → List Go.Stmt
  | .body => [.ret (I.results (.name "returnCode") err)]
  | .tryHalf => [.panic err]
  | .catchHalf => [.run I.acknowledgement, .assign (assignTo [err] .nil)]

end Idiom

/-! ## Unused variables -/

/-- The Go names of the variables that iterate over the rows of a cursor. -/
def iteratorNames (cursor : String) : List String :=
  [Identifier.camelCase cursor ++ "Rows", Identifier.camelCase cursor ++ "RowsGen"]

/-- The names that assignments introduce. -/
inductive IsLocalName : String → Prop
  | call {name : String} : IsCallName name → IsLocalName name
  | iterator {name cursor : String} : name ∈ iteratorNames cursor → IsLocalName name

/-- The backends that statements go to: the usual one, and that of tables which live for one call
only. -/
def Config.backends (config : Config) : List Backend :=
  [config.backend, config.fallback]

theorem Config.backendOf_mem_backends (config : Config) (source : Option TableRef) :
    (config.backendOf source).1 ∈ config.backends := by
  cases source with
  | none => exact List.mem_cons_self
  | some table =>
    rw [backendOf]
    split
    · exact List.mem_cons_of_mem _ (List.mem_singleton_self _)
    · exact List.mem_cons_self

/-- The package of the messages that go to a backend. -/
def Config.messagePackage (config : Config) (backend : Backend) : String :=
  if backend = .mock then config.mockPackage.aliasName else config.rpcPackage.aliasName

/-- The package of the rows that a backend yields. -/
def Config.rowsPackage (config : Config) (backend : Backend) : String :=
  if backend = .mock then config.mockPackage.aliasName else "sql"

/-- Whether a type is that of values. -/
def Go.TypeExpr.isValue : TypeExpr → Bool
  | .value _ => true
  | _ => false

/-- The types of the variables that do not hold values: those for what calls yield, and the
transaction. -/
inductive IsLocalType (config : Config) : String → Go.TypeExpr → Prop
  | result {name : String} : name ∈ ["res", "resGen"] →
    IsLocalType config name (.named "sql" "Result")
  | response {name method : String} {backend : Backend} : backend ∈ config.backends →
    name ∈ responseNames method →
    IsLocalType config name (.pointer (.named (config.messagePackage backend) (method ++ "Response")))
  | rows {name cursor : String} {backend : Backend} : backend ∈ config.backends →
    name ∈ iteratorNames cursor →
    IsLocalType config name (.pointer (.named (config.rowsPackage backend) "Rows"))
  | transaction : IsLocalType config "tx" (.pointer (.named "sql" "Tx"))

/-- A variable for values may have any name. -/
theorem IsLocalType.of_isValue {config : Config} {name : String} {type : GoType}
    (h : (Go.TypeExpr.value type).isValue = false) : IsLocalType config name (.value type) := by
  cases h

/-- The reasons for which a local variable may be left unused. -/
inductive Excuse (survey : Survey) : String → Prop
  /-- A variable of the procedure that is read somewhere, as the survey has it. -/
  | variable {name : String} (table : SymbolTable) :
    survey.isRead name = true → Excuse survey (table.freshGoName name)
  /-- What the function keeps for itself. -/
  | counter {name : String} : name ∈ ["rowCount", "lastInsertID", "tx"] → Excuse survey name
  /-- The error that a handler has recovered. -/
  | caught : Excuse survey "caught"
  /-- The result of a test for rows that is sent to a service or to the store. -/
  | probe (n : Nat) : Excuse survey ("exists" ++ toString n)
  /-- The response to a query none of whose assigned items is a plain column. -/
  | response {name method : String} (query : Select) : query.assignsVariables = true →
    (∀ item ∈ query.items, item.assignTo.isSome → columnName? item.expr = none) →
    name ∈ responseNames method → Excuse survey name
  /-- The iterator of a cursor that is opened inside a Go block. -/
  | iterator {name cursor : String} :
    survey.hoistsCursor cursor = true ∨ survey.releasesAtEntry cursor = true →
    name ∈ iteratorNames cursor → Excuse survey name

/-- The Go names of the variables of a procedure are made for them, and none is private. -/
structure SymbolTable.Named (table : SymbolTable) : Prop where
  reserved : privateNames ⊆ table.reserved
  free : ∀ symbol ∈ table.symbols, symbol.goName ∉ privateNames
  made : ∀ symbol ∈ table.symbols, ∃ other : SymbolTable,
    symbol.goName = other.freshGoName symbol.source

/-! ## Forms of code -/

namespace Go

/-- The assignment in front of the test of an arm. -/
def Arm.init : Arm → Option Assign
  | .mk init _ _ => init

/-- The test of an arm. -/
def Arm.test : Arm → Expr
  | .mk _ test _ => test

@[simp]
theorem Arm.init_mk (init : Option Assign) (test : Expr) (body : List Stmt) :
    (Arm.mk init test body).init = init := rfl

@[simp]
theorem Arm.test_mk (init : Option Assign) (test : Expr) (body : List Stmt) :
    (Arm.mk init test body).test = test := rfl

end Go

namespace Idiom

/-- The assignment of what a handler recovers. -/
def recovered : Go.Assign :=
  ⟨[.name "r"], true, .call (.name "recover") []⟩

/-- The code that is generated in a scope. A local variable is used in the code behind its
declaration, or there is an excuse, and has a type that its name allows for; a call whose error is
kept has the way out of its scope as its failure branch. -/
inductive Code (I : Idiom) : ExitScope → List Go.Stmt → Prop
  | nil {scope : ExitScope} : Code I scope []
  | append {scope : ExitScope} {front back : List Go.Stmt} :
    Code I scope front → Code I scope back → Code I scope (front ++ back)
  | assign {scope : ExitScope} {a : Go.Assign} : a.define = false → a.mayFail = false →
    a.local? = none → (∀ target ∈ a.targets, I.Admits target) → I.Admits a.value →
    Code I scope [.assign a]
  | declare {scope : ExitScope} {name : String} {type : Go.TypeExpr} {init : Option Go.Expr}
    {rest : List Go.Stmt} : (∀ e ∈ init, I.Admits e) →
    (type.isValue = false → IsLocalType I.config name type) → Code I scope rest →
    name ∈ Go.listUses rest ∨ Excuse I.survey name → Code I scope (.declare name type init :: rest)
  | run {scope : ExitScope} {call : Go.Expr} : I.Admits call → Code I scope [.run call]
  | deferCall {scope : ExitScope} {call : Go.Expr} : I.Admits call → Code I scope [.deferCall call]
  | ret {scope : ExitScope} {values : List Go.Expr} :
    (∀ value ∈ values, I.Admits value) → Code I scope [.ret values]
  | panic {scope : ExitScope} {value : Go.Expr} : I.Admits value → Code I scope [.panic value]
  | breakLoop {scope : ExitScope} : Code I scope [.breakLoop]
  | continueLoop {scope : ExitScope} : Code I scope [.continueLoop]
  /-- A conditional that does not ask for an error. -/
  | branch {scope : ExitScope} {first : Go.Arm} {others : List Go.Arm}
    {otherwise : Option (List Go.Stmt)} :
    (∀ arm ∈ first :: others,
      arm.init = none ∧ I.Admits arm.test ∧ arm.test.isFailureTest = false) →
    (∀ arm ∈ first :: others, Code I scope arm.body) →
    (∀ body ∈ otherwise, Code I scope body) → Code I scope [.branch first others otherwise]
  /-- The question for an error that a handler has raised. -/
  | report {scope : ExitScope} {body : List Go.Stmt} : I.allows (.name "err") →
    Code I scope body → Code I scope [.branch (.mk none failed body) [] none]
  | loop {scope : ExitScope} {test : Option Go.Expr} {body : List Go.Stmt} :
    (∀ e ∈ test, I.Admits e) → Code I scope body → Code I scope [.loop test body]
  /-- A call whose error is asked for in the conditional that makes it. -/
  | guarded {scope : ExitScope} {targets : List Go.Expr} {call : Go.Expr} :
    I.allows (.name "err") → (∀ target ∈ targets, I.Admits target) → I.Admits call →
    Code I scope [.branch (.mk (some (assignTo targets call)) failed (I.failure scope)) [] none]
  /-- A call for a row, which may be missing. -/
  | scan {scope : ExitScope} {call missed : Go.Expr} {missing : List Go.Stmt}
    {otherwise : Option (List Go.Stmt)} :
    I.allows (.name "err") → I.Admits call → I.Admits missed → missed.isFailureTest = false →
    Code I scope missing → (∀ body ∈ otherwise, Code I scope body) →
    Code I scope [.branch (.mk (some (assignTo [err] call)) missed missing)
      [.mk none failed (I.failure scope)] otherwise]
  /-- A call whose error is asked for behind it, and what follows. -/
  | call {scope : ExitScope} {name : String} {define : Bool} {call : Go.Expr}
    {otherwise : Option (List Go.Stmt)} {rest : List Go.Stmt} :
    I.allows (.name "err") → I.allows (.name name) → I.Admits call →
    (define = true → IsLocalName name) →
    (name ∉ Go.fixedTargets → IsLocalType I.config name (call.yields (Go.isIterator name))) →
    (∀ body ∈ otherwise, Code I scope body) → Code I scope rest →
    name ∈ Go.listUses (.branch (.mk none failed (I.failure scope)) [] otherwise :: rest) ∨
      name = "_" ∨ Excuse I.survey name →
    Code I scope (.assign ⟨[.name name, err], define, call⟩ ::
      .branch (.mk none failed (I.failure scope)) [] otherwise :: rest)
  /-- The error that a handler has recovered, by its name. -/
  | caught {scope : ExitScope} {body : List Go.Stmt} : I.allows (.name "caught") →
    Code I scope body →
    Code I scope [.assign ⟨[.name "caught", .name "ok"], true, .asError (.name "r")⟩,
      .branch (.mk none (.unary .not (.name "ok")) body) [] none]
  /-- A handler. -/
  | recover {scope : ExitScope} {body : List Go.Stmt} : Code I scope body →
    Code I scope [.branch (.mk (some recovered) (.binary "!=" (.name "r") .nil) body) [] none]
  | literal {scope : ExitScope} {body : List Go.Stmt} :
    Code I .tryHalf body → Code I scope [.closure false body]
  | deferred {scope : ExitScope} {body : List Go.Stmt} :
    Code I .catchHalf body → Code I scope [.closure true body]

/-! ## The progress -/

variable (I : Idiom)

/-- What is known about a cursor, which is found by the given key: its iterator is named after it,
its query is carried out where the survey has seen it, and it has been opened only where an error
can be kept. -/
structure SoundCursor (key : String) (cursor : Cursor) : Prop where
  iterator : ∃ name, Text.toLower name = key ∧ cursor.iterator ∈ iteratorNames name
  source : ∃ table, cursor.query.source = some table ∧
    cursor.backend = (I.config.backendOf (some table)).1 ∧ I.Grants (table.need I.config)
  backend : cursor.backend ≠ .rpc
  query : ∀ e ∈ cursor.query.walk, I.GrantsExpr false e
  opened : cursor.state = .opened → I.allows (.name "err")

/-- What holds of the progress at every moment behind the declarations of the parameters. -/
structure Sound (p : Progress) : Prop where
  grown : I.table.symbols <+: p.symbols.symbols
  named : p.symbols.Named
  cursors : ∀ entry ∈ p.cursors, I.SoundCursor entry.1 entry.2
  transaction : p.transaction.active = true ∨ p.transaction.uncertain = true → I.Grants .transaction

/-- A context of the function. -/
structure Covers (c : Context) : Prop where
  config : c.config = I.config
  procedure : c.procedure = I.procedure
  survey : c.survey = I.survey
  functionName : c.functionName = I.functionName
  flags : ∀ flag, some flag ∈ c.returnFlags → flag ∉ privateNames

variable {I}

/-- Soundness is about variables, cursors and the transaction alone. -/
theorem Sound.congr {p q : Progress} (h : I.Sound p) (hsymbols : q.symbols = p.symbols)
    (hcursors : q.cursors = p.cursors) (htransaction : q.transaction = p.transaction) :
    I.Sound q where
  grown := hsymbols ▸ h.grown
  named := hsymbols ▸ h.named
  cursors := hcursors ▸ h.cursors
  transaction := htransaction ▸ h.transaction

end Idiom

/-! ## Triples -/

namespace Lower

variable {α β : Type} {I : Idiom} {c : Context}

/-- A step, taken in a context with a sound progress, leaves a sound progress and adds statements
that fit its result. -/
def Adds (step : Lower α) (I : Idiom) (c : Context) (P : α → List Go.Stmt → Prop) : Prop :=
  ∀ ⦃before value after⦄, step.Runs c before value after → I.Sound before →
    I.Sound after ∧ ∃ added, after.output = before.output ++ added ∧ P value added

theorem Adds.mono {step : Lower α} {P weaker : α → List Go.Stmt → Prop} (h : step.Adds I c P)
    (hweaker : ∀ value added, P value added → weaker value added) : step.Adds I c weaker := by
  intro before value after hruns hsound
  obtain ⟨hafter, added, hadded, hpost⟩ := h hruns hsound
  exact ⟨hafter, added, hadded, hweaker value added hpost⟩

theorem adds_pure {value : α} {P : α → List Go.Stmt → Prop} (h : P value []) :
    (pure value : Lower α).Adds I c P := by
  intro before result after hruns hsound
  obtain ⟨rfl, rfl⟩ := runs_pure.mp hruns
  exact ⟨hsound, [], by simp, h⟩

theorem adds_bind {step : Lower α} {next : α → Lower β} {P : α → List Go.Stmt → Prop}
    {Q : β → List Go.Stmt → Prop} (hstep : step.Adds I c P)
    (hnext : ∀ value written, P value written →
      (next value).Adds I c fun result added => Q result (written ++ added)) :
    (step >>= next).Adds I c Q := by
  intro before result after hruns hsound
  obtain ⟨value, middle, hfirst, hsecond⟩ := runs_bind.mp hruns
  obtain ⟨hmiddle, written, hwritten, hpost⟩ := hstep hfirst hsound
  obtain ⟨hafter, added, hadded, hpost'⟩ := hnext value written hpost hsecond hmiddle
  exact ⟨hafter, written ++ added, by rw [hadded, hwritten, List.append_assoc], hpost'⟩

theorem adds_emit (s : Go.Stmt) : (emit s).Adds I c fun _ added => added = [s] := by
  intro before result after hruns hsound
  obtain rfl := runs_emit.mp hruns
  exact ⟨hsound.congr rfl rfl rfl, [s], rfl, rfl⟩

/-- A statement in front of others. -/
theorem adds_emit_bind {s : Go.Stmt} {next : Unit → Lower β} {P : β → List Go.Stmt → Prop}
    (h : (next ()).Adds I c fun result added => P result (s :: added)) :
    (emit s >>= next).Adds I c P :=
  adds_bind (adds_emit s) fun _ _ hwritten => hwritten ▸ h

/-- A block yields what its step adds, and adds nothing itself. -/
theorem adds_block {step : Lower Unit} {P : List Go.Stmt → Prop}
    (h : step.Adds I c fun _ added => P added) :
    (block step).Adds I c fun body added => added = [] ∧ P body := by
  intro before body after hruns hsound
  obtain ⟨inner, hinner, rfl, rfl⟩ := runs_block.mp hruns
  obtain ⟨hafter, added, hadded, hpost⟩ := h hinner (hsound.congr rfl rfl rfl)
  have houtput : inner.output = added := by simpa [Progress.opened] using hadded
  exact ⟨hafter.congr rfl rfl rfl, [], by simp [Progress.closed], rfl, houtput ▸ hpost⟩

theorem adds_within {change : Context → Context} {step : Lower α} {P : α → List Go.Stmt → Prop}
    (h : step.Adds I (change c) P) : (within change step).Adds I c P :=
  fun _ _ _ hruns => h (runs_within.mp hruns)

theorem adds_located {step : Lower α} {P : α → List Go.Stmt → Prop} (h : step.Adds I c P) :
    (located step).Adds I c P :=
  fun _ _ _ hruns => h (runs_located.mp hruns)

theorem adds_fail {fault : Fault} {P : α → List Go.Stmt → Prop} :
    (fail fault : Lower α).Adds I c P :=
  fun _ _ _ hruns => absurd hruns not_runs_fail

theorem adds_read_bind {next : Context → Lower α} {P : α → List Go.Stmt → Prop}
    (h : (next c).Adds I c P) : (read >>= next).Adds I c P := by
  intro before value after hruns
  obtain ⟨_, _, hread, hrest⟩ := runs_bind.mp hruns
  obtain ⟨rfl, rfl⟩ := runs_read.mp hread
  exact h hrest

/-- What follows a look at the progress may use that the progress is sound. -/
theorem adds_get_bind {next : Progress → Lower α} {P : α → List Go.Stmt → Prop}
    (h : ∀ p, I.Sound p → (next p).Adds I c P) : (get >>= next).Adds I c P := by
  intro before value after hruns hsound
  obtain ⟨p, _, hget, hrest⟩ := runs_bind.mp hruns
  obtain ⟨rfl, rfl⟩ := runs_get.mp hget
  exact h _ hsound hrest hsound

/-- A change that keeps the progress sound and writes nothing. -/
theorem adds_modify {change : Progress → Progress} {P : PUnit → List Go.Stmt → Prop}
    (hsound : ∀ p, I.Sound p → I.Sound (change p)) (houtput : ∀ p, (change p).output = p.output)
    (h : P ⟨⟩ []) : (modify change : Lower PUnit).Adds I c P := by
  intro before result after hruns hbefore
  obtain rfl := runs_modify.mp hruns
  exact ⟨hsound before hbefore, [], by simp [houtput], h⟩

/-- A step that adds nothing but imports and warnings. -/
theorem adds_of_annotated {step : Lower α} {P : α → List Go.Stmt → Prop}
    (heffect : step.HasEffect c Progress.Annotated)
    (h : ∀ ⦃before value after⦄, step.Runs c before value after → I.Sound before → P value []) :
    step.Adds I c P := by
  intro before value after hruns hsound
  have hannotated := heffect hruns
  refine ⟨hsound.congr hannotated.symbols hannotated.cursors hannotated.transaction, [], ?_,
    h hruns hsound⟩
  simp [hannotated.output]

end Lower

/-! ## Kinds of code -/

/-- A kind of code: what is asked of the code in each scope, and of the tests in it. -/
structure Kind where
  code : ExitScope → List Go.Stmt → Prop
  test : Go.Expr → Prop
  nil {scope : ExitScope} : code scope []
  append {scope : ExitScope} {front back : List Go.Stmt} :
    code scope front → code scope back → code scope (front ++ back)
  branch {scope : ExitScope} {first : Go.Arm} {others : List Go.Arm}
    {otherwise : Option (List Go.Stmt)} :
    (∀ arm ∈ first :: others, arm.init = none ∧ test arm.test) →
    (∀ arm ∈ first :: others, code scope arm.body) →
    (∀ body ∈ otherwise, code scope body) → code scope [.branch first others otherwise]
  loop {scope : ExitScope} {condition : Option Go.Expr} {body : List Go.Stmt} :
    (∀ e ∈ condition, test e) → code scope body → code scope [.loop condition body]
  breakLoop {scope : ExitScope} : code scope [.breakLoop]
  fails {e : Go.Expr} : test e → test (.unary .not (.paren e))

namespace Lower

variable {α β : Type} {K : Kind} {I : Idiom} {c : Context}

/-- A step adds code of a kind, and its result is as asked. -/
def Yields (step : Lower α) (K : Kind) (I : Idiom) (c : Context) (P : α → Prop) : Prop :=
  step.Adds I c fun value added => K.code c.exitScope added ∧ P value

theorem Yields.mono {step : Lower α} {P weaker : α → Prop} (h : step.Yields K I c P)
    (hweaker : ∀ value, P value → weaker value) : step.Yields K I c weaker :=
  Adds.mono h fun value _ hpost => ⟨hpost.1, hweaker value hpost.2⟩

theorem yields_pure {value : α} {P : α → Prop} (h : P value) :
    (pure value : Lower α).Yields K I c P :=
  adds_pure ⟨K.nil, h⟩

theorem yields_bind {step : Lower α} {next : α → Lower β} {P : α → Prop} {Q : β → Prop}
    (hstep : step.Yields K I c P)
    (hnext : ∀ value, P value → (next value).Yields K I c Q) :
    (step >>= next).Yields K I c Q :=
  adds_bind hstep fun value _ hpost =>
    Adds.mono (hnext value hpost.2) fun _ _ hpost' => ⟨K.append hpost.1 hpost'.1, hpost'.2⟩

theorem yields_within {change : Context → Context} {step : Lower α} {P : α → Prop}
    (h : step.Yields K I (change c) P) (hscope : (change c).exitScope = c.exitScope) :
    (within change step).Yields K I c P :=
  adds_within (Adds.mono h fun _ _ hpost => hscope ▸ hpost)

theorem yields_emit {s : Go.Stmt} (h : K.code c.exitScope [s]) :
    (emit s).Yields K I c fun _ => True :=
  Adds.mono (adds_emit s) fun _ _ hadded => ⟨hadded ▸ h, trivial⟩

/-- A block of code. -/
theorem yields_block {step : Lower Unit} (h : step.Yields K I c fun _ => True) :
    (block step).Yields K I c (K.code c.exitScope) := by
  have hcode : step.Adds I c fun _ added => K.code c.exitScope added :=
    Adds.mono h fun _ _ hP => hP.1
  refine (adds_block hcode).mono fun body added hbody => ?_
  obtain ⟨rfl, hbody⟩ := hbody
  exact ⟨K.nil, hbody⟩

end Lower

/-! ## Code of the idiom -/

/-- The code of the idiom. No test of a conditional asks for an error without a call. -/
def Idiom.kind (I : Idiom) : Kind where
  code := I.Code
  test e := I.Admits e ∧ e.isFailureTest = false
  nil := .nil
  append := .append
  branch := .branch
  loop htest := .loop fun e he => (htest e he).1
  breakLoop := .breakLoop
  fails h := ⟨h.1, rfl⟩

namespace Lower

variable {α β : Type} {I : Idiom} {c : Context}

/-- A step adds code of the idiom, and its result is as asked. -/
def Ensures (step : Lower α) (I : Idiom) (c : Context) (P : α → Prop) : Prop :=
  step.Yields I.kind I c P

/-- A step adds code of its scope that uses some variables, unless they are excused. -/
def Uses (step : Lower α) (I : Idiom) (c : Context) (names : List String) (P : α → Prop) : Prop :=
  step.Adds I c fun value added => I.Code c.exitScope added ∧
    (∀ name ∈ names, name ∈ Go.listUses added ∨ Excuse I.survey name) ∧ P value

theorem Ensures.mono {step : Lower α} {P weaker : α → Prop} (h : step.Ensures I c P)
    (hweaker : ∀ value, P value → weaker value) : step.Ensures I c weaker :=
  Yields.mono h hweaker

theorem ensures_pure {value : α} {P : α → Prop} (h : P value) :
    (pure value : Lower α).Ensures I c P :=
  yields_pure h

theorem ensures_bind {step : Lower α} {next : α → Lower β} {P : α → Prop} {Q : β → Prop}
    (hstep : step.Ensures I c P)
    (hnext : ∀ value, P value → (next value).Ensures I c Q) :
    (step >>= next).Ensures I c Q :=
  yields_bind hstep hnext

/-- Code in front of code that uses variables. -/
theorem uses_bind {step : Lower α} {next : α → Lower β} {names : List String} {P : α → Prop}
    {Q : β → Prop} (hstep : step.Ensures I c P)
    (hnext : ∀ value, P value → (next value).Uses I c names Q) :
    (step >>= next).Uses I c names Q := by
  refine adds_bind hstep fun value front hP => ?_
  refine (hnext value hP.2).mono fun result added hQ => ?_
  refine ⟨hP.1.append hQ.1, fun name hname => (hQ.2.1 name hname).imp_left fun huses => ?_, hQ.2.2⟩
  rw [Go.listUses_append]
  exact List.mem_append_right _ huses

/-- Code that uses variables, in front of further code. -/
theorem Uses.bind {step : Lower α} {next : α → Lower β} {names : List String} {P : α → Prop}
    {Q : β → Prop} (hstep : step.Uses I c names P)
    (hnext : ∀ value, P value → (next value).Ensures I c Q) :
    (step >>= next).Uses I c names Q := by
  refine adds_bind hstep fun value front hP => ?_
  refine Adds.mono (hnext value hP.2.2) fun result added hQ => ?_
  refine ⟨hP.1.append hQ.1, fun name hname => (hP.2.1 name hname).imp_left fun huses => ?_, hQ.2⟩
  rw [Go.listUses_append]
  exact List.mem_append_left _ huses

/-- A statement that uses a variable. -/
theorem uses_emit {s : Go.Stmt} {name : String} (hcode : I.Code c.exitScope [s])
    (huses : name ∈ Go.listUses [s]) : (emit s).Uses I c [name] fun _ => True :=
  (adds_emit s).mono fun _ _ hadded =>
    hadded ▸ ⟨hcode, List.forall_mem_singleton.mpr (.inl huses), trivial⟩

/-- Code need not use what is excused. -/
theorem Ensures.uses {step : Lower α} {name : String} {P : α → Prop} (h : step.Ensures I c P)
    (hexcuse : Excuse I.survey name) : step.Uses I c [name] P :=
  Adds.mono h fun _ _ hP => ⟨hP.1, List.forall_mem_singleton.mpr (.inr hexcuse), hP.2⟩

theorem Uses.ensures {step : Lower α} {names : List String} {P : α → Prop}
    (h : step.Uses I c names P) : step.Ensures I c P :=
  Adds.mono h fun _ _ hP => ⟨hP.1, hP.2.2⟩

theorem ensures_fail {fault : Fault} {P : α → Prop} :
    (fail fault : Lower α).Ensures I c P :=
  adds_fail

theorem ensures_unsupported {construct detail : String} {P : α → Prop} :
    (unsupported construct detail : Lower α).Ensures I c P :=
  adds_fail

theorem ensures_read_bind {next : Context → Lower α} {P : α → Prop}
    (h : (next c).Ensures I c P) : (read >>= next).Ensures I c P :=
  adds_read_bind h

theorem ensures_get_bind {next : Progress → Lower α} {P : α → Prop}
    (h : ∀ p, I.Sound p → (next p).Ensures I c P) : (get >>= next).Ensures I c P :=
  adds_get_bind h

/-- A step that is only taken where a test holds, and what follows either way. -/
theorem ensures_when {test : Prop} [Decidable test] {step : Lower α} {next : Lower β}
    {P : β → Prop} (hstep : step.Ensures I c fun _ => True) (hnext : next.Ensures I c P) :
    (if test then step >>= fun _ => next else next).Ensures I c P := by
  split
  · exact ensures_bind hstep fun _ _ => hnext
  · exact hnext

theorem ensures_emit {s : Go.Stmt} (h : I.Code c.exitScope [s]) :
    (emit s).Ensures I c fun _ => True :=
  yields_emit h

/-- A block of code. -/
theorem ensures_block {step : Lower Unit} (h : step.Ensures I c fun _ => True) :
    (block step).Ensures I c (I.Code c.exitScope) :=
  yields_block h

/-- A block of code, and what is done with it. -/
theorem ensures_block_bind {step : Lower Unit} {next : List Go.Stmt → Lower α} {P : α → Prop}
    (hstep : step.Ensures I c fun _ => True)
    (hnext : ∀ body, I.Code c.exitScope body → (next body).Ensures I c P) :
    (block step >>= next).Ensures I c P :=
  ensures_bind (ensures_block hstep) hnext

/-- A step that adds nothing but imports and warnings, whose result is known. -/
theorem ensures_of_annotated {step : Lower α} {P : α → Prop}
    (heffect : step.HasEffect c Progress.Annotated)
    (h : ∀ ⦃before value after⦄, step.Runs c before value after → I.Sound before → P value) :
    step.Ensures I c P :=
  adds_of_annotated heffect fun _ _ _ hruns hsound => ⟨.nil, h hruns hsound⟩

/-- A step that adds nothing but imports and warnings. -/
theorem ensures_annotated {step : Lower α} (heffect : step.HasEffect c Progress.Annotated) :
    step.Ensures I c fun _ => True :=
  ensures_of_annotated heffect fun _ _ _ _ _ => trivial

end Lower

end Sproc
