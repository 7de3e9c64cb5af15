import Sproc.Remote
import Sproc.Symbol

/-!
# What a procedure needs

Before any statement is turned into Go, the whole body is read once to find out what the generated
function needs: which handles it takes, whether it returns a status and an error, which variables
are declared at its entry. Each statement contributes a list of needs, and the survey summarises
them.

## Main definitions

* `Need`, `Statement.needs`
* `Survey`, `Survey.ofProcedure`
-/

namespace Sproc

/-- Something that the generated function has to provide. -/
inductive Need where
  /-- A statement can fail at run time. -/
  | error
  /-- A `RETURN` has a value. -/
  | status
  | database
  | store
  | client (ref : ClientRef)
  | rowCount
  | identity
  | transaction
  /-- A variable is declared inside a Go block. -/
  | hoist (name : String)
  /-- The value of a variable is read; the variable is given by its key. -/
  | read (key : String)
  /-- A cursor is opened inside a Go block; it is given in small letters. -/
  | nestedOpen (cursor : String)
  /-- A cursor is opened inside a function literal; it is given in small letters. -/
  | closureOpen (cursor : String)
  deriving DecidableEq, Repr

/-- What a statement on a table needs. -/
def TableRef.need (config : Config) (table : TableRef) : Need :=
  match (config.backendOf (some table)).1 with
  | .sql => .database
  | .mock => .store
  | .rpc => .client (config.clientOf table)

/-- What a query over a table needs, if it has one. -/
def sourceNeeds (config : Config) (source : Option TableRef) : List Need :=
  source.toList.map (·.need config)

/-- What a single node of an expression needs. Queries matter only where the expression is evaluated
in Go. -/
def Expr.needs (config : Config) (inGo : Bool) : Expr → List Need
  | .variable name => [.read (foldName name)]
  | .global .rowCount => [.rowCount]
  | .global .identity => [.identity]
  | .function name _ =>
    if Text.sameIgnoringCase name "SCOPE_IDENTITY" ||
        Text.sameIgnoringCase name "IDENT_CURRENT" then
      [.identity]
    else
      []
  | .exists query => if inGo then .error :: sourceNeeds config query.source else []
  | .subquery query => if inGo then .error :: sourceNeeds config query.source else []
  | _ => []

namespace Statement

/-- Whether the expressions of a statement are evaluated in Go and not in query text. -/
def evaluatesInGo : Statement → Bool
  | select query => query.source.isNone
  | insert _ | update _ | delete _ | exec _ | declareCursor _ _ => false
  | _ => true

/-- What the expressions of a statement need. -/
def exprNeeds (config : Config) (statement : Statement) : List Need :=
  statement.ownExprs.flatMap (·.needs config statement.evaluatesInGo)

/-- What a procedure call needs. -/
def execNeed (config : Config) : Need :=
  match config.backend with
  | .sql => .database
  | .mock => .store
  | .rpc => .client config.execClient

/-- What a statement needs beyond its expressions and the statements inside it. -/
def ownNeeds (config : Config) (inBlock inClosure : Bool) : Statement → List Need
  | declare vars => if inBlock then vars.map fun v => .hoist v.name else []
  | declareCursor _ query => sourceNeeds config query.source
  | select query =>
    match query.source with
    | some table =>
      .error :: table.need config :: query.assigned.map fun name => .read (foldName name)
    | none => []
  | insert i => [.error, i.table.need config]
  | update u => [.error, u.table.need config]
  | delete d => [.error, d.table.need config]
  | exec _ => [.error, execNeed config]
  | openCursor name =>
    .error :: (if inBlock then [.nestedOpen (Text.toLower name)] else []) ++
      (if inClosure then [.closureOpen (Text.toLower name)] else [])
  | fetch f => f.into.map fun name => .read (foldName name)
  | beginTransaction _ | commit _ | rollback _ => [.transaction]
  | ret (some _) => [.status]
  | raiserror _ severity _ => if severity.isInformational then [] else [.error]
  | throw _ => [.error]
  | _ => []

mutual

/-- What a statement needs. A Go block opens for the branches of conditionals, for loop bodies and
for both halves of `TRY`, which are function literals as well. -/
def needs (config : Config) (inBlock inClosure : Bool) : Statement → List Need
  | ifElse condition thenBranch elseBranch =>
    exprNeeds config (ifElse condition thenBranch elseBranch) ++
      (listNeeds config true inClosure thenBranch ++ elseNeeds config true inClosure elseBranch)
  | .while condition body =>
    exprNeeds config (.while condition body) ++ listNeeds config true inClosure body
  | block body => listNeeds config inBlock inClosure body
  | tryCatch tryBody catchBody =>
    listNeeds config true true tryBody ++ listNeeds config true true catchBody
  | statement => exprNeeds config statement ++ ownNeeds config inBlock inClosure statement

/-- What a list of statements needs. -/
def listNeeds (config : Config) (inBlock inClosure : Bool) : List Statement → List Need
  | [] => []
  | statement :: rest =>
    needs config inBlock inClosure statement ++ listNeeds config inBlock inClosure rest

/-- What an optional branch needs. -/
def elseNeeds (config : Config) (inBlock inClosure : Bool) : Option (List Statement) → List Need
  | none => []
  | some body => listNeeds config inBlock inClosure body

end

end Statement

/-- The needs of a procedure at a glance. -/
structure Survey where
  needsErr : Bool := false
  hasStatus : Bool := false
  usesDb : Bool := false
  usesStore : Bool := false
  /-- Clients in the order of their first use. -/
  clients : List ClientRef := []
  tracksRowCount : Bool := false
  tracksIdentity : Bool := false
  hasTransaction : Bool := false
  /-- Variables that are declared at function entry, by their spelling. -/
  hoisted : List String := []
  /-- Keys of the variables whose value is read. -/
  readKeys : List String := []
  nestedOpens : List String := []
  closureOpens : List String := []
  deriving Repr

namespace Survey

/-- The first occurrences of the members of a list. -/
def distinct {α : Type} [BEq α] (list : List α) : List α :=
  list.foldl (fun seen a => if seen.contains a then seen else seen ++ [a]) []

/-- The clients among some needs. -/
def clientsOf (needs : List Need) : List ClientRef :=
  distinct (needs.filterMap fun | .client ref => some ref | _ => none)

/-- Summarises needs. -/
def ofNeeds (config : Config) (needs : List Need) : Survey :=
  let hasTransaction := needs.contains .transaction
  let usesDb := needs.contains .database || (hasTransaction && config.backend = .sql)
  { needsErr := needs.contains .error || (hasTransaction && usesDb)
    hasStatus := needs.contains .status
    usesDb
    usesStore := needs.contains .store
    clients := clientsOf needs
    tracksRowCount := needs.contains .rowCount
    tracksIdentity := needs.contains .identity
    hasTransaction
    hoisted := needs.filterMap fun | .hoist name => some name | _ => none
    readKeys := needs.filterMap fun | .read key => some key | _ => none
    nestedOpens := needs.filterMap fun | .nestedOpen cursor => some cursor | _ => none
    closureOpens := needs.filterMap fun | .closureOpen cursor => some cursor | _ => none }

/-- The needs of the default value of a parameter. -/
def defaultNeeds (config : Config) (parameter : Parameter) : List Need :=
  (walkOption parameter.default).flatMap (·.needs config true)

/-- The survey of a procedure. -/
def ofProcedure (config : Config) (procedure : Procedure) : Survey :=
  ofNeeds config (procedure.params.flatMap (defaultNeeds config) ++
    Statement.listNeeds config false false procedure.body)

/-- Whether the value of a variable is read somewhere. -/
def isRead (survey : Survey) (name : String) : Bool :=
  survey.readKeys.contains (foldName name)

/-- Whether a variable is declared at function entry. -/
def isHoisted (survey : Survey) (name : String) : Bool :=
  survey.hoisted.any (foldName · == foldName name)

/-- Whether the iterator of a cursor is declared at function entry. -/
def hoistsCursor (survey : Survey) (cursor : String) : Bool :=
  survey.nestedOpens.contains (Text.toLower cursor)

/-- Whether the release of a cursor is deferred at function entry. -/
def releasesAtEntry (survey : Survey) (cursor : String) : Bool :=
  survey.closureOpens.contains (Text.toLower cursor)

end Survey

end Sproc
