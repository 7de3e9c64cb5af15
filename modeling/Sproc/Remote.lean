import Sproc.Ast.Statement
import Sproc.Config
import Sproc.Go.Stmt
import Sproc.Identifier

/-!
# Services and their clients

Where a data statement goes: to the database, to the client of the service that holds the table, or
to the store. Tables that live for one call only go to the fallback backend. Methods of services are
named for what the statement does and for the thing that the table holds.

## Main definitions

* `Config.backendOf`: the backend of a table
* `ClientRef`, `Config.clientOf`: the client that serves a table
* `methodName`: the method that a statement calls
-/

namespace Sproc

/-- A client of a service, which the generated function takes as a parameter. -/
structure ClientRef where
  var : String
  service : String
  deriving DecidableEq, Repr

/-- The type of a client. -/
def ClientRef.type (client : ClientRef) (package : String) : Go.TypeExpr :=
  .named package (client.service ++ "Client")

/-- The parameter that holds a client. -/
def ClientRef.param (client : ClientRef) (package : String) : String :=
  client.var ++ " " ++ (client.type package).render

/-- The thing that a table holds. -/
def TableRef.entity (table : TableRef) : String :=
  Identifier.entityName table.baseName

/-- The variable that holds the client of a service. -/
def clientVar (service : String) : String :=
  Identifier.camelCase ((Text.stripEnd? "Service" service).getD service) ++ "Client"

namespace Config

/-- The backend of a statement on a table, and whether the table forced another one than usual. -/
def backendOf (config : Config) : Option TableRef → Backend × Bool
  | some table =>
    if table.isTransient then (config.fallback, config.fallback ≠ config.backend)
    else (config.backend, false)
  | none => (config.backend, false)

/-- The service that holds a table. -/
def serviceOf (config : Config) (table : TableRef) : String :=
  (config.service? table.name).getD (table.entity ++ "Service")

/-- The client that serves a table. -/
def clientOf (config : Config) (table : TableRef) : ClientRef :=
  let service := config.serviceOf table
  ⟨(config.client? table.name).getD (clientVar service), service⟩

/-- The client that carries out procedure calls. -/
def execClient (config : Config) : ClientRef :=
  ⟨clientVar config.execService, config.execService⟩

end Config

/-- The kinds of remote statements. -/
inductive DmlKind where
  | select
  | insert
  | update
  | delete
  | exists
  deriving DecidableEq, Repr

/-- Verbs of procedures that only look. -/
def searchVerbs : List String := ["Search", "Find", "Count"]

/-- The method that a statement calls. The verb in front of the procedure's name is used where it
fits the kind of statement. -/
def methodName (verb : Option String) (kind : DmlKind) (entity : String) (single : Bool) : String :=
  let plural := Identifier.plural entity
  match kind with
  | .select =>
    match verb.filter searchVerbs.contains with
    | some verb => verb ++ plural
    | none => if single then "Get" ++ entity else "List" ++ plural
  | .insert => "Create" ++ entity
  | .update => (verb.filter (!searchVerbs.contains ·)).getD "Update" ++ entity
  | .delete => "Delete" ++ entity
  | .exists => "Exists" ++ entity

end Sproc
