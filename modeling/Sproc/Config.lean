import Sproc.Dialect
import Sproc.Json.Basic

/-!
# Configuration

Where data statements go and what the generated file looks like: the backends, the dialect of query
text, the packages that generated code refers to, and the services and clients of particular tables.

## Main definitions

* `Backend`, `Package`, `Config`
* `Config.validate`: whether a configuration can be used
* `Config.read?`, `Config.ofJson?`, `Config.toJson`
-/

namespace Sproc

/-- How data statements are carried out. -/
inductive Backend where
  /-- Calls of `database/sql`. -/
  | sql
  /-- Calls of a service client. -/
  | rpc
  /-- Calls of an injected store. -/
  | mock
  deriving DecidableEq, Repr

namespace Backend

/-- The name of a backend. -/
def id : Backend → String
  | sql => "sql"
  | rpc => "rpc"
  | mock => "mock"

/-- The backend of a name, exactly as `id` writes it. -/
def ofId? : String → Option Backend
  | "sql" => some sql
  | "rpc" => some rpc
  | "mock" => some mock
  | _ => none

/-- The backend that a name or one of its aliases stands for, in any case. -/
def parse (name : String) : Except Fault Backend :=
  match Text.toLower name with
  | "sql" | "db" => .ok sql
  | "rpc" | "grpc" => .ok rpc
  | "mock" => .ok mock
  | other => .error (.invalidConfig s!"unknown backend '{other}' (expected sql, rpc or mock)")

end Backend

/-- A Go package and the name by which generated code refers to it. -/
structure Package where
  aliasName : String
  path : String
  deriving DecidableEq, Repr

/-- The import specification: the alias is written unless it is the last element of the path. -/
def Package.importSpec (package : Package) : String :=
  let quoted := Text.pathLiteral package.path
  if Text.lastPart '/' package.path = package.aliasName then quoted
  else package.aliasName ++ " " ++ quoted

/-- A map from names to names, in increasing order of its keys. -/
abbrev NameMap := List (String × String)

/-- Adds an entry, replacing one of the same key. -/
def NameMap.put (key value : String) : NameMap → NameMap
  | [] => [(key, value)]
  | (other, old) :: rest =>
    if key < other then (key, value) :: (other, old) :: rest
    else if key = other then (key, value) :: rest
    else (other, old) :: NameMap.put key value rest

/-- The configuration of a run. -/
structure Config where
  /-- Backend of data statements. -/
  backend : Backend := .sql
  dialect : Dialect := .postgres
  /-- Backend of temporary tables and table variables. -/
  fallback : Backend := .sql
  /-- Whether generated code logs through `log/slog`. -/
  logHook : Bool := false
  /-- Package clause of the generated file. -/
  package : String := "procedures"
  rpcPackage : Package := ⟨"pb", "example.com/app/gen/pb"⟩
  mockPackage : Package := ⟨"mockstore", "example.com/app/internal/mockstore"⟩
  /-- Import path of the runtime helpers. -/
  runtimeImport : String := "example.com/app/internal/tsqlrt"
  /-- Services of particular tables. -/
  services : NameMap := []
  /-- Client variables of particular tables. -/
  clients : NameMap := []
  /-- Service that carries out procedure calls. -/
  execService : String := "ProcedureService"
  deriving DecidableEq, Repr

/-- Whether a text is an identifier in Go: letters, numbers and underscores, no number in front. -/
def isGoIdentifier (s : String) : Bool :=
  match s.toList with
  | [] => false
  | first :: rest =>
    (Text.isAlphabetic first || first == '_') && rest.all fun c => Text.isAlphanumeric c || c == '_'

/-- The entry of a table: a key matches the bare name of the table or its full name, in any case of
the letters A to Z. -/
def NameMap.ofTable? (map : NameMap) (table : String) : Option String :=
  let bare := Text.baseName table
  (map.find? fun entry =>
    Text.sameIgnoringCase entry.1 bare || Text.sameIgnoringCase entry.1 table).map (·.2)

namespace Config

/-- Refuses a package whose alias is no identifier or whose path is empty. -/
def validatePackage (package : Package) : Except Fault Unit :=
  if !isGoIdentifier package.aliasName || package.path.isEmpty then
    let quoted := Text.pathLiteral package.path
    .error (.invalidConfig s!"invalid import {package.aliasName} {quoted}")
  else
    .ok ()

/-- Checks a configuration: temporary tables have no remote counterpart, and all names that
generated code declares are identifiers. -/
def validate (config : Config) : Except Fault Unit := do
  if config.fallback = .rpc then
    throw (.invalidConfig
      "fallback_backend cannot be rpc: temporary tables have no remote identity")
  if !isGoIdentifier config.package then
    throw (.invalidConfig s!"package '{config.package}' is not a Go identifier")
  validatePackage config.rpcPackage
  validatePackage config.mockPackage
  match config.clients.find? fun entry => !isGoIdentifier entry.2 with
  | some (table, client) =>
    throw (.invalidConfig s!"client '{client}' for table '{table}' is not a Go identifier")
  | none => return ()

/-- The import specification of the runtime helpers. -/
def runtimeSpec (config : Config) : String :=
  (Package.mk "tsqlrt" config.runtimeImport).importSpec

/-- The configured service of a table. -/
def service? (config : Config) (table : String) : Option String :=
  config.services.ofTable? table

/-- The configured client variable of a table. -/
def client? (config : Config) (table : String) : Option String :=
  config.clients.ofTable? table

/-- How the format of a document writes what a configuration is read from. -/
structure Conventions where
  /-- Whether a value is nothing. -/
  isNothing : Json → Bool
  /-- Whether a record that is given by position may have further items, which are passed over. -/
  extraItems : Bool

/-- The names of the settings. -/
def fieldNames : List String := [
  "backend", "dialect", "fallback_backend", "log_hook", "package", "rpc_package", "mock_package",
  "runtime_import", "services", "clients", "exec_service"]

/-- Reads a choice among names: a string, or an object with that one field and nothing in it. -/
def readChoice? {α : Type} (conventions : Conventions) (ofId? : String → Option α) :
    Json → Option α
  | .str name => ofId? name
  | .obj [(name, content)] => if conventions.isNothing content then ofId? name else none
  | _ => none

/-- Reads a package. -/
def readPackage? (conventions : Conventions) (json : Json) : Option Package := do
  let names := ["alias", "path"]
  let json : Json :=
    match json with
    | .arr items => .arr (if conventions.extraItems then items.take names.length else items)
    | json => json
  let fields ← json.record? names
  return ⟨← Json.required? "alias" Json.str? fields, ← Json.required? "path" Json.str? fields⟩

/-- Reads a map of names. -/
def readNames? : Json → Option NameMap
  | .obj fields => fields.foldlM (fun map field => (Json.str? field.2).map (map.put field.1)) []
  | _ => none

/-- Reads a configuration. Settings that are not given keep their defaults; other fields are
refused. -/
def read? (conventions : Conventions) (json : Json) : Option Config := do
  let fields ← json.record? fieldNames
  if !fields.all (fun field => fieldNames.contains field.1) then none
  let base : Config := {}
  let backend? := readChoice? conventions Backend.ofId?
  let dialect? := readChoice? conventions Dialect.ofId?
  let package? := readPackage? conventions
  return {
    backend := ← Json.defaulted? "backend" base.backend backend? fields
    dialect := ← Json.defaulted? "dialect" base.dialect dialect? fields
    fallback := ← Json.defaulted? "fallback_backend" base.fallback backend? fields
    logHook := ← Json.defaulted? "log_hook" base.logHook Json.bool? fields
    package := ← Json.defaulted? "package" base.package Json.str? fields
    rpcPackage := ← Json.defaulted? "rpc_package" base.rpcPackage package? fields
    mockPackage := ← Json.defaulted? "mock_package" base.mockPackage package? fields
    runtimeImport := ← Json.defaulted? "runtime_import" base.runtimeImport Json.str? fields
    services := ← Json.defaulted? "services" base.services readNames? fields
    clients := ← Json.defaulted? "clients" base.clients readNames? fields
    execService := ← Json.defaulted? "exec_service" base.execService Json.str? fields }

/-- Reads a configuration from a JSON document, where null is nothing. -/
def ofJson? (json : Json) : Option Config :=
  read? ⟨fun | .null => true | _ => false, false⟩ json

/-- A package as an object. -/
def packageJson (package : Package) : Json :=
  .obj [("alias", .str package.aliasName), ("path", .str package.path)]

/-- A map of names as an object. -/
def namesJson (map : NameMap) : Json :=
  .obj (map.map fun entry => (entry.1, .str entry.2))

/-- A configuration as an object with every setting. -/
def toJson (config : Config) : Json :=
  .obj [
    ("backend", .str config.backend.id),
    ("dialect", .str config.dialect.id),
    ("fallback_backend", .str config.fallback.id),
    ("log_hook", .bool config.logHook),
    ("package", .str config.package),
    ("rpc_package", packageJson config.rpcPackage),
    ("mock_package", packageJson config.mockPackage),
    ("runtime_import", .str config.runtimeImport),
    ("services", namesJson config.services),
    ("clients", namesJson config.clients),
    ("exec_service", .str config.execService)]

end Config

end Sproc
