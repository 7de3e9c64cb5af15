import Sproc.Identifier
import Sproc.TypeName

/-!
# Variables of a procedure

The table of declared variables with the Go names they were given. T-SQL does not distinguish
capitals from small letters in the names of variables, so variables are found by a folded key. No
two variables share a Go name, and a variable whose own name is used by generated code gets another
one.

## Main definitions

* `SymbolTable`, `SymbolTable.declare`, `SymbolTable.lookup`
-/

namespace Sproc

/-- Names that generated code uses for its own variables and packages. -/
def generatedNames : List String := [
  "ctx", "db", "tx", "err", "store", "returnCode", "rowCount", "lastInsertID", "caught", "returned",
  "r", "ok", "res", "context", "sql", "decimal", "errors", "fmt", "log", "slog", "math", "strings",
  "time", "utf8", "tsqlrt"]

/-- The role of a variable. -/
inductive SymbolKind where
  | input
  | output
  | declared
  deriving DecidableEq, Repr

/-- A declared variable. -/
structure Symbol where
  /-- The spelling of the declaration. -/
  source : String
  goName : String
  type : TypeInfo
  kind : SymbolKind
  deriving DecidableEq, Repr

/-- The key by which a variable is found: no at signs in front, small letters. -/
def foldName (name : String) : String :=
  Text.toLower (Text.dropStart (· == '@') name)

/-- The key of a variable. -/
def Symbol.key (symbol : Symbol) : String :=
  foldName symbol.source

/-- The variables of a procedure in the order of their declaration, and further names that they must
not take. -/
structure SymbolTable where
  symbols : List Symbol := []
  reserved : List String := generatedNames
  deriving Repr

namespace SymbolTable

/-- Keeps a further name from being taken. -/
def reserve (table : SymbolTable) (name : String) : SymbolTable :=
  { table with reserved := table.reserved ++ [name] }

/-- The variable that a name refers to. -/
def get? (table : SymbolTable) (name : String) : Option Symbol :=
  table.symbols.find? (·.key == foldName name)

/-- Whether a name refers to a variable. -/
def contains (table : SymbolTable) (name : String) : Bool :=
  (table.get? name).isSome

/-- The variable that a name refers to, which must be declared. -/
def lookup (table : SymbolTable) (name : String) : Except Fault Symbol :=
  match table.get? name with
  | some symbol => .ok symbol
  | none => .error (.undeclaredVariable name)

/-- Looking up a name succeeds exactly with the variable that it refers to. -/
theorem lookup_eq_ok_iff {table : SymbolTable} {name : String} {symbol : Symbol} :
    table.lookup name = .ok symbol ↔ table.get? name = some symbol := by
  unfold lookup
  split <;> simp_all

/-- Whether some variable has the given Go name. -/
def isTaken (table : SymbolTable) (goName : String) : Bool :=
  table.symbols.any (·.goName == goName)

/-- A Go name for a variable: its own, marked when it is reserved, numbered when it is taken. One of
the first numbers is free, since there are more of them than variables. -/
def freshGoName (table : SymbolTable) (name : String) : String :=
  let plain := Identifier.variableName name
  let base :=
    if Identifier.isGoReserved plain || table.reserved.contains plain then plain ++ "Var" else plain
  if !table.isTaken base then
    base
  else
    let candidates := (List.range (table.symbols.length + 1)).map fun n => base ++ toString (n + 2)
    (candidates.find? (!table.isTaken ·)).getD base

/-- Declares a variable of a given type. -/
def declare (table : SymbolTable) (name type : String) (kind : SymbolKind) :
    Except Fault (Symbol × SymbolTable) := do
  if table.contains name then
    throw (.duplicateVariable name)
  let info ← TypeName.classify type
  let symbol : Symbol := ⟨name, table.freshGoName name, info, kind⟩
  return (symbol, { table with symbols := table.symbols ++ [symbol] })

end SymbolTable

end Sproc
