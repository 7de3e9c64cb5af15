import Sproc.Ast.Statement
import Sproc.Dialect

/-!
# Query text of data statements

Data statements are written back as query text of a dialect. References to variables, server
variables and functions that are evaluated in Go become arguments; a resolver says what is bound for
each of them. An argument is put behind the others at the moment when its reference is met, and its
placeholder is numbered at the same moment, so what is written first must stand first in the text.

An expression is written in two ways: as a whole, and as the list of operands that it contributes to
a concatenation of strings, so that a chain of concatenations becomes one flat list.

## Main definitions

* `Resolver`: what is bound for references
* `Renderer`, `Rendering`, `Renderer.bind`: writing text and binding arguments
* `Query.ofSelect`, `Query.ofInsert`, `Query.ofUpdate`, `Query.ofDelete`, `Query.ofExec`,
  `Query.probe`
* `Select.isSingleRow`: whether a query yields at most one row
-/

namespace Sproc

/-- What is bound in query text for a reference. -/
structure Resolver (α : Type) where
  ofVariable : String → Except Fault α
  ofGlobal : GlobalVar → Except Fault α :=
    fun var => .error (.unsupported var.sqlName "not available inside query text")
  /-- Functions that are evaluated outside the query, by their name in capitals. -/
  ofFunction : String → Option (Except Fault α) := fun _ => none
  /-- Whether a variable holds a string, so that `+` concatenates. -/
  isString : String → Bool := fun _ => false

/-- Finished query text and the arguments of its placeholders in order. -/
structure Query (α : Type) where
  sql : String
  args : List α
  deriving Repr

/-- What query text is written with. -/
structure Renderer (α : Type) where
  dialect : Dialect
  resolver : Resolver α
  /-- The placeholder of the argument with the given number. -/
  placeholder : Nat → String := dialect.placeholder

/-- A step of writing query text. It keeps the arguments that have been bound, and it can stop. -/
abbrev Rendering (α : Type) := StateT (List α) (Except Fault)

namespace Render

/-- Functions that yield strings. -/
def stringFunctions : List String := [
  "UPPER", "LOWER", "LTRIM", "RTRIM", "TRIM", "SUBSTRING", "LEFT", "RIGHT", "REPLACE", "CONCAT",
  "STR", "FORMAT"]

/-- Functions that yield the current time. -/
def timestampFunctions : List String := ["GETDATE", "SYSDATETIME", "CURRENT_TIMESTAMP"]

/-- The binding strength of an expression that may need parentheses. -/
def strength? : Expr → Option Nat
  | .binary op _ _ => some op.precedence
  | .isNull _ _ => some 3
  | .inList _ _ _ => some 3
  | .between _ _ _ _ => some 3
  | _ => none

variable {α : Type}

/-- A constant. -/
def literal (dialect : Dialect) : Literal → String
  | .int n => toString n
  | .decimal spelling => spelling
  | .string s => Text.sqlLiteral s
  | .bool b => dialect.boolLiteral b
  | .null => "NULL"

/-- A name of a column, without its brackets and quoted where needed. -/
def columnName (dialect : Dialect) (name : String) : String :=
  dialect.quoteIdentifier (unbracket name)

/-- A column with its table. -/
def column (dialect : Dialect) (ref : ColumnRef) : String :=
  match ref.table with
  | some table => columnName dialect table ++ "." ++ columnName dialect ref.name
  | none => columnName dialect ref.name

/-- A table with its alias. -/
def table (dialect : Dialect) (ref : TableRef) : String :=
  let name :=
    if ref.isTransient then dialect.temporaryTable ref.baseName
    else dialect.quoteIdentifier ref.name
  match ref.aliasName with
  | some aliasName => name ++ " " ++ dialect.quoteIdentifier aliasName
  | none => name

/-- Whether `+` with this operand concatenates strings. -/
def isStringy (resolver : Resolver α) : Expr → Bool
  | .literal (.string _) => true
  | .variable name => resolver.isString name
  | .function name _ => stringFunctions.contains (Text.toUpper name)
  | .cast _ type =>
    Text.hasPart "CHAR" (Text.toUpper type) || Text.hasPart "TEXT" (Text.toUpper type)
  | .binary .add left right => isStringy resolver left || isStringy resolver right
  | _ => false

/-- The spelling of a function that is evaluated in the query. -/
def functionName (dialect : Dialect) (upper : String) : String :=
  match upper with
  | "ISNULL" => "COALESCE"
  | "LEN" => dialect.lengthFunction
  | _ => upper

/-- The word that negates a predicate. -/
def negation (negated : Bool) : String :=
  if negated then "NOT " else ""

/-- A dotted name without the brackets of its parts. -/
def callee (procedure : String) : String :=
  String.intercalate "." ((Text.splitOn '.' procedure).map Text.stripBrackets)

end Render

namespace Renderer

variable {α : Type}

/-- Binds an argument behind those that have been bound, and returns its placeholder. -/
def bind (r : Renderer α) (value : α) : Rendering α String := do
  modify (· ++ [value])
  return r.placeholder (← get).length

/-- Binds what the resolver answers. -/
def answer (r : Renderer α) (outcome : Except Fault α) : Rendering α String := do
  r.bind (← outcome)

/-- An operand of an operator of the given strength, in parentheses when it binds looser, or as
loose on the right of an operator that is not associative. -/
def operand (expr : Expr) (parent : Nat) (right : Bool) (body : String) : String :=
  match Render.strength? expr with
  | some child =>
    if child < parent || (right && child == parent) then "(" ++ body ++ ")" else body
  | none => body

/-- The two ways to write an expression: as a whole, and as operands of a concatenation. -/
structure Forms (α : Type) where
  whole : Rendering α String
  operands : Rendering α (List String)

/-- An expression that is one operand of a concatenation. -/
def single (expr : Expr) (whole : Rendering α String) : Forms α :=
  ⟨whole, do return [operand expr 5 false (← whole)]⟩

/-- A server variable: the status of a fetch has no meaning in a query. -/
def global (r : Renderer α) (var : GlobalVar) : Rendering α String :=
  match var with
  | .fetchStatus =>
    throw (.unsupported "@@FETCH_STATUS" "cannot be referenced inside a query")
  | var => r.answer (r.resolver.ofGlobal var)

mutual

/-- An expression. -/
def expr (r : Renderer α) : Expr → Forms α
  | .literal value => single (.literal value) (return Render.literal r.dialect value)
  | .variable name => single (.variable name) (r.answer (r.resolver.ofVariable name))
  | .global var => single (.global var) (r.global var)
  | .column ref => single (.column ref) (return Render.column r.dialect ref)
  | .star => single .star (return "*")
  | .unary op e => single (.unary op e) do
    let inner := operand e 6 false (← (r.expr e).whole)
    match op with
    | .neg => return "-" ++ inner
    | .not => return "NOT " ++ inner
  | .binary op left right =>
    let l := r.expr left
    let r' := r.expr right
    if op = .add then
      -- Strings are joined as one list, however the sums are nested.
      let operands := do return (← l.operands) ++ (← r'.operands)
      if Render.isStringy r.resolver left || Render.isStringy r.resolver right then
        ⟨do return r.dialect.stringConcat (← operands), operands⟩
      else
        ⟨do return operand left 4 false (← l.whole) ++ " + " ++ operand right 4 true (← r'.whole),
          operands⟩
    else
      single (.binary op left right) do
        let prec := op.precedence
        return operand left prec false (← l.whole) ++ (" " ++ op.sqlSymbol ++ " ") ++
          operand right prec (!op.isLogical) (← r'.whole)
  | .isNull e negated => single (.isNull e negated) do
    let inner := operand e 3 false (← (r.expr e).whole)
    return inner ++ (if negated then " IS NOT NULL" else " IS NULL")
  | .inList e list negated => single (.inList e list negated) do
    let inner := operand e 3 false (← (r.expr e).whole)
    let items ← r.exprs list
    return inner ++ (" " ++ Render.negation negated ++ "IN (") ++ Text.commaSeparated items ++ ")"
  | .between e low high negated => single (.between e low high negated) do
    let inner := operand e 3 false (← (r.expr e).whole)
    let lower := operand low 4 false (← (r.expr low).whole)
    let upper := operand high 4 false (← (r.expr high).whole)
    return inner ++ (" " ++ Render.negation negated ++ "BETWEEN ") ++ lower ++ " AND " ++ upper
  | .function name args => single (.function name args) do
    let upper := Text.toUpper name
    -- A function that is evaluated in Go is an argument; its own arguments are not looked at.
    match r.resolver.ofFunction upper with
    | some value => r.answer value
    | none =>
      if Render.timestampFunctions.contains upper then
        return r.dialect.currentTimestamp
      else
        let args ← r.exprs args
        return Render.functionName r.dialect upper ++ "(" ++ Text.commaSeparated args ++ ")"
  | .cast e type => single (.cast e type) do
    let inner ← (r.expr e).whole
    return "CAST(" ++ inner ++ (" AS " ++ r.dialect.castType type ++ ")")
  | .case list otherwise => single (.case list otherwise) do
    let arms ← r.branches list
    let last ← r.elseBranch otherwise
    return "CASE" ++ arms ++ last ++ " END"
  | .exists query => single (.exists query) do
    return "EXISTS (" ++ (← r.select query) ++ ")"
  | .subquery query => single (.subquery query) do
    return "(" ++ (← r.select query) ++ ")"

/-- A list of expressions. -/
def exprs (r : Renderer α) : List Expr → Rendering α (List String)
  | [] => return []
  | e :: rest => do
    let first ← (r.expr e).whole
    return first :: (← r.exprs rest)

/-- The arms of a case. -/
def branches (r : Renderer α) : List CaseBranch → Rendering α String
  | [] => return ""
  | ⟨test, result⟩ :: rest => do
    let test ← (r.expr test).whole
    let result ← (r.expr result).whole
    return " WHEN " ++ test ++ " THEN " ++ result ++ (← r.branches rest)

/-- The alternative of a case. -/
def elseBranch (r : Renderer α) : Option Expr → Rendering α String
  | none => return ""
  | some e => do return " ELSE " ++ (← (r.expr e).whole)

/-- A condition behind a keyword, if there is one. -/
def clause (r : Renderer α) (keyword : String) : Option Expr → Rendering α String
  | none => return ""
  | some e => do return keyword ++ (← (r.expr e).whole)

/-- A row limit in front of the select list, in a dialect that has it there. -/
def topLimit (r : Renderer α) : Option Expr → Rendering α String
  | none => return ""
  | some e =>
    if r.dialect.leadingTop then do
      let count ← (r.expr e).whole
      return (r.dialect.topPrefix? count).getD ""
    else
      return ""

/-- A row limit at the end of the query, in a dialect that has it there. -/
def endLimit (r : Renderer α) : Option Expr → Rendering α String
  | none => return ""
  | some e =>
    if r.dialect.leadingTop then
      return ""
    else do
      return r.dialect.limitSuffix (← (r.expr e).whole)

/-- A select list. -/
def items (r : Renderer α) : List SelectItem → Rendering α (List String)
  | [] => return []
  | ⟨e, aliasName, _⟩ :: rest => do
    let item ← (r.expr e).whole
    let named :=
      match aliasName with
      | some aliasName => item ++ (" AS " ++ Render.columnName r.dialect aliasName)
      | none => item
    return named :: (← r.items rest)

/-- Joins. -/
def joins (r : Renderer α) : List Join → Rendering α String
  | [] => return ""
  | ⟨kind, ref, condition⟩ :: rest => do
    let keyword :=
      match kind with
      | .inner => " INNER JOIN "
      | .left => " LEFT JOIN "
    let condition ← (r.expr condition).whole
    return (keyword ++ Render.table r.dialect ref ++ " ON ") ++ condition ++ (← r.joins rest)

/-- An ordering. -/
def orders (r : Renderer α) : List OrderBy → Rendering α (List String)
  | [] => return []
  | ⟨e, descending⟩ :: rest => do
    let key ← (r.expr e).whole
    let entry := if descending then key ++ " DESC" else key
    return entry :: (← r.orders rest)

/-- A query. A row limit is written once, where it stands, so that its arguments are bound in the
order of the text. -/
def select (r : Renderer α) : Select → Rendering α String
  | ⟨top, distinct, list, source, joinList, filter, groupBy, orderBy⟩ => do
    let head := if distinct then "SELECT DISTINCT " else "SELECT "
    let limit ← r.topLimit top
    let columns ← r.items list
    let tables :=
      match source with
      | some ref => " FROM " ++ Render.table r.dialect ref
      | none => ""
    let joined ← r.joins joinList
    let rows ← r.clause " WHERE " filter
    let groups ← r.exprs groupBy
    let grouping := if groups.isEmpty then "" else " GROUP BY " ++ Text.commaSeparated groups
    let entries ← r.orders orderBy
    let ordering := if entries.isEmpty then "" else " ORDER BY " ++ Text.commaSeparated entries
    let rest ← r.endLimit top
    return head ++ limit ++ Text.commaSeparated columns ++ tables ++ joined ++ rows ++ grouping ++
      ordering ++ rest

end

/-- A list of values in parentheses. -/
def row (r : Renderer α) (values : List Expr) : Rendering α String := do
  return "(" ++ Text.commaSeparated (← r.exprs values) ++ ")"

/-- What an insertion adds. -/
def insertSource (r : Renderer α) : InsertSource → Rendering α String
  | .values rows => do return " VALUES " ++ Text.commaSeparated (← rows.mapM r.row)
  | .query q => do return " " ++ (← r.select q)

/-- An insertion. -/
def insert (r : Renderer α) (i : Insert) : Rendering α String := do
  let columns :=
    if i.columns.isEmpty then ""
    else " (" ++ Text.commaSeparated (i.columns.map (Render.columnName r.dialect)) ++ ")"
  return ("INSERT INTO " ++ Render.table r.dialect i.table ++ columns) ++ (← r.insertSource i.source)

/-- An assignment of an update. -/
def assignment (r : Renderer α) (a : Assignment) : Rendering α String := do
  return (Render.columnName r.dialect a.column ++ " = ") ++ (← (r.expr a.value).whole)

/-- An update. Its assignments are written before its condition, as they stand in the text. -/
def update (r : Renderer α) (u : Update) : Rendering α String := do
  let assignments ← u.assignments.mapM r.assignment
  return ("UPDATE " ++ Render.table r.dialect u.table ++ " SET ") ++
    Text.commaSeparated assignments ++ (← r.clause " WHERE " u.filter)

/-- A deletion. -/
def delete (r : Renderer α) (d : Delete) : Rendering α String := do
  return ("DELETE FROM " ++ Render.table r.dialect d.table) ++ (← r.clause " WHERE " d.filter)

/-- An argument of a procedure call. -/
def execArg (r : Renderer α) (a : ExecArg) : Rendering α String := do
  let value ← (r.expr a.value).whole
  match a.name with
  | some name => return r.dialect.argumentNamed name value
  | none => return value

/-- A procedure call. -/
def exec (r : Renderer α) (e : Exec) : Rendering α String := do
  return r.dialect.procedureCall (Render.callee e.procedure) (← e.args.mapM r.execArg)

/-- A query that says whether another one has rows. -/
def probe (r : Renderer α) (query : Select) : Rendering α String := do
  return r.dialect.existenceProbe (← r.select query)

end Renderer

/-- The text that is written from scratch, with all the arguments that have been bound. -/
def Rendering.finish {α : Type} (step : Rendering α String) : Except Fault (Query α) := do
  let (sql, args) ← step.run []
  return ⟨sql, args⟩

namespace Query

variable {α : Type} (dialect : Dialect) (resolver : Resolver α)

/-- The text of a query. -/
def ofSelect (query : Select) : Except Fault (Query α) :=
  (Renderer.select { dialect, resolver } query).finish

/-- The text of a query that says whether another one has rows. -/
def probe (query : Select) : Except Fault (Query α) :=
  (Renderer.probe { dialect, resolver } query).finish

/-- The text of an insertion. -/
def ofInsert (insert : Insert) : Except Fault (Query α) :=
  (Renderer.insert { dialect, resolver } insert).finish

/-- The text of an update. -/
def ofUpdate (update : Update) : Except Fault (Query α) :=
  (Renderer.update { dialect, resolver } update).finish

/-- The text of a deletion. -/
def ofDelete (delete : Delete) : Except Fault (Query α) :=
  (Renderer.delete { dialect, resolver } delete).finish

/-- The text of a procedure call. -/
def ofExec (exec : Exec) : Except Fault (Query α) :=
  (Renderer.exec { dialect, resolver } exec).finish

end Query

/-- Whether the name of a column says that it identifies a row: `id`, or a name that ends in `ID`,
`Id`, `_id`, `_key`, `uuid` or `guid`. -/
def isIdentifierColumn (name : String) : Bool :=
  let bare := Text.stripBrackets name
  let lower := Text.toLower bare
  lower == "id" || Text.endsIn "_id" lower || Text.endsIn "ID" bare || Text.endsIn "Id" bare ||
    Text.endsIn "_key" lower || Text.endsIn "uuid" lower || Text.endsIn "guid" lower

/-- Whether an expression is a column. -/
def Expr.isColumn : Expr → Bool
  | .column _ => true
  | _ => false

/-- Whether a query yields at most one row: it is limited to one, or its only condition compares an
identifying column with something that is no column. -/
def Select.isSingleRow (query : Select) : Bool :=
  match query.top with
  | some (.literal (.int 1)) => true
  | _ =>
    match query.filter with
    | some (.binary .eq (.column ref) other) => isIdentifierColumn ref.name && !other.isColumn
    | some (.binary .eq _ (.column ref)) => isIdentifierColumn ref.name
    | _ => false

end Sproc
