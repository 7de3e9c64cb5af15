import Sproc.Ast.Statement
import Sproc.Json.Basic

/-!
# Procedures from documents

Reading the JSON form of procedures. A record may leave out the fields that have a default, may hold
unknown fields, and may be an array of its fields in order. An alternative without content may be
written as its name or as an object with that field and null. The named parts of an alternative are
always an object.

Expressions and statements are read to a given depth; the depth of the document is always enough.

## Main definitions

* `Expr.ofJson?`, `Select.ofJson?`, `Statement.ofJson?`, `Procedure.ofJson?`
-/

namespace Sproc

namespace Decode

/-- The name of an alternative and its content, if it has any. -/
def tagged? : Json → Option (String × Option Json)
  | .str tag => some (tag, none)
  | .obj [(tag, content)] => some (tag, some content)
  | _ => none

/-- An alternative without content. -/
def unit? {α : Type} (value : α) : Option Json → Option α
  | none => some value
  | some .null => some value
  | _ => none

/-- A choice among names without content. -/
def choice? {α : Type} (ofId? : String → Option α) (json : Json) : Option α := do
  let (tag, content) ← tagged? json
  let value ← ofId? tag
  unit? value content

/-- A list. -/
def list? {α : Type} (read : Json → Option α) (json : Json) : Option (List α) := do
  (← json.arr?).mapM read

/-- A constant. -/
def literal? (json : Json) : Option Literal := do
  match ← tagged? json with
  | ("int", some content) => return .int (← content.int64?)
  | ("decimal", some content) => return .decimal (← content.str?)
  | ("string", some content) => return .string (← content.str?)
  | ("bool", some content) => return .bool (← content.bool?)
  | ("null", content) => unit? .null content
  | _ => none

/-- A column. -/
def column? (json : Json) : Option ColumnRef := do
  let fields ← json.record? ["table", "name"]
  return ⟨← Json.optional? "table" Json.str? fields, ← Json.required? "name" Json.str? fields⟩

/-- A table. -/
def table? (json : Json) : Option TableRef := do
  let fields ← json.record? ["name", "alias"]
  return ⟨← Json.required? "name" Json.str? fields, ← Json.optional? "alias" Json.str? fields⟩

/-- The kind of join of a name. -/
def joinKindOfId? : String → Option JoinKind
  | "inner" => some .inner
  | "left" => some .left
  | _ => none

section Parts

variable (expr? : Json → Option Expr)

/-- An arm of a case. -/
def branch? (json : Json) : Option CaseBranch := do
  let fields ← json.record? ["when", "then"]
  return ⟨← Json.required? "when" expr? fields, ← Json.required? "then" expr? fields⟩

/-- An entry of a select list. -/
def item? (json : Json) : Option SelectItem := do
  let fields ← json.record? ["expr", "alias", "assign_to"]
  return ⟨← Json.required? "expr" expr? fields, ← Json.optional? "alias" Json.str? fields,
    ← Json.optional? "assign_to" Json.str? fields⟩

/-- A join. -/
def join? (json : Json) : Option Join := do
  let fields ← json.record? ["kind", "table", "on"]
  return ⟨← Json.defaulted? "kind" .inner (choice? joinKindOfId?) fields,
    ← Json.required? "table" table? fields, ← Json.required? "on" expr? fields⟩

/-- An entry of an ordering. -/
def order? (json : Json) : Option OrderBy := do
  let fields ← json.record? ["expr", "descending"]
  return ⟨← Json.required? "expr" expr? fields,
    ← Json.defaulted? "descending" false Json.bool? fields⟩

/-- A query. -/
def select? (json : Json) : Option Select := do
  let fields ← json.record?
    ["top", "distinct", "items", "from", "joins", "where", "group_by", "order_by"]
  return {
    top := ← Json.optional? "top" expr? fields
    distinct := ← Json.defaulted? "distinct" false Json.bool? fields
    items := ← Json.required? "items" (list? (item? expr?)) fields
    source := ← Json.optional? "from" table? fields
    joins := ← Json.defaulted? "joins" [] (list? (join? expr?)) fields
    filter := ← Json.optional? "where" expr? fields
    groupBy := ← Json.defaulted? "group_by" [] (list? expr?) fields
    orderBy := ← Json.defaulted? "order_by" [] (list? (order? expr?)) fields }

end Parts

/-- An expression of at most the given depth. -/
def expr? (depth : Nat) (json : Json) : Option Expr :=
  match depth with
  | 0 => none
  | depth + 1 => do
    match ← tagged? json with
    | ("literal", some content) => return .literal (← literal? content)
    | ("variable", some content) => return .variable (← content.str?)
    | ("global", some content) => return .global (← choice? GlobalVar.ofId? content)
    | ("column", some content) => return .column (← column? content)
    | ("star", content) => unit? .star content
    | ("unary", some content) =>
      let fields ← content.obj?
      return .unary (← Json.required? "op" (choice? UnaryOp.ofId?) fields)
        (← Json.required? "expr" (expr? depth) fields)
    | ("binary", some content) =>
      let fields ← content.obj?
      return .binary (← Json.required? "op" (choice? BinaryOp.ofId?) fields)
        (← Json.required? "left" (expr? depth) fields)
        (← Json.required? "right" (expr? depth) fields)
    | ("is_null", some content) =>
      let fields ← content.obj?
      return .isNull (← Json.required? "expr" (expr? depth) fields)
        (← Json.defaulted? "negated" false Json.bool? fields)
    | ("in_list", some content) =>
      let fields ← content.obj?
      return .inList (← Json.required? "expr" (expr? depth) fields)
        (← Json.required? "list" (list? (expr? depth)) fields)
        (← Json.defaulted? "negated" false Json.bool? fields)
    | ("between", some content) =>
      let fields ← content.obj?
      return .between (← Json.required? "expr" (expr? depth) fields)
        (← Json.required? "low" (expr? depth) fields) (← Json.required? "high" (expr? depth) fields)
        (← Json.defaulted? "negated" false Json.bool? fields)
    | ("function", some content) =>
      let fields ← content.obj?
      return .function (← Json.required? "name" Json.str? fields)
        (← Json.defaulted? "args" [] (list? (expr? depth)) fields)
    | ("cast", some content) =>
      let fields ← content.obj?
      return .cast (← Json.required? "expr" (expr? depth) fields)
        (← Json.required? "data_type" Json.str? fields)
    | ("case", some content) =>
      let fields ← content.obj?
      return .case (← Json.required? "branches" (list? (branch? (expr? depth))) fields)
        (← Json.optional? "else_value" (expr? depth) fields)
    | ("exists", some content) => return .exists (← select? (expr? depth) content)
    | ("subquery", some content) => return .subquery (← select? (expr? depth) content)
    | _ => none

end Decode

/-- Reads an expression. -/
def Expr.ofJson? (json : Json) : Option Expr :=
  Decode.expr? (json.depth + 1) json

/-- Reads a query. -/
def Select.ofJson? (json : Json) : Option Select :=
  Decode.select? Expr.ofJson? json

namespace Decode

/-- What an insertion adds. -/
def insertSource? (json : Json) : Option InsertSource := do
  match ← tagged? json with
  | ("values", some content) => return .values (← list? (list? Expr.ofJson?) content)
  | ("select", some content) => return .query (← Select.ofJson? content)
  | _ => none

/-- An insertion. -/
def insert? (json : Json) : Option Insert := do
  let fields ← json.record? ["table", "columns", "source"]
  return ⟨← Json.required? "table" table? fields,
    ← Json.defaulted? "columns" [] (list? Json.str?) fields,
    ← Json.required? "source" insertSource? fields⟩

/-- An assignment of an update. -/
def assignment? (json : Json) : Option Assignment := do
  let fields ← json.record? ["column", "value"]
  return ⟨← Json.required? "column" Json.str? fields, ← Json.required? "value" Expr.ofJson? fields⟩

/-- An update. -/
def update? (json : Json) : Option Update := do
  let fields ← json.record? ["table", "assignments", "where"]
  return ⟨← Json.required? "table" table? fields,
    ← Json.required? "assignments" (list? assignment?) fields,
    ← Json.optional? "where" Expr.ofJson? fields⟩

/-- A deletion. -/
def delete? (json : Json) : Option Delete := do
  let fields ← json.record? ["table", "where"]
  return ⟨← Json.required? "table" table? fields, ← Json.optional? "where" Expr.ofJson? fields⟩

/-- An argument of a call. -/
def execArg? (json : Json) : Option ExecArg := do
  let fields ← json.record? ["name", "value", "output"]
  return ⟨← Json.optional? "name" Json.str? fields, ← Json.required? "value" Expr.ofJson? fields,
    ← Json.defaulted? "output" false Json.bool? fields⟩

/-- A procedure call. -/
def exec? (json : Json) : Option Exec := do
  let fields ← json.record? ["procedure", "args", "return_status"]
  return ⟨← Json.required? "procedure" Json.str? fields,
    ← Json.defaulted? "args" [] (list? execArg?) fields,
    ← Json.optional? "return_status" Json.str? fields⟩

/-- A declared variable. -/
def varDecl? (json : Json) : Option VarDecl := do
  let fields ← json.record? ["name", "type", "init"]
  return ⟨← Json.required? "name" Json.str? fields, ← Json.required? "type" Json.str? fields,
    ← Json.optional? "init" Expr.ofJson? fields⟩

/-- The direction of a fetch. -/
def fetchDirection? (json : Json) : Option FetchDirection := do
  match ← tagged? json with
  | ("next", content) => unit? .next content
  | ("prior", content) => unit? .prior content
  | ("first", content) => unit? .first content
  | ("last", content) => unit? .last content
  | ("absolute", some content) => return .absolute (← Expr.ofJson? content)
  | ("relative", some content) => return .relative (← Expr.ofJson? content)
  | _ => none

/-- A fetch. -/
def fetch? (json : Json) : Option Fetch := do
  let fields ← json.record? ["cursor", "direction", "into"]
  return ⟨← Json.required? "cursor" Json.str? fields,
    ← Json.defaulted? "direction" .next fetchDirection? fields,
    ← Json.defaulted? "into" [] (list? Json.str?) fields⟩

/-- The arguments of a throw. -/
def throwArgs? (json : Json) : Option ThrowArgs := do
  let fields ← json.record? ["number", "message", "state"]
  return ⟨← Json.required? "number" Expr.ofJson? fields,
    ← Json.required? "message" Expr.ofJson? fields,
    ← Json.required? "state" Expr.ofJson? fields⟩

/-- A statement of at most the given depth. -/
def statement? (depth : Nat) (json : Json) : Option Statement :=
  match depth with
  | 0 => none
  | depth + 1 => do
    match ← tagged? json with
    | ("declare", some content) => return .declare (← list? varDecl? content)
    | ("declare_cursor", some content) =>
      let fields ← content.obj?
      return .declareCursor (← Json.required? "name" Json.str? fields)
        (← Json.required? "query" Select.ofJson? fields)
    | ("set", some content) =>
      let fields ← content.obj?
      return .set (← Json.required? "variable" Json.str? fields)
        (← Json.required? "value" Expr.ofJson? fields)
    | ("if", some content) =>
      let fields ← content.obj?
      return .ifElse (← Json.required? "condition" Expr.ofJson? fields)
        (← Json.required? "then_branch" (list? (statement? depth)) fields)
        (← Json.optional? "else_branch" (list? (statement? depth)) fields)
    | ("while", some content) =>
      let fields ← content.obj?
      return .while (← Json.required? "condition" Expr.ofJson? fields)
        (← Json.required? "body" (list? (statement? depth)) fields)
    | ("block", some content) => return .block (← list? (statement? depth) content)
    | ("return", some content) => return .ret (← Json.nullable? Expr.ofJson? content)
    | ("print", some content) => return .print (← Expr.ofJson? content)
    | ("break", content) => unit? .breakLoop content
    | ("continue", content) => unit? .continueLoop content
    | ("select", some content) => return .select (← Select.ofJson? content)
    | ("insert", some content) => return .insert (← insert? content)
    | ("update", some content) => return .update (← update? content)
    | ("delete", some content) => return .delete (← delete? content)
    | ("exec", some content) => return .exec (← exec? content)
    | ("exec_dynamic", some content) => return .execDynamic (← Expr.ofJson? content)
    | ("open", some content) => return .openCursor (← content.str?)
    | ("fetch", some content) => return .fetch (← fetch? content)
    | ("close", some content) => return .closeCursor (← content.str?)
    | ("deallocate", some content) => return .deallocate (← content.str?)
    | ("begin_transaction", some content) =>
      return .beginTransaction (← Json.nullable? Json.str? content)
    | ("commit_transaction", some content) => return .commit (← Json.nullable? Json.str? content)
    | ("rollback_transaction", some content) =>
      return .rollback (← Json.nullable? Json.str? content)
    | ("save_transaction", some content) => return .savepoint (← content.str?)
    | ("try_catch", some content) =>
      let fields ← content.obj?
      return .tryCatch (← Json.required? "try_body" (list? (statement? depth)) fields)
        (← Json.required? "catch_body" (list? (statement? depth)) fields)
    | ("raiserror", some content) =>
      let fields ← content.obj?
      return .raiserror (← Json.required? "message" Expr.ofJson? fields)
        (← Json.required? "severity" Expr.ofJson? fields)
        (← Json.required? "state" Expr.ofJson? fields)
    | ("throw", some content) => return .throw (← Json.nullable? throwArgs? content)
    | _ => none

/-- The direction of a parameter. -/
def directionOfId? : String → Option Direction
  | "in" => some .input
  | "out" => some .output
  | _ => none

/-- A parameter. -/
def parameter? (json : Json) : Option Parameter := do
  let fields ← json.record? ["name", "type", "direction", "default"]
  return ⟨← Json.required? "name" Json.str? fields, ← Json.required? "type" Json.str? fields,
    ← Json.defaulted? "direction" .input (choice? directionOfId?) fields,
    ← Json.optional? "default" Expr.ofJson? fields⟩

end Decode

/-- Reads a statement. -/
def Statement.ofJson? (json : Json) : Option Statement :=
  Decode.statement? (json.depth + 1) json

/-- Reads a procedure. -/
def Procedure.ofJson? (json : Json) : Option Procedure := do
  let fields ← json.record? ["name", "params", "body"]
  return ⟨← Json.required? "name" Json.str? fields,
    ← Json.defaulted? "params" [] (Decode.list? Decode.parameter?) fields,
    ← Json.defaulted? "body" [] (Decode.list? Statement.ofJson?) fields⟩

end Sproc
