import Sproc.Ast.Statement
import Sproc.Json.Basic

/-!
# Procedures as documents

The JSON form of procedures. Each alternative of a type is an object with one field, named for the
alternative; an alternative without content is just its name. Every field of a record is written,
with null for what is absent.

## Main definitions

* `Expr.toJson`, `Select.toJson`, `Statement.toJson`, `Procedure.toJson`
-/

namespace Sproc

namespace Encode

/-- An alternative with content. -/
def tagged (tag : String) (content : Json) : Json :=
  .obj [(tag, content)]

/-- A text or null. -/
def optionalText : Option String → Json
  | some s => .str s
  | none => .null

/-- A list of texts. -/
def texts (list : List String) : Json :=
  .arr (list.map Json.str)

/-- A constant. -/
def literal : Literal → Json
  | .int n => tagged "int" (.int n)
  | .decimal spelling => tagged "decimal" (.str spelling)
  | .string s => tagged "string" (.str s)
  | .bool b => tagged "bool" (.bool b)
  | .null => .str "null"

/-- A column. -/
def column (ref : ColumnRef) : Json :=
  .obj [("table", optionalText ref.table), ("name", .str ref.name)]

/-- A table. -/
def table (ref : TableRef) : Json :=
  .obj [("name", .str ref.name), ("alias", optionalText ref.aliasName)]

/-- A table or null. -/
def optionalTable : Option TableRef → Json
  | some ref => table ref
  | none => .null

/-- A kind of join. -/
def joinKind : JoinKind → Json
  | .inner => .str "inner"
  | .left => .str "left"

mutual

/-- An expression. -/
def expr : Expr → Json
  | .literal value => tagged "literal" (literal value)
  | .variable name => tagged "variable" (.str name)
  | .global var => tagged "global" (.str var.id)
  | .column ref => tagged "column" (column ref)
  | .star => .str "star"
  | .unary op operand => tagged "unary" (.obj [("op", .str op.id), ("expr", expr operand)])
  | .binary op left right =>
    tagged "binary" (.obj [("op", .str op.id), ("left", expr left), ("right", expr right)])
  | .isNull operand negated =>
    tagged "is_null" (.obj [("expr", expr operand), ("negated", .bool negated)])
  | .inList operand list negated =>
    tagged "in_list"
      (.obj [("expr", expr operand), ("list", .arr (exprs list)), ("negated", .bool negated)])
  | .between operand low high negated =>
    tagged "between"
      (.obj [("expr", expr operand), ("low", expr low), ("high", expr high),
        ("negated", .bool negated)])
  | .function name args =>
    tagged "function" (.obj [("name", .str name), ("args", .arr (exprs args))])
  | .cast operand type => tagged "cast" (.obj [("expr", expr operand), ("data_type", .str type)])
  | .case list otherwise =>
    tagged "case"
      (.obj [("branches", .arr (branches list)), ("else_value", optionalExpr otherwise)])
  | .exists query => tagged "exists" (select query)
  | .subquery query => tagged "subquery" (select query)

/-- A list of expressions. -/
def exprs : List Expr → List Json
  | [] => []
  | e :: rest => expr e :: exprs rest

/-- An expression or null. -/
def optionalExpr : Option Expr → Json
  | some e => expr e
  | none => .null

/-- The arms of a case. -/
def branches : List CaseBranch → List Json
  | [] => []
  | ⟨test, result⟩ :: rest => .obj [("when", expr test), ("then", expr result)] :: branches rest

/-- A select list. -/
def items : List SelectItem → List Json
  | [] => []
  | ⟨e, aliasName, assignTo⟩ :: rest =>
    .obj [("expr", expr e), ("alias", optionalText aliasName),
      ("assign_to", optionalText assignTo)] ::
      items rest

/-- A list of joins. -/
def joins : List Join → List Json
  | [] => []
  | ⟨kind, ref, condition⟩ :: rest =>
    .obj [("kind", joinKind kind), ("table", table ref), ("on", expr condition)] :: joins rest

/-- An ordering. -/
def orders : List OrderBy → List Json
  | [] => []
  | ⟨e, descending⟩ :: rest =>
    .obj [("expr", expr e), ("descending", .bool descending)] :: orders rest

/-- A query. -/
def select : Select → Json
  | ⟨top, distinct, list, source, joinList, filter, groupBy, orderBy⟩ =>
    .obj [
      ("top", optionalExpr top),
      ("distinct", .bool distinct),
      ("items", .arr (items list)),
      ("from", optionalTable source),
      ("joins", .arr (joins joinList)),
      ("where", optionalExpr filter),
      ("group_by", .arr (exprs groupBy)),
      ("order_by", .arr (orders orderBy))]

end

/-- What an insertion adds. -/
def insertSource : InsertSource → Json
  | .values rows => tagged "values" (.arr (rows.map fun row => .arr (exprs row)))
  | .query q => tagged "select" (select q)

/-- An insertion. -/
def insert (i : Insert) : Json :=
  .obj [("table", table i.table), ("columns", texts i.columns), ("source", insertSource i.source)]

/-- An assignment of an update. -/
def assignment (a : Assignment) : Json :=
  .obj [("column", .str a.column), ("value", expr a.value)]

/-- An update. -/
def update (u : Update) : Json :=
  .obj [("table", table u.table), ("assignments", .arr (u.assignments.map assignment)),
    ("where", optionalExpr u.filter)]

/-- A deletion. -/
def delete (d : Delete) : Json :=
  .obj [("table", table d.table), ("where", optionalExpr d.filter)]

/-- An argument of a call. -/
def execArg (a : ExecArg) : Json :=
  .obj [("name", optionalText a.name), ("value", expr a.value), ("output", .bool a.output)]

/-- A procedure call. -/
def exec (e : Exec) : Json :=
  .obj [("procedure", .str e.procedure), ("args", .arr (e.args.map execArg)),
    ("return_status", optionalText e.returnStatus)]

/-- A declared variable. -/
def varDecl (v : VarDecl) : Json :=
  .obj [("name", .str v.name), ("type", .str v.type), ("init", optionalExpr v.init)]

/-- The direction of a fetch. -/
def fetchDirection : FetchDirection → Json
  | .next => .str "next"
  | .prior => .str "prior"
  | .first => .str "first"
  | .last => .str "last"
  | .absolute offset => tagged "absolute" (expr offset)
  | .relative offset => tagged "relative" (expr offset)

/-- A fetch. -/
def fetch (f : Fetch) : Json :=
  .obj [("cursor", .str f.cursor), ("direction", fetchDirection f.direction),
    ("into", texts f.into)]

/-- The arguments of a throw, or null. -/
def throwArgs : Option ThrowArgs → Json
  | some args =>
    .obj [("number", expr args.number), ("message", expr args.message), ("state", expr args.state)]
  | none => .null

mutual

/-- A statement. -/
def statement : Statement → Json
  | .declare vars => tagged "declare" (.arr (vars.map varDecl))
  | .declareCursor name query =>
    tagged "declare_cursor" (.obj [("name", .str name), ("query", select query)])
  | .set target value => tagged "set" (.obj [("variable", .str target), ("value", expr value)])
  | .ifElse condition thenBranch elseBranch =>
    tagged "if" (.obj [("condition", expr condition), ("then_branch", .arr (statements thenBranch)),
      ("else_branch", optionalStatements elseBranch)])
  | .while condition body =>
    tagged "while" (.obj [("condition", expr condition), ("body", .arr (statements body))])
  | .block body => tagged "block" (.arr (statements body))
  | .ret value => tagged "return" (optionalExpr value)
  | .print value => tagged "print" (expr value)
  | .breakLoop => .str "break"
  | .continueLoop => .str "continue"
  | .select query => tagged "select" (select query)
  | .insert i => tagged "insert" (insert i)
  | .update u => tagged "update" (update u)
  | .delete d => tagged "delete" (delete d)
  | .exec e => tagged "exec" (exec e)
  | .execDynamic text => tagged "exec_dynamic" (expr text)
  | .openCursor cursor => tagged "open" (.str cursor)
  | .fetch f => tagged "fetch" (fetch f)
  | .closeCursor cursor => tagged "close" (.str cursor)
  | .deallocate cursor => tagged "deallocate" (.str cursor)
  | .beginTransaction name => tagged "begin_transaction" (optionalText name)
  | .commit name => tagged "commit_transaction" (optionalText name)
  | .rollback name => tagged "rollback_transaction" (optionalText name)
  | .savepoint name => tagged "save_transaction" (.str name)
  | .tryCatch tryBody catchBody =>
    tagged "try_catch"
      (.obj [("try_body", .arr (statements tryBody)), ("catch_body", .arr (statements catchBody))])
  | .raiserror message severity state =>
    tagged "raiserror"
      (.obj [("message", expr message), ("severity", expr severity), ("state", expr state)])
  | .throw args => tagged "throw" (throwArgs args)

/-- A list of statements. -/
def statements : List Statement → List Json
  | [] => []
  | s :: rest => statement s :: statements rest

/-- A list of statements or null. -/
def optionalStatements : Option (List Statement) → Json
  | some body => .arr (statements body)
  | none => .null

end

/-- The direction of a parameter. -/
def direction : Direction → Json
  | .input => .str "in"
  | .output => .str "out"

/-- A parameter. -/
def parameter (p : Parameter) : Json :=
  .obj [("name", .str p.name), ("type", .str p.type), ("direction", direction p.direction),
    ("default", optionalExpr p.default)]

/-- A procedure. -/
def procedure (p : Procedure) : Json :=
  .obj [("name", .str p.name), ("params", .arr (p.params.map parameter)),
    ("body", .arr (statements p.body))]

end Encode

/-- The document of an expression. -/
def Expr.toJson (e : Expr) : Json :=
  Encode.expr e

/-- The document of a query. -/
def Select.toJson (query : Select) : Json :=
  Encode.select query

/-- The document of a statement. -/
def Statement.toJson (s : Statement) : Json :=
  Encode.statement s

/-- The document of a procedure. -/
def Procedure.toJson (p : Procedure) : Json :=
  Encode.procedure p

end Sproc
