import Sproc.Query.Renderer

/-!
# Query text with holes

A fragment is query text with holes, each of which holds the argument that is bound there.
Placeholders are numbered only when a whole query is put together. Here data statements are written
as fragments; numbers and arguments are not kept on the way, which makes the text easier to reason
about than the text that is written while arguments are bound.

## Main definitions

* `Fragment`: text and arguments in order
* `Fragment.args`: the arguments from left to right
* `Fragment.render`: the text with numbered placeholders
* `Render.expr`, `Render.select`, `Render.insert`, `Render.update`, `Render.delete`, `Render.exec`:
  statements as fragments
-/

namespace Sproc

/-- A stretch of query text, or an argument bound in it. -/
inductive Piece (α : Type) where
  | text (s : String)
  | arg (value : α)
  deriving Repr

/-- Query text with arguments of type `α` in it. -/
abbrev Fragment (α : Type) := List (Piece α)

namespace Fragment

variable {α : Type}

/-- Plain text. -/
def ofText (s : String) : Fragment α :=
  [.text s]

/-- A single bound argument. -/
def ofArg (value : α) : Fragment α :=
  [.arg value]

/-- A fragment in parentheses. -/
def parenthesized (body : Fragment α) : Fragment α :=
  ofText "(" ++ body ++ ofText ")"

/-- Fragments with a text between neighbours. -/
def joined (separator : String) : List (Fragment α) → Fragment α
  | [] => []
  | [last] => last
  | first :: others => first ++ ofText separator ++ joined separator others

/-- The arguments from left to right. -/
def args : Fragment α → List α
  | [] => []
  | .text _ :: rest => args rest
  | .arg value :: rest => value :: args rest

/-- The text with placeholders, the next of which has the number `next`. -/
def renderFrom (placeholder : Nat → String) (next : Nat) : Fragment α → String
  | [] => ""
  | .text s :: rest => s ++ renderFrom placeholder next rest
  | .arg _ :: rest => placeholder next ++ renderFrom placeholder (next + 1) rest

/-- The text with placeholders numbered from one. -/
def render (placeholder : Nat → String) (fragment : Fragment α) : String :=
  renderFrom placeholder 1 fragment

/-- A whole query. -/
def toQuery (placeholder : Nat → String) (fragment : Fragment α) : Query α :=
  ⟨render placeholder fragment, fragment.args⟩

@[simp]
theorem args_append (a b : Fragment α) : args (a ++ b) = args a ++ args b := by
  induction a with
  | nil => rfl
  | cons piece rest ih => cases piece <;> simp [args, ih]

@[simp]
theorem args_ofText (s : String) : args (ofText s : Fragment α) = [] := rfl

@[simp]
theorem args_ofArg (value : α) : args (ofArg value) = [value] := rfl

end Fragment

namespace Dialect

variable {α : Type}

/-- The concatenation of strings. -/
def concat (dialect : Dialect) (parts : List (Fragment α)) : Fragment α :=
  match dialect with
  | mysql => .ofText "CONCAT(" ++ .joined ", " parts ++ .ofText ")"
  | sqlserver => .joined " + " parts
  | _ => .joined " || " parts

/-- A row limit before the select list, for a dialect that has this form. -/
def topClause? (dialect : Dialect) (count : Fragment α) : Option (Fragment α) :=
  if dialect.leadingTop then some (.ofText "TOP (" ++ count ++ .ofText ") ") else none

/-- A row limit at the end of a query. -/
def limitClause (dialect : Dialect) (count : Fragment α) : Fragment α :=
  match dialect with
  | sqlserver => []
  | oracle => .ofText " FETCH FIRST " ++ count ++ .ofText " ROWS ONLY"
  | _ => .ofText " LIMIT " ++ count

/-- The call of a stored procedure. -/
def callProcedure (dialect : Dialect) (name : String) (args : List (Fragment α)) : Fragment α :=
  let name := dialect.quoteIdentifier name
  match dialect with
  | sqlserver =>
    if args.isEmpty then .ofText ("EXEC " ++ name)
    else .ofText ("EXEC " ++ name ++ " ") ++ .joined ", " args
  | _ => .ofText ("CALL " ++ name ++ "(") ++ .joined ", " args ++ .ofText ")"

/-- An argument given by name; only one dialect writes the name. -/
def namedArgument (dialect : Dialect) (name : String) (value : Fragment α) : Fragment α :=
  match dialect with
  | sqlserver => .ofText (name ++ " = ") ++ value
  | _ => value

/-- A query that yields one row, which says whether `inner` has rows. -/
def existsProbe (dialect : Dialect) (inner : Fragment α) : Fragment α :=
  match dialect with
  | sqlserver => .ofText "SELECT CASE WHEN EXISTS (" ++ inner ++ .ofText ") THEN 1 ELSE 0 END"
  | oracle =>
    .ofText "SELECT CASE WHEN EXISTS (" ++ inner ++ .ofText ") THEN 1 ELSE 0 END FROM DUAL"
  | _ => .ofText "SELECT EXISTS (" ++ inner ++ .ofText ")"

end Dialect

/-- An expression in query text: as a whole, and as operands of a concatenation. -/
structure Rendered (α : Type) where
  whole : Except Fault (Fragment α)
  operands : Except Fault (List (Fragment α))

namespace Render

variable {α : Type}

/-- An operand of an operator of the given strength, in parentheses when it binds looser, or as
loose on the right of an operator that is not associative. -/
def operand (expr : Expr) (parent : Nat) (right : Bool) (body : Fragment α) : Fragment α :=
  match strength? expr with
  | some child => if child < parent || (right && child == parent) then body.parenthesized else body
  | none => body

/-- A rendered expression that is one operand of a concatenation. -/
def single (expr : Expr) (whole : Except Fault (Fragment α)) : Rendered α :=
  ⟨whole, whole.map fun body => [operand expr 5 false body]⟩

/-- A server variable: the status of a fetch has no meaning in a query. -/
def global (resolver : Resolver α) (var : GlobalVar) : Except Fault (Fragment α) :=
  match var with
  | .fetchStatus => .error (.unsupported "@@FETCH_STATUS" "cannot be referenced inside a query")
  | var => (resolver.ofGlobal var).map .ofArg

mutual

/-- An expression. -/
def expr (dialect : Dialect) (resolver : Resolver α) : Expr → Rendered α
  | .literal value => single (.literal value) (.ok (.ofText (literal dialect value)))
  | .variable name => single (.variable name) ((resolver.ofVariable name).map .ofArg)
  | .global var => single (.global var) (global resolver var)
  | .column ref => single (.column ref) (.ok (.ofText (column dialect ref)))
  | .star => single .star (.ok (.ofText "*"))
  | .unary op e => single (.unary op e) do
    let body := operand e 6 false (← (expr dialect resolver e).whole)
    match op with
    | .neg => return .ofText "-" ++ body
    | .not => return .ofText "NOT " ++ body
  | .binary op left right =>
    let l := expr dialect resolver left
    let r := expr dialect resolver right
    if op = .add then
      -- Strings are joined as one list, however the sums are nested.
      let operands := do return (← l.operands) ++ (← r.operands)
      if isStringy resolver left || isStringy resolver right then
        ⟨operands.map dialect.concat, operands⟩
      else
        ⟨do
          return operand left 4 false (← l.whole) ++ .ofText " + " ++
            operand right 4 true (← r.whole),
          operands⟩
    else
      single (.binary op left right) do
        let prec := op.precedence
        return operand left prec false (← l.whole) ++ .ofText (" " ++ op.sqlSymbol ++ " ") ++
          operand right prec (!op.isLogical) (← r.whole)
  | .isNull e negated => single (.isNull e negated) do
    let body := operand e 3 false (← (expr dialect resolver e).whole)
    return body ++ .ofText (if negated then " IS NOT NULL" else " IS NULL")
  | .inList e list negated => single (.inList e list negated) do
    let body := operand e 3 false (← (expr dialect resolver e).whole)
    let items ← exprs dialect resolver list
    return body ++ .ofText (" " ++ negation negated ++ "IN (") ++ .joined ", " items ++ .ofText ")"
  | .between e low high negated => single (.between e low high negated) do
    let body := operand e 3 false (← (expr dialect resolver e).whole)
    let lower := operand low 4 false (← (expr dialect resolver low).whole)
    let upper := operand high 4 false (← (expr dialect resolver high).whole)
    return body ++ .ofText (" " ++ negation negated ++ "BETWEEN ") ++ lower ++
      .ofText " AND " ++ upper
  | .function name args => single (.function name args) do
    let upper := Text.toUpper name
    -- A function that is evaluated in Go is an argument; its own arguments are not looked at.
    match resolver.ofFunction upper with
    | some value => return .ofArg (← value)
    | none =>
      if timestampFunctions.contains upper then
        return .ofText dialect.currentTimestamp
      else
        let args ← exprs dialect resolver args
        return .ofText (functionName dialect upper ++ "(") ++ .joined ", " args ++ .ofText ")"
  | .cast e type => single (.cast e type) do
    let body ← (expr dialect resolver e).whole
    return .ofText "CAST(" ++ body ++ .ofText (" AS " ++ dialect.castType type ++ ")")
  | .case list otherwise => single (.case list otherwise) do
    let arms ← branches dialect resolver list
    let last ← elseBranch dialect resolver otherwise
    return .ofText "CASE" ++ arms ++ last ++ .ofText " END"
  | .exists query => single (.exists query) do
    return .ofText "EXISTS (" ++ (← select dialect resolver query) ++ .ofText ")"
  | .subquery query => single (.subquery query) do
    return (← select dialect resolver query).parenthesized

/-- A list of expressions. -/
def exprs (dialect : Dialect) (resolver : Resolver α) : List Expr → Except Fault (List (Fragment α))
  | [] => .ok []
  | e :: rest => do
    let body ← (expr dialect resolver e).whole
    return body :: (← exprs dialect resolver rest)

/-- The arms of a case. -/
def branches (dialect : Dialect) (resolver : Resolver α) :
    List CaseBranch → Except Fault (Fragment α)
  | [] => .ok []
  | ⟨test, result⟩ :: rest => do
    let test ← (expr dialect resolver test).whole
    let result ← (expr dialect resolver result).whole
    return .ofText " WHEN " ++ test ++ .ofText " THEN " ++ result ++
      (← branches dialect resolver rest)

/-- The alternative of a case. -/
def elseBranch (dialect : Dialect) (resolver : Resolver α) : Option Expr → Except Fault (Fragment α)
  | none => .ok []
  | some e => do return .ofText " ELSE " ++ (← (expr dialect resolver e).whole)

/-- A condition behind a keyword, if there is one. -/
def clause (dialect : Dialect) (resolver : Resolver α) (keyword : String) :
    Option Expr → Except Fault (Fragment α)
  | none => .ok []
  | some e => do return .ofText keyword ++ (← (expr dialect resolver e).whole)

/-- A row limit in front of the select list, in a dialect that has it there. -/
def topLimit (dialect : Dialect) (resolver : Resolver α) : Option Expr → Except Fault (Fragment α)
  | none => .ok []
  | some e =>
    if dialect.leadingTop then do
      let count ← (expr dialect resolver e).whole
      return (dialect.topClause? count).getD []
    else
      .ok []

/-- A row limit at the end of the query, in a dialect that has it there. -/
def endLimit (dialect : Dialect) (resolver : Resolver α) : Option Expr → Except Fault (Fragment α)
  | none => .ok []
  | some e =>
    if dialect.leadingTop then
      .ok []
    else do
      return dialect.limitClause (← (expr dialect resolver e).whole)

/-- A select list. -/
def items (dialect : Dialect) (resolver : Resolver α) :
    List SelectItem → Except Fault (List (Fragment α))
  | [] => .ok []
  | ⟨e, aliasName, _⟩ :: rest => do
    let body ← (expr dialect resolver e).whole
    let named :=
      match aliasName with
      | some aliasName => body ++ .ofText (" AS " ++ columnName dialect aliasName)
      | none => body
    return named :: (← items dialect resolver rest)

/-- Joins. -/
def joins (dialect : Dialect) (resolver : Resolver α) : List Join → Except Fault (Fragment α)
  | [] => .ok []
  | ⟨kind, ref, condition⟩ :: rest => do
    let keyword :=
      match kind with
      | .inner => " INNER JOIN "
      | .left => " LEFT JOIN "
    let condition ← (expr dialect resolver condition).whole
    return .ofText (keyword ++ table dialect ref ++ " ON ") ++ condition ++
      (← joins dialect resolver rest)

/-- An ordering. -/
def orders (dialect : Dialect) (resolver : Resolver α) :
    List OrderBy → Except Fault (List (Fragment α))
  | [] => .ok []
  | ⟨e, descending⟩ :: rest => do
    let body ← (expr dialect resolver e).whole
    let entry := if descending then body ++ .ofText " DESC" else body
    return entry :: (← orders dialect resolver rest)

/-- A query, its clauses in the order of the text. -/
def select (dialect : Dialect) (resolver : Resolver α) : Select → Except Fault (Fragment α)
  | ⟨top, distinct, list, source, joinList, filter, groupBy, orderBy⟩ => do
    let head : Fragment α := .ofText (if distinct then "SELECT DISTINCT " else "SELECT ")
    -- The limit stands in front or at the end; the other of the two places stays empty.
    let limit ← topLimit dialect resolver top
    let columns ← items dialect resolver list
    let tables : Fragment α :=
      match source with
      | some ref => .ofText (" FROM " ++ table dialect ref)
      | none => []
    let joined ← joins dialect resolver joinList
    let rows ← clause dialect resolver " WHERE " filter
    let groups ← exprs dialect resolver groupBy
    let grouping : Fragment α :=
      if groups.isEmpty then [] else .ofText " GROUP BY " ++ .joined ", " groups
    let entries ← orders dialect resolver orderBy
    let ordering : Fragment α :=
      if entries.isEmpty then [] else .ofText " ORDER BY " ++ .joined ", " entries
    let rest ← endLimit dialect resolver top
    return head ++ limit ++ .joined ", " columns ++ tables ++ joined ++ rows ++ grouping ++
      ordering ++ rest

end

/-- A list of values in parentheses. -/
def row (dialect : Dialect) (resolver : Resolver α) (values : List Expr) :
    Except Fault (Fragment α) := do
  return (Fragment.joined ", " (← exprs dialect resolver values)).parenthesized

/-- What an insertion adds. -/
def insertSource (dialect : Dialect) (resolver : Resolver α) :
    InsertSource → Except Fault (Fragment α)
  | .values rows => do
    return .ofText " VALUES " ++ .joined ", " (← rows.mapM (row dialect resolver))
  | .query q => do
    return .ofText " " ++ (← select dialect resolver q)

/-- An insertion. -/
def insert (dialect : Dialect) (resolver : Resolver α) (i : Insert) :
    Except Fault (Fragment α) := do
  let columns :=
    if i.columns.isEmpty then ""
    else " (" ++ Text.commaSeparated (i.columns.map (columnName dialect)) ++ ")"
  return .ofText ("INSERT INTO " ++ table dialect i.table ++ columns) ++
    (← insertSource dialect resolver i.source)

/-- An assignment of an update. -/
def assignment (dialect : Dialect) (resolver : Resolver α) (a : Assignment) :
    Except Fault (Fragment α) := do
  return .ofText (columnName dialect a.column ++ " = ") ++ (← (expr dialect resolver a.value).whole)

/-- An update. -/
def update (dialect : Dialect) (resolver : Resolver α) (u : Update) :
    Except Fault (Fragment α) := do
  let assignments ← u.assignments.mapM (assignment dialect resolver)
  return .ofText ("UPDATE " ++ table dialect u.table ++ " SET ") ++ .joined ", " assignments ++
    (← clause dialect resolver " WHERE " u.filter)

/-- A deletion. -/
def delete (dialect : Dialect) (resolver : Resolver α) (d : Delete) :
    Except Fault (Fragment α) := do
  return .ofText ("DELETE FROM " ++ table dialect d.table) ++
    (← clause dialect resolver " WHERE " d.filter)

/-- An argument of a procedure call. -/
def execArg (dialect : Dialect) (resolver : Resolver α) (a : ExecArg) :
    Except Fault (Fragment α) := do
  let value ← (expr dialect resolver a.value).whole
  match a.name with
  | some name => return dialect.namedArgument name value
  | none => return value

/-- A procedure call. -/
def exec (dialect : Dialect) (resolver : Resolver α) (e : Exec) : Except Fault (Fragment α) := do
  return dialect.callProcedure (callee e.procedure) (← e.args.mapM (execArg dialect resolver))

end Render

/-! ## Arguments of composed fragments -/

variable {α : Type}

namespace Fragment

@[simp]
theorem args_nil : args ([] : Fragment α) = [] := rfl

@[simp]
theorem args_parenthesized (body : Fragment α) : args body.parenthesized = args body := by
  simp [parenthesized]

/-- A separator binds nothing. -/
@[simp]
theorem args_joined (separator : String) (parts : List (Fragment α)) :
    args (joined separator parts) = parts.flatMap args := by
  fun_induction joined separator parts with
  | case1 => rfl
  | case2 last => simp
  | case3 first others _ ih => simp [ih]

end Fragment

@[simp]
theorem Render.args_operand (expr : Expr) (parent : Nat) (right : Bool) (body : Fragment α) :
    (operand expr parent right body).args = body.args := by
  unfold operand
  split
  · split <;> simp
  · rfl

namespace Dialect

variable (dialect : Dialect)

@[simp]
theorem args_concat (parts : List (Fragment α)) :
    (dialect.concat parts).args = parts.flatMap Fragment.args := by
  cases dialect <;> simp [concat]

/-- A limit in front keeps its count in the dialect that writes it there. -/
theorem args_topClause (count : Fragment α) (h : dialect.leadingTop = true) :
    ((dialect.topClause? count).getD []).args = count.args := by
  simp [topClause?, h]

/-- A limit at the end keeps its count in the dialects that write it there. -/
theorem args_limitClause (count : Fragment α) (h : dialect.leadingTop = false) :
    (dialect.limitClause count).args = count.args := by
  cases dialect <;> simp_all [limitClause, leadingTop]

@[simp]
theorem args_callProcedure (name : String) (parts : List (Fragment α)) :
    (dialect.callProcedure name parts).args = parts.flatMap Fragment.args := by
  cases dialect with
  | sqlserver => cases parts <;> simp [callProcedure]
  | _ => simp [callProcedure]

@[simp]
theorem args_namedArgument (name : String) (value : Fragment α) :
    (dialect.namedArgument name value).args = value.args := by
  cases dialect <;> simp [namedArgument]

@[simp]
theorem args_existsProbe (inner : Fragment α) : (dialect.existsProbe inner).args = inner.args := by
  cases dialect <;> simp [existsProbe]

end Dialect

end Sproc
