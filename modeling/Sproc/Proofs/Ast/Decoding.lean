import Sproc.Ast.Decode
import Sproc.Proofs.Ast.Document

/-!
# Reading documents back

The reader of each kind of value, applied to the document of such a value, gives the value back. For
expressions and statements this is one step: a reader with one level more reads a document back if
it reads back what stands directly inside.

## Main results

* `Decode.expr?_expr_succ`, `Decode.select?_select`: expressions and queries
* `Decode.statement?_statement_succ`: statements
-/

namespace Sproc

namespace Json

variable {α : Type} {read : Json → Option α} {name other : String} {value : Json}
  {fields : List (String × Json)}

@[simp] theorem field?_cons_self : field? name ((name, value) :: fields) = some value := by
  simp [field?]

@[simp] theorem field?_cons_of_ne (h : name ≠ other) :
    field? name ((other, value) :: fields) = field? name fields := by
  have : (name == other) = false := by simpa using h
  simp [field?, List.lookup_cons, this]

@[simp] theorem nullable?_null : nullable? read .null = some none := rfl

theorem nullable?_of_ne (h : value ≠ .null) : nullable? read value = (read value).map some := by
  cases value <;> simp_all [nullable?]

/-- What is nothing or a value is read from null or from the document of the value. -/
theorem nullable?_elim {write : α → Json} {content : Option α} (hnull : ∀ a, write a ≠ .null)
    (h : ∀ a ∈ content, read (write a) = some a) :
    nullable? read (content.elim .null write) = some content := by
  cases content with
  | none => rfl
  | some a => simp [nullable?_of_ne (hnull a), h a rfl]

end Json

namespace Decode

variable {α : Type} {read : Json → Option α}

theorem mapM_map {write : α → Json} {list : List α} (h : ∀ a ∈ list, read (write a) = some a) :
    (list.map write).mapM read = some list := by
  induction list with
  | nil => rfl
  | cons a rest ih =>
    have hrest := ih fun b hb => h b (List.mem_cons_of_mem a hb)
    simp [List.mapM_cons, h a List.mem_cons_self, hrest]

/-- A list whose entries can be read back can be read back. -/
theorem list?_map {write : α → Json} {list : List α} (h : ∀ a ∈ list, read (write a) = some a) :
    list? read (.arr (list.map write)) = some list := by
  simp [list?, Json.arr?, mapM_map h]

end Decode

attribute [local simp] Json.record? Json.required? Json.optional? Json.defaulted? Json.obj?
  Json.str? Json.bool?

/-! ## Expressions -/

namespace Decode

variable {read : Json → Option Expr}

theorem nullable?_text (s : Option String) :
    Json.nullable? Json.str? (Encode.optionalText s) = some s := by
  cases s <;> rfl

theorem table?_table (ref : TableRef) : table? (Encode.table ref) = some ref := by
  simp [table?, Encode.table, nullable?_text]

theorem column?_column (ref : ColumnRef) : column? (Encode.column ref) = some ref := by
  simp [column?, Encode.column, nullable?_text]

theorem branch?_branch {branch : CaseBranch}
    (htest : read (Encode.expr branch.test) = some branch.test)
    (hresult : read (Encode.expr branch.result) = some branch.result) :
    branch? read (Encode.branch branch) = some branch := by
  obtain ⟨test, result⟩ := branch
  simp_all [branch?, Encode.branch]

theorem item?_item {item : SelectItem} (h : read (Encode.expr item.expr) = some item.expr) :
    item? read (Encode.item item) = some item := by
  obtain ⟨e, aliasName, assignTo⟩ := item
  simp_all [item?, Encode.item, nullable?_text]

theorem join?_join {join : Join} (h : read (Encode.expr join.condition) = some join.condition) :
    join? read (Encode.join join) = some join := by
  obtain ⟨kind, ref, condition⟩ := join
  have hkind : choice? joinKindOfId? (Encode.joinKind kind) = some kind := by cases kind <;> rfl
  simp_all [join?, Encode.join, table?_table]

theorem order?_order {order : OrderBy} (h : read (Encode.expr order.expr) = some order.expr) :
    order? read (Encode.order order) = some order := by
  obtain ⟨e, descending⟩ := order
  simp_all [order?, Encode.order]

/-- A query is read back where the expressions directly inside it are. -/
theorem select?_select {query : Select} (h : ∀ e ∈ query.parts, read (Encode.expr e) = some e) :
    select? read (Encode.select query) = some query := by
  obtain ⟨top, distinct, items, source, joins, filter, groupBy, orderBy⟩ := query
  simp only [Select.parts, List.mem_append, List.mem_map, or_imp, forall_and, Option.mem_toList,
    forall_exists_index, and_imp, forall_apply_eq_imp_iff₂] at h
  obtain ⟨htop, hitems, hjoins, hfilter, hgroup, horder⟩ := h
  have htop := Json.nullable?_elim Encode.expr_ne_null htop
  have hitems : list? (item? read) (.arr (items.map Encode.item)) = some items :=
    list?_map fun i hi => item?_item (hitems i hi)
  have hsource : Json.nullable? table? (Encode.optionalTable source) = some source := by
    rw [Encode.optionalTable_eq_elim]
    exact Json.nullable?_elim (by simp [Encode.table]) fun ref _ => table?_table ref
  have hjoins : list? (join? read) (.arr (joins.map Encode.join)) = some joins :=
    list?_map fun j hj => join?_join (hjoins j hj)
  have hfilter := Json.nullable?_elim Encode.expr_ne_null hfilter
  have hgroup : list? read (.arr (groupBy.map Encode.expr)) = some groupBy := list?_map hgroup
  have horder : list? (order? read) (.arr (orderBy.map Encode.order)) = some orderBy :=
    list?_map fun o ho => order?_order (horder o ho)
  simp [select?, Encode.select, Encode.items_eq_map, Encode.joins_eq_map, Encode.orders_eq_map,
    Encode.exprs_eq_map, Encode.optionalExpr_eq_elim, htop, hitems, hsource, hjoins, hfilter,
    hgroup, horder]

theorem literal?_literal {value : Literal} (h : ∀ n, value = .int n → fitsInt64 n = true) :
    literal? (Encode.literal value) = some value := by
  cases value with
  | int n =>
    have hfits := h n rfl
    simp [Encode.literal, literal?, Encode.tagged, tagged?, Json.int64?, hfits]
  | _ => rfl

/-- An expression is read back where the expressions directly inside it are. -/
theorem expr?_expr_succ {e : Expr} {depth : Nat}
    (hliteral : ∀ n, e = .literal (.int n) → fitsInt64 n = true)
    (hparts : ∀ part ∈ e.parts, expr? depth (Encode.expr part) = some part) :
    expr? (depth + 1) (Encode.expr e) = some e := by
  -- In each case the tag selects the reader of the alternative, which `show` names.
  cases e with
  | literal value =>
    have hvalue := literal?_literal fun n (hn : value = .int n) => hliteral n (by rw [hn])
    show (do return Expr.literal (← literal? (Encode.literal value))) = _
    simp [hvalue]
  | «variable» _ | star => rfl
  | global var =>
    have hvar : choice? GlobalVar.ofId? (.str var.id) = some var := by cases var <;> rfl
    show (do return Expr.global (← choice? GlobalVar.ofId? (.str var.id))) = _
    simp [hvar]
  | column ref =>
    show (do return Expr.column (← column? (Encode.column ref))) = _
    simp [column?_column]
  | unary op operand =>
    have hop : choice? UnaryOp.ofId? (.str op.id) = some op := by cases op <;> rfl
    show (do
      let fields ← some [("op", Json.str op.id), ("expr", Encode.expr operand)]
      return Expr.unary (← Json.required? "op" (choice? UnaryOp.ofId?) fields)
        (← Json.required? "expr" (expr? depth) fields)) = _
    simp_all [Expr.parts]
  | binary op left right =>
    have hop : choice? BinaryOp.ofId? (.str op.id) = some op := by cases op <;> decide
    show (do
      let fields ← some [("op", Json.str op.id), ("left", Encode.expr left),
        ("right", Encode.expr right)]
      return Expr.binary (← Json.required? "op" (choice? BinaryOp.ofId?) fields)
        (← Json.required? "left" (expr? depth) fields)
        (← Json.required? "right" (expr? depth) fields)) = _
    simp_all [Expr.parts]
  | isNull operand negated =>
    show (do
      let fields ← some [("expr", Encode.expr operand), ("negated", Json.bool negated)]
      return Expr.isNull (← Json.required? "expr" (expr? depth) fields)
        (← Json.defaulted? "negated" false Json.bool? fields)) = _
    simp_all [Expr.parts]
  | inList operand list negated =>
    have hlist : list? (expr? depth) (.arr (Encode.exprs list)) = some list := by
      rw [Encode.exprs_eq_map]
      exact list?_map fun part hpart => hparts part (List.mem_cons_of_mem operand hpart)
    show (do
      let fields ← some [("expr", Encode.expr operand), ("list", Json.arr (Encode.exprs list)),
        ("negated", Json.bool negated)]
      return Expr.inList (← Json.required? "expr" (expr? depth) fields)
        (← Json.required? "list" (list? (expr? depth)) fields)
        (← Json.defaulted? "negated" false Json.bool? fields)) = _
    simp_all [Expr.parts]
  | between operand low high negated =>
    show (do
      let fields ← some [("expr", Encode.expr operand), ("low", Encode.expr low),
        ("high", Encode.expr high), ("negated", Json.bool negated)]
      return Expr.between (← Json.required? "expr" (expr? depth) fields)
        (← Json.required? "low" (expr? depth) fields) (← Json.required? "high" (expr? depth) fields)
        (← Json.defaulted? "negated" false Json.bool? fields)) = _
    simp_all [Expr.parts]
  | function name args =>
    have hargs : list? (expr? depth) (.arr (Encode.exprs args)) = some args := by
      rw [Encode.exprs_eq_map]
      exact list?_map hparts
    show (do
      let fields ← some [("name", Json.str name), ("args", Json.arr (Encode.exprs args))]
      return Expr.function (← Json.required? "name" Json.str? fields)
        (← Json.defaulted? "args" [] (list? (expr? depth)) fields)) = _
    simp [hargs]
  | cast operand type =>
    show (do
      let fields ← some [("expr", Encode.expr operand), ("data_type", Json.str type)]
      return Expr.cast (← Json.required? "expr" (expr? depth) fields)
        (← Json.required? "data_type" Json.str? fields)) = _
    simp_all [Expr.parts]
  | case branches otherwise =>
    simp only [Expr.parts, List.mem_append, List.mem_flatMap, or_imp, forall_and, Option.mem_toList,
      forall_exists_index, and_imp] at hparts
    have hbranches :
        list? (branch? (expr? depth)) (.arr (Encode.branches branches)) = some branches := by
      rw [Encode.branches_eq_map]
      exact list?_map fun b hb =>
        branch?_branch (hparts.1 _ b hb (by simp)) (hparts.1 _ b hb (by simp))
    have hotherwise : Json.nullable? (expr? depth) (Encode.optionalExpr otherwise) =
        some otherwise := by
      rw [Encode.optionalExpr_eq_elim]
      exact Json.nullable?_elim Encode.expr_ne_null hparts.2
    show (do
      let fields ← some [("branches", Json.arr (Encode.branches branches)),
        ("else_value", Encode.optionalExpr otherwise)]
      return Expr.case (← Json.required? "branches" (list? (branch? (expr? depth))) fields)
        (← Json.optional? "else_value" (expr? depth) fields)) = _
    simp [hbranches, hotherwise]
  | «exists» query =>
    show (do return Expr.exists (← select? (expr? depth) (Encode.select query))) = _
    simp [select?_select hparts]
  | subquery query =>
    show (do return Expr.subquery (← select? (expr? depth) (Encode.select query))) = _
    simp [select?_select hparts]

end Decode

/-! ## Statements -/

namespace Decode

theorem list?_texts (list : List String) : list? Json.str? (Encode.texts list) = some list :=
  list?_map fun _ _ => rfl

/-- The document of an expression is read as the expression. -/
abbrev Readable (e : Expr) : Prop :=
  Expr.ofJson? (Encode.expr e) = some e

theorem nullable?_optionalExpr {e : Option Expr} (h : ∀ a ∈ e, Readable a) :
    Json.nullable? Expr.ofJson? (Encode.optionalExpr e) = some e := by
  rw [Encode.optionalExpr_eq_elim]
  exact Json.nullable?_elim Encode.expr_ne_null h

theorem varDecl?_varDecl {v : VarDecl} (h : ∀ e ∈ v.init, Readable e) :
    varDecl? (Encode.varDecl v) = some v := by
  simp [varDecl?, Encode.varDecl, nullable?_optionalExpr h]

theorem insertSource?_values {rows : List (List Expr)} (h : ∀ row ∈ rows, ∀ e ∈ row, Readable e) :
    insertSource? (Encode.insertSource (.values rows)) = some (.values rows) := by
  have hrows : list? (list? Expr.ofJson?)
      (.arr (rows.map fun row => .arr (Encode.exprs row))) = some rows :=
    list?_map fun row hrow => by
      rw [Encode.exprs_eq_map]
      exact list?_map (h row hrow)
  simp [insertSource?, Encode.insertSource, Encode.tagged, tagged?, hrows]

theorem insertSource?_query {query : Select} (h : ∀ e ∈ query.parts, Readable e) :
    insertSource? (Encode.insertSource (.query query)) = some (.query query) := by
  simp [insertSource?, Encode.insertSource, Encode.tagged, tagged?, Select.ofJson?,
    select?_select h]

theorem insert?_insert {i : Insert} (h : ∀ e ∈ (Statement.insert i).parts, Readable e) :
    insert? (Encode.insert i) = some i := by
  obtain ⟨ref, columns, source⟩ := i
  have hsource : insertSource? (Encode.insertSource source) = some source := by
    cases source with
    | values rows =>
      refine insertSource?_values fun row hrow e he => h e ?_
      exact List.mem_flatten_of_mem hrow he
    | query query => exact insertSource?_query h
  simp [insert?, Encode.insert, table?_table, list?_texts, hsource]

theorem update?_update {u : Update} (h : ∀ e ∈ (Statement.update u).parts, Readable e) :
    update? (Encode.update u) = some u := by
  simp only [Statement.parts, List.mem_append, List.mem_map, Option.mem_toList, or_imp, forall_and,
    forall_exists_index, and_imp, forall_apply_eq_imp_iff₂] at h
  obtain ⟨hvalues, hfilter⟩ := h
  have hassignments :
      list? assignment? (.arr (u.assignments.map Encode.assignment)) = some u.assignments :=
    list?_map fun a ha => by simp [assignment?, Encode.assignment, hvalues a ha]
  simp [update?, Encode.update, table?_table, hassignments, nullable?_optionalExpr hfilter]

theorem delete?_delete {d : Delete} (h : ∀ e ∈ (Statement.delete d).parts, Readable e) :
    delete? (Encode.delete d) = some d := by
  have hfilter := nullable?_optionalExpr fun e he => h e (Option.mem_toList.mpr he)
  simp [delete?, Encode.delete, table?_table, hfilter]

theorem exec?_exec {e : Exec} (h : ∀ value ∈ (Statement.exec e).parts, Readable value) :
    exec? (Encode.exec e) = some e := by
  have hargs : list? execArg? (.arr (e.args.map Encode.execArg)) = some e.args :=
    list?_map fun a ha => by
      have hvalue := h a.value (List.mem_map_of_mem ha)
      simp [execArg?, Encode.execArg, nullable?_text, hvalue]
  simp [exec?, Encode.exec, nullable?_text, hargs]

theorem fetch?_fetch {f : Fetch} (h : ∀ e ∈ (Statement.fetch f).parts, Readable e) :
    fetch? (Encode.fetch f) = some f := by
  have hdirection : fetchDirection? (Encode.fetchDirection f.direction) = some f.direction := by
    cases hf : f.direction with
    | absolute e | relative e =>
      have hread : Expr.ofJson? (Encode.expr e) = some e := h e (by simp [Statement.parts, hf])
      simp [fetchDirection?, Encode.fetchDirection, Encode.tagged, tagged?, hread]
    | _ => rfl
  simp [fetch?, Encode.fetch, list?_texts, hdirection]

theorem throwArgs?_throwArgs {args : Option ThrowArgs}
    (h : ∀ e ∈ (Statement.throw args).parts, Readable e) :
    Json.nullable? throwArgs? (Encode.throwArgs args) = some args := by
  cases args with
  | none => rfl
  | some args => simp_all [Statement.parts, Json.nullable?_of_ne, throwArgs?, Encode.throwArgs]

theorem statements?_statements {depth : Nat} {body : List Statement}
    (h : ∀ s ∈ body, statement? depth (Encode.statement s) = some s) :
    list? (statement? depth) (.arr (Encode.statements body)) = some body := by
  rw [Encode.statements_eq_map]
  exact list?_map h

/-- A statement is read back where the expressions directly inside it and the statements of its
branches and bodies are. -/
theorem statement?_statement_succ {s : Statement} {depth : Nat}
    (hparts : ∀ e ∈ s.parts, Readable e)
    (hchildren : ∀ body ∈ s.children, ∀ t ∈ body, statement? depth (Encode.statement t) = some t) :
    statement? (depth + 1) (Encode.statement s) = some s := by
  -- In each case the tag selects the reader of the alternative, which `show` names.
  cases s with
  | declare vars =>
    have hvars : list? varDecl? (.arr (vars.map Encode.varDecl)) = some vars :=
      list?_map fun v hv => varDecl?_varDecl fun e he => hparts e (by
        simpa [Statement.parts] using ⟨v, hv, he⟩)
    show (do return Statement.declare (← list? varDecl? (.arr (vars.map Encode.varDecl)))) = _
    simp [hvars]
  | declareCursor name query =>
    have hquery : Select.ofJson? (Encode.select query) = some query := select?_select hparts
    show (do
      let fields ← some [("name", Json.str name), ("query", Encode.select query)]
      return Statement.declareCursor (← Json.required? "name" Json.str? fields)
        (← Json.required? "query" Select.ofJson? fields)) = _
    simp [hquery]
  | set target value =>
    have hvalue : Readable value := hparts value (by simp [Statement.parts])
    show (do
      let fields ← some [("variable", Json.str target), ("value", Encode.expr value)]
      return Statement.set (← Json.required? "variable" Json.str? fields)
        (← Json.required? "value" Expr.ofJson? fields)) = _
    simp_all
  | ifElse condition thenBranch elseBranch =>
    simp only [Statement.children, List.forall_mem_cons, Option.mem_toList] at hchildren
    have hcondition : Readable condition := hparts condition (by simp [Statement.parts])
    have hthen := statements?_statements hchildren.1
    have helse : Json.nullable? (list? (statement? depth)) (Encode.optionalStatements elseBranch) =
        some elseBranch := by
      rw [Encode.optionalStatements_eq_elim]
      exact Json.nullable?_elim (by simp) fun body hbody => list?_map (hchildren.2 body hbody)
    show (do
      let fields ← some [("condition", Encode.expr condition),
        ("then_branch", .arr (Encode.statements thenBranch)),
        ("else_branch", Encode.optionalStatements elseBranch)]
      return Statement.ifElse (← Json.required? "condition" Expr.ofJson? fields)
        (← Json.required? "then_branch" (list? (statement? depth)) fields)
        (← Json.optional? "else_branch" (list? (statement? depth)) fields)) = _
    simp_all
  | «while» condition body =>
    have hcondition : Readable condition := hparts condition (by simp [Statement.parts])
    have hbody := statements?_statements (hchildren body (by simp [Statement.children]))
    show (do
      let fields ← some [("condition", Encode.expr condition),
        ("body", .arr (Encode.statements body))]
      return Statement.while (← Json.required? "condition" Expr.ofJson? fields)
        (← Json.required? "body" (list? (statement? depth)) fields)) = _
    simp_all
  | block body =>
    have hbody := statements?_statements (hchildren body (by simp [Statement.children]))
    show (do
      return Statement.block (← list? (statement? depth) (.arr (Encode.statements body)))) = _
    simp [hbody]
  | ret value =>
    have hvalue := nullable?_optionalExpr fun e he => hparts e (Option.mem_toList.mpr he)
    show (do return Statement.ret (← Json.nullable? Expr.ofJson? (Encode.optionalExpr value))) = _
    simp [hvalue]
  | print value =>
    have hvalue : Readable value := hparts value (by simp [Statement.parts])
    show (do return Statement.print (← Expr.ofJson? (Encode.expr value))) = _
    simp_all
  | breakLoop | continueLoop => rfl
  | select query =>
    have hquery : Select.ofJson? (Encode.select query) = some query := select?_select hparts
    show (do return Statement.select (← Select.ofJson? (Encode.select query))) = _
    simp [hquery]
  | insert i =>
    show (do return Statement.insert (← insert? (Encode.insert i))) = _
    simp [insert?_insert hparts]
  | update u =>
    show (do return Statement.update (← update? (Encode.update u))) = _
    simp [update?_update hparts]
  | delete d =>
    show (do return Statement.delete (← delete? (Encode.delete d))) = _
    simp [delete?_delete hparts]
  | exec e =>
    show (do return Statement.exec (← exec? (Encode.exec e))) = _
    simp [exec?_exec hparts]
  | execDynamic text =>
    have htext : Readable text := hparts text (by simp [Statement.parts])
    show (do return Statement.execDynamic (← Expr.ofJson? (Encode.expr text))) = _
    simp_all
  | openCursor _ | closeCursor _ | deallocate _ | savepoint _ => rfl
  | fetch f =>
    show (do return Statement.fetch (← fetch? (Encode.fetch f))) = _
    simp [fetch?_fetch hparts]
  | beginTransaction name =>
    show (do
      return Statement.beginTransaction
        (← Json.nullable? Json.str? (Encode.optionalText name))) = _
    simp [nullable?_text]
  | commit name =>
    show (do return Statement.commit (← Json.nullable? Json.str? (Encode.optionalText name))) = _
    simp [nullable?_text]
  | rollback name =>
    show (do return Statement.rollback (← Json.nullable? Json.str? (Encode.optionalText name))) = _
    simp [nullable?_text]
  | tryCatch tryBody catchBody =>
    have htry := statements?_statements (hchildren tryBody (by simp [Statement.children]))
    have hcatch := statements?_statements (hchildren catchBody (by simp [Statement.children]))
    show (do
      let fields ← some [("try_body", Json.arr (Encode.statements tryBody)),
        ("catch_body", Json.arr (Encode.statements catchBody))]
      return Statement.tryCatch (← Json.required? "try_body" (list? (statement? depth)) fields)
        (← Json.required? "catch_body" (list? (statement? depth)) fields)) = _
    simp_all
  | raiserror message severity state =>
    obtain ⟨hmessage, hseverity, hstate⟩ :
        Readable message ∧ Readable severity ∧ Readable state := by
      simpa [Statement.parts] using hparts
    show (do
      let fields ← some [("message", Encode.expr message), ("severity", Encode.expr severity),
        ("state", Encode.expr state)]
      return Statement.raiserror (← Json.required? "message" Expr.ofJson? fields)
        (← Json.required? "severity" Expr.ofJson? fields)
        (← Json.required? "state" Expr.ofJson? fields)) = _
    simp_all
  | throw args =>
    show (do return Statement.throw (← Json.nullable? throwArgs? (Encode.throwArgs args))) = _
    simp [throwArgs?_throwArgs hparts]

end Decode

end Sproc
