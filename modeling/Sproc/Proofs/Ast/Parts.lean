import Sproc.Ast.Statement
import Sproc.Text.Number

/-!
# Parts of expressions and statements

The expressions directly inside an expression, a query or a statement. Walking through an expression
visits the expression and then, part by part, everything inside its parts, so a property of all
nodes is a property of one node and of the nodes of its parts.

## Main definitions

* `Expr.parts`, `Select.parts`, `Statement.parts`: what stands directly inside
* `IntegersFit`: every integer constant fits a signed word of 64 bits

## Main results

* `Expr.walk_eq`, `Select.walk_eq`: the walk through the parts
-/

namespace Sproc

/-- The expressions directly inside a query. -/
def Select.parts (query : Select) : List Expr :=
  query.top.toList ++ (query.items.map (·.expr) ++ (query.joins.map (·.condition) ++
    (query.filter.toList ++ (query.groupBy ++ query.orderBy.map (·.expr)))))

/-- The expressions directly inside an expression. -/
def Expr.parts : Expr → List Expr
  | .unary _ operand => [operand]
  | .binary _ left right => [left, right]
  | .isNull operand _ => [operand]
  | .inList operand list _ => operand :: list
  | .between operand low high _ => [operand, low, high]
  | .function _ args => args
  | .cast operand _ => [operand]
  | .case branches otherwise =>
    branches.flatMap (fun branch => [branch.test, branch.result]) ++ otherwise.toList
  | .exists query => query.parts
  | .subquery query => query.parts
  | _ => []

theorem walkList_eq (list : List Expr) : walkList list = list.flatMap Expr.walk := by
  induction list <;> simp_all [walkList]

theorem walkOption_eq (e : Option Expr) : walkOption e = e.toList.flatMap Expr.walk := by
  cases e <;> simp [walkOption]

theorem walkItems_eq (list : List SelectItem) :
    walkItems list = (list.map (·.expr)).flatMap Expr.walk := by
  induction list with
  | nil => rfl
  | cons item rest ih =>
    obtain ⟨e, aliasName, assignTo⟩ := item
    simp [walkItems, ih]

theorem walkJoins_eq (list : List Join) :
    walkJoins list = (list.map (·.condition)).flatMap Expr.walk := by
  induction list with
  | nil => rfl
  | cons join rest ih =>
    obtain ⟨kind, ref, condition⟩ := join
    simp [walkJoins, ih]

theorem walkOrders_eq (list : List OrderBy) :
    walkOrders list = (list.map (·.expr)).flatMap Expr.walk := by
  induction list with
  | nil => rfl
  | cons order rest ih =>
    obtain ⟨e, descending⟩ := order
    simp [walkOrders, ih]

theorem walkBranches_eq (list : List CaseBranch) :
    walkBranches list =
      (list.flatMap fun branch => [branch.test, branch.result]).flatMap Expr.walk := by
  induction list with
  | nil => rfl
  | cons branch rest ih =>
    obtain ⟨test, result⟩ := branch
    simp [walkBranches, ih]

theorem Select.walk_eq (query : Select) : query.walk = query.parts.flatMap Expr.walk := by
  obtain ⟨top, distinct, items, source, joins, filter, groupBy, orderBy⟩ := query
  simp [Select.walk, Select.parts, walkOption_eq, walkItems_eq, walkJoins_eq, walkList_eq,
    walkOrders_eq]

/-- An expression and everything inside it is the expression and all that is inside its parts. -/
theorem Expr.walk_eq (e : Expr) : e.walk = e :: e.parts.flatMap Expr.walk := by
  cases e <;>
    simp [Expr.walk, Expr.parts, Select.walk_eq, walkList_eq, walkBranches_eq, walkOption_eq]

/-- The expressions directly inside a statement, without those of the statements inside it. -/
def Statement.parts : Statement → List Expr
  | .declare vars => vars.flatMap fun v => v.init.toList
  | .declareCursor _ query => query.parts
  | .set _ value => [value]
  | .ifElse condition _ _ => [condition]
  | .while condition _ => [condition]
  | .ret value => value.toList
  | .print value => [value]
  | .select query => query.parts
  | .insert i => match i.source with
    | .values rows => rows.flatten
    | .query q => q.parts
  | .update u => u.assignments.map (·.value) ++ u.filter.toList
  | .delete d => d.filter.toList
  | .exec e => e.args.map (·.value)
  | .execDynamic text => [text]
  | .fetch f => match f.direction with
    | .absolute offset | .relative offset => [offset]
    | _ => []
  | .raiserror message severity state => [message, severity, state]
  | .throw (some args) => [args.number, args.message, args.state]
  | _ => []

/-- Every integer constant among some expressions fits a signed word of 64 bits. -/
def IntegersFit (exprs : List Expr) : Prop :=
  ∀ n, .literal (.int n) ∈ exprs → fitsInt64 n = true

theorem integersFit_walk {e : Expr} :
    IntegersFit e.walk ↔
      (∀ n, e = .literal (.int n) → fitsInt64 n = true) ∧
        ∀ part ∈ e.parts, IntegersFit part.walk := by
  simp only [IntegersFit, Expr.walk_eq e, List.mem_cons, List.mem_flatMap]
  grind

end Sproc
