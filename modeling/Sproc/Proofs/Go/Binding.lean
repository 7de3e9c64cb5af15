import Sproc.Proofs.Go.Failure
import Sproc.Proofs.Go.Unused

/-!
# Variables for what calls yield

A call whose error is kept may yield something besides, which is kept in a variable of its own: the
result of a statement, the rows of a query, or the response of a method. The first assignment in a
scope introduces the variable, or a declaration in front of it does, and later ones assign it again.
Here the assignments that do so are read off the code, with the definition that each of them sees.
The types are those that Go gives: a declaration names one, and a call has the type of what it
yields.

## Main definitions

* `Go.Expr.yields`: the type of what a call yields besides its error
* `Go.Assign.local?`: the variable that keeps what a call yields
* `Go.Stmt.locals`, `Go.Locals.behind`: the variables that can be seen behind some code
* `Go.Rebinding`, `Go.listRebindings`: the assignments to variables that have been introduced
* `Go.Settled`: every such variable can be seen

## Main results

* `Go.listRebindings_append`: the assignments of statements one after the other
-/

namespace Sproc.Go

/-- Whether a variable iterates over rows, which shows in the ending of its name. -/
def isIterator (name : String) : Bool :=
  ["Rows", "RowsGen"].any fun ending => ending.toList.isSuffixOf name.toList

/-- The type of what a call yields besides its error. A method that takes a message yields rows where
its result is iterated, and else the response that is named after it. Other calls may yield
anything. -/
def Expr.yields (iterated : Bool) : Expr → TypeExpr
  | .call (.member _ method) [_, .message package _ _] =>
    .pointer (.named package (if iterated then "Rows" else method ++ "Response"))
  | .call (.member _ method) _ =>
    if method = "ExecContext" then .named "sql" "Result"
    else if method = "QueryContext" then .pointer (.named "sql" "Rows")
    else .builtin "any"
  | _ => .builtin "any"

/-- The targets that no assignment introduces for what a call yields: the blank, and the error. -/
def fixedTargets : List String := ["_", "err"]

/-- The variable that keeps what a call yields besides its error. -/
def Assign.local? (a : Assign) : Option String :=
  match a.targets with
  | [.name name, error] => if error.isError && !fixedTargets.contains name then some name else none
  | _ => none

/-- The type that a variable needs for what it is assigned. -/
def Assign.typeFor (a : Assign) (name : String) : TypeExpr :=
  a.value.yields (isIterator name)

/-- The variables that can be seen, innermost first, with their types. -/
abbrev Locals := List (String × TypeExpr)

/-- The variable that an assignment introduces for what a call yields. -/
def Assign.locals (a : Assign) : Locals :=
  if a.define then a.local?.toList.map fun name => (name, a.typeFor name) else []

/-- The variables that a statement introduces into its block by a declaration, or for what a call
yields. -/
def Stmt.locals : Stmt → Locals
  | .assign a => a.locals
  | .declare name type _ => [(name, type)]
  | _ => []

/-- The variables that can be seen behind some code. -/
def Locals.behind (scope : Locals) (code : List Stmt) : Locals :=
  code.foldl (fun scope s => s.locals ++ scope) scope

/-- What a variable is that has been introduced and is assigned again. -/
structure Rebinding where
  name : String
  /-- The type of the definition that can be seen, if one can. -/
  visible : Option TypeExpr
  /-- The type of what is assigned. -/
  type : TypeExpr
  deriving DecidableEq, Repr

/-- An assignment to a variable that has been introduced. -/
def Assign.rebinding? (scope : Locals) (a : Assign) : Option Rebinding :=
  if a.define then none
  else a.local?.map fun name => ⟨name, scope.lookup name, a.typeFor name⟩

mutual

/-- The assignments of a statement to variables that have been introduced, where some variables can be
seen in front of it. -/
def Stmt.rebindings (scope : Locals) : Stmt → List Rebinding
  | .assign a => (a.rebinding? scope).toList
  | .branch (.mk _ _ body) others otherwise =>
    listRebindings scope body ++ (armRebindings scope others ++ elseRebindings scope otherwise)
  | .loop _ body => listRebindings scope body
  | .closure _ body => listRebindings scope body
  | _ => []

/-- The same for a list of statements. -/
def listRebindings (scope : Locals) : List Stmt → List Rebinding
  | [] => []
  | s :: rest => s.rebindings scope ++ listRebindings (s.locals ++ scope) rest

/-- The same for the arms of a chain. -/
def armRebindings (scope : Locals) : List Arm → List Rebinding
  | [] => []
  | .mk _ _ body :: rest => listRebindings scope body ++ armRebindings scope rest

/-- The same for an alternative. -/
def elseRebindings (scope : Locals) : Option (List Stmt) → List Rebinding
  | none => []
  | some body => listRebindings scope body

end

/-- The assignments of a function to variables that have been introduced. -/
def Func.rebindings (f : Func) : List Rebinding :=
  listRebindings [] f.body

/-- Every variable that is assigned again can be seen there. -/
def Settled (scope : Locals) (code : List Stmt) : Prop :=
  ∀ rebinding ∈ listRebindings scope code, rebinding.visible.isSome

namespace Locals

variable {scope : Locals}

@[simp]
theorem behind_nil (scope : Locals) : scope.behind [] = scope := rfl

@[simp]
theorem behind_cons (scope : Locals) (s : Stmt) (rest : List Stmt) :
    scope.behind (s :: rest) = (s.locals ++ scope).behind rest := rfl

@[simp]
theorem behind_append (scope : Locals) (front back : List Stmt) :
    scope.behind (front ++ back) = (scope.behind front).behind back :=
  List.foldl_append

/-- What could be seen in front of some code can be seen behind it, if perhaps in another
definition. -/
theorem isSome_lookup_behind {name : String} (h : (scope.lookup name).isSome) (code : List Stmt) :
    ((scope.behind code).lookup name).isSome := by
  induction code generalizing scope with
  | nil => exact h
  | cons s rest ih =>
    refine ih ?_
    rw [List.lookup_append, Option.isSome_or, h, Bool.or_true]

end Locals

@[simp]
theorem listRebindings_append (scope : Locals) (front back : List Stmt) :
    listRebindings scope (front ++ back) =
      listRebindings scope front ++ listRebindings (scope.behind front) back := by
  induction front generalizing scope with
  | nil => rfl
  | cons s rest ih => simp [listRebindings, ih]

theorem settled_nil (scope : Locals) : Settled scope [] :=
  List.forall_mem_nil _

theorem settled_append {scope : Locals} {front back : List Stmt} :
    Settled scope (front ++ back) ↔ Settled scope front ∧ Settled (scope.behind front) back := by
  simp only [Settled, listRebindings_append, List.forall_mem_append]

theorem settled_singleton {scope : Locals} {s : Stmt} :
    Settled scope [s] ↔ ∀ rebinding ∈ s.rebindings scope, rebinding.visible.isSome := by
  simp [Settled, listRebindings]

theorem settled_of_rebindings_eq_nil {scope : Locals} {s : Stmt} (h : s.rebindings scope = []) :
    Settled scope [s] :=
  settled_singleton.mpr (h ▸ List.forall_mem_nil _)

theorem Assign.local?_eq_some_iff {a : Assign} {name : String} :
    a.local? = some name ↔
      ∃ error, a.targets = [.name name, error] ∧ error.isError = true ∧ name ∉ fixedTargets := by
  unfold local?
  split
  next other error htargets =>
    rw [htargets]
    grind
  next hother =>
    simp only [reduceCtorEq, false_iff]
    rintro ⟨error, htargets, -⟩
    exact hother _ _ htargets

end Sproc.Go
