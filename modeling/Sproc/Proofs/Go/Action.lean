import Sproc.Proofs.Go.Composed
import Sproc.Proofs.Go.Failure

/-!
# What code asks of the database

Generated code talks to the database by calls: a call with query text goes to the handle of the
database or to that of a transaction, and three methods start and end transactions. This module reads
these calls off the code, all of them and in the order of the text. A deferred function literal that
takes an open transaction back when the function fails is read as a whole.

## Main definitions

* `Go.Action`: a request to the database
* `Go.Expr.actions`, `Go.Stmt.actions`, `Go.listActions`: the requests of code

## Main results

* `Go.Expr.Composed.actions_eq_nil`: the code of values asks nothing of the database
-/

namespace Sproc

namespace Go

/-- A request to the database. -/
inductive Action where
  /-- Query text goes to a handle. -/
  | query (handle : String)
  /-- A method of a handle starts or ends a transaction; its error is asked for at once, or not. -/
  | control (handle method : String) (checked : Bool)
  /-- An open transaction will be taken back if the function fails. -/
  | guard
  deriving DecidableEq, Repr

/-- The methods that start and end transactions. -/
def controlMethods : List String := ["BeginTx", "Commit", "Rollback"]

/-- The request that a call itself makes. Query text follows the context, and in calls of the runtime
helpers the handle as well. -/
def callActions (checked : Bool) : Expr → List Expr → List Action
  | .member owner _, _ :: .query _ :: _ => [.query owner.render]
  | _, _ :: handle :: .query _ :: _ => [.query handle.render]
  | .member owner method, _ =>
    if method ∈ controlMethods then [.control owner.render method checked] else []
  | _, _ => []

mutual

/-- The requests of an expression, whose own error is asked for or not. -/
def Expr.actions (checked : Bool) : Expr → List Action
  | .name _ => []
  | .int _ => []
  | .number _ => []
  | .bool _ => []
  | .nil => []
  | .str _ => []
  | .query _ => []
  | .zero _ => []
  | .member owner _ => owner.actions false
  | .call function args =>
    callActions checked function args ++ (function.actions false ++ exprActions args)
  | .convert _ operand => operand.actions false
  | .unary _ operand => operand.actions false
  | .binary _ left right => left.actions false ++ right.actions false
  | .chain _ operands => exprActions operands
  | .paren operand => operand.actions false
  | .choose _ arms otherwise => choiceActions arms ++ otherwise.actions false
  | .message _ _ fields => fieldActions fields
  | .asError operand => operand.actions false
  | .spread items => exprActions items

/-- The requests of a list of expressions. -/
def exprActions : List Expr → List Action
  | [] => []
  | e :: rest => e.actions false ++ exprActions rest

/-- The requests of the tests and results of a choice. -/
def choiceActions : List (Expr × Expr) → List Action
  | [] => []
  | (test, result) :: rest => test.actions false ++ (result.actions false ++ choiceActions rest)

/-- The requests of the fields of a message. -/
def fieldActions : List (String × Expr) → List Action
  | [] => []
  | (_, value) :: rest => value.actions false ++ fieldActions rest

end

/-- The requests of an assignment. -/
def Assign.actions (checked : Bool) (a : Assign) : List Action :=
  exprActions a.targets ++ a.value.actions checked

/-- The requests of the assignment in front of a test, which may be the question for its error. -/
def initActions (test : Expr) : Option Assign → List Action
  | none => []
  | some a => a.actions (a.targets.any Expr.isError && test.isFailureTest)

/-- The requests of an optional expression. -/
def optionActions : Option Expr → List Action
  | none => []
  | some e => e.actions false

/-- Whether an expression asks for an open transaction. -/
def Expr.isOpenTest : Expr → Bool
  | .binary "!=" (.name "tx") .nil => true
  | _ => false

/-- Whether an expression takes the transaction back. -/
def Expr.isRollback : Expr → Bool
  | .call (.member (.name "tx") "Rollback") [] => true
  | _ => false

/-- Whether statements do nothing but to take an open transaction back where an error is kept, and to
forget the transaction. -/
def isGuard : List Stmt → Bool
  | [.branch (.mk none (.chain "&&" [failed, opened]) [.assign rollback, .assign forget]) [] none] =>
    failed.isFailureTest && opened.isOpenTest && rollback.value.isRollback &&
      (forget.targets ++ [forget.value]).map Expr.render == ["tx", "nil"]
  | _ => false

mutual

/-- The requests of a statement. -/
def Stmt.actions : Stmt → List Action
  | .assign a => a.actions false
  | .declare _ _ init => optionActions init
  | .run call => call.actions false
  | .deferCall call => call.actions false
  | .ret values => exprActions values
  | .panic value => value.actions false
  | .breakLoop => []
  | .continueLoop => []
  | .branch (.mk init test body) others otherwise =>
    initActions test init ++ (test.actions false ++ (listActions body ++
      (armActions others ++ elseActions otherwise)))
  | .loop test body => optionActions test ++ listActions body
  | .closure deferred body => if deferred && isGuard body then [.guard] else listActions body

/-- The requests of a list of statements. -/
def listActions : List Stmt → List Action
  | [] => []
  | s :: rest => s.actions ++ listActions rest

/-- The requests of the arms of a chain. -/
def armActions : List Arm → List Action
  | [] => []
  | .mk init test body :: rest =>
    initActions test init ++ (test.actions false ++ (listActions body ++ armActions rest))

/-- The requests of an alternative. -/
def elseActions : Option (List Stmt) → List Action
  | none => []
  | some body => listActions body

end

/-- The requests of a function. -/
def Func.actions (f : Func) : List Action :=
  listActions f.body

/-! ## Expressions -/

theorem exprActions_eq_nil {es : List Expr} (h : ∀ e ∈ es, e.actions false = []) :
    exprActions es = [] := by
  induction es with
  | nil => rfl
  | cons e rest ih =>
    rw [exprActions, h e List.mem_cons_self, List.nil_append]
    exact ih fun e he => h e (List.mem_cons_of_mem _ he)

theorem choiceActions_eq_nil {arms : List (Expr × Expr)} (htests : ∀ arm ∈ arms, arm.1.actions false = [])
    (hresults : ∀ arm ∈ arms, arm.2.actions false = []) : choiceActions arms = [] := by
  induction arms with
  | nil => rfl
  | cons arm rest ih =>
    rw [choiceActions, htests arm List.mem_cons_self, hresults arm List.mem_cons_self,
      List.nil_append, List.nil_append]
    exact ih (fun arm harm => htests arm (List.mem_cons_of_mem _ harm))
      fun arm harm => hresults arm (List.mem_cons_of_mem _ harm)

/-- A call of a method that has nothing to do with transactions, without query text. -/
theorem actions_invoke {checked : Bool} {owner : Expr} {method : String} {args : List Expr}
    (hmethod : method ∉ controlMethods) (hargs : ∀ sql, Expr.query sql ∉ args) :
    (Expr.invoke owner method args).actions checked = owner.actions false ++ exprActions args := by
  have hcall : callActions checked (.member owner method) args = [] := by
    unfold callActions
    split
    next sql _ _ => exact absurd (by simp) (hargs sql)
    next sql _ _ => exact absurd (by simp) (hargs sql)
    next heq _ _ => exact if_neg (by cases heq; exact hmethod)
    next => rfl
  rw [Expr.invoke, Expr.actions, hcall, Expr.actions, List.nil_append]

/-- What query text is not is no query text. -/
theorem Expr.not_composed_query {stock : Stock} {primary : Bool} {p : Nat} {sql : String} :
    ¬(Expr.query sql).Composed stock primary p := by
  intro h
  generalize heq : Expr.query sql = e at h
  induction h with
  | loosen _ _ ih | operand _ ih => exact ih heq
  | _ => cases heq

/-- The code of values asks nothing of the database. -/
theorem Expr.Composed.actions_eq_nil {stock : Stock} {primary : Bool} {p : Nat} {e : Expr}
    (h : e.Composed stock primary p) : e.actions false = [] := by
  induction h with
  | name _ | int _ | number _ | bool _ | nil | str _ | zero _ _ => rfl
  | packaged hfunction _ hargs ih =>
    have hmethod : ∀ entry ∈ packageFunctions, entry.2 ∉ controlMethods := by decide
    rw [actions_invoke (hmethod _ hfunction) fun sql hsql => not_composed_query (hargs _ hsql),
      exprActions_eq_nil ih]
    rfl
  | method hname _ hargs ihowner ihargs =>
    have hmethod : ∀ name ∈ valueMethods, name ∉ controlMethods := by decide
    rw [actions_invoke (hmethod _ hname) fun sql hsql => not_composed_query (hargs _ hsql), ihowner,
      exprActions_eq_nil ihargs, List.nil_append]
  | len _ ih =>
    simp [Expr.actions, exprActions, callActions, ih]
  | convert _ _ ih | not _ ih | minus _ ih | paren _ ih => simpa [Expr.actions] using ih
  | binary _ _ _ _ ihleft ihright => simp [Expr.actions, ihleft, ihright]
  | chain _ _ _ _ ih | row _ _ ih => simpa [Expr.actions] using exprActions_eq_nil ih
  | alone _ ih => simp [Expr.actions, exprActions, ih]
  | choose _ _ _ _ ihtests ihresults ihotherwise =>
    simp [Expr.actions, choiceActions_eq_nil ihtests ihresults, ihotherwise]
  | loosen _ _ ih | operand _ ih => exact ih

/-! ## Statements -/

@[simp]
theorem listActions_append (front back : List Stmt) :
    listActions (front ++ back) = listActions front ++ listActions back := by
  induction front with
  | nil => rfl
  | cons s rest ih => simp [listActions, ih]

end Go

end Sproc
