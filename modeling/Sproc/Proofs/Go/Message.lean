import Sproc.Go.Stmt

/-!
# The messages of code

A request to a service or to the store is a message that a call takes along. This module reads the
messages off the code, in the order of the text, each as the list of its fields.

## Main definitions

* `Go.Expr.messages`, `Go.Stmt.messages`, `Go.listMessages`: the messages of code

## Main results

* `Go.listMessages_append`: the messages of statements one after the other
-/

namespace Sproc.Go

/-- The fields of a message with their values. -/
abbrev MessageFields := List (String × Expr)

mutual

/-- The messages of an expression. What stands in the fields of a message belongs to it. -/
def Expr.messages : Expr → List MessageFields
  | .name _ => []
  | .int _ => []
  | .number _ => []
  | .bool _ => []
  | .nil => []
  | .str _ => []
  | .query _ => []
  | .zero _ => []
  | .member owner _ => owner.messages
  | .call function args => function.messages ++ exprMessages args
  | .convert _ operand => operand.messages
  | .unary _ operand => operand.messages
  | .binary _ left right => left.messages ++ right.messages
  | .chain _ operands => exprMessages operands
  | .paren operand => operand.messages
  | .choose _ arms otherwise => choiceMessages arms ++ otherwise.messages
  | .message _ _ fields => [fields]
  | .asError operand => operand.messages
  | .spread items => exprMessages items

/-- The messages of a list of expressions. -/
def exprMessages : List Expr → List MessageFields
  | [] => []
  | e :: rest => e.messages ++ exprMessages rest

/-- The messages of the tests and results of a choice. -/
def choiceMessages : List (Expr × Expr) → List MessageFields
  | [] => []
  | (test, result) :: rest => test.messages ++ (result.messages ++ choiceMessages rest)

end

/-- The messages of an assignment. -/
def Assign.messages (a : Assign) : List MessageFields :=
  exprMessages a.targets ++ a.value.messages

/-- The messages of an optional assignment. -/
def initMessages : Option Assign → List MessageFields
  | none => []
  | some a => a.messages

/-- The messages of an optional expression. -/
def optionMessages : Option Expr → List MessageFields
  | none => []
  | some e => e.messages

mutual

/-- The messages of a statement. -/
def Stmt.messages : Stmt → List MessageFields
  | .assign a => a.messages
  | .declare _ _ init => optionMessages init
  | .run call => call.messages
  | .deferCall call => call.messages
  | .ret values => exprMessages values
  | .panic value => value.messages
  | .breakLoop => []
  | .continueLoop => []
  | .branch (.mk init test body) others otherwise =>
    initMessages init ++ (test.messages ++ (listMessages body ++
      (armMessages others ++ elseMessages otherwise)))
  | .loop test body => optionMessages test ++ listMessages body
  | .closure _ body => listMessages body

/-- The messages of a list of statements. -/
def listMessages : List Stmt → List MessageFields
  | [] => []
  | s :: rest => s.messages ++ listMessages rest

/-- The messages of the arms of a chain. -/
def armMessages : List Arm → List MessageFields
  | [] => []
  | .mk init test body :: rest =>
    initMessages init ++ (test.messages ++ (listMessages body ++ armMessages rest))

/-- The messages of an alternative. -/
def elseMessages : Option (List Stmt) → List MessageFields
  | none => []
  | some body => listMessages body

end

attribute [simp] Expr.messages exprMessages choiceMessages Assign.messages initMessages
  optionMessages Stmt.messages listMessages armMessages elseMessages

theorem exprMessages_eq_nil {es : List Expr} (h : ∀ e ∈ es, e.messages = []) :
    exprMessages es = [] := by
  induction es with
  | nil => rfl
  | cons e rest ih =>
    rw [exprMessages, h e List.mem_cons_self, List.nil_append]
    exact ih fun e he => h e (List.mem_cons_of_mem _ he)

@[simp]
theorem listMessages_append (front back : List Stmt) :
    listMessages (front ++ back) = listMessages front ++ listMessages back := by
  induction front with
  | nil => rfl
  | cons s rest ih => simp [ih]

end Sproc.Go
