import Sproc.Lower.Hoist

/-!
# Expressions

The Go form of a T-SQL expression that is evaluated outside of query text. A hint says which type
the value flows into; it types queries, cases and constants.

## Main definitions

* `lowerExpr`
* `lowerValue`: a value of a given type
* `lowerCondition`: a truth value
-/

namespace Sproc.Lower

mutual

/-- The value of an expression. -/
def lowerExpr : Expr → Option GoType → Lower Value
  | .literal value, _ => return .ofLiteral value
  | .variable name, _ => lowerVariable name
  | .global var, _ => lowerGlobal var
  | .column ref, _ =>
    unsupported s!"column reference {ref.name}" "columns can only appear inside a query"
  | .star, _ => unsupported "*" "outside of a query"
  | .unary op operand, hint => do
    lowerUnary op (← lowerExpr operand hint)
  | .binary op left right, hint => lowerBinary op (lowerExpr left) (lowerExpr right) hint
  | .isNull operand negated, _ => do
    isZero (← lowerExpr operand none) negated
  | .inList operand list negated, _ => do
    let subject ← lowerExpr operand none
    let tests ← lowerMembers (if negated then .notEq else .eq) subject list
    return lowerMember negated tests
  | .between operand low high negated, _ => do
    let subject ← lowerExpr operand none
    let low ← lowerExpr low subject.goType?
    let high ← lowerExpr high subject.goType?
    lowerBetween negated subject low high
  | .function name args, hint => lowerFunction name (lowerArgs args) hint
  | .cast operand type, _ => do
    let info ← ofExcept (TypeName.classify type)
    coerce (← lowerExpr operand (some info.go)) info.go
  | .case branches otherwise, hint => do
    let arms ← lowerBranches hint branches
    let last ← lowerOtherwise hint otherwise
    lowerCase arms last hint
  | .exists query, _ => hoistExists query
  | .subquery query, hint => lowerScalar query hint

/-- The comparisons of a value with the members of a list. -/
def lowerMembers (op : BinaryOp) (subject : Value) : List Expr → Lower (List Value)
  | [] => return []
  | expr :: rest => do
    let test ← compare op subject (← lowerExpr expr subject.goType?)
    return test :: (← lowerMembers op subject rest)

/-- Arguments, which the function that takes them evaluates. -/
def lowerArgs : List Expr → List Arg
  | [] => []
  | expr :: rest => ⟨expr, lowerExpr expr⟩ :: lowerArgs rest

/-- The tests and results of a case. -/
def lowerBranches (hint : Option GoType) : List CaseBranch → Lower (List (Go.Expr × Value))
  | [] => return []
  | ⟨test, result⟩ :: rest => do
    let test ← coerce (← lowerExpr test (some .bool)) .bool
    let result ← lowerExpr result hint
    return (test.code, result) :: (← lowerBranches hint rest)

/-- The alternative of a case. -/
def lowerOtherwise (hint : Option GoType) : Option Expr → Lower (Option Value)
  | none => return none
  | some expr => do
    return some (← lowerExpr expr hint)

/-- The value of a query for a single value. Without a table it is the value of its item. -/
def lowerScalar : Select → Option GoType → Lower Value
  | ⟨top, distinct, items, source, joins, filter, groupBy, orderBy⟩, hint =>
    match lowerOnlyItem? items hint with
    | none => unsupported "scalar subquery" "must select exactly one column"
    | some value =>
      match source with
      | none => value
      | some table =>
        hoistScalar ⟨top, distinct, items, source, joins, filter, groupBy, orderBy⟩ table hint

/-- The value of a select list with exactly one item. -/
def lowerOnlyItem? : List SelectItem → Option GoType → Option (Lower Value)
  | [⟨expr, _, _⟩], hint => some (lowerExpr expr hint)
  | _, _ => none

end

/-- The value of an expression as a value of a given type. -/
def lowerValue (expr : Expr) (target : GoType) : Lower Go.Expr := do
  return (← coerce (← lowerExpr expr (some target)) target).code

/-- The value of a condition. -/
def lowerCondition (expr : Expr) : Lower Go.Expr :=
  lowerValue expr .bool

end Sproc.Lower
