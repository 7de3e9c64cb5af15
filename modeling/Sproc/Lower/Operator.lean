import Sproc.Lower.Coerce

/-!
# Operators

Arithmetic, comparisons and tests for NULL on values. Both operands are brought to a common type: to
an exact decimal when either is one, to the wider of two numeric types otherwise. Constants take the
type of the other operand, and integers are computed at once when both are constant.

## Main definitions

* `arithmetic`, `compare`, `isZero`
* `lowerBinary`: a binary operator on operands that are still to be evaluated
-/

namespace Sproc.Lower

/-- Whether an operation is carried out on exact decimals: an operand is one, or an exact constant
meets something that is no floating-point number. -/
def usesDecimal (l r : Value) : Bool :=
  l.hasType .decimal || r.hasType .decimal ||
    ((l.isDecimalConst || r.isDecimalConst) && !l.isFloat && !r.isFloat)

/-- The method of exact decimals for an arithmetic operator. -/
def decimalMethod : BinaryOp → String
  | .add => "Add"
  | .sub => "Sub"
  | .mul => "Mul"
  | .div => "Div"
  | _ => "Mod"

/-- The type of an arithmetic operation on numbers that are no exact decimals. Two constants take
the type that is hinted at. -/
def arithmeticType (l r : Value) (hint : Option GoType) : GoType :=
  let type :=
    match l.goType?, r.goType? with
    | some a, some b => a.widen b
    | some a, none => a
    | none, some b => b
    | none, none => (hint.filter (·.isNumeric)).getD .int32
  if type.isInteger && (l.isDecimalConst || r.isDecimalConst) then .float64 else type

/-- The remainder of floating-point numbers. -/
def floatRemainder (l r : Value) (type : GoType) : Lower Value := do
  importPath "math"
  let mod (a b : Go.Expr) : Go.Expr := .invoke (.name "math") "Mod" [a, b]
  if type = .float64 then
    return .ofType (mod l.code r.code) type
  else
    let remainder := mod (.convert "float64" l.code) (.convert "float64" r.code)
    return .ofType (.convert "float32" remainder) type

/-- An arithmetic operation on numbers. -/
def numericArithmetic (op : BinaryOp) (l r : Value) (hint : Option GoType) : Lower Value := do
  if usesDecimal l r then
    let l ← coerce l .decimal
    let r ← coerce r .decimal
    return .ofType (l.method (decimalMethod op) [r.code]) .decimal
  else
    let type := arithmeticType l r hint
    let l ← coerce l type
    let r ← coerce r type
    if op = .mod && type.isFloat then
      floatRemainder l r type
    else
      let p := op.precedence
      -- Arithmetic groups to the left, so a right operand of the same strength is wrapped.
      return ⟨.binary op.goSymbol (l.wrapped p) (r.wrapped (p + 1)), .typed type, p⟩

/-- The result of an arithmetic operator on two constant integers. -/
def foldValues? (op : BinaryOp) (l r : Value) : Option Int :=
  match l.kind, r.kind with
  | .intConst a, .intConst b => foldInt? op a b
  | _, _ => none

/-- An arithmetic operation. -/
def arithmetic (op : BinaryOp) (l r : Value) (hint : Option GoType) : Lower Value := do
  match foldValues? op l r with
  | some n => return .ofInt n
  | none =>
    if !l.isNumber || !r.isNumber then
      let construct :=
        if l.hasType .time || r.hasType .time then "date arithmetic" else "arithmetic"
      unsupported construct
        s!"{l.text} {op.sqlSymbol} {r.text} needs numeric operands (use DATEADD for dates)"
    else
      numericArithmetic op l r hint

/-- The test whether a value is NULL, which Go values never are: it is compared with its zero
value. -/
def isZero (subject : Value) (negated : Bool) : Lower Value := do
  warn .approximation s!"IS NULL on {subject.text} compares against the zero value"
  let symbol := if negated then "!=" else "=="
  match subject.kind with
  | .null => return .ofType (.bool !negated) .bool
  | .typed .decimal | .typed .time =>
    let test := subject.method "IsZero" []
    return if negated then .ofBool (.unary .not test) Value.unary else .ofType test .bool
  | .typed .bool => return if negated then subject else subject.negated
  | .typed .bytes =>
    return .ofBool (.binary symbol (.call (.name "len") [subject.code]) (.int 0)) Value.comparison
  | .typed type =>
    return .ofBool (.binary symbol (subject.wrapped 4) (.zero type)) Value.comparison
  | _ => return .ofType (.bool negated) .bool

/-- The truth value of a constant that can be compared with one. -/
def bitConst? (value : Value) : Option Bool :=
  match value.kind with
  | .intConst n => some (n != 0)
  | .boolConst b => some b
  | _ => none

/-- A comparison by an operator of Go. -/
def comparison (op : BinaryOp) (l r : Value) : Value :=
  .ofBool (.binary op.goSymbol (l.wrapped 4) (r.wrapped 4)) Value.comparison

/-- A truth value compared with a constant is itself or its negation. -/
def compareConst (op : BinaryOp) (subject : Value) (value : Bool) : Lower Value := do
  let subject ← coerce subject .bool
  return if value == (op == .eq) then subject else subject.negated

/-- A comparison of truth values. -/
def compareBool (op : BinaryOp) (l r : Value) : Lower Value := do
  if op ≠ .eq && op ≠ .notEq then
    unsupported "comparison" s!"ordering comparison {op.sqlSymbol} on a BIT value"
  else
    match bitConst? l, bitConst? r with
    | none, some value => compareConst op l value
    | some value, none => compareConst op r value
    | _, _ =>
      let l ← coerce l .bool
      let r ← coerce r .bool
      return comparison op l r

/-- A call that yields a truth value, or its negation. -/
def testCall (negated : Bool) (call : Go.Expr) : Value :=
  if negated then .ofBool (.unary .not call) Value.unary else .ofType call .bool

/-- A comparison of points in time. -/
def compareTime (op : BinaryOp) (l r : Value) : Lower Value := do
  let l ← coerce l .time
  let r ← coerce r .time
  let test (negated : Bool) (name : String) : Value := testCall negated (l.method name [r.code])
  match op with
  | .eq => return test false "Equal"
  | .notEq => return test true "Equal"
  | .lt => return test false "Before"
  | .gt => return test false "After"
  | .ltEq => return test true "After"
  | _ => return test true "Before"

/-- A comparison of exact decimals. -/
def compareDecimal (op : BinaryOp) (l r : Value) : Lower Value := do
  let l ← coerce l .decimal
  let r ← coerce r .decimal
  match op with
  | .eq => return testCall false (l.method "Equal" [r.code])
  | .notEq => return testCall true (l.method "Equal" [r.code])
  | _ =>
    return .ofBool (.binary op.goSymbol (l.method "Cmp" [r.code]) (.int 0)) Value.comparison

/-- A comparison with NULL is read as the test for NULL that was meant. -/
def compareNull (op : BinaryOp) (subject : Value) : Lower Value :=
  match op with
  | .eq => isZero subject false
  | .notEq => isZero subject true
  | _ => unsupported "comparison with NULL" s!"{op.sqlSymbol} NULL"

/-- A comparison of numbers that are no exact decimals. -/
def compareNumbers (op : BinaryOp) (l r : Value) : Lower Value := do
  match l.goType?, r.goType? with
  | some a, some b =>
    if a = b then
      return comparison op l r
    else
      let l ← coerce l (a.widen b)
      let r ← coerce r (a.widen b)
      return comparison op l r
  | _, _ => return comparison op l r

/-- A comparison. -/
def compare (op : BinaryOp) (l r : Value) : Lower Value := do
  let either (type : GoType) : Bool := l.goType? == some type || r.goType? == some type
  -- A comparison with NULL is settled before the types are looked at.
  if r.kind == .null then
    compareNull op l
  else if l.kind == .null then
    compareNull op r
  else if either .bool then
    compareBool op l r
  else if either .time then
    compareTime op l r
  else if either .string then
    let l ← coerce l .string
    let r ← coerce r .string
    return comparison op l r
  else if !l.isNumber || !r.isNumber then
    unsupported "comparison" s!"{l.text} {op.sqlSymbol} {r.text}"
  else if usesDecimal l r then
    compareDecimal op l r
  else
    compareNumbers op l r

/-- An expression that is still to be evaluated, given a hint at the type it flows into. -/
abbrev Pending := Option GoType → Lower Value

/-- A conjunction or disjunction. -/
def lowerLogical (op : BinaryOp) (left right : Pending) : Lower Value := do
  let l ← coerce (← left (some .bool)) .bool
  let r ← coerce (← right (some .bool)) .bool
  let p := op.precedence
  return .ofBool (.binary op.goSymbol (l.wrapped p) (r.wrapped p)) p

/-- The match of a string against a pattern. -/
def lowerLike (negated : Bool) (l r : Value) : Lower Value := do
  let l ← coerce l .string
  let r ← coerce r .string
  return testCall negated (← runtimeCall "Like" [l.code, r.code])

/-- A binary operator. The right operand is hinted at the type of the left one. -/
def lowerBinary (op : BinaryOp) (left right : Pending) (hint : Option GoType) : Lower Value := do
  if op.isLogical then
    lowerLogical op left right
  else
    let l ← left none
    let r ← right (l.goType?.or hint)
    if op = .like || op = .notLike then
      lowerLike (op == .notLike) l r
    else if op.isComparison then
      compare op l r
    else if op = .add && (l.isString || r.isString) then
      let l ← coerce l .string
      let r ← coerce r .string
      return ⟨.binary "+" (l.wrapped 4) (r.wrapped 5), .typed .string, 4⟩
    else
      arithmetic op l r hint

/-- A unary operator on its operand. -/
def lowerUnary (op : UnaryOp) (value : Value) : Lower Value := do
  match op with
  | .neg => ofExcept value.negate
  | .not => return (← coerce value .bool).negated

/-- Membership in an interval. -/
def lowerBetween (negated : Bool) (subject low high : Value) : Lower Value := do
  let lower ← compare .gtEq subject low
  let upper ← compare .ltEq subject high
  let both : Go.Expr := .binary "&&" (lower.wrapped 2) (upper.wrapped 2)
  return if negated then .ofBool (.unary .not (.paren both)) Value.unary else .ofBool both 2

/-- Membership in a list, from the comparisons with its members. -/
def lowerMember (negated : Bool) (tests : List Value) : Value :=
  let (symbol, p) := if negated then ("&&", 2) else ("||", 1)
  .ofBool (.chain symbol (tests.map (·.wrapped p)))
    (if tests.length > 1 then p else Value.comparison)

/-- The type of a case: the hint, the first result that has a type, or the type of the first
constant. -/
def caseType? (hint : Option GoType) (results : List Value) : Option GoType :=
  (hint.or (results.findSome? (·.goType?))).or (results.findSome? fun value =>
    match value.kind with
    | .intConst _ => some .int32
    | .decConst _ => some .decimal
    | _ => none)

/-- Converts the results of the arms of a case. -/
def coerceArms (type : GoType) : List (Go.Expr × Value) → Lower (List (Go.Expr × Go.Expr))
  | [] => return []
  | (test, result) :: rest => do
    let result ← coerce result type
    return (test, result.code) :: (← coerceArms type rest)

/-- A searched case from its arms and its alternative. -/
def lowerCase (arms : List (Go.Expr × Value)) (otherwise : Option Value) (hint : Option GoType) :
    Lower Value := do
  match caseType? hint (arms.map (·.2) ++ otherwise.toList) with
  | none => unsupported "CASE" "result type cannot be inferred"
  | some type =>
    let arms ← coerceArms type arms
    let last ←
      match otherwise with
      | some value => do pure (← coerce value type).code
      | none => pure (.zero type)
    return .ofType (.choose type arms last) type

end Sproc.Lower
