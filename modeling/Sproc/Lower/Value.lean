import Sproc.Ast.Expr
import Sproc.Error
import Sproc.Go.Expr
import Sproc.Text.Number

/-!
# Values

A Go expression together with what is known about its type and how tightly it binds. Constants have
no type until the context gives them one.

## Main definitions

* `ValueKind`, `Value`
* `Value.wrapped`: a value as an operand
* `Value.ofLiteral`, `Value.negate`
* `foldInt?`: arithmetic on constants
-/

namespace Sproc

/-- What is known about the type of a value. -/
inductive ValueKind where
  | typed (type : GoType)
  | intConst (value : Int)
  /-- An exact number by its spelling. -/
  | decConst (spelling : String)
  | strConst (value : String)
  | boolConst (value : Bool)
  | null
  deriving DecidableEq, Repr

/-- A Go expression with its kind and its binding strength. -/
structure Value where
  code : Go.Expr
  kind : ValueKind
  strength : Nat

namespace Value

/-- The strength of names, calls and constants. -/
def atomic : Nat := 10

/-- The strength of operators in front of their operand. -/
def unary : Nat := 8

/-- The strength of comparisons. -/
def comparison : Nat := 3

/-- A value that needs no parentheses anywhere. -/
def atom (code : Go.Expr) (kind : ValueKind) : Value :=
  ⟨code, kind, atomic⟩

/-- A value of a known type that needs no parentheses anywhere. -/
def ofType (code : Go.Expr) (type : GoType) : Value :=
  ⟨code, .typed type, atomic⟩

/-- A truth value. -/
def ofBool (code : Go.Expr) (strength : Nat) : Value :=
  ⟨code, .typed .bool, strength⟩

/-- A constant integer. -/
def ofInt (n : Int) : Value :=
  ⟨.int n, .intConst n, if n < 0 then unary else atomic⟩

/-- A constant exact number. -/
def ofDecimal (spelling : String) : Value :=
  ⟨.number spelling, .decConst spelling, if Text.beginsWith "-" spelling then unary else atomic⟩

/-- A constant. -/
def ofLiteral : Literal → Value
  | .int n => ofInt n
  | .decimal spelling => ofDecimal spelling
  | .string s => atom (.str s) (.strConst s)
  | .bool b => atom (.bool b) (.boolConst b)
  | .null => atom .nil .null

/-- The type of a value, where strings and truth values are typed even as constants. -/
def goType? (value : Value) : Option GoType :=
  match value.kind with
  | .typed type => some type
  | .strConst _ => some .string
  | .boolConst _ => some .bool
  | _ => none

/-- The code, in parentheses when it binds looser than `least`. -/
def wrapped (value : Value) (least : Nat) : Go.Expr :=
  if value.strength < least then .paren value.code else value.code

/-- The text of the code. -/
def text (value : Value) : String :=
  value.code.render

/-- Whether a value has the given type. -/
def hasType (value : Value) (type : GoType) : Bool :=
  value.kind == .typed type

/-- Whether a value is a floating-point number. -/
def isFloat (value : Value) : Bool :=
  match value.kind with
  | .typed type => type.isFloat
  | _ => false

/-- Whether a value is a string. -/
def isString (value : Value) : Bool :=
  match value.kind with
  | .strConst _ => true
  | .typed .string => true
  | _ => false

/-- Whether a value is a number. -/
def isNumber (value : Value) : Bool :=
  match value.kind with
  | .intConst _ => true
  | .decConst _ => true
  | .typed type => type.isNumeric || type == .decimal
  | _ => false

/-- Whether a value is a constant exact number. -/
def isDecimalConst (value : Value) : Bool :=
  match value.kind with
  | .decConst _ => true
  | _ => false

/-- A method call on a value. -/
def method (value : Value) (name : String) (args : List Go.Expr) : Go.Expr :=
  .invoke (value.wrapped atomic) name args

/-- The negation of a truth value. -/
def negated (value : Value) : Value :=
  ofBool (.unary .not (value.wrapped unary)) unary

/-- The negation of a number. The negation of a constant is a constant again and must fit a word of
64 bits. -/
def negate (value : Value) : Except Fault Value :=
  match value.kind with
  | .intConst n => if fitsInt64 (-n) then .ok (ofInt (-n)) else .error (.overflow n)
  | .decConst spelling => .ok (ofDecimal ((Text.stripStart? "-" spelling).getD ("-" ++ spelling)))
  | .typed .decimal => .ok (ofType (value.method "Neg" []) .decimal)
  | .typed type =>
    if type.isNumeric then .ok ⟨.unary .neg (value.wrapped unary), .typed type, unary⟩
    else .error (.unsupported "negation" s!"operand {value.text} is not numeric")
  | _ => .error (.unsupported "negation" s!"operand {value.text} is not numeric")

end Value

/-- The exact result of an arithmetic operator on constants, if there is one and it and the quotient
fit a word of 64 bits. Division goes towards zero. -/
def foldInt? (op : BinaryOp) (a b : Int) : Option Int :=
  let checked (n : Int) : Option Int := if fitsInt64 n then some n else none
  match op with
  | .add => checked (a + b)
  | .sub => checked (a - b)
  | .mul => checked (a * b)
  | .div => if b = 0 then none else checked (a.tdiv b)
  | .mod => if b = 0 || !fitsInt64 (a.tdiv b) then none else checked (a.tmod b)
  | _ => none

end Sproc
