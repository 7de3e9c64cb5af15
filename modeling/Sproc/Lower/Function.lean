import Sproc.Lower.Intrinsic
import Sproc.Lower.Operator

/-!
# Built-in functions

The built-in functions of T-SQL that have a counterpart in Go. Arguments are evaluated by the
function itself, since it knows the type that each of them flows into, and since a missing argument
is found only after those before it have been evaluated.

## Main definitions

* `Builtin`, `Builtin.ofName?`
* `lowerFunction`
-/

namespace Sproc

/-- A built-in function. -/
inductive Builtin where
  | clock (code : Go.Expr)
  | identity
  | newId
  | coalesce
  | len
  | dataLength
  /-- A function of one string in Go's package for strings. -/
  | stringCall (function : String) (extra : List Go.Expr)
  | replace
  | substring
  /-- The first or last characters of a string. -/
  | edge (function : String)
  | charIndex
  | concat
  | abs
  | round
  /-- Rounding to an integer, by its names for exact decimals and for floating-point numbers. -/
  | toward (function : String)
  /-- A part of a date. -/
  | datePart (method : String)
  | dateAdd
  | dateDiff

namespace Builtin

/-- The built-in function of a name in capitals. -/
def ofName? (name : String) : Option Builtin :=
  match name with
  | "SCOPE_IDENTITY" | "IDENT_CURRENT" => some .identity
  | "NEWID" => some .newId
  | "ISNULL" | "COALESCE" => some .coalesce
  | "LEN" => some .len
  | "DATALENGTH" => some .dataLength
  | "UPPER" => some (.stringCall "ToUpper" [])
  | "LOWER" => some (.stringCall "ToLower" [])
  | "LTRIM" => some (.stringCall "TrimLeft" [.str " "])
  | "RTRIM" => some (.stringCall "TrimRight" [.str " "])
  | "TRIM" => some (.stringCall "TrimSpace" [])
  | "REPLACE" => some .replace
  | "SUBSTRING" => some .substring
  | "LEFT" => some (.edge "Left")
  | "RIGHT" => some (.edge "Right")
  | "CHARINDEX" => some .charIndex
  | "CONCAT" => some .concat
  | "ABS" => some .abs
  | "ROUND" => some .round
  | "FLOOR" => some (.toward "Floor")
  | "CEILING" => some (.toward "Ceil")
  | "YEAR" => some (.datePart "Year")
  | "MONTH" => some (.datePart "Month")
  | "DAY" => some (.datePart "Day")
  | "DATEADD" => some .dateAdd
  | "DATEDIFF" => some .dateDiff
  | _ => (Lower.clock? name).map .clock

end Builtin

namespace Lower

/-- An argument: the expression, and its evaluation. -/
structure Arg where
  expr : Expr
  value : Pending

/-- The argument at an index, which must be there. -/
def argAt (name : String) (args : List Arg) (index : Nat) : Lower Arg :=
  match args[index]? with
  | some arg => pure arg
  | none => unsupported (name ++ "()") s!"expects at least {index + 1} argument(s)"

/-- An argument of a given type. -/
def typedArg (type : GoType) (name : String) (args : List Arg) (index : Nat) : Lower Value := do
  let arg ← argAt name args index
  coerce (← arg.value (some type)) type

/-- An argument that is a string. -/
def stringArg (name : String) (args : List Arg) (index : Nat) : Lower Value :=
  typedArg .string name args index

/-- An argument that is a point in time. -/
def timeArg (name : String) (args : List Arg) (index : Nat) : Lower Value :=
  typedArg .time name args index

/-- An argument of Go's type for counts; a constant needs no conversion. -/
def intArg (name : String) (args : List Arg) (index : Nat) : Lower Go.Expr := do
  let arg ← argAt name args index
  let value ← arg.value (some .int64)
  match value.kind with
  | .intConst n => return .int n
  | _ => return .convert "int" (← coerce value .int64).code

/-- The part of a date that a keyword stands for. -/
def datePart? : String → Option String
  | "year" | "yy" | "yyyy" => some "year"
  | "quarter" | "qq" | "q" => some "quarter"
  | "month" | "mm" | "m" => some "month"
  | "dayofyear" | "dy" | "y" | "day" | "dd" | "d" => some "day"
  | "week" | "wk" | "ww" => some "week"
  | "hour" | "hh" => some "hour"
  | "minute" | "mi" | "n" => some "minute"
  | "second" | "ss" | "s" => some "second"
  | "millisecond" | "ms" => some "millisecond"
  | _ => none

/-- An argument that names a part of a date, as a bare word or as a string. -/
def datePartArg (name : String) (args : List Arg) (index : Nat) : Lower Go.Expr := do
  let arg ← argAt name args index
  let keyword? : Option String :=
    match arg.expr with
    | .column ref => some ref.name
    | .literal (.string s) => some s
    | _ => none
  match keyword? with
  | none => unsupported (name ++ "()") "date part must be a keyword"
  | some keyword =>
    let lower := Text.toLower keyword
    match datePart? lower with
    | some part => return .str part
    | none => unsupported (name ++ "()") s!"unknown date part '{lower}'"

/-- Evaluates arguments in order. -/
def evaluateAll (hint : Option GoType) : List Arg → Lower (List Value)
  | [] => return []
  | arg :: rest => do
    let value ← arg.value hint
    return value :: (← evaluateAll hint rest)

/-- Converts values in order. -/
def coerceAll (type : GoType) : List Value → Lower (List Go.Expr)
  | [] => return []
  | value :: rest => do
    let value ← coerce value type
    return value.code :: (← coerceAll type rest)

/-- The type of a first value that is not NULL: that of the first argument with a type, the hint, or
that of the first constant that has one. -/
def coalesceType? (hint : Option GoType) (values : List Value) : Option GoType :=
  let typed := values.findSome? fun value =>
    match value.kind with
    | .typed type => some type
    | _ => none
  (typed.or hint).or (values.findSome? (·.goType?))

/-- The first argument that is not NULL. -/
def lowerCoalesce (name : String) (args : List Arg) (hint : Option GoType) : Lower Value := do
  let values ← evaluateAll hint args
  match coalesceType? hint values with
  | none => unsupported name "argument type cannot be inferred"
  | some type =>
    let parts ← coerceAll type values
    return .ofType (← runtimeCall "Coalesce" parts) type

/-- Strings put together, from the arguments at the given indices. -/
def concatArgs (name : String) (args : List Arg) : List Nat → Lower (List Go.Expr)
  | [] => return []
  | index :: rest => do
    let value ← stringArg name args index
    return value.wrapped 5 :: (← concatArgs name args rest)

/-- The concatenation of all arguments. -/
def lowerConcat (name : String) (args : List Arg) : Lower Value := do
  let parts ← concatArgs name args (List.range args.length)
  if parts.isEmpty then
    return .ofType (.str "") .string
  else
    return ⟨.chain "+" parts, .typed .string, if parts.length > 1 then 4 else Value.atomic⟩

/-- A number as the argument of a rounding function, with its type. -/
def roundingArg (name : String) (args : List Arg) (hint : Option GoType) :
    Lower (Value × GoType) := do
  let arg ← argAt name args 0
  let value ← arg.value hint
  let value ←
    match value.kind with
    | .intConst _ => coerce value ((hint.filter (·.isNumeric)).getD .int32)
    | .decConst _ => coerce value .decimal
    | _ => pure value
  match value.goType?.filter fun type => type.isNumeric || type == .decimal with
  | some type => return (value, type)
  | none => unsupported name s!"{value.text} is not numeric"

/-- The absolute value. -/
def lowerAbs (name : String) (args : List Arg) (hint : Option GoType) : Lower Value := do
  let (value, type) ← roundingArg name args hint
  if type = .decimal then
    return .ofType (value.method "Abs" []) type
  else
    return .ofType (← runtimeCall "Abs" [value.code]) type

/-- Rounding to a number of places; integers are left as they are. -/
def lowerRound (name : String) (args : List Arg) (hint : Option GoType) : Lower Value := do
  let (value, type) ← roundingArg name args hint
  if type = .decimal then
    let places ← intArg name args 1
    return .ofType (value.method "Round" [.convert "int32" places]) type
  else if type.isInteger then
    return value
  else
    let places ← intArg name args 1
    return .ofType (← runtimeCall "Round" [value.code, places]) type

/-- Rounding to an integer in one direction; integers are left as they are. -/
def lowerToward (function name : String) (args : List Arg) (hint : Option GoType) :
    Lower Value := do
  let (value, type) ← roundingArg name args hint
  let math (arg : Go.Expr) : Go.Expr := .invoke (.name "math") function [arg]
  if type = .decimal then
    return .ofType (value.method function []) type
  else if type.isInteger then
    return value
  else
    importPath "math"
    if type = .float64 then
      return .ofType (math value.code) type
    else
      return .ofType (.convert type.name (math (.convert "float64" value.code))) type

/-- A call of Go's package for strings. -/
def stringsCall (function : String) (args : List Go.Expr) : Lower Go.Expr := do
  importPath "strings"
  return .invoke (.name "strings") function args

/-- A built-in function on its arguments. -/
def lowerBuiltin (builtin : Builtin) (name : String) (args : List Arg) (hint : Option GoType) :
    Lower Value := do
  match builtin with
  | .clock code =>
    importPath "time"
    return .ofType code .time
  | .identity => return .ofType (.name "lastInsertID") .int64
  | .newId => return .ofType (← runtimeCall "NewID" []) .string
  | .coalesce => lowerCoalesce name args hint
  | .len =>
    let s ← stringArg name args 0
    importPath "unicode/utf8"
    let trimmed ← stringsCall "TrimRight" [s.code, .str " "]
    return .ofType (.convert "int32" (.invoke (.name "utf8") "RuneCountInString" [trimmed])) .int32
  | .dataLength =>
    let s ← stringArg name args 0
    return .ofType (.convert "int32" (.call (.name "len") [s.code])) .int32
  | .stringCall function extra =>
    let s ← stringArg name args 0
    return .ofType (← stringsCall function (s.code :: extra)) .string
  | .replace =>
    let s ← stringArg name args 0
    let old ← stringArg name args 1
    let new ← stringArg name args 2
    return .ofType (← stringsCall "ReplaceAll" [s.code, old.code, new.code]) .string
  | .substring =>
    let s ← stringArg name args 0
    let start ← intArg name args 1
    let length ← intArg name args 2
    return .ofType (← runtimeCall "Substring" [s.code, start, length]) .string
  | .edge function =>
    let s ← stringArg name args 0
    let count ← intArg name args 1
    return .ofType (← runtimeCall function [s.code, count]) .string
  | .charIndex =>
    let needle ← stringArg name args 0
    let hay ← stringArg name args 1
    let index ← stringsCall "Index" [hay.code, needle.code]
    return .ofType (.convert "int32" (.binary "+" index (.int 1))) .int32
  | .concat => lowerConcat name args
  | .abs => lowerAbs name args hint
  | .round => lowerRound name args hint
  | .toward function => lowerToward function name args hint
  | .datePart method =>
    let d ← timeArg name args 0
    return .ofType (.convert "int32" (d.method method [])) .int32
  | .dateAdd =>
    let part ← datePartArg name args 0
    let amount ← intArg name args 1
    let d ← timeArg name args 2
    return .ofType (← runtimeCall "DateAdd" [part, amount, d.code]) .time
  | .dateDiff =>
    let part ← datePartArg name args 0
    let start ← timeArg name args 1
    let stop ← timeArg name args 2
    return .ofType (← runtimeCall "DateDiff" [part, start.code, stop.code]) .int32

/-- A function call. -/
def lowerFunction (name : String) (args : List Arg) (hint : Option GoType) : Lower Value := do
  let context ← read
  let upper := Text.toUpper name
  match errorIntrinsic? context.inCatch context.procedure.name upper with
  | some value =>
    if !context.inCatch then
      warn .approximation s!"{upper}() outside a CATCH block lowers to its zero value"
    return value
  | none =>
    match Builtin.ofName? upper with
    | some builtin => lowerBuiltin builtin upper args hint
    | none => unsupported s!"function {upper}()" "no Go lowering for this built-in"

end Lower

end Sproc
