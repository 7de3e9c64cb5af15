import Sproc.Lower.Context
import Sproc.Text.Number

/-!
# Conversions

T-SQL converts values implicitly; in Go every conversion is written. This is where constants get
their type, where NULL becomes a zero value, and where conversions that Go lacks become calls of the
runtime helpers.

## Main definitions

* `coerce`: a value as a value of another type
-/

namespace Sproc.Lower

/-- Refuses a conversion. -/
def noConversion (value : Value) (target : GoType) : Lower Value :=
  unsupported "conversion" s!"cannot convert {value.text} to {target.name}"

/-- A call of a function of the decimal package. -/
def decimalCall (function : String) (arg : Go.Expr) : Value :=
  .ofType (.invoke (.name "decimal") function [arg]) .decimal

/-- A call of a runtime helper. -/
def runtimeCall (function : String) (args : List Go.Expr) : Lower Go.Expr := do
  importRuntime
  return .runtime function args

/-- The number 1 or 0 for a truth value. -/
def bitNumber (b : Bool) : Int :=
  if b then 1 else 0

/-- Conversion to an exact decimal. -/
def toDecimal (value : Value) : Lower Value := do
  match value.kind with
  | .intConst n => return decimalCall "NewFromInt" (.int n)
  | .decConst spelling => return decimalCall "RequireFromString" (.str spelling)
  | .strConst _ => return decimalCall "RequireFromString" value.code
  | .typed .string => return decimalCall "RequireFromString" value.code
  | .boolConst b => return decimalCall "NewFromInt" (.int (bitNumber b))
  | .typed .int64 => return decimalCall "NewFromInt" value.code
  | .typed .float64 => return decimalCall "NewFromFloat" value.code
  | .typed .float32 => return decimalCall "NewFromFloat" (.convert "float64" value.code)
  | .typed .bool =>
    let bit ← runtimeCall "BitValue" [value.code]
    return decimalCall "NewFromInt" (.convert "int64" bit)
  | .typed type =>
    if type.isInteger then return decimalCall "NewFromInt" (.convert "int64" value.code)
    else noConversion value .decimal
  | .null => noConversion value .decimal

/-- Whether the spelling of an exact number has a digit other than zero. -/
def isNonzeroSpelling (spelling : String) : Bool :=
  !(Text.dropEnds (fun c => c == '0' || c == '.') (Text.dropStart (· == '-') spelling)).isEmpty

/-- Conversion to a truth value. -/
def toBool (value : Value) : Lower Value := do
  let constant (b : Bool) : Value := .ofType (.bool b) .bool
  match value.kind with
  | .intConst n => return constant (n != 0)
  | .decConst spelling => return constant (isNonzeroSpelling spelling)
  | .boolConst b => return constant b
  | .strConst s => return constant (Text.sameIgnoringCase s "true" || Text.trim s == "1")
  | .typed .decimal => return .ofBool (.unary .not (value.method "IsZero" [])) Value.unary
  | .typed .string => return .ofType (← runtimeCall "ParseBit" [value.code]) .bool
  | .typed type =>
    if type.isNumeric then
      return .ofBool (.binary "!=" (value.wrapped 4) (.int 0)) Value.comparison
    else
      noConversion value .bool
  | .null => noConversion value .bool

/-- The integer part of the spelling of an exact number. -/
def wholeSpelling (spelling : String) : String :=
  let whole := Text.firstPart '.' spelling
  if whole.isEmpty || whole == "-" then "0" else whole

/-- Conversion to an integer or a floating-point number. -/
def toNumber (value : Value) (target : GoType) : Lower Value := do
  let converted (code : Go.Expr) : Value := .ofType (.convert target.name code) target
  match value.kind with
  | .intConst n => return ⟨.int n, .typed target, value.strength⟩
  | .decConst spelling =>
    if target.isFloat then
      return ⟨.number spelling, .typed target, value.strength⟩
    else
      let whole := wholeSpelling spelling
      return ⟨.number whole, .typed target,
        if Text.beginsWith "-" whole then Value.unary else Value.atomic⟩
  | .boolConst b => return .ofType (.int (bitNumber b)) target
  | .strConst s =>
    let spelling := Text.trim s
    if (Text.int64? spelling).isSome || (target.isFloat && Text.isFloat spelling) then
      return .ofType (.number spelling) target
    else
      unsupported "conversion" s!"'{s}' is not a valid {target.name}"
  | .typed .decimal =>
    match target with
    | .int64 => return .ofType (value.method "IntPart" []) target
    | .float64 => return .ofType (value.method "InexactFloat64" []) target
    | .float32 => return converted (value.method "InexactFloat64" [])
    | _ => return converted (value.method "IntPart" [])
  | .typed .bool =>
    let bit ← runtimeCall "BitValue" [value.code]
    if target = .int32 then return .ofType bit target else return converted bit
  | .typed .string =>
    let parser := if target.isInteger then "ParseInt" else "ParseFloat"
    return converted (← runtimeCall parser [value.code])
  | .typed type => if type.isNumeric then return converted value.code else noConversion value target
  | .null => noConversion value target

/-- Conversion to a string. -/
def toText (value : Value) : Lower Value := do
  match value.kind with
  | .strConst _ => return .ofType value.code .string
  | .intConst n => return .ofType (.str (toString n)) .string
  | .decConst spelling => return .ofType (.str spelling) .string
  | .boolConst b => return .ofType (.str (if b then "1" else "0")) .string
  | .typed .decimal => return .ofType (value.method "String" []) .string
  | .typed .time => return .ofType (value.method "String" []) .string
  | .typed .bytes => return .ofType (.convert "string" value.code) .string
  | .typed .bool =>
    importPath "fmt"
    let bit ← runtimeCall "BitValue" [value.code]
    return .ofType (.invoke (.name "fmt") "Sprint" [bit]) .string
  | .typed type =>
    if type.isNumeric then
      importPath "fmt"
      return .ofType (.invoke (.name "fmt") "Sprint" [value.code]) .string
    else
      noConversion value .string
  | .null => noConversion value .string

/-- Conversion to a point in time. -/
def toTime (value : Value) : Lower Value := do
  if value.isString then return .ofType (← runtimeCall "ParseDateTime" [value.code]) .time
  else noConversion value .time

/-- Conversion to a string of bytes. -/
def toBytes (value : Value) : Lower Value := do
  if value.isString then return .ofType (.convert "[]byte" value.code) .bytes
  else noConversion value .bytes

/-- A value as a value of type `target`. NULL becomes the zero value, and a value that has the type
already is left as it is. -/
def coerce (value : Value) (target : GoType) : Lower Value := do
  importType target
  if value.kind == .null then
    return .ofType (.zero target) target
  else if value.hasType target then
    return value
  else
    match target with
    | .decimal => toDecimal value
    | .bool => toBool value
    | .string => toText value
    | .time => toTime value
    | .bytes => toBytes value
    | _ => toNumber value target

end Sproc.Lower
