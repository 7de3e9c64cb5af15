/-!
# Go types of T-SQL values

The Go types that variables of a procedure take, with their spelling, their zero value and the order
in which mixed arithmetic widens them.

## Main definitions

* `GoType`, `Category`
* `GoType.name`, `GoType.zeroText`, `GoType.importPath?`
* `GoType.widen`: the wider of two numeric types
-/

namespace Sproc

/-- The kinds of values that conversions distinguish. -/
inductive Category where
  | numeric
  | decimal
  | string
  | dateTime
  | boolean
  deriving DecidableEq, Repr

/-- The Go representation of a T-SQL value. -/
inductive GoType where
  | bool
  | uint8
  | int16
  | int32
  | int64
  | float32
  | float64
  | decimal
  | string
  | bytes
  | time
  deriving DecidableEq, Repr

/-- The import path of the package for exact decimals. -/
def decimalPackage : String := "github.com/shopspring/decimal"

namespace GoType

/-- The spelling in Go. -/
def name : GoType → String
  | bool => "bool"
  | uint8 => "uint8"
  | int16 => "int16"
  | int32 => "int32"
  | int64 => "int64"
  | float32 => "float32"
  | float64 => "float64"
  | decimal => "decimal.Decimal"
  | string => "string"
  | bytes => "[]byte"
  | time => "time.Time"

/-- The value of a fresh variable, which also stands for NULL. -/
def zeroText : GoType → String
  | bool => "false"
  | uint8 | int16 | int32 | int64 | float32 | float64 => "0"
  | decimal => "decimal.Zero"
  | string => "\"\""
  | bytes => "nil"
  | time => "time.Time\x7b\x7d"

/-- The category of a type. -/
def category : GoType → Category
  | bool => .boolean
  | uint8 | int16 | int32 | int64 | float32 | float64 => .numeric
  | decimal => .decimal
  | string | bytes => .string
  | time => .dateTime

/-- The package that a mention of the type needs. -/
def importPath? : GoType → Option String
  | decimal => some decimalPackage
  | time => some "time"
  | _ => none

/-- Whether the values are integers. -/
def isInteger : GoType → Bool
  | uint8 | int16 | int32 | int64 => true
  | _ => false

/-- Whether the values are floating-point numbers. -/
def isFloat : GoType → Bool
  | float32 | float64 => true
  | _ => false

/-- Whether Go's arithmetic operators apply. -/
def isNumeric (t : GoType) : Bool :=
  t.isInteger || t.isFloat

/-- The widening order of mixed arithmetic. -/
def rank : GoType → Nat
  | uint8 => 1
  | int16 => 2
  | int32 => 3
  | int64 => 4
  | float32 => 5
  | float64 => 6
  | _ => 0

/-- The type of higher rank, the first one when the ranks agree. -/
def widen (a b : GoType) : GoType :=
  if a.rank < b.rank then b else a

theorem rank_widen (a b : GoType) : (a.widen b).rank = max a.rank b.rank := by
  unfold widen
  split <;> omega

end GoType

end Sproc
