import Sproc.Text.Basic

/-!
# Spellings of numbers

Which texts spell an integer of 64 bits and which spell a floating-point number.

## Main definitions

* `fitsInt64`: whether an integer fits a word of 64 bits
* `int64?`: the integer that a text spells
* `isFloat`: whether a text spells a floating-point number
-/

namespace Sproc

/-- Whether an integer fits a signed word of 64 bits. -/
def fitsInt64 (n : Int) : Bool :=
  -0x8000000000000000 ≤ n && n < 0x8000000000000000

namespace Text

/-- The number that a list of decimal digits denotes. -/
def decimalValue (digits : List Char) : Nat :=
  digits.foldl (fun n c => n * 10 + (c.toNat - 0x30)) 0

/-- A sign, if there is one, and the rest; true stands for minus. -/
def splitSign : List Char → Bool × List Char
  | '-' :: rest => (true, rest)
  | '+' :: rest => (false, rest)
  | cs => (false, cs)

/-- The integer that a text spells, if it fits a signed word of 64 bits: digits behind an optional
sign. -/
def int64? (s : String) : Option Int :=
  let (negative, digits) := splitSign s.toList
  let n : Int := decimalValue digits
  let value := if negative then -n else n
  if !digits.isEmpty && digits.all Char.isDigit && fitsInt64 value then some value else none

/-- Whether characters are an exponent: a letter, an optional sign and digits. -/
def isExponent : List Char → Bool
  | [] => true
  | c :: rest =>
    let digits := (splitSign rest).2
    (c == 'e' || c == 'E') && !digits.isEmpty && digits.all Char.isDigit

/-- Whether characters are a decimal number without sign: digits with an optional point among them
and an optional exponent. -/
def isDecimal (cs : List Char) : Bool :=
  let whole := cs.takeWhile Char.isDigit
  let rest := cs.dropWhile Char.isDigit
  let places :=
    match rest with
    | '.' :: more => more.takeWhile Char.isDigit
    | _ => []
  let tail :=
    match rest with
    | '.' :: more => more.dropWhile Char.isDigit
    | _ => rest
  !(whole.isEmpty && places.isEmpty) && isExponent tail

/-- Whether a text spells a floating-point number: a decimal number, an infinity or `nan`, with an
optional sign. -/
def isFloat (s : String) : Bool :=
  let (_, body) := splitSign s.toList
  let lower := body.map Char.toLower
  isDecimal body || ["inf", "infinity", "nan"].any (·.toList == lower)

end Text

end Sproc
