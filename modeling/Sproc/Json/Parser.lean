import Sproc.Json.Basic
import Sproc.Text.Double

/-!
# Reading JSON text

A reader of RFC 8259 documents. It refuses control characters in strings, escapes of lone
surrogates, numbers too large for a double, nesting beyond a limit, and anything but blanks behind
the value.

Each step of the reader takes the characters that are left and returns a value with the rest.

## Main definitions

* `Json.parse?`: reads a whole text with a limit on nesting
-/

namespace Sproc.Json

/-- The value of a hexadecimal digit. -/
def hexValue? (c : Char) : Option Nat :=
  if c.isDigit then some (c.toNat - 0x30)
  else if 'a' ≤ c && c ≤ 'f' then some (c.toNat - 0x57)
  else if 'A' ≤ c && c ≤ 'F' then some (c.toNat - 0x37)
  else none

/-- The value of four hexadecimal digits. -/
def hexQuad? (a b c d : Char) : Option Nat := do
  let a ← hexValue? a
  let b ← hexValue? b
  let c ← hexValue? c
  let d ← hexValue? d
  return ((a * 16 + b) * 16 + c) * 16 + d

/-- The character that a one-letter escape stands for. -/
def simpleEscape? (c : Char) : Option Char :=
  match c.toNat with
  | 0x22 => some (Char.ofNat 0x22)
  | 0x5C => some (Char.ofNat 0x5C)
  | 0x2F => some '/'
  | 0x62 => some (Char.ofNat 8)
  | 0x66 => some (Char.ofNat 12)
  | 0x6E => some '\n'
  | 0x72 => some '\r'
  | 0x74 => some '\t'
  | _ => none

/-- Reads the rest of a string up to its closing quote. The characters read so far come in
reverse. -/
def stringBody (read : List Char) : List Char → Option (String × List Char)
  | [] => none
  | c :: rest =>
    if c.toNat = 0x22 then
      some (String.ofList read.reverse, rest)
    else if c.toNat < 0x20 then
      none
    else if c.toNat ≠ 0x5C then
      stringBody (c :: read) rest
    else
      match rest with
      | 'u' :: a :: b :: x :: y :: rest =>
        match hexQuad? a b x y with
        | none => none
        | some unit =>
          if 0xD800 ≤ unit && unit < 0xDC00 then
            match rest with
            | s :: 'u' :: a :: b :: x :: y :: rest =>
              if s.toNat ≠ 0x5C then none
              else
                match hexQuad? a b x y with
                | none => none
                | some low =>
                  if 0xDC00 ≤ low && low < 0xE000 then
                    let code := 0x10000 + (unit - 0xD800) * 0x400 + (low - 0xDC00)
                    stringBody (Char.ofNat code :: read) rest
                  else
                    none
            | _ => none
          else if 0xDC00 ≤ unit && unit < 0xE000 then
            none
          else
            stringBody (Char.ofNat unit :: read) rest
      | e :: rest =>
        match simpleEscape? e with
        | some c => stringBody (c :: read) rest
        | none => none
      | [] => none

/-- Adds digits in front of the point to a significand while it fits a word of 64 bits. Returns it
with the number of digits that are left out. -/
def wholeDigits (significand : Nat) : List Char → Nat × Nat
  | [] => (significand, 0)
  | c :: rest =>
    let next := significand * 10 + Text.decimalValue [c]
    if next < 0x10000000000000000 then wholeDigits next rest else (significand, rest.length + 1)

/-- Adds digits behind the point to a significand while it fits a word of 64 bits. Returns it with
the number of digits that are added. -/
def placeDigits (significand : Nat) : List Char → Nat × Nat
  | [] => (significand, 0)
  | c :: rest =>
    let next := significand * 10 + Text.decimalValue [c]
    if next < 0x10000000000000000 then
      let (significand, count) := placeDigits next rest
      (significand, count + 1)
    else
      (significand, 0)

/-- Whether a real number is finite: its digits as a word of 64 bits, scaled by a power of ten. -/
def isInRange (whole places : List Char) (exponent : Int) : Bool :=
  let (significand, left) := wholeDigits 0 whole
  let (significand, added) := placeDigits significand places
  Text.isFiniteScaled significand (exponent + left - added)

/-- The sign and the digits of an exponent, which follow `e` or `E`. -/
def exponentPart (cs : List Char) : Option (Int × List Char) :=
  let (negative, cs) := Text.splitSign cs
  let digits := cs.takeWhile Char.isDigit
  if digits.isEmpty then none
  else
    let n : Int := Text.decimalValue digits
    some (if negative then -n else n, cs.dropWhile Char.isDigit)

/-- Reads a number. A part behind the point or an exponent makes it a real number, and so does a
negative zero or an integer outside the 64-bit range. -/
def number (cs : List Char) : Option (Json × List Char) := do
  let (negative, body) :=
    match cs with
    | '-' :: rest => (true, rest)
    | _ => (false, cs)
  let whole := body.takeWhile Char.isDigit
  let rest := body.dropWhile Char.isDigit
  if whole.isEmpty then none
  if whole.length > 1 && whole.head? == some '0' then none
  let (fraction, rest) ←
    match rest with
    | '.' :: more =>
      let digits := more.takeWhile Char.isDigit
      if digits.isEmpty then none else some (some digits, more.dropWhile Char.isDigit)
    | _ => some (none, rest)
  let (exponent, rest) ←
    match rest with
    | 'e' :: more => (exponentPart more).map fun (e, rest) => (some e, rest)
    | 'E' :: more => (exponentPart more).map fun (e, rest) => (some e, rest)
    | _ => some (none, rest)
  let n : Int := if negative then -(Text.decimalValue whole : Int) else Text.decimalValue whole
  let isInteger := fraction.isNone && exponent.isNone && !(negative && n == 0) &&
    -0x8000000000000000 ≤ n && n < 0x10000000000000000
  if isInteger then
    some (.int n, rest)
  else
    let places := fraction.getD []
    if isInRange whole places (exponent.getD 0) then
      some (.real (String.ofList (cs.take (cs.length - rest.length))), rest)
    else
      none

/-- Adds a field to a list in reverse order, dropping an earlier field of the same name. -/
def pushField (name : String) (value : Json) (read : List (String × Json)) : List (String × Json) :=
  (name, value) :: read.filter (·.1 ≠ name)

mutual

/-- Reads a value that may hold up to `levels` levels of arrays and objects. -/
def value (fuel levels : Nat) (cs : List Char) : Option (Json × List Char) :=
  match fuel with
  | 0 => none
  | fuel + 1 =>
    match Text.skipSpace cs with
    | 'n' :: 'u' :: 'l' :: 'l' :: rest => some (.null, rest)
    | 't' :: 'r' :: 'u' :: 'e' :: rest => some (.bool true, rest)
    | 'f' :: 'a' :: 'l' :: 's' :: 'e' :: rest => some (.bool false, rest)
    | '[' :: rest =>
      match levels with
      | 0 => none
      | levels + 1 =>
        match Text.skipSpace rest with
        | ']' :: rest => some (.arr [], rest)
        | rest => items fuel levels [] rest
    | '\x7b' :: rest =>
      match levels with
      | 0 => none
      | levels + 1 =>
        match Text.skipSpace rest with
        | '\x7d' :: rest => some (.obj [], rest)
        | rest => fields fuel levels [] rest
    | c :: rest =>
      if c.toNat = 0x22 then (stringBody [] rest).map fun (s, rest) => (.str s, rest)
      else number (c :: rest)
    | [] => none

/-- Reads the items of an array up to its closing bracket; those read so far come in reverse. -/
def items (fuel levels : Nat) (read : List Json) (cs : List Char) : Option (Json × List Char) :=
  match fuel with
  | 0 => none
  | fuel + 1 =>
    match value fuel levels cs with
    | none => none
    | some (item, rest) =>
      match Text.skipSpace rest with
      | ',' :: rest => items fuel levels (item :: read) rest
      | ']' :: rest => some (.arr (item :: read).reverse, rest)
      | _ => none

/-- Reads the fields of an object up to its closing brace; those read so far come in reverse. -/
def fields (fuel levels : Nat) (read : List (String × Json)) (cs : List Char) :
    Option (Json × List Char) :=
  match fuel with
  | 0 => none
  | fuel + 1 =>
    match Text.skipSpace cs with
    | q :: rest =>
      if q.toNat ≠ 0x22 then none
      else
        match stringBody [] rest with
        | none => none
        | some (name, rest) =>
          match Text.skipSpace rest with
          | ':' :: rest =>
            match value fuel levels rest with
            | none => none
            | some (item, rest) =>
              match Text.skipSpace rest with
              | ',' :: rest => fields fuel levels (pushField name item read) rest
              | '\x7d' :: rest => some (.obj (pushField name item read).reverse, rest)
              | _ => none
          | _ => none
    | [] => none

end

/-- Reads a text that holds one value with at most `levels` levels of nesting. -/
def parse? (levels : Nat) (text : String) : Option Json :=
  let cs := text.toList
  match value (2 * cs.length + 2) levels cs with
  | some (json, rest) => if (Text.skipSpace rest).isEmpty then some json else none
  | none => none

end Sproc.Json
