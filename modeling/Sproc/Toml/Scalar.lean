import Sproc.Json.Parser
import Sproc.Text.Double
import Sproc.Text.Quoted
import Sproc.Toml.Basic

/-!
# TOML strings and words

Strings are basic or literal, on one line or on several. In basic strings a backslash starts an
escape; on several lines it also swallows a line end with the blanks behind it. A string on several
lines may hold up to two quotation marks in a row, also right before its end.

Everything else that is no array or table is one word: a truth value, an integer, a floating-point
number or a date.

## Main definitions

* `Toml.quoted?`: a string on one line
* `Toml.stringValue?`: a string of any form
* `Toml.word?`: the value of a word
-/

namespace Sproc.Toml

/-- Whether a character may stand for itself in comments and strings: no control character but the
tab. -/
def isPlain (c : Char) : Bool :=
  c == '\t' || (0x20 ≤ c.toNat && c.toNat ≠ 0x7F)

/-- Blanks within a line. -/
def isBlank (c : Char) : Bool :=
  c == ' ' || c == '\t'

/-- Where the reader of a string stands. -/
inductive Mode where
  | plain
  /-- Behind a backslash. -/
  | escape
  /-- Among the digits of an escape, of which `left + 1` are missing. -/
  | hex (left value : Nat)
  /-- Between a backslash and the line end that it swallows. -/
  | lineEnd
  /-- Among the blanks that a backslash swallows. -/
  | trim
  deriving DecidableEq, Repr

/-- The character that a one-letter escape stands for. -/
def simpleEscape? (c : Char) : Option Char :=
  if c == '/' then none else Json.simpleEscape? c

/-- The number of digits of an escape by number. -/
def hexLength? : Char → Option Nat
  | 'u' => some 4
  | 'U' => some 8
  | _ => none

/-- The character of a code point. -/
def scalar? (n : Nat) : Option Char :=
  if n.isValidChar then some (Char.ofNat n) else none

/-- Reads one character of an escape. Returns the new mode and the character that is finished. -/
def escapeStep? (multiline : Bool) (mode : Mode) (c : Char) : Option (Mode × Option Char) :=
  match mode with
  | .hex left value => do
    let value := value * 16 + (← Json.hexValue? c)
    match left with
    | 0 => return (.plain, some (← scalar? value))
    | left + 1 => return (.hex left value, none)
  | .escape =>
    match hexLength? c with
    | some n => some (.hex (n - 1) 0, none)
    | none =>
      if multiline && c == '\n' then some (.trim, none)
      else if multiline && isBlank c then some (.lineEnd, none)
      else (simpleEscape? c).map fun e => (.plain, some e)
  | .lineEnd =>
    if c == '\n' then some (.trim, none) else if isBlank c then some (.lineEnd, none) else none
  | _ => none

/-- Reads a string on one line up to its closing mark; the characters read so far come in
reverse. -/
def singleLine (mark : Char) (escapes : Bool) (mode : Mode) (read : List Char) :
    List Char → Option (String × List Char)
  | [] => none
  | c :: rest =>
    if mode = .plain then
      if c = mark then some (String.ofList read.reverse, rest)
      else if escapes && c == Text.backslash then singleLine mark escapes .escape read rest
      else if isPlain c then singleLine mark escapes .plain (c :: read) rest
      else none
    else
      match escapeStep? false mode c with
      | some (mode, done) => singleLine mark escapes mode (done.toList ++ read) rest
      | none => none

/-- Reads a string on several lines up to its closing marks. `marks` counts the marks just before,
which close the string when there are three of them. -/
def multiLine (mark : Char) (escapes : Bool) (mode : Mode) (marks : Nat) (read : List Char) :
    List Char → Option (String × List Char)
  | [] =>
    if marks ≥ 3 then some (String.ofList (List.replicate (marks - 3) mark ++ read).reverse, [])
    else none
  | c :: rest =>
    let ended := mode = .plain || mode = .trim
    if ended && c == mark then
      if marks = 4 then some (String.ofList (mark :: mark :: read).reverse, rest)
      else multiLine mark escapes .plain (marks + 1) read rest
    else if marks ≥ 3 then
      some (String.ofList (List.replicate (marks - 3) mark ++ read).reverse, c :: rest)
    else
      let read := List.replicate marks mark ++ read
      if mode = .trim && (isBlank c || c == '\n') then multiLine mark escapes .trim 0 read rest
      else if ended then
        if escapes && c == Text.backslash then multiLine mark escapes .escape 0 read rest
        else if isPlain c || c == '\n' then multiLine mark escapes .plain 0 (c :: read) rest
        else none
      else
        match escapeStep? true mode c with
        | some (mode, done) => multiLine mark escapes mode 0 (done.toList ++ read) rest
        | none => none

/-- Whether a character opens a string, and whether the string then has escapes. -/
def openingMark? (c : Char) : Option Bool :=
  if c == Text.doubleQuote then some true
  else if c == Text.singleQuote then some false
  else none

/-- Reads a string on one line. -/
def quoted? : List Char → Option (String × List Char)
  | [] => none
  | c :: rest => do
    let escapes ← openingMark? c
    singleLine c escapes .plain [] rest

/-- Reads a string of any form. A line end right behind three opening marks is not part of it. -/
def stringValue? (cs : List Char) : Option (String × List Char) :=
  match cs with
  | a :: b :: c :: rest =>
    match openingMark? a with
    | none => none
    | some escapes =>
      if b = a && c = a then
        match rest with
        | '\n' :: rest => multiLine a escapes .plain 0 [] rest
        | rest => multiLine a escapes .plain 0 [] rest
      else
        quoted? cs
  | _ => quoted? cs

/-- The characters of words. -/
def isWordChar (c : Char) : Bool :=
  c.isAlphanum || c == '+' || c == '-' || c == '_' || c == '.' || c == ':'

/-- The digits of a number without the underscores between them. Underscores stand between two
digits only. -/
def digits? (isDigit : Char → Bool) : List Char → Option (List Char)
  | [] => none
  | [c] => if isDigit c then some [c] else none
  | c :: '_' :: d :: rest =>
    if isDigit c then (digits? isDigit (d :: rest)).map (c :: ·) else none
  | c :: rest => if isDigit c then (digits? isDigit rest).map (c :: ·) else none

/-- The value of digits in a base. -/
def digitsIn (base : Nat) (digits : List Char) : Nat :=
  digits.foldl (fun n c => n * base + (Json.hexValue? c).getD 0) 0

/-- The digits of a decimal number, which has no zero in front. -/
def decimalDigits? (cs : List Char) : Option (List Char) := do
  let digits ← digits? Char.isDigit cs
  if digits.length > 1 && digits.head? == some '0' then none else some digits

/-- An integer that fits a signed word of 64 bits. -/
def wordInt? (n : Int) : Option Toml :=
  if fitsInt64 n then some (.int n) else none

/-- The value of a word as an integer. -/
def integer? : List Char → Option Toml
  | '0' :: 'x' :: rest => do
    wordInt? (digitsIn 16 (← digits? (fun c => (Json.hexValue? c).isSome) rest))
  | '0' :: 'o' :: rest => do
    wordInt? (digitsIn 8 (← digits? (fun c => '0' ≤ c && c ≤ '7') rest))
  | '0' :: 'b' :: rest => do
    wordInt? (digitsIn 2 (← digits? (fun c => c == '0' || c == '1') rest))
  | '+' :: rest => do
    wordInt? (digitsIn 10 (← decimalDigits? rest))
  | '-' :: rest => do
    wordInt? (-(digitsIn 10 (← decimalDigits? rest) : Int))
  | cs => do
    wordInt? (digitsIn 10 (← decimalDigits? cs))

/-- The value of an exponent behind its letter. -/
def exponent? (cs : List Char) : Option Int := do
  let (negative, digits) := Text.splitSign cs
  let n : Int := Text.decimalValue (← digits? Char.isDigit digits)
  return if negative then -n else n

/-- Whether a text is a floating-point number: a decimal integer with a fraction, an exponent or
both. A positive number that is out of the range of doubles is none. -/
def isFloat (cs : List Char) : Bool :=
  let (negative, body) := Text.splitSign cs
  if body == "inf".toList || body == "nan".toList then true
  else
    let isExponent (c : Char) : Bool := c == 'e' || c == 'E'
    let mantissa := body.takeWhile (!isExponent ·)
    let tail := body.dropWhile (!isExponent ·)
    let fraction := mantissa.dropWhile (· != '.')
    let whole? := decimalDigits? (mantissa.takeWhile (· != '.'))
    let places? := if fraction.isEmpty then some [] else digits? Char.isDigit (fraction.drop 1)
    let power? := if tail.isEmpty then some 0 else exponent? (tail.drop 1)
    match whole?, places?, power? with
    | some whole, some places, some power =>
      !(fraction.isEmpty && tail.isEmpty) &&
        (negative || Text.isFinite (whole ++ places) (power - places.length))
    | _, _, _ => false

/-- The value of a word. -/
def word? (cs : List Char) : Option Toml :=
  if cs == "true".toList then some (.bool true)
  else if cs == "false".toList then some (.bool false)
  else
    match integer? cs, DateTime.read? cs with
    | some n, _ => some n
    | none, some value => some (.dateTime value)
    | none, none => if isFloat cs then some (.float (String.ofList cs)) else none

/-- Splits off the word in front. A date and a time may have one space between them. -/
def splitWord (cs : List Char) : List Char × List Char :=
  let first := cs.takeWhile isWordChar
  let rest := cs.dropWhile isWordChar
  match rest with
  | ' ' :: more =>
    let second := more.takeWhile isWordChar
    match date? first, timeOfDay? second with
    | some (_, []), some _ => (first ++ ' ' :: second, more.dropWhile isWordChar)
    | _, _ => (first, rest)
  | _ => (first, rest)

end Sproc.Toml
