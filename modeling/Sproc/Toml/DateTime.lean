import Sproc.Text.Number

/-!
# Dates and times

A TOML document may give a date, a time of day, or both with an offset from the reference time.
They are read and written digit by digit; fractions of a second are kept to the nanosecond, further
digits being dropped.

## Main definitions

* `Toml.DateTime` with `Toml.DateTime.read?` and `Toml.DateTime.render`
-/

namespace Sproc.Toml

/-- A day of the calendar. -/
structure Date where
  year : Nat
  month : Nat
  day : Nat
  deriving DecidableEq, Repr

/-- A time of day. A minute may have a leap second. -/
structure TimeOfDay where
  hour : Nat
  minute : Nat
  second : Nat
  nanosecond : Nat
  deriving DecidableEq, Repr

/-- The offset of a time from the reference time. -/
inductive Offset where
  | none
  | utc
  | minutes (count : Int)
  deriving DecidableEq, Repr

/-- A date, a time of day, or both; only both together have an offset. -/
inductive DateTime where
  | date (date : Date)
  | time (time : TimeOfDay)
  | both (date : Date) (time : TimeOfDay) (offset : Offset)
  deriving DecidableEq, Repr

/-- A number of exactly two digits. -/
def pair? (a b : Char) : Option Nat :=
  if a.isDigit && b.isDigit then some (Text.decimalValue [a, b]) else none

/-- A number of exactly two digits that is not greater than `limit`. -/
def pairUpTo? (limit : Nat) (a b : Char) : Option Nat :=
  (pair? a b).filter (· ≤ limit)

/-- The number of days of a month. -/
def monthLength (year month : Nat) : Nat :=
  if month = 2 then
    if (year % 4 = 0 && year % 100 ≠ 0) || year % 400 = 0 then 29 else 28
  else if month = 4 || month = 6 || month = 9 || month = 11 then 30
  else 31

/-- Reads a date, which has to be in the calendar. -/
def date? : List Char → Option (Date × List Char)
  | a :: b :: c :: d :: '-' :: e :: f :: '-' :: g :: h :: rest => do
    let year := (← pair? a b) * 100 + (← pair? c d)
    let month ← pairUpTo? 12 e f
    let day ← pairUpTo? (monthLength year month) g h
    if 1 ≤ month && 1 ≤ day then some (⟨year, month, day⟩, rest) else none
  | _ => none

/-- The number of nanoseconds that the digits of a fraction of a second stand for. -/
def nanoseconds (digits : List Char) : Nat :=
  let kept := digits.take 9
  Text.decimalValue kept * Nat.pow 10 (9 - kept.length)

/-- Reads a time of day. -/
def timeOfDay? : List Char → Option (TimeOfDay × List Char)
  | a :: b :: ':' :: c :: d :: ':' :: e :: f :: rest => do
    let hour ← pairUpTo? 23 a b
    let minute ← pairUpTo? 59 c d
    let second ← pairUpTo? 60 e f
    match rest with
    | '.' :: more =>
      let fraction := more.takeWhile Char.isDigit
      if fraction.isEmpty then none
      else some (⟨hour, minute, second, nanoseconds fraction⟩, more.dropWhile Char.isDigit)
    | _ => some (⟨hour, minute, second, 0⟩, rest)
  | _ => none

/-- The offset that a text spells. -/
def offset? : List Char → Option Offset
  | [] => some .none
  | ['Z'] => some .utc
  | ['z'] => some .utc
  | [sign, a, b, ':', c, d] => do
    let count : Int := (← pairUpTo? 23 a b) * 60 + (← pairUpTo? 59 c d)
    if sign == '+' then some (.minutes count)
    else if sign == '-' then some (.minutes (-count))
    else none
  | _ => none

/-- A number with zeros in front of it, so that it has at least `width` digits. -/
def padded (width n : Nat) : String :=
  let digits := Nat.toDigits 10 n
  String.ofList (List.replicate (width - digits.length) '0' ++ digits)

/-- The spelling of a date. -/
def Date.render (date : Date) : String :=
  padded 4 date.year ++ "-" ++ padded 2 date.month ++ "-" ++ padded 2 date.day

/-- The spelling of a time of day. A fraction has no zeros at its end. -/
def TimeOfDay.render (time : TimeOfDay) : String :=
  let fraction :=
    if time.nanosecond = 0 then ""
    else "." ++ Text.dropEnd (· == '0') (padded 9 time.nanosecond)
  padded 2 time.hour ++ ":" ++ padded 2 time.minute ++ ":" ++ padded 2 time.second ++ fraction

/-- The spelling of an offset. No difference counts as one to the east. -/
def Offset.render : Offset → String
  | none => ""
  | utc => "Z"
  | minutes count =>
    let sign := if count < 0 then "-" else "+"
    sign ++ padded 2 (count.natAbs / 60) ++ ":" ++ padded 2 (count.natAbs % 60)

namespace DateTime

/-- The date or time that a text spells. Between a date and a time stands a letter or a space. -/
def read? (cs : List Char) : Option DateTime :=
  match date? cs with
  | some (d, []) => some (.date d)
  | some (d, c :: rest) => do
    let (t, rest) ← timeOfDay? rest
    let offset ← offset? rest
    if c == 'T' || c == 't' || c == ' ' then some (.both d t offset) else none
  | none =>
    match timeOfDay? cs with
    | some (t, []) => some (.time t)
    | _ => none

/-- The spelling of a date or time, with a capital letter between the two. -/
def render : DateTime → String
  | date d => d.render
  | time t => t.render
  | both d t offset => d.render ++ "T" ++ t.render ++ offset.render

end DateTime

end Sproc.Toml
