import Sproc.Text.Case
import Sproc.Text.Printable

/-!
# Quoted text

The four ways in which a text is written between quotes: as an interpreted Go string, as a raw Go
string, as a SQL string, and as the path of a Go import. Each is an escape for one character,
applied to every character of the text.

## Main definitions

* `goLiteral`: an interpreted Go string literal
* `queryLiteral`: a raw Go string where that is possible, an interpreted one otherwise
* `sqlLiteral`: a SQL string literal
* `pathLiteral`: an import path

## Main results

* `goEscape_cases`: how a character of an interpreted Go string is written
-/

namespace Sproc.Text

/-- The quotation mark of interpreted strings and import paths. -/
def doubleQuote : Char := Char.ofNat 0x22

/-- The quotation mark of SQL strings. -/
def singleQuote : Char := Char.ofNat 0x27

/-- The quotation mark of raw strings. -/
def backQuote : Char := Char.ofNat 0x60

/-- The escape character. -/
def backslash : Char := Char.ofNat 0x5C

/-- The hexadecimal digits of a number, without leading zeros. -/
def hexDigits (n : Nat) : List Char :=
  Nat.toDigits 16 n

/-- The two hexadecimal digits of a number below 256. -/
def hexPair (n : Nat) : List Char :=
  [Nat.digitChar (n / 16), Nat.digitChar (n % 16)]

/-- A text between two quotation marks. -/
def enclose (mark : Char) (body : List Char) : String :=
  String.ofList (mark :: body ++ [mark])

/-- One character inside an interpreted Go string: quotes, backslashes and controls are escaped. -/
def goEscape (c : Char) : List Char :=
  if c = doubleQuote then [backslash, doubleQuote]
  else if c = backslash then [backslash, backslash]
  else if c = '\n' then [backslash, 'n']
  else if c = '\r' then [backslash, 'r']
  else if c = '\t' then [backslash, 't']
  else if c.toNat < 0x20 || c.toNat == 0x7F then [backslash, 'x'] ++ hexPair c.toNat
  else [c]

/-- The characters that are escaped with a letter, each with its letter. -/
def letterEscapes : List (Char × Char) :=
  [(doubleQuote, doubleQuote), (backslash, backslash), ('\n', 'n'), ('\r', 'r'), ('\t', 't')]

/-- A character is escaped with a letter or with the number of its byte, or it stands for itself. -/
theorem goEscape_cases (c : Char) :
    (∃ letter, (c, letter) ∈ letterEscapes ∧ goEscape c = [backslash, letter]) ∨
      (c.toNat < 128 ∧ goEscape c = backslash :: 'x' :: hexPair c.toNat) ∨
      (c ≠ doubleQuote ∧ c ≠ backslash ∧ c ≠ '\n') ∧ goEscape c = [c] := by
  by_cases hletter : c ∈ letterEscapes.map Prod.fst
  · left
    simp only [letterEscapes, List.map_cons, List.map_nil, List.mem_cons, List.not_mem_nil,
      or_false] at hletter
    rcases hletter with rfl | rfl | rfl | rfl | rfl <;> exact ⟨_, by decide, rfl⟩
  · simp only [letterEscapes, List.map_cons, List.map_nil, List.mem_cons, List.not_mem_nil,
      or_false, not_or] at hletter
    obtain ⟨hquote, hbackslash, hline, hreturn, htab⟩ := hletter
    right
    rw [goEscape, if_neg hquote, if_neg hbackslash, if_neg hline, if_neg hreturn, if_neg htab]
    split
    · next hcontrol =>
      rw [Bool.or_eq_true, decide_eq_true_eq, beq_iff_eq] at hcontrol
      exact .inl ⟨by omega, rfl⟩
    · exact .inr ⟨⟨hquote, hbackslash, hline⟩, rfl⟩

/-- An interpreted Go string literal. -/
def goLiteral (s : String) : String :=
  enclose doubleQuote (s.toList.flatMap goEscape)

/-- Whether a raw Go string can hold the text: a back quote would end it, and a carriage return
would be dropped from it. -/
def fitsRaw (s : String) : Bool :=
  s.toList.all fun c => c ≠ backQuote && c ≠ '\r'

/-- A Go literal for query text, raw when possible so that quoted identifiers stay readable. -/
def queryLiteral (s : String) : String :=
  if fitsRaw s then enclose backQuote s.toList else goLiteral s

/-- One character inside a SQL string: a quote is doubled. -/
def sqlEscape (c : Char) : List Char :=
  if c = singleQuote then [singleQuote, singleQuote] else [c]

/-- A SQL string literal. -/
def sqlLiteral (s : String) : String :=
  enclose singleQuote (s.toList.flatMap sqlEscape)

/-- Whether a character stands for itself in an import path. -/
def isPrintable (c : Char) : Bool :=
  if isAscii c then 0x20 ≤ c.toNat && c.toNat ≠ 0x7F else !unprintableSet.contains c

/-- One character inside an import path: an unprintable character is given by its number. -/
def pathEscape (c : Char) : List Char :=
  if c = doubleQuote then [backslash, doubleQuote]
  else if c = backslash then [backslash, backslash]
  else if c = '\n' then [backslash, 'n']
  else if c = '\r' then [backslash, 'r']
  else if c = '\t' then [backslash, 't']
  else if c.toNat = 0 then [backslash, '0']
  else if isPrintable c then [c]
  else [backslash, 'u', '\x7b'] ++ hexDigits c.toNat ++ ['\x7d']

/-- An import path between double quotes. -/
def pathLiteral (s : String) : String :=
  enclose doubleQuote (s.toList.flatMap pathEscape)

end Sproc.Text
