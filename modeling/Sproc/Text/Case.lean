import Sproc.Text.Alphabetic
import Sproc.Text.Numeric
import Sproc.Text.LetterCase
import Sproc.Text.CaseTable
import Sproc.Text.Basic

/-!
# Character classes and changes of case

Classes of characters and the full case mappings of Unicode. ASCII characters are decided by core's
functions and all others by the tables.

A whole text is lowered with the rule for a final sigma: a capital sigma becomes `ς` when a cased
letter stands before it and none behind it, characters without case being passed over. Characters
that are lowered one by one do not look at their neighbours.

## Main definitions

* `isAlphabetic`, `isNumeric`, `isAlphanumeric`, `isUpper`, `isLower`, `isBlank`
* `upperChars`, `lowerChars`: the image of one character
* `toUpper`, `toLower`: the image of a text
* `trim`: a text without blanks at its ends
-/

namespace Sproc.Text

/-- The Unicode property Alphabetic. -/
def isAlphabetic (c : Char) : Bool :=
  if isAscii c then c.isAlpha else alphabeticSet.contains c

/-- Decimal digits, letter numbers and other numbers. -/
def isNumeric (c : Char) : Bool :=
  if isAscii c then c.isDigit else numericSet.contains c

/-- Letters and numbers. -/
def isAlphanumeric (c : Char) : Bool :=
  isAlphabetic c || isNumeric c

/-- The Unicode property Uppercase. -/
def isUpper (c : Char) : Bool :=
  if isAscii c then c.isUpper else uppercaseSet.contains c

/-- The Unicode property Lowercase. -/
def isLower (c : Char) : Bool :=
  if isAscii c then c.isLower else lowercaseSet.contains c

/-- The Unicode property Cased: upper case, lower case or title case. -/
def isCased (c : Char) : Bool :=
  isUpper c || isLower c || titlecaseSet.contains c

/-- Characters that the search for a neighbouring letter passes over. -/
def isCaseIgnorable (c : Char) : Bool :=
  if isAscii c then
    c == Char.ofNat 0x27 || c == '.' || c == ':' || c == '^' || c == Char.ofNat 0x60
  else
    caseIgnorableSet.contains c

/-- The Unicode property White_Space. -/
def isBlank (c : Char) : Bool :=
  let n := c.toNat
  (9 ≤ n && n ≤ 13) || n == 0x20 || n == 0x85 || n == 0xA0 || n == 0x1680 ||
    (0x2000 ≤ n && n ≤ 0x200A) || n == 0x2028 || n == 0x2029 || n == 0x202F || n == 0x205F ||
    n == 0x3000

/-- The image of a code point beyond ASCII under a table of shifts and a table of expansions. -/
def mapCase (shifts : List CaseShift) (expansions : List (Nat × List Nat)) (c : Char) : List Char :=
  match expansions.lookup c.toNat with
  | some image => image.map Char.ofNat
  | none =>
    match shifts.find? (·.run.contains c.toNat) with
    | some shift => [Char.ofNat (c.toNat + shift.delta).toNat]
    | none => [c]

/-- The upper-case form of one character. -/
def upperChars (c : Char) : List Char :=
  if isAscii c then [c.toUpper] else mapCase upperShifts upperExpansions c

/-- The lower-case form of one character, whatever its neighbours are. -/
def lowerChars (c : Char) : List Char :=
  if isAscii c then [c.toLower] else mapCase lowerShifts lowerExpansions c

/-- The upper-case form of a text. -/
def toUpper (s : String) : String :=
  String.ofList (s.toList.flatMap upperChars)

/-- Whether the first character that is not passed over is cased. -/
def reachesCased (cs : List Char) : Bool :=
  match cs.dropWhile isCaseIgnorable with
  | [] => false
  | c :: _ => isCased c

/-- Lowers the characters `rest`, which follow the characters `before` (nearest first). -/
def lowerFrom (before : List Char) : List Char → List Char
  | [] => []
  | c :: rest =>
    let image :=
      if c = 'Σ' then
        if reachesCased before && !reachesCased rest then ['ς'] else ['σ']
      else
        lowerChars c
    image ++ lowerFrom (c :: before) rest

/-- The lower-case form of a text. -/
def toLower (s : String) : String :=
  String.ofList (lowerFrom [] s.toList)

/-- A text without blanks at its ends. -/
def trim (s : String) : String :=
  dropEnds isBlank s

end Sproc.Text
