/-!
# Cutting and joining text

Operations on text that work on its list of characters: dropping a run of characters at either end,
splitting at a separator, and replacing characters.

## Main definitions

* `dropStart`, `dropEnd`: remove the longest run of matching characters at one end
* `splitOn`, `lastPart`, `firstPart`: the pieces between separators
* `baseName`: the last part of a dotted name without its brackets
-/

namespace Sproc.Text

/-- Blanks between the tokens of a language: space, tab, line feed and carriage return. -/
def isSpace (c : Char) : Bool :=
  c == ' ' || c == '\t' || c == '\n' || c == '\r'

/-- The characters behind leading blanks. -/
def skipSpace (cs : List Char) : List Char :=
  cs.dropWhile isSpace

/-- The text without its leading characters that satisfy `p`. -/
def dropStart (p : Char → Bool) (s : String) : String :=
  String.ofList (s.toList.dropWhile p)

/-- The text without its trailing characters that satisfy `p`. -/
def dropEnd (p : Char → Bool) (s : String) : String :=
  String.ofList (s.toList.reverse.dropWhile p).reverse

/-- The text without the characters satisfying `p` at either end. -/
def dropEnds (p : Char → Bool) (s : String) : String :=
  dropEnd p (dropStart p s)

/-- The pieces of a list of characters between separators; there is always at least one. -/
def splitChars (separator : Char) : List Char → List (List Char)
  | [] => [[]]
  | c :: cs =>
    if c = separator then
      [] :: splitChars separator cs
    else
      match splitChars separator cs with
      | [] => [[c]]
      | piece :: pieces => (c :: piece) :: pieces

theorem splitChars_ne_nil (separator : Char) (cs : List Char) : splitChars separator cs ≠ [] := by
  fun_induction splitChars separator cs <;> simp

/-- The pieces of a text between separators; the empty text is one empty piece. -/
def splitOn (separator : Char) (s : String) : List String :=
  (splitChars separator s.toList).map String.ofList

/-- What follows the last separator, or the whole text. -/
def lastPart (separator : Char) (s : String) : String :=
  String.ofList (s.toList.reverse.takeWhile (· ≠ separator)).reverse

/-- What precedes the first separator, or the whole text. -/
def firstPart (separator : Char) (s : String) : String :=
  String.ofList (s.toList.takeWhile (· ≠ separator))

/-- The text without opening brackets at its start and closing brackets at its end. -/
def stripBrackets (s : String) : String :=
  dropEnd (· = ']') (dropStart (· = '[') s)

/-- The last part of a dotted name, without brackets. -/
def baseName (name : String) : String :=
  stripBrackets (lastPart '.' name)

/-- Whether two texts agree when the letters A to Z are read as small letters. -/
def sameIgnoringCase (a b : String) : Bool :=
  a.toList.map Char.toLower == b.toList.map Char.toLower

/-- The rest of a list that begins with the given characters. -/
def restAfter? : List Char → List Char → Option (List Char)
  | [], cs => some cs
  | _ :: _, [] => none
  | p :: ps, c :: cs => if p = c then restAfter? ps cs else none

/-- A list has a rest behind some characters exactly when it is those characters and that rest. -/
theorem restAfter?_eq_some_iff {front cs rest : List Char} :
    restAfter? front cs = some rest ↔ cs = front ++ rest := by
  fun_induction restAfter? front cs <;> grind

/-- The rest of a text that begins with `start`. -/
def stripStart? (start s : String) : Option String :=
  (restAfter? start.toList s.toList).map String.ofList

/-- The rest of a text that ends with `tail`, once that end is removed. -/
def stripEnd? (tail s : String) : Option String :=
  (restAfter? tail.toList.reverse s.toList.reverse).map fun cs => String.ofList cs.reverse

/-- Whether a text begins with `start`. -/
def beginsWith (start s : String) : Bool :=
  (stripStart? start s).isSome

/-- Whether a text ends with `tail`. -/
def endsIn (tail s : String) : Bool :=
  (stripEnd? tail s).isSome

/-- Whether `part` occurs in a list of characters. -/
def occursIn (part : List Char) : List Char → Bool
  | [] => part.isEmpty
  | c :: cs => (restAfter? part (c :: cs)).isSome || occursIn part cs

/-- Whether `part` occurs somewhere in a text. -/
def hasPart (part s : String) : Bool :=
  occursIn part.toList s.toList

/-- Replaces the first occurrence of `part` in a list of characters. -/
def replaceFirstChars (part replacement : List Char) : List Char → List Char
  | [] => if part.isEmpty then replacement else []
  | c :: cs =>
    match restAfter? part (c :: cs) with
    | some rest => replacement ++ rest
    | none => c :: replaceFirstChars part replacement cs

/-- Replaces the first occurrence of `part` in a text. -/
def replaceFirst (part replacement s : String) : String :=
  String.ofList (replaceFirstChars part.toList replacement.toList s.toList)

/-- Texts separated by `", "`. -/
def commaSeparated (parts : List String) : String :=
  String.intercalate ", " parts

end Sproc.Text
