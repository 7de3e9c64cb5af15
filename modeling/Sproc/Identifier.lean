import Sproc.Error
import Sproc.Text.Quoted

/-!
# Identifiers

From T-SQL identifiers such as `@CUSTOMER_ID`, `usp_GetOrders` or `[Order Details]` to Go
identifiers. An identifier is split into words, and the words are put together again in the case
that Go uses, with initialisms such as `ID` in capitals.

## Main definitions

* `words`: the words of an identifier
* `camelCase`, `pascalCase`, `fieldName`: the words put together again
* `variableName`, `functionName`: names of Go variables and functions
* `singular`, `plural`, `entityName`: names of the things that a table holds
-/

namespace Sproc.Identifier

/-- Initialisms that Go spells in one case. -/
def initialisms : List String := [
  "ACL", "API", "ASCII", "CPU", "CSS", "DNS", "EOF", "GUID", "HTML", "HTTP", "HTTPS", "ID", "IP",
  "JSON", "QPS", "RAM", "RPC", "SKU", "SLA", "SMTP", "SQL", "SSH", "TCP", "TLS", "TTL", "UDP", "UI",
  "UID", "URI", "URL", "UTC", "UUID", "VAT", "VM", "XML", "XSRF", "XSS"]

/-- Go's keywords and predeclared identifiers. -/
def goReserved : List String := [
  "break", "case", "chan", "const", "continue", "default", "defer", "else", "fallthrough", "for",
  "func", "go", "goto", "if", "import", "interface", "map", "package", "range", "return", "select",
  "struct", "switch", "type", "var", "any", "append", "bool", "byte", "cap", "clear", "close",
  "complex", "copy", "delete", "error", "false", "float32", "float64", "imag", "int", "int16",
  "int32", "int64", "int8", "iota", "len", "make", "max", "min", "new", "nil", "panic", "print",
  "println", "real", "recover", "rune", "string", "true", "uint", "uint16", "uint32", "uint64",
  "uint8"]

/-- Verbs that are recognised at the front of a procedure name. -/
def actionVerbs : List String := [
  "Approve", "Cancel", "Activate", "Deactivate", "Archive", "Reject", "Submit", "Complete",
  "Assign", "Transfer", "Register", "Verify", "Validate", "Process", "Publish", "Lock", "Unlock",
  "Reset", "Search", "Find", "Count"]

/-- Whether a capital `c` starts a new word behind `last`: after a small letter or a digit, and as
the last capital of a row of capitals when a small letter follows. -/
def startsWord (last c : Char) (rest : List Char) : Bool :=
  Text.isUpper c &&
    (Text.isLower last || last.isDigit || (Text.isUpper last && (rest.head?.any Text.isLower)))

/-- Splits characters into words. The characters of the unfinished word come in reverse. -/
def splitChars (current : List Char) : List Char → List (List Char)
  | [] => if current.isEmpty then [] else [current.reverse]
  | c :: rest =>
    if !Text.isAlphanumeric c then
      if current.isEmpty then splitChars [] rest else current.reverse :: splitChars [] rest
    else
      match current with
      | [] => splitChars [c] rest
      | last :: _ =>
        if startsWord last c rest then current.reverse :: splitChars [c] rest
        else splitChars (c :: current) rest

/-- The words of an identifier: it is cut at every character that is neither a letter nor a number,
and where a capital starts a new word. -/
def words (ident : String) : List String :=
  (splitChars [] ident.toList).map String.ofList

/-- The initialism that a word spells, whatever its case. -/
def initialism? (word : String) : Option String :=
  let upper := Text.toUpper word
  initialisms.find? (· == upper)

/-- A word with a capital at its start and small letters behind it. -/
def capitalize (word : String) : String :=
  match word.toList with
  | [] => ""
  | first :: rest => String.ofList (Text.upperChars first ++ rest.flatMap Text.lowerChars)

/-- A word inside a Go name: an initialism, or a capitalised word. -/
def goWord (word : String) : String :=
  (initialism? word).getD (capitalize word)

/-- The words of an identifier, the first in small letters. -/
def camelCase (ident : String) : String :=
  match words ident with
  | [] => ""
  | first :: rest => Text.toLower first ++ String.join (rest.map goWord)

/-- The words of an identifier, each starting with a capital. -/
def pascalCase (ident : String) : String :=
  String.join ((words ident).map goWord)

/-- Whether a text starts with one of `0` to `9`. -/
def startsWithDigit (s : String) : Bool :=
  s.toList.head?.any Char.isDigit

/-- The Go variable for a T-SQL variable or parameter. -/
def variableName (ident : String) : String :=
  let name := camelCase ident
  if name.isEmpty then "v"
  else if startsWithDigit name then "v" ++ name
  else name

/-- Whether Go keeps a name for itself. -/
def isGoReserved (name : String) : Bool :=
  goReserved.contains name

/-- The characters that take up the first `n` bytes and the rest, when a character ends there. -/
def splitBytes? : Nat → List Char → Option (List Char × List Char)
  | 0, cs => some ([], cs)
  | _ + 1, [] => none
  | n + 1, c :: cs =>
    if c.utf8Size ≤ n + 1 then
      (splitBytes? (n + 1 - c.utf8Size) cs).map fun (front, rest) => (c :: front, rest)
    else
      none

/-- Removes a marker such as `usp_` from the front of a longer name, whatever its case. The name is
cut behind as many bytes as the marker has, which must be the end of a character. -/
def cutMarker (marker base : String) : Except Fault (Option String) :=
  if base.utf8ByteSize ≤ marker.utf8ByteSize then
    .ok none
  else
    match splitBytes? marker.utf8ByteSize base.toList with
    | none => .error (.brokenName base)
    | some (front, rest) =>
      .ok (if Text.sameIgnoringCase (String.ofList front) marker then some (String.ofList rest)
        else none)

/-- The bare name of a procedure: no qualifier, no brackets, no `usp_` or `sp_` in front. -/
def procedureBase (name : String) : Except Fault String := do
  let base := Text.baseName name
  match ← cutMarker "usp_" base with
  | some rest => return rest
  | none => return (← cutMarker "sp_" base).getD base

/-- The exported Go function for a procedure. -/
def functionName (procedure : String) : Except Fault String := do
  let name := pascalCase (← procedureBase procedure)
  if name.isEmpty then return "Procedure"
  else if startsWithDigit name then return "Proc" ++ name
  else return name

/-- The action verb at the front of a procedure name. -/
def leadingVerb? (procedure : String) : Except Fault (Option String) := do
  match words (← procedureBase procedure) with
  | [] => return none
  | first :: _ => return actionVerbs.find? (Text.sameIgnoringCase · first)

/-- The request field for a column: the words of its name with capitals at their start. -/
def fieldName (column : String) : String :=
  String.join ((words column).map capitalize)

/-- A text without its last `n` characters. -/
def dropLast (n : Nat) (s : String) : String :=
  String.ofList (s.toList.take (s.toList.length - n))

/-- The singular of an English noun. -/
def singular (word : String) : String :=
  let lower := Text.toLower word
  if Text.endsIn "ies" lower && 3 < word.utf8ByteSize then
    dropLast 3 word ++ "y"
  else if ["sses", "xes", "ches", "shes"].any (Text.endsIn · lower) then
    dropLast 2 word
  else if ["ss", "us", "is"].any (Text.endsIn · lower) then
    word
  else if Text.endsIn "s" lower && 1 < word.utf8ByteSize then
    dropLast 1 word
  else
    word

/-- Whether a character is a small vowel. -/
def isVowel (c : Char) : Bool :=
  ['a', 'e', 'i', 'o', 'u'].contains c

/-- The plural of an English noun. -/
def plural (word : String) : String :=
  let lower := Text.toLower word
  let beforeLast := lower.toList.reverse.tail.head?
  if Text.endsIn "y" lower && !beforeLast.any isVowel then
    dropLast 1 word ++ "ies"
  else if ["s", "x", "ch", "sh"].any (Text.endsIn · lower) then
    word ++ "es"
  else
    word ++ "s"

/-- The thing that a table holds: only the last word of the table's name is made singular. -/
def entityName (table : String) : String :=
  let parts := words (pascalCase (Text.lastPart '.' table))
  match parts.getLast? with
  | some last => String.join parts.dropLast ++ singular last
  | none => "Record"

end Sproc.Identifier
