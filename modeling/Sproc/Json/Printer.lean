import Sproc.Json.Basic
import Sproc.Text.Quoted

/-!
# Writing JSON text

Two layouts of a JSON value: on one line without blanks, and over several lines with two blanks for
each level. Only quotes, backslashes and control characters are escaped.

## Main definitions

* `Json.compress`: the one-line layout
* `Json.pretty`: the layout over several lines
-/

namespace Sproc.Json

/-- One character inside a string. -/
def escape (c : Char) : List Char :=
  if c = Text.doubleQuote then [Text.backslash, Text.doubleQuote]
  else if c = Text.backslash then [Text.backslash, Text.backslash]
  else if c = '\n' then [Text.backslash, 'n']
  else if c = '\r' then [Text.backslash, 'r']
  else if c = '\t' then [Text.backslash, 't']
  else if c.toNat = 8 then [Text.backslash, 'b']
  else if c.toNat = 12 then [Text.backslash, 'f']
  else if c.toNat < 0x20 then [Text.backslash, 'u', '0', '0'] ++ Text.hexPair c.toNat
  else [c]

/-- A string between quotes. -/
def quote (s : String) : String :=
  Text.enclose Text.doubleQuote (s.toList.flatMap escape)

/-- Values without parts. -/
def scalar : Json → String
  | .null => "null"
  | .bool true => "true"
  | .bool false => "false"
  | .int n => toString n
  | .real spelling => spelling
  | .str s => quote s
  | .arr _ => "[]"
  | .obj _ => "\x7b\x7d"

mutual

/-- A value on one line. -/
def compress : Json → String
  | .arr items => "[" ++ String.intercalate "," (compressItems items) ++ "]"
  | .obj fields => "\x7b" ++ String.intercalate "," (compressFields fields) ++ "\x7d"
  | .null => "null"
  | .bool b => scalar (.bool b)
  | .int n => scalar (.int n)
  | .real spelling => spelling
  | .str s => quote s

/-- The items of an array, each on one line. -/
def compressItems : List Json → List String
  | [] => []
  | item :: items => item.compress :: compressItems items

/-- The fields of an object, each on one line. -/
def compressFields : List (String × Json) → List String
  | [] => []
  | (name, value) :: fields => (quote name ++ ":" ++ value.compress) :: compressFields fields

end

/-- The blanks at the start of a line. -/
def indentation (level : Nat) : String :=
  String.ofList (List.replicate (2 * level) ' ')

/-- The parts of an array or object, one on a line, between brackets. -/
def layout (opening closing : String) (level : Nat) (parts : List String) : String :=
  if parts.isEmpty then opening ++ closing
  else
    let inner := "\n" ++ indentation (level + 1)
    opening ++ inner ++ String.intercalate ("," ++ inner) parts ++
      "\n" ++ indentation level ++ closing

mutual

/-- A value over several lines, in a line that is indented by `level` levels. -/
def prettyAt (level : Nat) : Json → String
  | .arr items => layout "[" "]" level (prettyItems (level + 1) items)
  | .obj fields => layout "\x7b" "\x7d" level (prettyFields (level + 1) fields)
  | .null => "null"
  | .bool b => scalar (.bool b)
  | .int n => scalar (.int n)
  | .real spelling => spelling
  | .str s => quote s

/-- The items of an array over several lines. -/
def prettyItems (level : Nat) : List Json → List String
  | [] => []
  | item :: items => prettyAt level item :: prettyItems level items

/-- The fields of an object over several lines. -/
def prettyFields (level : Nat) : List (String × Json) → List String
  | [] => []
  | (name, value) :: fields =>
    (quote name ++ ": " ++ prettyAt level value) :: prettyFields level fields

end

/-- A value over several lines. -/
def pretty (json : Json) : String :=
  prettyAt 0 json

end Sproc.Json
