import Sproc.Error
import Sproc.GoType
import Sproc.Text.Case
import Sproc.Text.Number

/-!
# T-SQL type names

A type name is an optional qualifier, a base name and an optional list of arguments in parentheses:
`DECIMAL(18, 2)`, `NVARCHAR(MAX)`, `[dbo].[int]`, `double precision`. Base names are compared in
upper case, and each known one has a Go type.

The readers below take the characters that are left and return what they read with the rest.

## Main definitions

* `TypeName.parse`: reads a complete type name
* `TypeName.classify`: the Go type of a type name
-/

namespace Sproc

/-- A length or precision in a type name. -/
inductive TypeArg where
  | size (n : Nat)
  | max
  deriving DecidableEq, Repr

/-- A base name in upper case and its arguments. -/
structure TypeName where
  name : String
  args : List TypeArg := []
  deriving DecidableEq, Repr

/-- What is known about a declared type. -/
structure TypeInfo where
  go : GoType
  /-- The spelling of the declaration in upper case. -/
  sql : String
  deriving DecidableEq, Repr

/-- The category of the Go type. -/
def TypeInfo.category (info : TypeInfo) : Category :=
  info.go.category

namespace TypeName

/-- The characters of words. -/
def isWordChar (c : Char) : Bool :=
  Text.isAlphanumeric c || c == '_'

/-- Reads a non-empty word. -/
def word? (cs : List Char) : Option (List Char × List Char) :=
  let w := cs.takeWhile isWordChar
  if w.isEmpty then none else some (w, cs.dropWhile isWordChar)

/-- Reads a word in brackets. -/
def bracketed? : List Char → Option (List Char × List Char)
  | '[' :: cs =>
    match word? cs with
    | some (w, ']' :: rest) => some (w, rest)
    | _ => none
  | _ => none

/-- Reads a word, which may stand in brackets. -/
def part? (cs : List Char) : Option (List Char × List Char) :=
  (bracketed? cs).or (word? cs)

/-- Reads the given small letters in any case. -/
def keyword? : List Char → List Char → Option (List Char)
  | [], cs => some cs
  | _ :: _, [] => none
  | k :: ks, c :: cs => if c.toLower = k then keyword? ks cs else none

/-- Reads two keywords with blanks between them. -/
def keywordPair? (first second : String) (cs : List Char) : Option (List Char) :=
  match keyword? first.toList cs with
  | some (c :: rest) =>
    if Text.isSpace c then keyword? second.toList (Text.skipSpace rest) else none
  | _ => none

/-- Skips a qualifier and its dot, if there is one. -/
def skipQualifier (cs : List Char) : List Char :=
  match part? cs with
  | some (_, '.' :: rest) => rest
  | _ => cs

/-- Reads a base name: one of the two spellings of two words, or a part. -/
def base? (cs : List Char) : Option (String × List Char) :=
  match keywordPair? "double" "precision" cs with
  | some rest => some ("FLOAT", rest)
  | none =>
    match keywordPair? "character" "varying" cs with
    | some rest => some ("VARCHAR", rest)
    | none => (part? cs).map fun (w, rest) => (Text.toUpper (String.ofList w), rest)

/-- Reads one argument: `max` in any case, or a number of at most 32 bits. -/
def arg? (cs : List Char) : Option (TypeArg × List Char) :=
  match keyword? ['m', 'a', 'x'] cs with
  | some rest => some (.max, rest)
  | none =>
    let digits := cs.takeWhile Char.isDigit
    let n := Text.decimalValue digits
    if digits.isEmpty || 0x100000000 ≤ n then none else some (.size n, cs.dropWhile Char.isDigit)

/-- Reads the arguments behind the first one: each follows a comma, with blanks around it. At
most `fuel` arguments are read, which is enough when `fuel` is the number of characters. -/
def moreArgs : Nat → List Char → List TypeArg × List Char
  | 0, cs => ([], cs)
  | fuel + 1, cs =>
    match Text.skipSpace cs with
    | ',' :: rest =>
      match arg? (Text.skipSpace rest) with
      | some (arg, rest) =>
        let (args, rest) := moreArgs fuel rest
        (arg :: args, rest)
      | none => ([], cs)
    | _ => ([], cs)

/-- Reads a list of arguments in parentheses. -/
def args? : List Char → Option (List TypeArg × List Char)
  | '(' :: cs =>
    match arg? (Text.skipSpace cs) with
    | some (first, rest) =>
      let (others, rest) := moreArgs rest.length rest
      match Text.skipSpace rest with
      | ')' :: rest => some (first :: others, rest)
      | _ => none
    | none => none
  | _ => none

/-- Reads a whole type name from characters. -/
def read? (cs : List Char) : Option TypeName :=
  match base? (skipQualifier (Text.skipSpace cs)) with
  | none => none
  | some (name, rest) =>
    let (args, rest) := (args? (Text.skipSpace rest)).getD ([], rest)
    if (Text.skipSpace rest).isEmpty then some ⟨name, args⟩ else none

/-- Reads a complete type name. -/
def parse (text : String) : Except Fault TypeName :=
  match read? text.toList with
  | some type => .ok type
  | none => .error (.unknownType (Text.trim text))

/-- The Go type of a base name. -/
def goType? : String → Option GoType
  | "BIT" => some .bool
  | "TINYINT" => some .uint8
  | "SMALLINT" => some .int16
  | "INT" | "INTEGER" => some .int32
  | "BIGINT" => some .int64
  | "REAL" => some .float32
  | "FLOAT" => some .float64
  | "DECIMAL" | "NUMERIC" | "DEC" | "MONEY" | "SMALLMONEY" => some .decimal
  | "CHAR" | "VARCHAR" | "NCHAR" | "NVARCHAR" | "TEXT" | "NTEXT" | "UNIQUEIDENTIFIER" | "XML"
  | "SYSNAME" => some .string
  | "BINARY" | "VARBINARY" | "IMAGE" | "ROWVERSION" | "TIMESTAMP" => some .bytes
  | "DATE" | "TIME" | "DATETIME" | "DATETIME2" | "SMALLDATETIME" | "DATETIMEOFFSET" => some .time
  | _ => none

/-- The Go type of a type name. -/
def classify (text : String) : Except Fault TypeInfo := do
  let type ← parse text
  match goType? type.name with
  | some go => .ok ⟨go, Text.toUpper (Text.trim text)⟩
  | none => .error (.unknownType (Text.trim text))

end TypeName

end Sproc
