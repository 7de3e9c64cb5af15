import Sproc.Error
import Sproc.Text.Quoted

/-!
# SQL dialects

The five dialects in which query text is written, and all that differs between them: how identifiers
are quoted, how placeholders are spelled, where a row limit stands, how a procedure is called, and
how the types of casts are named.

## Main definitions

* `Dialect`, `Dialect.parse`
* `needsQuoting`, `unbracket`, `escapeIdentifier`: quoting of dotted names
* the spelling of each construct, as functions of the dialect
-/

namespace Sproc

/-- A dialect of SQL. -/
inductive Dialect where
  | postgres
  | mysql
  | sqlite
  | sqlserver
  | oracle
  deriving DecidableEq, Repr

/-- Words that are quoted when they serve as identifiers. -/
def reservedWords : List String := [
  "order", "group", "user", "table", "select", "from", "where", "join", "left", "right", "inner",
  "outer", "on", "and", "or", "not", "null", "true", "false", "limit", "offset", "as", "in", "is",
  "like", "between", "having", "union", "all", "distinct", "case", "when", "then", "else", "end",
  "create", "alter", "drop", "insert", "update", "delete", "index", "key", "primary", "foreign",
  "references", "default", "constraint", "check"]

/-- Whether one part of a name is quoted: it is a reserved word, starts with a number, or holds a
character that is neither a letter, a number nor an underscore. -/
def needsQuoting (name : String) : Bool :=
  reservedWords.contains (Text.toLower name) ||
    name.toList.any (fun c => !Text.isAlphanumeric c && c != '_') ||
    name.toList.head?.any Text.isNumeric

/-- A name without the brackets around it. -/
def unbracket (name : String) : String :=
  ((Text.stripStart? "[" name).bind (Text.stripEnd? "]")).getD name

/-- Quotes those parts of a dotted name that need it; empty parts are dropped. -/
def escapeIdentifierWith (quote : String → String) (name : String) : String :=
  let parts := (Text.splitOn '.' name).filter (!·.isEmpty)
  String.intercalate "." (parts.map fun part =>
    let part := unbracket part
    if needsQuoting part then quote part else part)

/-- Encloses a name in quotation marks, doubling the closing mark inside it. -/
def quoteName (opening closing : Char) (part : String) : String :=
  let doubled := part.toList.flatMap fun c => if c = closing then [c, c] else [c]
  String.ofList (opening :: doubled ++ [closing])

/-- Quotes a dotted name with double quotes where needed. -/
def escapeIdentifier (name : String) : String :=
  escapeIdentifierWith (quoteName Text.doubleQuote Text.doubleQuote) name

namespace Dialect

/-- Every dialect. -/
def all : List Dialect := [postgres, mysql, sqlite, sqlserver, oracle]

/-- The name of a dialect. -/
def id : Dialect → String
  | postgres => "postgres"
  | mysql => "mysql"
  | sqlite => "sqlite"
  | sqlserver => "sqlserver"
  | oracle => "oracle"

/-- The dialect of a name, exactly as `id` writes it. -/
def ofId? (name : String) : Option Dialect :=
  all.find? (·.id == name)

/-- The dialect that a name or one of its aliases stands for, in any case. -/
def parse (name : String) : Except Fault Dialect :=
  match Text.toLower name with
  | "postgres" | "postgresql" | "pg" => .ok postgres
  | "mysql" => .ok mysql
  | "sqlite" | "sqlite3" => .ok sqlite
  | "sqlserver" | "mssql" | "tsql" => .ok sqlserver
  | "oracle" => .ok oracle
  | other => .error (.invalidConfig
      s!"unknown dialect '{other}' (expected one of postgres, mysql, sqlite, sqlserver, oracle)")

/-- An identifier, quoted where needed. -/
def quoteIdentifier : Dialect → String → String
  | postgres | sqlite | oracle => escapeIdentifier
  | mysql => escapeIdentifierWith (quoteName Text.backQuote Text.backQuote)
  | sqlserver => escapeIdentifierWith (quoteName '[' ']')

/-- The placeholder of the argument with the given number. -/
def placeholder (dialect : Dialect) (index : Nat) : String :=
  match dialect with
  | postgres => s!"${index}"
  | mysql | sqlite => "?"
  | sqlserver => s!"@p{index}"
  | oracle => s!":p{index}"

/-- A Boolean constant. -/
def boolLiteral (dialect : Dialect) (value : Bool) : String :=
  match dialect with
  | postgres => if value then "true" else "false"
  | _ => if value then "1" else "0"

/-- The current time. -/
def currentTimestamp : Dialect → String
  | postgres | mysql => "NOW()"
  | sqlite => "CURRENT_TIMESTAMP"
  | sqlserver => "GETDATE()"
  | oracle => "SYSTIMESTAMP"

/-- The function that counts the characters of a string. -/
def lengthFunction : Dialect → String
  | mysql => "CHAR_LENGTH"
  | sqlserver => "LEN"
  | _ => "LENGTH"

/-- The name of a table that lives for one call only. -/
def temporaryTable (dialect : Dialect) (name : String) : String :=
  match dialect with
  | sqlserver => name
  | _ => "tmp_" ++ Text.dropStart (fun c => c == '#' || c == '@') name

/-- Whether a row limit stands before the select list. -/
def leadingTop : Dialect → Bool
  | sqlserver => true
  | _ => false

/-- The concatenation of strings. -/
def stringConcat (dialect : Dialect) (parts : List String) : String :=
  match dialect with
  | mysql => "CONCAT(" ++ Text.commaSeparated parts ++ ")"
  | sqlserver => String.intercalate " + " parts
  | _ => String.intercalate " || " parts

/-- A row limit before the select list, for a dialect that has this form. -/
def topPrefix? (dialect : Dialect) (count : String) : Option String :=
  if dialect.leadingTop then some ("TOP (" ++ count ++ ") ") else none

/-- A row limit at the end of a query. -/
def limitSuffix (dialect : Dialect) (count : String) : String :=
  match dialect with
  | sqlserver => ""
  | oracle => " FETCH FIRST " ++ count ++ " ROWS ONLY"
  | _ => " LIMIT " ++ count

/-- The call of a stored procedure. -/
def procedureCall (dialect : Dialect) (name : String) (args : List String) : String :=
  let name := dialect.quoteIdentifier name
  match dialect with
  | sqlserver =>
    if args.isEmpty then "EXEC " ++ name else "EXEC " ++ name ++ " " ++ Text.commaSeparated args
  | _ => "CALL " ++ name ++ "(" ++ Text.commaSeparated args ++ ")"

/-- An argument given by name; only one dialect writes the name. -/
def argumentNamed (dialect : Dialect) (name value : String) : String :=
  match dialect with
  | sqlserver => name ++ " = " ++ value
  | _ => value

/-- A query that yields one row, which says whether `inner` has rows. -/
def existenceProbe (dialect : Dialect) (inner : String) : String :=
  match dialect with
  | sqlserver => "SELECT CASE WHEN EXISTS (" ++ inner ++ ") THEN 1 ELSE 0 END"
  | oracle => "SELECT CASE WHEN EXISTS (" ++ inner ++ ") THEN 1 ELSE 0 END FROM DUAL"
  | _ => "SELECT EXISTS (" ++ inner ++ ")"

/-- The name of a type in a cast. -/
def castType (dialect : Dialect) (type : String) : String :=
  let upper := Text.toUpper type
  let base := Text.trim (Text.firstPart '(' upper)
  match dialect with
  | postgres =>
    if ["NVARCHAR", "NCHAR", "VARCHAR"].contains base && Text.hasPart "MAX" upper then "TEXT"
    else
      match base with
      | "NVARCHAR" => Text.replaceFirst "NVARCHAR" "VARCHAR" upper
      | "NCHAR" => Text.replaceFirst "NCHAR" "CHAR" upper
      | "DATETIME" | "DATETIME2" | "SMALLDATETIME" => "TIMESTAMP"
      | "BIT" => "BOOLEAN"
      | "TINYINT" => "SMALLINT"
      | "UNIQUEIDENTIFIER" => "UUID"
      | "MONEY" => "NUMERIC(19, 4)"
      | _ => type
  | mysql =>
    match base with
    | "INT" | "INTEGER" | "BIGINT" | "SMALLINT" | "TINYINT" => "SIGNED"
    | "VARCHAR" | "NVARCHAR" | "NCHAR" | "TEXT" => "CHAR"
    | "DATETIME2" | "SMALLDATETIME" => "DATETIME"
    | "MONEY" => "DECIMAL(19, 4)"
    | _ => upper
  | sqlite =>
    match base with
    | "INT" | "BIGINT" | "SMALLINT" | "TINYINT" | "BIT" => "INTEGER"
    | "DECIMAL" | "NUMERIC" | "MONEY" => "NUMERIC"
    | "FLOAT" | "REAL" => "REAL"
    | _ => "TEXT"
  | oracle =>
    match base with
    | "INT" | "BIGINT" | "SMALLINT" | "TINYINT" | "BIT" => "NUMBER"
    | "VARCHAR" | "NVARCHAR" => Text.replaceFirst base "VARCHAR2" upper
    | "DATETIME" | "DATETIME2" | "SMALLDATETIME" => "TIMESTAMP"
    | _ => upper
  | sqlserver => type

end Dialect

end Sproc
