import Sproc.Ast.Statement
import Sproc.Config

/-!
# Cursors

The cursors of a procedure and their life cycle: a cursor is declared, opened, closed and perhaps
opened again, until it is deallocated.

## Main definitions

* `Cursor`, `CursorTable`
* `CursorProblem`: uses out of the life cycle
-/

namespace Sproc

/-- Where a cursor is in its life cycle. -/
inductive CursorState where
  | declared
  | opened
  | closed
  deriving DecidableEq, Repr

/-- Uses of a cursor that are refused. -/
inductive CursorProblem where
  | notDeclared
  | alreadyDeclared
  | noTable
  | remote
  | alreadyOpen
  | notOpen
  | alreadyClosed
  | neverOpened
  | rowUsed
  deriving DecidableEq, Repr

/-- The wording of a problem. -/
def CursorProblem.message : CursorProblem → String
  | notDeclared => "not declared (or already deallocated)"
  | alreadyDeclared => "already declared"
  | noTable => "cursor query has no FROM clause"
  | remote => "the rpc backend has no row iterator; route the table to sql or mock"
  | alreadyOpen => "OPEN of a cursor that is already open"
  | notOpen => "FETCH on a cursor that is not open"
  | alreadyClosed => "CLOSE of a cursor that is already closed"
  | neverOpened => "CLOSE of a cursor that was never opened"
  | rowUsed => "statements between the priming FETCH and its loop use the fetched variables"

/-- A declared cursor. -/
structure Cursor where
  query : Select
  /-- The Go variable that iterates over the rows. -/
  iterator : String
  state : CursorState
  backend : Backend

/-- Cursors by their names in small letters. -/
abbrev CursorTable := List (String × Cursor)

namespace CursorTable

/-- The cursor of a name. -/
def get? (table : CursorTable) (name : String) : Option Cursor :=
  table.lookup (Text.toLower name)

/-- The cursor of a name, which must be declared. -/
def get (table : CursorTable) (name : String) : Except Fault Cursor :=
  match table.get? name with
  | some cursor => .ok cursor
  | none => .error (.cursor name CursorProblem.notDeclared.message)

/-- The table without a cursor. -/
def remove (table : CursorTable) (name : String) : CursorTable :=
  table.filter (·.1 ≠ Text.toLower name)

/-- The table with a cursor, which replaces one of the same name. -/
def put (table : CursorTable) (name : String) (cursor : Cursor) : CursorTable :=
  (Text.toLower name, cursor) :: table.remove name

end CursorTable

end Sproc
