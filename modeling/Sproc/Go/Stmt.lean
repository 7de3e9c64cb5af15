import Sproc.Go.Expr
import Sproc.Go.Writer

/-!
# Go statements

The statements of generated code as trees, and their layout in lines.

## Main definitions

* `Go.Stmt`, `Go.Stmt.write`
-/

namespace Sproc.Go

/-- An assignment of one value, or of the results of a call, to targets. -/
structure Assign where
  targets : List Expr
  /-- Whether the targets are introduced. -/
  define : Bool
  value : Expr

/-- The text of an assignment. -/
def Assign.render (a : Assign) : String :=
  Text.commaSeparated (a.targets.map Expr.render) ++ (if a.define then " := " else " = ") ++
    a.value.render

mutual

/-- A statement. -/
inductive Stmt where
  | assign (assignment : Assign)
  | declare (name : String) (type : TypeExpr) (init : Option Expr)
  /-- A call whose results are dropped. -/
  | run (call : Expr)
  | deferCall (call : Expr)
  | ret (values : List Expr)
  | panic (value : Expr)
  | breakLoop
  | continueLoop
  /-- A chain of tests, and what to do when none holds. -/
  | branch (first : Arm) (others : List Arm) (otherwise : Option (List Stmt))
  /-- A loop, which runs forever when it has no test. -/
  | loop (test : Option Expr) (body : List Stmt)
  /-- A function literal that is called at once, or when the function returns. -/
  | closure (deferred : Bool) (body : List Stmt)

/-- A test, before which an assignment may run, and what to do when it holds. -/
inductive Arm where
  | mk (init : Option Assign) (test : Expr) (body : List Stmt)

end

/-- The test of an arm with its assignment. -/
def renderTest (init : Option Assign) (test : Expr) : String :=
  match init with
  | some a => a.render ++ "; " ++ test.render
  | none => test.render

/-- A return with its values. -/
def renderReturn (values : List Expr) : String :=
  if values.isEmpty then "return" else "return " ++ Text.commaSeparated (values.map Expr.render)

/-- A declaration of a variable. -/
def renderDeclare (name : String) (type : TypeExpr) (init : Option Expr) : String :=
  let head := "var " ++ name ++ " " ++ type.render
  match init with
  | some value => head ++ " = " ++ value.render
  | none => head

mutual

/-- Writes a statement. -/
def Stmt.write (writer : Writer) : Stmt → Writer
  | .assign a => writer.line a.render
  | .declare name type init => writer.line (renderDeclare name type init)
  | .run call => writer.line call.render
  | .deferCall call => writer.line ("defer " ++ call.render)
  | .ret values => writer.line (renderReturn values)
  | .panic value => writer.line ("panic(" ++ value.render ++ ")")
  | .breakLoop => writer.line "break"
  | .continueLoop => writer.line "continue"
  | .branch (.mk init test body) others otherwise =>
    let writer := writer.openBlock ("if " ++ renderTest init test ++ " \x7b")
    let writer := writeArms (writeList writer body) others
    (writeElse writer otherwise).closeBlock "\x7d"
  | .loop test body =>
    let head :=
      match test with
      | some test => "for " ++ test.render ++ " \x7b"
      | none => "for \x7b"
    (writeList (writer.openBlock head) body).closeBlock "\x7d"
  | .closure deferred body =>
    let head := if deferred then "defer func() \x7b" else "func() \x7b"
    (writeList (writer.openBlock head) body).closeBlock "\x7d()"

/-- Writes statements in order. -/
def writeList (writer : Writer) : List Stmt → Writer
  | [] => writer
  | s :: rest => writeList (s.write writer) rest

/-- Writes the arms behind the first one. -/
def writeArms (writer : Writer) : List Arm → Writer
  | [] => writer
  | .mk init test body :: rest =>
    let writer := writer.reopenBlock ("\x7d else if " ++ renderTest init test ++ " \x7b")
    writeArms (writeList writer body) rest

/-- Writes the alternative when no test holds. -/
def writeElse (writer : Writer) : Option (List Stmt) → Writer
  | none => writer
  | some body => writeList (writer.reopenBlock "\x7d else \x7b") body

end

/-- The text of statements that are not indented. -/
def renderList (body : List Stmt) : String :=
  (writeList {} body).text

/-- A function declaration with its comment. -/
structure Func where
  comment : List String
  name : String
  params : List (String × TypeExpr)
  results : List (String × TypeExpr)
  body : List Stmt

/-- A list of names with their types. -/
def renderFields (fields : List (String × TypeExpr)) : String :=
  Text.commaSeparated (fields.map fun field => field.1 ++ " " ++ field.2.render)

/-- The head of a function declaration. -/
def Func.signature (f : Func) : String :=
  let head := "func " ++ f.name ++ "(" ++ renderFields f.params ++ ")"
  if f.results.isEmpty then head else head ++ " (" ++ renderFields f.results ++ ")"

/-- The text of a function declaration. -/
def Func.render (f : Func) : String :=
  let comment : Writer := f.comment.foldl Writer.line {}
  ((writeList (comment.openBlock (f.signature ++ " \x7b")) f.body).closeBlock "\x7d").text

end Sproc.Go
