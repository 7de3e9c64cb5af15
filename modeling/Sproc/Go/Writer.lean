/-!
# Indented lines

Go source is written line by line, with one tab for each open block.

## Main definitions

* `Go.Writer` with `line`, `openBlock`, `closeBlock` and `reopenBlock`
-/

namespace Sproc.Go

/-- The text written so far and the number of open blocks. -/
structure Writer where
  text : String := ""
  indent : Nat := 0
  deriving Repr

namespace Writer

/-- Writes a line; an empty line has no tabs. -/
def line (writer : Writer) (s : String) : Writer :=
  let tabs := if s.isEmpty then "" else String.ofList (List.replicate writer.indent '\t')
  { writer with text := writer.text ++ tabs ++ s ++ "\n" }

@[simp]
theorem indent_line (writer : Writer) (s : String) : (writer.line s).indent = writer.indent := rfl

/-- Writes a line and indents what follows. -/
def openBlock (writer : Writer) (s : String) : Writer :=
  let writer := writer.line s
  { writer with indent := writer.indent + 1 }

@[simp]
theorem indent_openBlock (writer : Writer) (s : String) :
    (writer.openBlock s).indent = writer.indent + 1 := rfl

/-- Writes a line one level further out, where the writer stays. -/
def closeBlock (writer : Writer) (s : String) : Writer :=
  { writer with indent := writer.indent - 1 }.line s

@[simp]
theorem indent_closeBlock (writer : Writer) (s : String) :
    (writer.closeBlock s).indent = writer.indent - 1 := rfl

/-- Writes a line one level further out and indents what follows. -/
def reopenBlock (writer : Writer) (s : String) : Writer :=
  let writer := writer.closeBlock s
  { writer with indent := writer.indent + 1 }

end Writer

end Sproc.Go
