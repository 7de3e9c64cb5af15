import Sproc.Proofs.Go.Layout

/-!
# The text of code

What a writer writes does not depend on the text in front of it: code has a text of its own at each
indentation, and writing the code appends that text. The text of a chain of tests shows its shape.
The lines that open its blocks all stand at the indentation of the chain, and the blocks one tab
further in.

## Main definitions

* `Go.Writer.behind`: a writer with more text in front
* `Go.lineText`, `Go.listText`: the text of a line and of code at an indentation
* `Go.Clause`, `Go.Clause.text`, `Go.chainText`: a test with its block, and the text of a chain

## Main results

* `Go.writeList_eq`: writing code appends its text
* `Go.write_branch`: the text of a chain of tests
-/

namespace Sproc.Go

namespace Writer

/-- A writer with more text in front. -/
def behind (writer : Writer) (front : String) : Writer :=
  { writer with text := front ++ writer.text }

theorem line_behind (writer : Writer) (front s : String) :
    (writer.behind front).line s = (writer.line s).behind front := by
  simp [line, behind, String.append_assoc]

theorem openBlock_behind (writer : Writer) (front s : String) :
    (writer.behind front).openBlock s = (writer.openBlock s).behind front := by
  simp only [openBlock, line_behind]
  rfl

theorem closeBlock_behind (writer : Writer) (front s : String) :
    (writer.behind front).closeBlock s = (writer.closeBlock s).behind front :=
  line_behind { writer with indent := writer.indent - 1 } front s

theorem reopenBlock_behind (writer : Writer) (front s : String) :
    (writer.behind front).reopenBlock s = (writer.reopenBlock s).behind front := by
  simp only [reopenBlock, closeBlock_behind]
  rfl

theorem behind_empty (writer : Writer) : behind ⟨"", writer.indent⟩ writer.text = writer := by
  simp [behind]

end Writer

mutual

/-- The text in front of a statement has no part in how the statement is written. -/
theorem write_behind (writer : Writer) (front : String) :
    ∀ s : Stmt, s.write (writer.behind front) = (s.write writer).behind front
  | .assign _ | .declare _ _ _ | .run _ | .deferCall _ | .ret _ | .panic _ | .breakLoop
  | .continueLoop => writer.line_behind front _
  | .branch (.mk init test body) others otherwise => by
    simp only [Stmt.write, Writer.openBlock_behind, writeList_behind _ _ body,
      writeArms_behind _ _ others, writeElse_behind _ _ otherwise, Writer.closeBlock_behind]
  | .loop test body => by
    simp only [Stmt.write, Writer.openBlock_behind, writeList_behind _ _ body,
      Writer.closeBlock_behind]
  | .closure deferred body => by
    simp only [Stmt.write, Writer.openBlock_behind, writeList_behind _ _ body,
      Writer.closeBlock_behind]

theorem writeList_behind (writer : Writer) (front : String) :
    ∀ body, writeList (writer.behind front) body = (writeList writer body).behind front
  | [] => rfl
  | s :: rest => by
    rw [writeList, writeList, write_behind _ _ s, writeList_behind _ _ rest]

theorem writeArms_behind (writer : Writer) (front : String) :
    ∀ arms, writeArms (writer.behind front) arms = (writeArms writer arms).behind front
  | [] => rfl
  | .mk init test body :: rest => by
    simp only [writeArms, Writer.reopenBlock_behind, writeList_behind _ _ body,
      writeArms_behind _ _ rest]

theorem writeElse_behind (writer : Writer) (front : String) :
    ∀ otherwise, writeElse (writer.behind front) otherwise =
      (writeElse writer otherwise).behind front
  | none => rfl
  | some body => by
    simp only [writeElse, Writer.reopenBlock_behind, writeList_behind _ _ body]

end

/-! ## The text of lines and of code -/

/-- The text of a line at an indentation. -/
def lineText (indent : Nat) (s : String) : String :=
  String.ofList (List.replicate indent '\t') ++ s ++ "\n"

/-- The text of code at an indentation. -/
def listText (indent : Nat) (body : List Stmt) : String :=
  (writeList ⟨"", indent⟩ body).text

/-- Writing code appends its text. -/
theorem writeList_eq (writer : Writer) (body : List Stmt) :
    writeList writer body = ⟨writer.text ++ listText writer.indent body, writer.indent⟩ := by
  have hbehind := writeList_behind ⟨"", writer.indent⟩ writer.text body
  rw [writer.behind_empty, Writer.behind, (settles_writeList _ body).indent] at hbehind
  exact hbehind

theorem listText_append (indent : Nat) (front back : List Stmt) :
    listText indent (front ++ back) = listText indent front ++ listText indent back := by
  rw [listText, writeList_append, writeList_eq, (settles_writeList _ front).indent]
  rfl

theorem Writer.line_eq (writer : Writer) {s : String} (h : s ≠ "") :
    writer.line s = ⟨writer.text ++ lineText writer.indent s, writer.indent⟩ := by
  simp [line, lineText, h, String.append_assoc]

/-! ## Chains of tests -/

/-- A test with the block that is run if it holds. -/
structure Clause where
  test : Expr
  body : List Stmt

namespace Clause

/-- The arm of a clause. -/
def arm (clause : Clause) : Arm :=
  .mk none clause.test clause.body

/-- The text of a clause behind a keyword: its line, and its block one tab further in. -/
def text (clause : Clause) (indent : Nat) (keyword : String) : String :=
  lineText indent (keyword ++ clause.test.render ++ " \x7b") ++ listText (indent + 1) clause.body

end Clause

/-- The text of the alternative of a chain. -/
def elseText (indent : Nat) : Option (List Stmt) → String
  | none => ""
  | some body => lineText indent "\x7d else \x7b" ++ listText (indent + 1) body

/-- The text of a flat chain of tests. -/
def chainText (indent : Nat) (first : Clause) (others : List Clause)
    (otherwise : Option (List Stmt)) : String :=
  first.text indent "if " ++ String.join (others.map (·.text indent "\x7d else if ")) ++
    elseText indent otherwise ++ lineText indent "\x7d"

theorem writeArms_clauses (text : String) (indent : Nat) (clauses : List Clause) :
    writeArms ⟨text, indent + 1⟩ (clauses.map Clause.arm) =
      ⟨text ++ String.join (clauses.map (·.text indent "\x7d else if ")), indent + 1⟩ := by
  induction clauses generalizing text with
  | nil => simp [writeArms]
  | cons clause rest ih =>
    simp only [List.map_cons, Clause.arm, writeArms, renderTest, Writer.reopenBlock,
      Writer.closeBlock, Nat.add_sub_cancel]
    rw [Writer.line_eq _ (by simp), writeList_eq]
    rw [ih]
    simp [Clause.text, String.append_assoc]

theorem writeElse_eq (text : String) (indent : Nat) (otherwise : Option (List Stmt)) :
    writeElse ⟨text, indent + 1⟩ otherwise =
      ⟨text ++ elseText indent otherwise, indent + 1⟩ := by
  cases otherwise with
  | none => simp [writeElse, elseText]
  | some body =>
    simp only [writeElse, Writer.reopenBlock, Writer.closeBlock, Nat.add_sub_cancel]
    rw [Writer.line_eq _ (by simp), writeList_eq]
    simp [elseText, String.append_assoc]

/-- The text of a chain of tests. -/
theorem write_branch (writer : Writer) (first : Clause) (others : List Clause)
    (otherwise : Option (List Stmt)) :
    (Stmt.branch first.arm (others.map Clause.arm) otherwise).write writer =
      ⟨writer.text ++ chainText writer.indent first others otherwise, writer.indent⟩ := by
  rw [Clause.arm, Stmt.write]
  simp only [renderTest, Writer.openBlock, Writer.closeBlock]
  rw [Writer.line_eq _ (by simp), writeList_eq, writeArms_clauses, writeElse_eq,
    Writer.line_eq _ (by simp)]
  simp [chainText, Clause.text, String.append_assoc]

end Sproc.Go
