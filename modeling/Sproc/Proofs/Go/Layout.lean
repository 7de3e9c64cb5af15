import Sproc.Proofs.Go.Failure

/-!
# The layout of code

Each block is indented by one tab more than the statement that holds it, and behind a statement the
writer stands where it stood in front of it. So the indentation of a line says how many blocks are
open there. An assignment that introduces `err` hides the result of that name, unless its line has
the indentation of the outermost block.

## Main definitions

* `Go.Writer.Precedes`, `Go.Writer.Settles`: a writer goes on from another, perhaps at the same
  indentation
* `Go.Stmt.bindsError`: a statement holds an assignment that introduces `err`
* `Go.Stmt.assigns`: the assignments of a statement, with the writers in front of their lines
* `Go.writeChain`, `Go.openArm`, `Go.openElse`, `Go.openLoop`, `Go.openLiteral`: the writer behind
  the line that opens a block
* `Go.Func.head`, `Go.Func.written`: the writer behind the head of a function, and behind all of it

## Main results

* `Go.settles_writeList`: statements leave the indentation as it is
* `Go.indent_eq_of_mem_listAssigns`: where only statements of a block itself introduce `err`, they
  do so at the indentation of the block
* `Go.Func.indent_written`: behind a function nothing is indented
-/

namespace Sproc.Go

/-! ## Assignments that introduce `err` -/

/-- Whether an assignment introduces its targets, and `err` is one of them. -/
def Assign.bindsError (a : Assign) : Bool :=
  a.define && a.targets.any Expr.isError

mutual

/-- Whether an assignment inside a statement introduces `err`. -/
def Stmt.bindsError : Stmt → Bool
  | .assign a => a.bindsError
  | .branch (.mk _ _ body) others otherwise =>
    listBindsError body || (armsBindError others || elseBindsError otherwise)
  | .loop _ body => listBindsError body
  | .closure _ body => listBindsError body
  | _ => false

/-- The same for a list of statements. -/
def listBindsError : List Stmt → Bool
  | [] => false
  | s :: rest => s.bindsError || listBindsError rest

/-- The same for the arms of a chain. -/
def armsBindError : List Arm → Bool
  | [] => false
  | .mk _ _ body :: rest => listBindsError body || armsBindError rest

/-- The same for an alternative. -/
def elseBindsError : Option (List Stmt) → Bool
  | none => false
  | some body => listBindsError body

end

theorem listBindsError_eq_false {body : List Stmt} :
    listBindsError body = false ↔ ∀ s ∈ body, s.bindsError = false := by
  induction body with
  | nil => simp [listBindsError]
  | cons s rest ih => simp [listBindsError, ih]

/-! ## What is written, and where the writer stands -/

namespace Writer

variable {writer middle after : Writer}

/-- A writer has gone on from another. -/
def Precedes (writer after : Writer) : Prop :=
  ∃ more, after.text = writer.text ++ more

theorem Precedes.refl (writer : Writer) : writer.Precedes writer :=
  ⟨"", String.append_empty.symm⟩

theorem Precedes.trans (h : writer.Precedes middle) (h' : middle.Precedes after) :
    writer.Precedes after := by
  obtain ⟨more, hmore⟩ := h
  obtain ⟨more', hmore'⟩ := h'
  exact ⟨more ++ more', by rw [hmore', hmore, String.append_assoc]⟩

theorem precedes_line (writer : Writer) (s : String) : writer.Precedes (writer.line s) :=
  ⟨_, by simp only [line, String.append_assoc]; rfl⟩

theorem precedes_openBlock (writer : Writer) (s : String) : writer.Precedes (writer.openBlock s) :=
  writer.precedes_line s

theorem precedes_closeBlock (writer : Writer) (s : String) :
    writer.Precedes (writer.closeBlock s) :=
  precedes_line { writer with indent := writer.indent - 1 } s

theorem precedes_reopenBlock (writer : Writer) (s : String) :
    writer.Precedes (writer.reopenBlock s) :=
  writer.precedes_closeBlock s

/-- A writer has gone on from another, and stands where that one stood. -/
structure Settles (writer after : Writer) : Prop where
  indent : after.indent = writer.indent
  precedes : writer.Precedes after

namespace Settles

theorem refl (writer : Writer) : writer.Settles writer :=
  ⟨rfl, .refl writer⟩

theorem trans (h : writer.Settles middle) (h' : middle.Settles after) : writer.Settles after :=
  ⟨h'.indent.trans h.indent, h.precedes.trans h'.precedes⟩

/-- Behind a block the writer stands where it stood in front of it. -/
theorem closeBlock {head : String} (h : (writer.openBlock head).Settles after) (foot : String) :
    writer.Settles (after.closeBlock foot) where
  indent := by rw [indent_closeBlock, h.indent, indent_openBlock, Nat.add_sub_cancel]
  precedes := (writer.precedes_openBlock head).trans
    (h.precedes.trans (after.precedes_closeBlock foot))

/-- The next block of a chain is as far inside as the one in front of it. -/
theorem reopenBlock (h : writer.Settles after) (hinside : 0 < writer.indent) (head : String) :
    writer.Settles (after.reopenBlock head) where
  indent := by
    change after.indent - 1 + 1 = writer.indent
    rw [h.indent, Nat.sub_add_cancel hinside]
  precedes := h.precedes.trans (after.precedes_reopenBlock head)

end Settles

end Writer

mutual

/-- A statement leaves the indentation as it is. -/
theorem settles_write (writer : Writer) : ∀ s : Stmt, writer.Settles (s.write writer)
  | .assign _ | .declare _ _ _ | .run _ | .deferCall _ | .ret _ | .panic _ | .breakLoop
  | .continueLoop => ⟨rfl, writer.precedes_line _⟩
  | .branch (.mk init test body) others otherwise => by
    have hbody :=
      settles_writeList (writer.openBlock ("if " ++ renderTest init test ++ " \x7b")) body
    have harms := hbody.trans (settles_writeArms _ (hbody.indent ▸ Nat.succ_pos _) others)
    exact (harms.trans (settles_writeElse _ (harms.indent ▸ Nat.succ_pos _) otherwise)).closeBlock _
  | .loop _ body => (settles_writeList _ body).closeBlock _
  | .closure _ body => (settles_writeList _ body).closeBlock _

theorem settles_writeList (writer : Writer) : ∀ body, writer.Settles (writeList writer body)
  | [] => .refl writer
  | s :: rest => (settles_write writer s).trans (settles_writeList _ rest)

theorem settles_writeArms (writer : Writer) (hinside : 0 < writer.indent) :
    ∀ arms, writer.Settles (writeArms writer arms)
  | [] => .refl writer
  | .mk init test body :: rest => by
    have hopen := (Writer.Settles.refl writer).reopenBlock hinside
      ("\x7d else if " ++ renderTest init test ++ " \x7b")
    have hbody := hopen.trans (settles_writeList _ body)
    exact hbody.trans (settles_writeArms _ (hbody.indent ▸ hinside) rest)

theorem settles_writeElse (writer : Writer) (hinside : 0 < writer.indent) :
    ∀ otherwise, writer.Settles (writeElse writer otherwise)
  | none => .refl writer
  | some body =>
    ((Writer.Settles.refl writer).reopenBlock hinside _).trans (settles_writeList _ body)

end

/-! ## Open blocks -/

/-- The writer behind the arms of a chain, when the block of the last one is still open. -/
def writeChain (writer : Writer) : List Arm → Writer
  | [] => writer
  | .mk init test body :: others =>
    writeArms (writeList (writer.openBlock ("if " ++ renderTest init test ++ " \x7b")) body) others

/-- The writer behind the line that opens the next arm of a chain. -/
def openArm (writer : Writer) (arms : List Arm) (init : Option Assign) (test : Expr) : Writer :=
  if arms.isEmpty then writer.openBlock ("if " ++ renderTest init test ++ " \x7b")
  else (writeChain writer arms).reopenBlock ("\x7d else if " ++ renderTest init test ++ " \x7b")

/-- The writer behind the line that opens the alternative of a chain. -/
def openElse (writer : Writer) (arms : List Arm) : Writer :=
  (writeChain writer arms).reopenBlock "\x7d else \x7b"

/-- The writer behind the line that opens a loop. -/
def openLoop (writer : Writer) (test : Option Expr) : Writer :=
  match test with
  | some test => writer.openBlock ("for " ++ test.render ++ " \x7b")
  | none => writer.openBlock "for \x7b"

/-- The writer behind the line that opens a function literal. -/
def openLiteral (writer : Writer) (deferred : Bool) : Writer :=
  writer.openBlock (if deferred then "defer func() \x7b" else "func() \x7b")

theorem indent_writeChain (writer : Writer) {arms : List Arm} (h : arms ≠ []) :
    (writeChain writer arms).indent = writer.indent + 1 := by
  cases arms with
  | nil => exact absurd rfl h
  | cons arm others =>
    obtain ⟨init, test, body⟩ := arm
    have hbody :=
      settles_writeList (writer.openBlock ("if " ++ renderTest init test ++ " \x7b")) body
    exact (hbody.trans (settles_writeArms _ (hbody.indent ▸ Nat.succ_pos _) others)).indent

@[simp]
theorem indent_openArm (writer : Writer) (arms : List Arm) (init : Option Assign) (test : Expr) :
    (openArm writer arms init test).indent = writer.indent + 1 := by
  unfold openArm
  split
  next => rfl
  next h =>
    change (writeChain writer arms).indent - 1 + 1 = _
    rw [indent_writeChain writer (by simpa using h), Nat.add_sub_cancel]

@[simp]
theorem indent_openElse (writer : Writer) (arms : List Arm) (arm : Arm) :
    (openElse writer (arms ++ [arm])).indent = writer.indent + 1 := by
  change (writeChain writer (arms ++ [arm])).indent - 1 + 1 = _
  rw [indent_writeChain writer (by simp), Nat.add_sub_cancel]

@[simp]
theorem indent_openLoop (writer : Writer) (test : Option Expr) :
    (openLoop writer test).indent = writer.indent + 1 := by
  cases test <;> rfl

@[simp]
theorem indent_openLiteral (writer : Writer) (deferred : Bool) :
    (openLiteral writer deferred).indent = writer.indent + 1 := rfl

/-! ## What is written into open blocks -/

theorem writeList_append (writer : Writer) (front back : List Stmt) :
    writeList writer (front ++ back) = writeList (writeList writer front) back := by
  induction front generalizing writer with
  | nil => rfl
  | cons s rest ih => exact ih _

theorem writeArms_append (writer : Writer) (front back : List Arm) :
    writeArms writer (front ++ back) = writeArms (writeArms writer front) back := by
  induction front generalizing writer with
  | nil => rfl
  | cons arm rest ih =>
    obtain ⟨init, test, body⟩ := arm
    exact ih _

/-- The statements that a chain of arms makes with its alternative. -/
def chain (arms : List Arm) (otherwise : Option (List Stmt)) : List Stmt :=
  match arms with
  | [] => []
  | first :: others => [.branch first others otherwise]

/-- Code of a conditional that continues a chain, with the arms in front of it. -/
def chained (arms : List Arm) (code : List Stmt) : List Stmt :=
  match arms, code with
  | first :: others, [.branch next more otherwise] =>
    [.branch first (others ++ next :: more) otherwise]
  | _, code => code

@[simp]
theorem chained_nil (code : List Stmt) : chained [] code = code := rfl

theorem chained_branch (arms : List Arm) (next : Arm) (more : List Arm)
    (otherwise : Option (List Stmt)) :
    chained arms [.branch next more otherwise] = chain (arms ++ next :: more) otherwise := by
  cases arms <;> rfl

/-- Behind the arms of a chain, the block of an arm is open until the chain goes on. -/
theorem writeChain_append (writer : Writer) (arms others : List Arm) (init : Option Assign)
    (test : Expr) (body : List Stmt) :
    writeChain writer (arms ++ .mk init test body :: others) =
      writeArms (writeList (openArm writer arms init test) body) others := by
  cases arms with
  | nil => rfl
  | cons arm rest =>
    obtain ⟨init', test', body'⟩ := arm
    exact writeArms_append _ rest (.mk init test body :: others)

theorem precedes_writeChain (writer : Writer) {arms : List Arm} (h : arms ≠ [])
    (otherwise : Option (List Stmt)) :
    (writeElse (writeChain writer arms) otherwise).Precedes
      (writeList writer (chain arms otherwise)) := by
  cases arms with
  | nil => exact absurd rfl h
  | cons arm others =>
    obtain ⟨init, test, body⟩ := arm
    exact Writer.precedes_closeBlock _ _

/-- The body of an arm is written as a part of its chain. -/
theorem precedes_openArm (writer : Writer) (arms others : List Arm) (init : Option Assign)
    (test : Expr) (body : List Stmt) (otherwise : Option (List Stmt)) :
    (writeList (openArm writer arms init test) body).Precedes
      (writeList writer (chain (arms ++ .mk init test body :: others) otherwise)) := by
  have hbody := settles_writeList (openArm writer arms init test) body
  have hinside : 0 < (writeList (openArm writer arms init test) body).indent := by
    rw [hbody.indent, indent_openArm]
    exact Nat.succ_pos _
  have harms := settles_writeArms _ hinside others
  have helse := settles_writeElse _ (harms.indent ▸ hinside) otherwise
  have hchain := precedes_writeChain writer
    (List.append_ne_nil_of_right_ne_nil arms (List.cons_ne_nil (.mk init test body) others))
    otherwise
  rw [writeChain_append] at hchain
  exact harms.precedes.trans (helse.precedes.trans hchain)

/-- The alternative of a chain is written as a part of it. -/
theorem precedes_openElse (writer : Writer) {arms : List Arm} (h : arms ≠ []) (body : List Stmt) :
    (writeList (openElse writer arms) body).Precedes
      (writeList writer (chain arms (some body))) :=
  precedes_writeChain writer h (some body)

theorem precedes_openLoop (writer : Writer) (test : Option Expr) (body : List Stmt) :
    (writeList (openLoop writer test) body).Precedes ((Stmt.loop test body).write writer) := by
  cases test <;> exact Writer.precedes_closeBlock _ _

theorem precedes_openLiteral (writer : Writer) (deferred : Bool) (body : List Stmt) :
    (writeList (openLiteral writer deferred) body).Precedes
      ((Stmt.closure deferred body).write writer) :=
  Writer.precedes_closeBlock _ _

/-! ## The lines of assignments -/

mutual

/-- The assignments of a statement, each with the writer in front of its line. -/
def Stmt.assigns (writer : Writer) : Stmt → List (Writer × Assign)
  | .assign a => [(writer, a)]
  | .branch (.mk init test body) others otherwise =>
    let opened := openArm writer [] init test
    let first := writeList opened body
    listAssigns opened body ++
      (armAssigns first others ++ elseAssigns (writeArms first others) otherwise)
  | .loop test body => listAssigns (openLoop writer test) body
  | .closure deferred body => listAssigns (openLiteral writer deferred) body
  | _ => []

/-- The assignments of a list of statements. -/
def listAssigns (writer : Writer) : List Stmt → List (Writer × Assign)
  | [] => []
  | s :: rest => s.assigns writer ++ listAssigns (s.write writer) rest

/-- The assignments of the arms behind the first one. -/
def armAssigns (writer : Writer) : List Arm → List (Writer × Assign)
  | [] => []
  | .mk init test body :: rest =>
    let opened := writer.reopenBlock ("\x7d else if " ++ renderTest init test ++ " \x7b")
    listAssigns opened body ++ armAssigns (writeList opened body) rest

/-- The assignments of an alternative. -/
def elseAssigns (writer : Writer) : Option (List Stmt) → List (Writer × Assign)
  | none => []
  | some body => listAssigns (writer.reopenBlock "\x7d else \x7b") body

end

mutual

/-- The assignments that introduce `err` are among those of a statement. -/
theorem bindsError_of_mem_assigns {writer : Writer} {line : Writer × Assign}
    (hbinds : line.2.bindsError = true) :
    ∀ s : Stmt, line ∈ s.assigns writer → s.bindsError = true
  | .assign a, h => by
    obtain rfl := List.mem_singleton.mp h
    exact hbinds
  | .branch (.mk init test body) others otherwise, h => by
    simp only [Stmt.assigns, List.mem_append] at h
    simp only [Stmt.bindsError, Bool.or_eq_true]
    exact h.imp (bindsError_of_mem_listAssigns hbinds body) (Or.imp
      (bindsError_of_mem_armAssigns hbinds others) (bindsError_of_mem_elseAssigns hbinds otherwise))
  | .loop _ body, h => bindsError_of_mem_listAssigns hbinds body h
  | .closure _ body, h => bindsError_of_mem_listAssigns hbinds body h

theorem bindsError_of_mem_listAssigns {writer : Writer} {line : Writer × Assign}
    (hbinds : line.2.bindsError = true) :
    ∀ body, line ∈ listAssigns writer body → listBindsError body = true
  | s :: rest, h => by
    simp only [listBindsError, Bool.or_eq_true]
    exact (List.mem_append.mp h).imp (bindsError_of_mem_assigns hbinds s)
      (bindsError_of_mem_listAssigns hbinds rest)

theorem bindsError_of_mem_armAssigns {writer : Writer} {line : Writer × Assign}
    (hbinds : line.2.bindsError = true) :
    ∀ arms, line ∈ armAssigns writer arms → armsBindError arms = true
  | .mk init test body :: rest, h => by
    simp only [armsBindError, Bool.or_eq_true]
    exact (List.mem_append.mp h).imp (bindsError_of_mem_listAssigns hbinds body)
      (bindsError_of_mem_armAssigns hbinds rest)

theorem bindsError_of_mem_elseAssigns {writer : Writer} {line : Writer × Assign}
    (hbinds : line.2.bindsError = true) :
    ∀ otherwise, line ∈ elseAssigns writer otherwise → elseBindsError otherwise = true
  | some body, h => bindsError_of_mem_listAssigns hbinds body h

end

/-- Where only statements of a block itself introduce `err`, they do so at the indentation of the
block. -/
theorem indent_eq_of_mem_listAssigns {writer : Writer} {line : Writer × Assign} {body : List Stmt}
    (hshallow : ∀ s ∈ body, s.bindsError = true → ∃ a, s = .assign a)
    (hline : line ∈ listAssigns writer body) (hbinds : line.2.bindsError = true) :
    line.1.indent = writer.indent := by
  induction body generalizing writer with
  | nil => cases hline
  | cons s rest ih =>
    rw [List.forall_mem_cons] at hshallow
    rcases List.mem_append.mp hline with hline | hline
    · obtain ⟨a, rfl⟩ := hshallow.1 (bindsError_of_mem_assigns hbinds s hline)
      obtain rfl := List.mem_singleton.mp hline
      rfl
    · exact (ih hshallow.2 hline).trans (settles_write writer s).indent

/-! ## Functions -/

/-- The writer behind the head of a function. -/
def Func.head (f : Func) : Writer :=
  let comment : Writer := f.comment.foldl Writer.line {}
  comment.openBlock (f.signature ++ " \x7b")

/-- The writer behind a function. -/
def Func.written (f : Func) : Writer :=
  (writeList f.head f.body).closeBlock "\x7d"

theorem Func.render_eq (f : Func) : f.render = f.written.text := rfl

@[simp]
theorem Func.indent_head (f : Func) : f.head.indent = 1 := by
  have hlines (comment : List String) (writer : Writer) :
      (comment.foldl Writer.line writer).indent = writer.indent := by
    induction comment generalizing writer with
    | nil => rfl
    | cons line rest ih => exact ih _
  exact congrArg (· + 1) (hlines f.comment {})

/-- Behind a function nothing is indented. -/
@[simp]
theorem Func.indent_written (f : Func) : f.written.indent = 0 := by
  rw [written, Writer.indent_closeBlock, (settles_writeList _ _).indent, indent_head]

end Sproc.Go
