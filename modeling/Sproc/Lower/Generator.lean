import Sproc.Lower.Procedure

/-!
# Stacks of a generation

The text of a function is written line by line while the statements of its procedure are treated.
Where the current statement stands is kept on stacks: a handler pushes what encloses a part of its
statement before it turns to the part, and takes it off again behind the part. The statements that
have been written are collected besides the text, so that a block is at hand as a tree once it is
closed.

## Main definitions

* `Generator`, `Generate`: the state with the stacks, and the steps that move them
* `openBlock`, `closeBlock`, `reopenBlock`: Go blocks, each with a scope for generated names
* `perform`: a step that reads where the current statement stands but moves no stack
-/

namespace Sproc

/-- A generation under way. All stacks have their innermost element in front. -/
structure Generator where
  /-- What has been produced; its statements are those of the innermost open block. -/
  progress : Progress
  writer : Go.Writer := {}
  /-- For each open block, the statements that stand in front of it in the block around it. -/
  blocks : List (List Go.Stmt) := []
  /-- The enclosing halves of `TRY` statements, behind them the body of the procedure. -/
  exits : List ExitScope := [.body]
  /-- The numbers of open loops of the enclosing function literals and of the function. -/
  loops : List Nat := [0]
  /-- The indices that lead to the current statement. -/
  path : List Nat := []
  /-- For each enclosing protected half, the flag that a `RETURN` in it sets. -/
  returnFlags : List (Option String) := []
  /-- Cursors whose advance loop is being written, in small letters. -/
  looping : List String := []

/-- The context of the current statement, as the stacks give it. What does not depend on the
statement is taken from a context that stays the same. -/
def Generator.context (g : Generator) (fixed : Context) : Context :=
  { fixed with
    exits := g.exits.dropLast
    loops := g.loops.headD 0
    outerLoops := g.loops.tail
    path := g.path
    returnFlags := g.returnFlags
    looping := g.looping }

/-- A step of a generation that may move the stacks. The state is kept when a step fails. -/
abbrev Generate := ReaderT Context (ExceptT Error (StateM Generator))

namespace Generate

variable {α : Type}

/-- Runs a step. -/
def execute (step : Generate α) (fixed : Context) (g : Generator) : Except Error α × Generator :=
  ((step.run fixed).run).run g

/-! ## Stacks -/

/-- Turns to the part of a statement with the given index. -/
def enter (index : Nat) : Generate Unit :=
  modify fun g => { g with path := index :: g.path }

def leave : Generate Unit :=
  modify fun g => { g with path := g.path.tail }

def pushExit (scope : ExitScope) : Generate Unit :=
  modify fun g => { g with exits := scope :: g.exits }

/-- The body of the procedure always stays. -/
def popExit : Generate Unit :=
  modify fun g => if 1 < g.exits.length then { g with exits := g.exits.tail } else g

def enterLoop : Generate Unit :=
  modify fun g => { g with loops := g.loops.modifyHead (· + 1) }

def leaveLoop : Generate Unit :=
  modify fun g => { g with loops := g.loops.modifyHead (· - 1) }

/-- A function literal counts loops of its own. -/
def enterClosure : Generate Unit :=
  modify fun g => { g with loops := 0 :: g.loops }

def leaveClosure : Generate Unit :=
  modify fun g => if 1 < g.loops.length then { g with loops := g.loops.tail } else g

def pushFlag (flag : Option String) : Generate Unit :=
  modify fun g => { g with returnFlags := flag :: g.returnFlags }

def popFlag : Generate Unit :=
  modify fun g => { g with returnFlags := g.returnFlags.tail }

def pushLooping (cursor : String) : Generate Unit :=
  modify fun g => { g with looping := cursor :: g.looping }

def popLooping : Generate Unit :=
  modify fun g => { g with looping := g.looping.tail }

/-- The half of a `TRY` statement that most closely encloses the current statement. -/
def exitScope : Generate ExitScope := do
  return (← get).exits.head?.getD .body

/-- Changes what is known, and writes nothing. -/
def change (f : Progress → Progress) : Generate Unit :=
  modify fun g => { g with progress := f g.progress }

/-! ## Lines and blocks -/

/-- Writes a line that is no statement. -/
def line (s : String) : Generate Unit :=
  modify fun g => { g with writer := g.writer.line s }

/-- Notes a statement whose lines have been written. -/
def record (s : Go.Stmt) : Generate Unit :=
  modify fun g => { g with progress := { g.progress with output := g.progress.output ++ [s] } }

/-- Writes a statement. -/
def emit (s : Go.Stmt) : Generate Unit := do
  modify fun g => { g with writer := s.write g.writer }
  record s

/-- Opens a Go block, which has a scope of its own for generated names. -/
def openBlock (head : String) : Generate Unit :=
  modify fun g => { g with
    writer := g.writer.openBlock head
    blocks := g.progress.output :: g.blocks
    progress := { g.progress with output := [], names := g.progress.names.push } }

/-- Closes the innermost block and returns its statements. -/
def closeBlock (foot : String) : Generate (List Go.Stmt) := do
  let g ← get
  set { g with
    writer := g.writer.closeBlock foot
    blocks := g.blocks.tail
    progress :=
      { g.progress with output := g.blocks.headD [], names := g.progress.names.pop } }
  return g.progress.output

/-- Closes the innermost block, opens its sibling on the same line, and returns the statements of
the block that is closed. -/
def reopenBlock (head : String) : Generate (List Go.Stmt) := do
  let g ← get
  set { g with
    writer := g.writer.reopenBlock head
    progress := { g.progress with output := [], names := g.progress.names.pop.push } }
  return g.progress.output

/-! ## Steps without parts -/

/-- Takes a step that moves no stack, in the context that the stacks give, and writes what it
adds. -/
def perform (step : Lower α) : Generate α := do
  let g ← get
  let (outcome, after) := step.execute (g.context (← read)) g.progress
  let added := after.output.drop g.progress.output.length
  set { g with progress := after, writer := Go.writeList g.writer added }
  liftExcept outcome

/-- Takes a step whose failure is looked at later. -/
def attempt (step : Generate α) : Generate (Except Error α) :=
  fun fixed g =>
    let (outcome, after) := step.execute fixed g
    (.ok outcome, after)

/-- Goes on with the result of an attempt, or stops where it has failed. -/
def resume (outcome : Except Error α) : Generate α :=
  liftExcept outcome

/-- Gives errors of a step the site of the current statement. -/
def located (step : Generate α) : Generate α := do
  match ← attempt step with
  | .ok value => return value
  | .error error =>
    throw (error.located (← read).procedure.name (renderPath (← get).path))

end Generate

end Sproc
