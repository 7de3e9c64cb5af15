import Sproc.Cursor
import Sproc.Diagnostics
import Sproc.Go.Imports
import Sproc.Lower.Value
import Sproc.NameScope
import Sproc.Query.Renderer
import Sproc.Survey
import Sproc.Transaction

/-!
# The state of a generation

Statements are turned into Go in a monad with two parts. The context says where in the procedure the
current statement stands and only ever changes for the statements inside it: what encloses a
statement cannot be left in a different state by what it encloses. The progress is what has been
produced so far; it is kept when a statement fails.

## Main definitions

* `Context`, `Progress`, `Lower`
* `emit`, `block`: statements, and the statements of a Go block
* `bindLocal`, `fresh`: generated names
-/

namespace Sproc

/-- Which half of a `TRY` statement most closely encloses a statement, if any. -/
inductive ExitScope where
  | body
  | tryHalf
  | catchHalf
  deriving DecidableEq, Repr

/-- Where the current statement stands. -/
structure Context where
  config : Config
  procedure : Procedure
  /-- The name of the generated function. -/
  functionName : String
  /-- The action verb in front of the procedure's name. -/
  verb : Option String
  survey : Survey
  /-- The enclosing halves of `TRY` statements, innermost first. -/
  exits : List ExitScope := []
  /-- The number of loops around the current statement within its function literal. -/
  loops : Nat := 0
  /-- The numbers of loops of the enclosing function literals. -/
  outerLoops : List Nat := []
  /-- The indices that lead to the current statement, innermost first. -/
  path : List Nat := []
  /-- For each enclosing `TRY` half, the flag that a `RETURN` in it sets; innermost first. -/
  returnFlags : List (Option String) := []
  /-- Cursors whose advance loop encloses the current statement, in small letters. -/
  looping : List String := []

/-- What has been produced so far. -/
structure Progress where
  symbols : SymbolTable := {}
  names : NameScope := {}
  cursors : CursorTable := []
  transaction : TransactionState := {}
  output : List Go.Stmt := []
  imports : Go.Imports := {}
  warnings : List Warning := []

/-- A step of the generation. -/
abbrev Lower := ReaderT Context (ExceptT Error (StateM Progress))

/-- The dotted form of a path. Outside of all statements it is `entry`. -/
def renderPath (path : List Nat) : String :=
  if path.isEmpty then "entry" else String.intercalate "." (path.reverse.map toString)

namespace Context

/-- The dotted path of the current statement. -/
def pathText (context : Context) : String :=
  renderPath context.path

/-- The innermost enclosing half of a `TRY` statement. -/
def exitScope (context : Context) : ExitScope :=
  context.exits.head?.getD .body

/-- Whether some enclosing half is a `CATCH`. -/
def inCatch (context : Context) : Bool :=
  context.exits.contains .catchHalf

/-- The context of the part of a statement with the given index. -/
def enter (index : Nat) (context : Context) : Context :=
  { context with path := index :: context.path }

/-- The context of a loop body. -/
def enterLoop (context : Context) : Context :=
  { context with loops := context.loops + 1 }

/-- The context of a function literal for half of a `TRY` statement. -/
def enterHalf (half : ExitScope) (context : Context) : Context :=
  { context with
    exits := half :: context.exits
    loops := 0
    outerLoops := context.loops :: context.outerLoops }

end Context

namespace Lower

/-- Stops with a fault. -/
def fail {α : Type} (fault : Fault) : Lower α :=
  throw ⟨fault, none⟩

/-- Stops with a fault that a construct is not supported. -/
def unsupported {α : Type} (construct detail : String) : Lower α :=
  fail (.unsupported construct detail)

/-- A step that produces nothing but a result. -/
def ofExcept {α : Type} : Except Fault α → Lower α
  | .ok a => pure a
  | .error fault => fail fault

/-- Gives errors of a step the site of the current statement. -/
def located {α : Type} (step : Lower α) : Lower α := do
  let context ← read
  tryCatch step fun error => throw (error.located context.procedure.name context.pathText)

/-- Runs a step in a changed context. -/
def within {α : Type} (change : Context → Context) (step : Lower α) : Lower α :=
  withReader change step

/-- Imports a package without alias. -/
def importPath (path : String) : Lower Unit :=
  modify fun p => { p with imports := p.imports.add path }

/-- Imports a package by its specification. -/
def importSpec (spec : String) : Lower Unit :=
  modify fun p => { p with imports := p.imports.addSpec spec }

/-- Imports the runtime helpers. -/
def importRuntime : Lower Unit := do
  importSpec (← read).config.runtimeSpec

/-- Imports what a mention of a type needs. -/
def importType (type : GoType) : Lower Unit :=
  match type.importPath? with
  | some path => importPath path
  | none => pure ()

/-- Imports the package of messages and clients, and returns the name it is referred to by. -/
def rpcPackage : Lower String := do
  let package := (← read).config.rpcPackage
  importSpec package.importSpec
  return package.aliasName

/-- Imports the package of the store, and returns the name it is referred to by. -/
def mockPackage : Lower String := do
  let package := (← read).config.mockPackage
  importSpec package.importSpec
  return package.aliasName

/-- Records a warning at the current statement. -/
def warn (kind : WarningKind) (message : String) : Lower Unit := do
  let path := (← read).pathText
  modify fun p => { p with warnings := p.warnings ++ [⟨kind, path, message⟩] }

/-- Adds a statement. -/
def emit (s : Go.Stmt) : Lower Unit :=
  modify fun p => { p with output := p.output ++ [s] }

/-- The statements of a Go block, which has a scope of its own for generated names. -/
def block (step : Lower Unit) : Lower (List Go.Stmt) := do
  let before ← get
  set { before with output := [], names := before.names.push }
  step
  let after ← get
  set { after with output := before.output, names := after.names.pop }
  return after.output

/-- The variable that a name refers to. -/
def lookup (name : String) : Lower Symbol := do
  ofExcept ((← get).symbols.lookup name)

/-- Declares a variable of the procedure. -/
def declare (name type : String) (kind : SymbolKind) : Lower Symbol := do
  let (symbol, symbols) ← ofExcept ((← get).symbols.declare name type kind)
  modify fun p => { p with symbols }
  return symbol

/-- Prepares an assignment to a generated variable, and returns whether the assignment introduces
it. That is so only in the outermost block, where it cannot hide the result `err`; in an inner block
the variable is declared by a statement of its own. -/
def bindLocal (name : String) (type : Go.TypeExpr) : Lower Bool := do
  let (binding, names) := (← get).names.bind name
  modify fun p => { p with names }
  match binding with
  | .assign => return false
  | .define =>
    if names.depth = 0 then
      return true
    else
      emit (.declare name type none)
      return false

/-- A generated name that no variable of the procedure has. -/
def localName (base : String) : Lower String := do
  return if (← get).symbols.isTaken base then base ++ "Gen" else base

/-- A numbered name that no variable of the procedure has. -/
def fresh (base : String) : Lower String := do
  let p ← get
  let (name, names) :=
    p.names.freshWhere (!p.symbols.isTaken ·) base p.symbols.symbols.length
  set { p with names }
  return name

end Lower

end Sproc
