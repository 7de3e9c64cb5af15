import Sproc.Config

/-!
# Imports of a Go file

The set of import specifications that generated code needs, in increasing order. In a file, packages
of the standard library come first.

## Main definitions

* `Go.Imports`, `Go.Imports.add`, `Go.Imports.render`
-/

namespace Sproc.Go

/-- Import specifications in increasing order, each once. -/
structure Imports where
  specs : List String := []
  deriving DecidableEq, Repr

/-- Inserts a text into an increasing list, unless it is there. -/
def insertText (s : String) : List String → List String
  | [] => [s]
  | t :: rest =>
    if s < t then s :: t :: rest
    else if s = t then t :: rest
    else t :: insertText s rest

@[simp]
theorem mem_insertText {s t : String} {texts : List String} :
    t ∈ insertText s texts ↔ t = s ∨ t ∈ texts := by
  fun_induction insertText s texts <;> grind

/-- The path of an import specification. -/
def specPath (spec : String) : String :=
  Text.dropEnds (· == Text.doubleQuote) (Text.lastPart ' ' spec)

/-- Whether a path belongs to the standard library: its first element has no dot. -/
def isStandard (path : String) : Bool :=
  !(Text.firstPart '/' path).toList.contains '.'

namespace Imports

/-- Adds an import specification. -/
def addSpec (imports : Imports) (spec : String) : Imports :=
  ⟨insertText spec imports.specs⟩

/-- Adds a path without alias. -/
def add (imports : Imports) (path : String) : Imports :=
  imports.addSpec (Text.pathLiteral path)

/-- The union of two sets. -/
def extend (imports other : Imports) : Imports :=
  other.specs.foldl addSpec imports

/-- Whether some specification has the given path. -/
def contains (imports : Imports) (path : String) : Bool :=
  imports.specs.any (specPath · == path)

/-- Whether nothing is imported. -/
def isEmpty (imports : Imports) : Bool :=
  imports.specs.isEmpty

/-- The lines of some specifications, ordered by path. -/
def lines (specs : List String) : String :=
  let sorted := specs.mergeSort fun a b => decide (specPath a ≤ specPath b)
  String.join (sorted.map fun spec => "\t" ++ spec ++ "\n")

/-- The import declaration: the standard library, an empty line, everything else. -/
def render (imports : Imports) : String :=
  let (standard, others) := imports.specs.partition (isStandard ∘ specPath)
  let gap := if standard.isEmpty || others.isEmpty then "" else "\n"
  "import (\n" ++ lines standard ++ gap ++ lines others ++ ")"

end Imports

end Sproc.Go
