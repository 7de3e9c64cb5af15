import Sproc.Ast.Decode
import Sproc.CommandLine.Options
import Sproc.ConfigFile
import Sproc.GoFile
import Sproc.Json.Parser
import Sproc.Json.Printer

/-!
# Runs of the command

A run reads a configuration and procedures and yields a Go file with warnings. It sees files through
a function from paths to their texts; delivering the result is left to the caller, who reports
whether that has worked.

## Main definitions

* `Run`, `run`: what a command line yields
* `Outcome`, `Run.outcome`: what a user sees of it
-/

namespace Sproc.CommandLine

/-- Files by their paths. -/
abbrev Files := String → Option String

/-- The path of the user's configuration file below the directory for configurations. -/
def userConfig (directory : String) : String :=
  directory ++ "/tsql2go/config.toml"

/-- The path of the configuration file in the current directory. -/
def localConfig : String := "tsql2go.toml"

/-- The path of the configuration file: the one that is asked for, or else the first that exists of
the user's own and the one in the current directory. -/
def configPath? (options : Options) (directory : Option String) (files : Files) : Option String :=
  options.config.or
    (((directory.map userConfig).toList ++ [localConfig]).find? fun path => (files path).isSome)

/-- The configuration in a file. -/
def loadConfig (files : Files) (path : String) : Except String Config :=
  let fail (cause : String) : Except String Config :=
    .error (s!"failed to load config {path}: " ++ cause)
  match files path with
  | none => fail "IO error"
  | some text =>
    match Config.ofToml text with
    | .error error => fail error.message
    | .ok config => .ok config

/-- A configuration with the settings of options in place of its own. -/
def applyOptions (options : Options) (config : Config) : Config :=
  { config with
    backend := options.backend.getD config.backend
    dialect := options.dialect.getD config.dialect
    package := options.package.getD config.package
    logHook := options.logHook || config.logHook }

/-- The deepest nesting of a procedure file. -/
def nestingLimit : Nat := 127

/-- The procedures in a file, which holds one procedure or an array of them. -/
def readProcedures (files : Files) (path : String) : Except String (List Procedure) :=
  match files path with
  | none => .error s!"failed to read {path}"
  | some text =>
    match Json.parse? nestingLimit text with
    | none => .error s!"{path} is not valid JSON"
    | some json =>
      let procedures :=
        match json with
        | .arr items => items.mapM Procedure.ofJson?
        | json => (Procedure.ofJson? json).map ([·])
      match procedures with
      | none => .error s!"{path} is not a procedure AST"
      | some procedures => .ok procedures

/-- An error in a file. The cause of an error at a statement is repeated behind it. -/
def errorText (path : String) (error : Error) : String :=
  let cause := if error.site.isSome then ": " ++ error.fault.message else ""
  s!"in {path}: " ++ error.message ++ cause

/-- The functions of the procedures in a file. -/
def lowerPath (files : Files) (config : Config) (path : String) :
    Except String (List GeneratedProcedure) := do
  let procedures ← readProcedures files path
  procedures.mapM fun procedure => (procedure.generate config).mapError (errorText path)

/-- The notes on the warnings of a procedure. -/
def warningNotes (lowered : GeneratedProcedure) : List String :=
  lowered.warnings.map fun warning => s!"warning: {lowered.sourceName}: {warning.text}"

/-- A function as a JSON object. -/
def loweredJson (lowered : GeneratedProcedure) : Json :=
  .obj [
    ("name", .str lowered.function.name),
    ("source_name", .str lowered.sourceName),
    ("source", .str lowered.text),
    ("warnings", .arr (lowered.warnings.map Warning.toJson))]

/-- The output in the given form. -/
def render (format : Format) (package : String) (lowered : List GeneratedProcedure) : String :=
  let source := renderFile package lowered
  match format with
  | .text => source
  | .json =>
    (Json.obj [
      ("package", .str package),
      ("procedures", .arr (lowered.map loweredJson)),
      ("source", .str source)]).pretty

/-- What is to be delivered. -/
structure Product where
  text : String
  procedures : Nat
  warnings : Nat

/-- What a run yields: notes for the user, and then a product or an error. -/
structure Run where
  notes : List String
  result : Except String Product

/-- The notes that only a verbose run gives. -/
def verboseNotes (options : Options) (notes : List String) : List String :=
  if options.verbose then notes else []

/-- The note on a configuration. -/
def configNote (config : Config) : String :=
  s!"Lowering: backend={config.backend.id} dialect={config.dialect.id} package={config.package}"

/-- The configuration of a run. -/
def configure (options : Options) (path : Option String) (files : Files) :
    Except String Config := do
  let config ←
    match path with
    | some path => loadConfig files path
    | none => .ok {}
  let config := applyOptions options config
  config.validate.mapError Fault.message
  return config

/-- Carries out a command line. `directory` is the directory for configurations. -/
def run (options : Options) (directory : Option String) (files : Files) : Run :=
  let path := configPath? options directory files
  let notes := verboseNotes options (path.toList.map ("Config: " ++ ·))
  match configure options path files with
  | .error error => ⟨notes, .error error⟩
  | .ok config =>
    let notes := notes ++ verboseNotes options [configNote config]
    match options.files.mapM (lowerPath files config) with
    | .error error => ⟨notes, .error error⟩
    | .ok groups =>
      let lowered := groups.flatten
      let product : Product := {
        text := render (options.format.getD .text) config.package lowered
        procedures := lowered.length
        warnings := (lowered.flatMap (·.warnings)).length }
      ⟨notes ++ lowered.flatMap warningNotes, .ok product⟩

/-- What a user sees of a run. -/
structure Outcome where
  exitCode : Nat
  output : String
  notes : List String
  deriving DecidableEq, Repr

/-- The end of a run that has failed. -/
def failure (output : String) (notes : List String) (error : String) : Outcome :=
  ⟨1, output, notes ++ ["Error: " ++ error]⟩

/-- The end of a run whose product has been delivered. Warnings are a failure where they are
denied. -/
def success (options : Options) (product : Product) (output : String) (notes : List String) :
    Outcome :=
  if options.denyWarnings && product.warnings > 0 then
    failure output notes s!"{product.warnings} warning(s) reported"
  else
    ⟨0, output, notes⟩

/-- What a user sees of a run. The product goes to the file that is asked for, or else to the
output; `written` says whether the file could be written. -/
def Run.outcome (run : Run) (options : Options) (written : Bool) : Outcome :=
  match run.result, options.output with
  | .error error, _ => failure "" run.notes error
  | .ok product, none => success options product product.text run.notes
  | .ok product, some path =>
    if written then
      success options product ""
        (run.notes ++ [s!"✓ Wrote {product.procedures} procedure(s) to {path}"])
    else
      failure "" run.notes s!"failed to write {path}"

/-- The file that a run asks to be written, with its text. -/
def Run.file? (run : Run) (options : Options) : Option (String × String) :=
  match run.result, options.output with
  | .ok product, some path => some (path, product.text)
  | _, _ => none

end Sproc.CommandLine
