import Sproc.CommandLine.Run
import Sproc.CommandLine.Usage

/-!
# The command

Reads the files that a command line names, carries it out, and delivers the result.

## Main definitions

* `main`
-/

namespace Sproc.CommandLine

/-- The text of a file, if it can be read. -/
def readText (path : String) : IO (Option String) := do
  try
    return some (← IO.FS.readFile path)
  catch _ =>
    return none

/-- Writes a file, and says whether that has worked. -/
def writeText (path text : String) : IO Bool := do
  try
    IO.FS.writeFile path text
    return true
  catch _ =>
    return false

/-- The directory for configurations: the one that the environment names by an absolute path, or
else the usual one in the user's home. -/
def configDirectory : IO (Option String) := do
  let named := (← IO.getEnv "XDG_CONFIG_HOME").filter (Text.beginsWith "/")
  return named.or ((← IO.getEnv "HOME").map (· ++ "/.config"))

/-- Carries out a command line and delivers the result. -/
def execute (options : Options) : IO UInt32 := do
  let directory ← configDirectory
  let paths := options.files ++ options.config.toList ++ (directory.map userConfig).toList ++
    [localConfig]
  let texts ← paths.mapM fun path => return (path, ← readText path)
  let files : Files := fun path => (texts.lookup path).join
  let run := run options directory files
  let written ←
    match run.file? options with
    | some (path, text) => writeText path text
    | none => pure true
  let outcome := run.outcome options written
  for note in outcome.notes do
    IO.eprintln note
  IO.print outcome.output
  return outcome.exitCode.toUInt32

end Sproc.CommandLine

/-- The command line program. -/
def main (args : List String) : IO UInt32 := do
  match Sproc.CommandLine.Options.parse args (← IO.getEnv "TSQL2GO_CONFIG") with
  | .ok options => Sproc.CommandLine.execute options
  | .error .help =>
    IO.print Sproc.CommandLine.helpText
    return 0
  | .error .version =>
    IO.print Sproc.CommandLine.versionText
    return 0
  | .error .usage =>
    IO.eprint Sproc.CommandLine.usageLine
    return 2
