import Sproc.CommandLine.Run

/-!
# A directory in memory

The working directory of a run as a value. Files are named by relative paths, in which a single dot
and repeated slashes do not matter and a double dot leads to the folder above. Every step of a path
but the last leads to a folder that exists, and folders exist because of the files in them.

## Main definitions

* `Directory`, `Directory.read?`, `Directory.write?`
* `Directory.carryOut`: a run and what it leaves behind
-/

namespace Sproc.CommandLine

/-- The parts of a relative path that names a file: its folders and its own name. -/
def pathParts (path : String) : List String :=
  (Text.splitOn '/' path).filter fun part => part ≠ "" && part ≠ "."

/-- Files with their texts, each under its folders and its own name. -/
structure Directory where
  files : List (List String × String) := []

namespace Directory

/-- The directory that holds the given files. -/
def ofFiles (files : List (String × String)) : Directory :=
  ⟨files.map fun file => (pathParts file.1, file.2)⟩

/-- Whether some folders lead to a folder. -/
def isFolder (directory : Directory) (parts : List String) : Bool :=
  parts.isEmpty || directory.files.any fun file =>
    parts.length < file.1.length && file.1.take parts.length == parts

/-- One step of a path, which starts from a folder. An empty step and a dot stay there, and a double
dot does not leave the directory. -/
def step? (directory : Directory) (parts : List String) (part : String) : Option (List String) :=
  if !directory.isFolder parts then none
  else if part == "" || part == "." then some parts
  else if part == ".." then (if parts.isEmpty then none else some parts.dropLast)
  else some (parts ++ [part])

/-- The place that a relative path leads to, whether there is something or not. -/
def place? (directory : Directory) (path : String) : Option (List String) :=
  if Text.beginsWith "/" path then none
  else (Text.splitOn '/' path).foldlM directory.step? []

/-- The text of a file. -/
def read? (directory : Directory) (path : String) : Option String :=
  (directory.place? path).bind fun parts => List.lookup parts directory.files

/-- The directory after a file has been written. The folder of the file must exist, and the file
must not be a folder. -/
def write? (directory : Directory) (path text : String) : Option Directory := do
  let parts ← directory.place? path
  if !parts.isEmpty && directory.isFolder parts.dropLast && !directory.isFolder parts then
    return ⟨(parts, text) :: directory.files.filter (·.1 ≠ parts)⟩
  else
    none

/-- Carries out a command line in a directory. The result is what a user sees and the directory that
is left behind. -/
def carryOut (directory : Directory) (options : Options) (configDirectory : Option String) :
    Outcome × Directory :=
  let run := run options configDirectory directory.read?
  match run.file? options with
  | none => (run.outcome options true, directory)
  | some (path, text) =>
    match directory.write? path text with
    | some after => (run.outcome options true, after)
    | none => (run.outcome options false, directory)

end Directory

end Sproc.CommandLine
