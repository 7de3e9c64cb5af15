import Sproc.Lower.Generate

/-!
# Go files

A file of generated functions.

## Main definitions

* `renderFile`: the text of a file
* `lowerFile`: a file from procedures
-/

namespace Sproc

/-- The text of a Go file: its package clause, one import declaration, and the functions. -/
def renderFile (package : String) (procedures : List GeneratedProcedure) : String :=
  let imports := procedures.foldl (fun imports p => imports.extend p.imports) ({} : Go.Imports)
  let declaration := if imports.isEmpty then "" else "\n" ++ imports.render ++ "\n"
  "// Code generated by tsql2go. DO NOT EDIT.\n\npackage " ++ package ++ "\n" ++ declaration ++
    String.join (procedures.map fun p => "\n" ++ p.text)

/-- The text of the Go file for some procedures, and the warnings of all of them. -/
def lowerFile (procedures : List Procedure) (config : Config) :
    Except Error (String × List Warning) := do
  let generated ← procedures.mapM (·.generate config)
  return (renderFile config.package generated, generated.flatMap (·.warnings))

end Sproc
