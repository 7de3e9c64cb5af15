import Sproc.Config
import Sproc.Toml.Parser

/-!
# Configuration files

A configuration file is a TOML document with the settings of a configuration.

## Main definitions

* `Config.ofToml`
-/

namespace Sproc

/-- Why the text of a configuration file is refused. -/
inductive ConfigError where
  /-- The text is no TOML document, or a setting is unknown or of the wrong type. -/
  | malformed
  /-- The configuration cannot be used. -/
  | invalid (fault : Fault)
  deriving DecidableEq, Repr

/-- The wording of an error in a configuration file. -/
def ConfigError.message : ConfigError → String
  | malformed => "TOML error"
  | invalid fault => fault.message

/-- The conventions of configuration files. Having no null, the format writes nothing as an empty
table or array. -/
def fileConventions : Config.Conventions where
  isNothing := fun
    | .obj [] => true
    | .arr [] => true
    | _ => false
  extraItems := true

/-- The configuration of a file, which must be one that can be used. -/
def Config.ofToml (text : String) : Except ConfigError Config :=
  let config? := (Toml.parse? text).bind fun table =>
    Config.read? fileConventions (.obj (Toml.entriesJson table))
  match config? with
  | none => .error .malformed
  | some config =>
    match config.validate with
    | .error fault => .error (.invalid fault)
    | .ok _ => .ok config

end Sproc
