import Sproc.Json.Basic

/-!
# Warnings

A warning accompanies generated code and never stops its generation.

## Main definitions

* `Warning`, `Warning.text`, `Warning.toJson`
-/

namespace Sproc

/-- Why a warning is given. -/
inductive WarningKind where
  /-- A data statement went to the fallback backend. -/
  | fallbackBackend
  /-- A field of a request was left out. -/
  | skippedField
  /-- The generated code does not do exactly what the source does. -/
  | approximation
  /-- A construct was ignored. -/
  | ignored
  deriving DecidableEq, Repr

/-- The name of a kind of warning. -/
def WarningKind.id : WarningKind → String
  | fallbackBackend => "fallback_backend"
  | skippedField => "skipped_field"
  | approximation => "approximation"
  | ignored => "ignored"

/-- A warning at a statement, which is given by its dotted path. -/
structure Warning where
  kind : WarningKind
  path : String
  message : String
  deriving DecidableEq, Repr

/-- The path and the message. -/
def Warning.text (warning : Warning) : String :=
  s!"[{warning.path}] {warning.message}"

/-- A warning as a JSON object. -/
def Warning.toJson (warning : Warning) : Json :=
  .obj [("kind", .str warning.kind.id), ("path", .str warning.path),
    ("message", .str warning.message)]

end Sproc
