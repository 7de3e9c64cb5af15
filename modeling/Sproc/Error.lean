/-!
# Errors

What can stop a procedure from being turned into Go. A `Fault` is the cause; an `Error` is a fault
together with the statement in which it arose, once that is known. The innermost statement wins: an
error that already has a site keeps it.

## Main definitions

* `Fault`, `Fault.kind`, `Fault.message`
* `Error`, `Error.located`, `Error.message`
-/

namespace Sproc

/-- A cause of failure. -/
inductive Fault where
  /-- A construct that has no static counterpart in Go. -/
  | unsupported (construct detail : String)
  /-- A cursor that is used out of its life cycle. -/
  | cursor (name problem : String)
  | undeclaredVariable (name : String)
  | duplicateVariable (name : String)
  | unknownType (name : String)
  /-- A statement whose parts cannot be named as the fields of a request. -/
  | unmappable (statement reason : String)
  | transaction (problem : String)
  | invalidConfig (problem : String)
  /-- A procedure name whose marker would end inside a character. -/
  | brokenName (name : String)
  /-- A constant whose negation does not fit a word of 64 bits. -/
  | overflow (constant : Int)
  deriving DecidableEq, Repr

/-- The name of the kind of a fault. -/
def Fault.kind : Fault → String
  | .unsupported _ _ => "Unsupported"
  | .cursor _ _ => "Cursor"
  | .undeclaredVariable _ => "UndeclaredVariable"
  | .duplicateVariable _ => "DuplicateVariable"
  | .unknownType _ => "UnknownType"
  | .unmappable _ _ => "UnmappableField"
  | .transaction _ => "Transaction"
  | .invalidConfig _ => "InvalidConfig"
  | .brokenName _ => "BrokenName"
  | .overflow _ => "Overflow"

/-- The wording of a fault. -/
def Fault.message : Fault → String
  | .unsupported construct detail => s!"Unsupported {construct}: {detail}"
  | .cursor name problem => s!"Cursor '{name}': {problem}"
  | .undeclaredVariable name => s!"Undeclared variable: '{name}'"
  | .duplicateVariable name => s!"Variable declared twice: '{name}'"
  | .unknownType name => s!"Unknown type: '{name}'"
  | .unmappable statement reason => s!"Cannot map {statement} onto request fields: {reason}"
  | .transaction problem => s!"Transaction error: {problem}"
  | .invalidConfig problem => s!"Configuration error: {problem}"
  | .brokenName name => s!"Procedure name cannot be cut: '{name}'"
  | .overflow constant => s!"Constant cannot be negated: {constant}"

/-- The place of a statement: the procedure and the dotted path of the statement in its body. -/
structure Site where
  procedure : String
  path : String
  deriving DecidableEq, Repr

/-- A fault and, once known, its site. -/
structure Error where
  fault : Fault
  site : Option Site := none
  deriving DecidableEq, Repr

/-- A fault whose site is not known yet. -/
instance : Coe Fault Error := ⟨fun fault => ⟨fault, none⟩⟩

/-- Attaches a site to an error that has none. -/
def Error.located (error : Error) (procedure path : String) : Error :=
  match error.site with
  | some _ => error
  | none => ⟨error.fault, some ⟨procedure, path⟩⟩

/-- The wording of an error, led by its site. -/
def Error.message (error : Error) : String :=
  match error.site with
  | some site => s!"{site.procedure}: statement {site.path}: {error.fault.message}"
  | none => error.fault.message

@[simp]
theorem Error.fault_located (error : Error) (procedure path : String) :
    (error.located procedure path).fault = error.fault := by
  unfold located
  split <;> rfl

/-- A second site changes nothing. -/
theorem Error.located_located (error : Error) (procedure path procedure' path' : String) :
    (error.located procedure path).located procedure' path' = error.located procedure path := by
  unfold located
  cases h : error.site <;> simp [h]

end Sproc
