import Sproc.Json.Basic
import Sproc.Toml.DateTime

/-!
# TOML documents

A TOML document is a table. Tables come about in several ways, and how a table came about decides
what may still be added to it: a table that a header has named cannot be named again, a table made
by a dotted key takes only further dotted keys, and an inline table is closed.

## Main definitions

* `Toml`, `Toml.Table`
* `Toml.assign?`: the entry of a key
* `Toml.openTable?`, `Toml.openElement?`: the table that a header names
* `Toml.toJson`
-/

namespace Sproc

/-- How a table came about. -/
inductive Toml.Origin where
  /-- It is the document, or a header has named it. -/
  | header
  /-- The header of a table inside it has been read. -/
  | implied
  /-- A dotted key leads through it. -/
  | dotted
  deriving DecidableEq, Repr

/-- A value of a TOML document. -/
inductive Toml where
  | str (value : String)
  | int (value : Int)
  | bool (value : Bool)
  /-- A floating-point number by its spelling. -/
  | float (spelling : String)
  | dateTime (value : Toml.DateTime)
  | arr (items : List Toml)
  /-- A table that is closed. -/
  | inline (entries : List (String × Toml))
  | table (origin : Toml.Origin) (entries : List (String × Toml))
  /-- Tables that headers in double brackets have added one by one, the last one first. -/
  | tables (last : List (String × Toml)) (earlier : List (List (String × Toml)))

namespace Toml

/-- The entries of a table. -/
abbrev Table := List (String × Toml)

/-- Replaces the value of a key, which is there. -/
def replace (key : String) (value : Toml) (entries : Table) : Table :=
  entries.map fun entry => if entry.1 = key then (key, value) else entry

/-- Adds an entry; a key must not be repeated. -/
def addEntry? (key : String) (value : Toml) (entries : Table) : Option Table :=
  if entries.any (·.1 = key) then none else some (entries ++ [(key, value)])

/-- Adds an entry below the tables that a dotted key leads through. They must have come about by
dotted keys themselves; `direct` says whether the key may stand in this table. -/
def assign? (direct : Bool) (key : String) (value : Toml) : List String → Table → Option Table
  | [], entries => if direct then addEntry? key value entries else none
  | step :: rest, entries =>
    match entries.lookup step with
    | none => do
      let inner ← assign? true key value rest []
      return entries ++ [(step, .table .dotted inner)]
    | some (.table .dotted inner) => do
      let inner ← assign? true key value rest inner
      return replace step (.table .dotted inner) entries
    -- A table that a header has opened further in may be passed through, not added to.
    | some (.table .implied inner) => do
      let inner ← assign? false key value rest inner
      return replace step (.table .implied inner) entries
    | some (.tables last earlier) => do
      let last ← assign? false key value rest last
      return replace step (.tables last earlier) entries
    | _ => none

/-- Changes the table that the path of a header leads to. Tables on the way are made where they are
missing; of tables in double brackets the last one counts. -/
def descend? (change : Table → Option Table) : List String → Table → Option Table
  | [], entries => change entries
  | step :: rest, entries =>
    match entries.lookup step with
    | none => do
      let inner ← descend? change rest []
      return entries ++ [(step, .table .implied inner)]
    | some (.table origin inner) => do
      let inner ← descend? change rest inner
      return replace step (.table origin inner) entries
    | some (.tables last earlier) => do
      let last ← descend? change rest last
      return replace step (.tables last earlier) entries
    | _ => none

/-- The table that a header names: a new one, or one that has only been implied. -/
def openTable? (key : String) (entries : Table) : Option Table :=
  match entries.lookup key with
  | none => some (entries ++ [(key, .table .header [])])
  | some (.table .implied inner) => some (replace key (.table .header inner) entries)
  | _ => none

/-- A further table under a key that headers in double brackets have named. -/
def openElement? (key : String) (entries : Table) : Option Table :=
  match entries.lookup key with
  | none => some (entries ++ [(key, .tables [] [])])
  | some (.tables last earlier) => some (replace key (.tables [] (last :: earlier)) entries)
  | _ => none

/-- The key of the only entry of a date or time that is taken for a table. -/
def dateTimeKey : String := "$__toml_private_datetime"

mutual

/-- A value as a JSON document. A date or time becomes an object with its spelling. -/
def toJson : Toml → Json
  | .str s => .str s
  | .int n => .int n
  | .bool b => .bool b
  | .float spelling => .real spelling
  | .dateTime value => .obj [(dateTimeKey, .str value.render)]
  | .arr items => .arr (itemsJson items)
  | .inline entries => .obj (entriesJson entries)
  | .table _ entries => .obj (entriesJson entries)
  | .tables last earlier => .arr ((.obj (entriesJson last) :: tablesJson earlier).reverse)

/-- Values as JSON documents. -/
def itemsJson : List Toml → List Json
  | [] => []
  | item :: rest => item.toJson :: itemsJson rest

/-- Entries as the fields of a JSON object. -/
def entriesJson : List (String × Toml) → List (String × Json)
  | [] => []
  | (key, value) :: rest => (key, value.toJson) :: entriesJson rest

/-- Tables as JSON objects. -/
def tablesJson : List (List (String × Toml)) → List Json
  | [] => []
  | entries :: rest => .obj (entriesJson entries) :: tablesJson rest

end

end Toml

end Sproc
