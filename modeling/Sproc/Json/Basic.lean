import Sproc.Text.Number

/-!
# JSON values

A JSON document as a tree. Integers in the range of signed or unsigned 64-bit words are kept apart
from all other numbers, because only they can be read as integers. An object is the list of its
fields, in which each name stands once.

## Main definitions

* `Json`: the tree
* `Json.field?`: the value of a field
* `Json.record?`: the fields of a record, given by name or by position
-/

namespace Sproc

/-- A JSON document. -/
inductive Json where
  | null
  | bool (value : Bool)
  /-- An integer between `-2^63` and `2^64 - 1`. -/
  | int (value : Int)
  /-- Any other number, by its spelling. -/
  | real (spelling : String)
  | str (value : String)
  | arr (items : List Json)
  | obj (fields : List (String × Json))

namespace Json

/-- The value of the field `name`. -/
def field? (name : String) (fields : List (String × Json)) : Option Json :=
  fields.lookup name

/-- The fields of a record. They are given by name in an object, or by position in an array that is
not longer than the list of names. -/
def record? (names : List String) : Json → Option (List (String × Json))
  | .obj fields => some fields
  | .arr items => if items.length ≤ names.length then some (names.zip items) else none
  | _ => none

/-- The text of a string. -/
def str? : Json → Option String
  | .str s => some s
  | _ => none

/-- The truth value of a Boolean. -/
def bool? : Json → Option Bool
  | .bool b => some b
  | _ => none

/-- The items of an array. -/
def arr? : Json → Option (List Json)
  | .arr items => some items
  | _ => none

/-- The fields of an object. -/
def obj? : Json → Option (List (String × Json))
  | .obj fields => some fields
  | _ => none

/-- An integer that fits a signed 64-bit word. -/
def int64? : Json → Option Int
  | .int n => if fitsInt64 n then some n else none
  | _ => none

/-- A value that may be null. -/
def nullable? {α : Type} (read : Json → Option α) : Json → Option (Option α)
  | .null => some none
  | value => (read value).map some

/-- The field `name`, which must be present. -/
def required? {α : Type} (name : String) (read : Json → Option α) (fields : List (String × Json)) :
    Option α :=
  (field? name fields).bind read

/-- The field `name`, or `absent` when there is no such field. -/
def defaulted? {α : Type} (name : String) (absent : α) (read : Json → Option α)
    (fields : List (String × Json)) : Option α :=
  match field? name fields with
  | some value => read value
  | none => some absent

/-- The field `name`, where null and absence mean nothing. -/
def optional? {α : Type} (name : String) (read : Json → Option α) (fields : List (String × Json)) :
    Option (Option α) :=
  defaulted? name none (nullable? read) fields

mutual

/-- The number of arrays and objects around the innermost value. -/
def depth : Json → Nat
  | .arr items => depthItems items + 1
  | .obj fields => depthFields fields + 1
  | _ => 0

/-- The greatest depth among the items of an array. -/
def depthItems : List Json → Nat
  | [] => 0
  | item :: items => max item.depth (depthItems items)

/-- The greatest depth among the values of an object. -/
def depthFields : List (String × Json) → Nat
  | [] => 0
  | (_, value) :: fields => max value.depth (depthFields fields)

end

end Json

end Sproc
