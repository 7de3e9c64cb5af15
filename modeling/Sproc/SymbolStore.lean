import Std.Data.HashMap
import Std.Data.HashSet
import Sproc.Symbol

/-!
# The containers of the variables

Variables are kept in three containers: a map from keys to variables, the keys in the order of the
declarations, and the set of the Go names that are taken. A declaration changes one after the other,
and a declaration that stops on the way leaves what it has changed so far.

## Main definitions

* `SymbolStore`, `StoreStep`
* `SymbolStore.declare`, `SymbolStore.reserve`
* `SymbolStore.firstFree`: the search for a number
-/

namespace Sproc

/-- The variables by their keys, the keys in the order of the declarations, the Go names that are
taken, and further names that variables must not take. -/
structure SymbolStore where
  symbols : Std.HashMap String Symbol := {}
  order : List String := []
  taken : Std.HashSet String := {}
  reserved : Std.HashSet String := .ofList generatedNames

/-- A step that changes the containers and can stop. What it has changed until then stays changed. -/
abbrev StoreStep := ExceptT Fault (StateM SymbolStore)

/-- The result of a step, and the containers behind it. -/
def StoreStep.execute {α : Type} (step : StoreStep α) (store : SymbolStore) :
    Except Fault α × SymbolStore :=
  (ExceptT.run step).run store

namespace SymbolStore

/-- Containers without variables that keep some names from being taken. -/
def keeping (names : List String) : SymbolStore where
  reserved := .ofList names

/-- The variable that a name refers to. -/
def get? (store : SymbolStore) (name : String) : Option Symbol :=
  store.symbols[foldName name]?

/-- Whether a name refers to a variable. -/
def contains (store : SymbolStore) (name : String) : Bool :=
  store.symbols.contains (foldName name)

/-- The variable that a name refers to, which must be declared. -/
def lookup (store : SymbolStore) (name : String) : Except Fault Symbol :=
  match store.get? name with
  | some symbol => .ok symbol
  | none => .error (.undeclaredVariable name)

/-- Whether some variable has the given Go name. -/
def isTaken (store : SymbolStore) (goName : String) : Bool :=
  store.taken.contains goName

/-- The variables in the order of the declarations. -/
def inOrder (store : SymbolStore) : List Symbol :=
  store.order.filterMap fun key => store.symbols[key]?

/-- The first number from `n` on that makes a name free, where so many numbers are tried. -/
def firstFree (store : SymbolStore) (base : String) : (tries n : Nat) → Option Nat
  | 0, _ => none
  | tries + 1, n =>
    if store.isTaken (base ++ toString n) then store.firstFree base tries (n + 1) else some n

/-- A Go name for a variable: its own, marked when it is reserved, numbered when it is taken. -/
def freshGoName (store : SymbolStore) (name : String) : String :=
  let plain := Identifier.variableName name
  let base :=
    if Identifier.isGoReserved plain || store.reserved.contains plain then plain ++ "Var" else plain
  if !store.isTaken base then
    base
  else
    -- Each variable can stand in the way of one number.
    ((store.firstFree base (store.order.length + 1) 2).map (base ++ toString ·)).getD base

/-- Keeps a further name from being taken. -/
def reserve (name : String) : StoreStep Unit :=
  modify fun store => { store with reserved := store.reserved.insert name }

/-- Declares a variable of a given type. The Go name is taken before the key is put behind the
others, and the variable comes last. -/
def declare (name type : String) (kind : SymbolKind) : StoreStep Symbol := do
  let key := foldName name
  if (← get).symbols.contains key then
    throw (.duplicateVariable name)
  let info ← ExceptT.mk (pure (TypeName.classify type))
  let goName := (← get).freshGoName name
  modify fun store => { store with taken := store.taken.insert goName }
  modify fun store => { store with order := store.order ++ [key] }
  let symbol : Symbol := ⟨name, goName, info, kind⟩
  modify fun store => { store with symbols := store.symbols.insertIfNew key symbol }
  return (← get).symbols.getD key symbol

end SymbolStore

/-- A call that changes the variables. -/
inductive SymbolCall where
  | reserve (name : String)
  | declare (name type : String) (kind : SymbolKind)

/-- Carries out a call, which returns a variable if it declares one. -/
def SymbolCall.run : SymbolCall → StoreStep (Option Symbol)
  | reserve name => do
    SymbolStore.reserve name
    return none
  | declare name type kind => some <$> SymbolStore.declare name type kind

end Sproc
