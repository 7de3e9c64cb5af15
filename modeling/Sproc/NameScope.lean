/-!
# Scopes of generated names

Which names generated code has introduced in each open Go block. The first assignment to a name
defines it, and later ones in the same block or inside it assign to it. Numbered names are unique in
a whole function.

## Main definitions

* `NameScope`, `NameScope.bind`, `NameScope.fresh`
-/

namespace Sproc

/-- Whether an assignment introduces its target. -/
inductive Binding where
  | define
  | assign
  deriving DecidableEq, Repr

/-- The names of the innermost open block, those of the blocks around it, and the last number used
for each base of numbered names. -/
structure NameScope where
  current : List String := []
  outer : List (List String) := []
  counters : List (String × Nat) := []
  deriving DecidableEq, Repr

namespace NameScope

/-- Opens a block. -/
def push (scope : NameScope) : NameScope :=
  { scope with current := [], outer := scope.current :: scope.outer }

/-- Closes the innermost block; the outermost one stays open. -/
def pop (scope : NameScope) : NameScope :=
  match scope.outer with
  | [] => scope
  | enclosing :: outer => { scope with current := enclosing, outer }

/-- The number of blocks around the innermost one. -/
def depth (scope : NameScope) : Nat :=
  scope.outer.length

/-- Whether a name can be seen in the innermost block. -/
def isBound (scope : NameScope) (name : String) : Bool :=
  scope.current.contains name || scope.outer.any (·.contains name)

/-- Assigns to a name, which introduces it if it cannot be seen. -/
def bind (scope : NameScope) (name : String) : Binding × NameScope :=
  if scope.isBound name then (.assign, scope)
  else (.define, { scope with current := name :: scope.current })

/-- The last number used for a base. -/
def counter (scope : NameScope) (base : String) : Nat :=
  (scope.counters.lookup base).getD 0

/-- Notes the last number used for a base. -/
def setCounter (scope : NameScope) (base : String) (n : Nat) : NameScope :=
  { scope with counters := (base, n) :: scope.counters.filter (·.1 ≠ base) }

/-- The next numbered name. -/
def fresh (scope : NameScope) (base : String) : String × NameScope :=
  let n := scope.counter base + 1
  (base ++ toString n, scope.setCounter base n)

/-- The next numbered name that satisfies a test, trying at most `tries` names before the last. -/
def freshWhere (accept : String → Bool) (base : String) : Nat → NameScope → String × NameScope
  | 0, scope => scope.fresh base
  | tries + 1, scope =>
    let (name, scope) := scope.fresh base
    if accept name then (name, scope) else freshWhere accept base tries scope

/-- A name can be seen once it has been assigned to. -/
@[simp]
theorem isBound_bind (scope : NameScope) (name : String) :
    (scope.bind name).2.isBound name = true := by
  unfold bind
  split
  · assumption
  · simp [isBound]

/-- An assignment introduces exactly the names that could not be seen. -/
theorem bind_fst_eq_define_iff (scope : NameScope) (name : String) :
    (scope.bind name).1 = .define ↔ scope.isBound name = false := by
  unfold bind
  split <;> simp_all

@[simp]
theorem counter_setCounter_self (scope : NameScope) (base : String) (n : Nat) :
    (scope.setCounter base n).counter base = n := by
  simp [counter, setCounter]

@[simp]
theorem depth_push (scope : NameScope) : scope.push.depth = scope.depth + 1 := rfl

@[simp]
theorem pop_push (scope : NameScope) : scope.push.pop = scope := rfl

end NameScope

end Sproc
