import Sproc.Proofs.Faults
import Sproc.Proofs.Lower.Run

/-!
# Computations

Conversions, operators and built-in functions only calculate. They import packages, record warnings,
look variables up, and stop with faults, besides what the evaluation of their operands does. So does
an expression, where only the queries inside it do more. Whatever outlasts these few steps is true of
all of them, if it is true of the operands or of the queries.

## Main definitions

* `Config.computingSpecs`: the packages that computations import
* `Lower.Calculates`: steps that are put together from computations and from steps with a property
* `ArgsCalculate`, `QueriesIn`: the same of the arguments of a function and of the queries inside
  expressions

## Main results

* `calculates_coerce`, `calculates_compare`, `calculates_arithmetic`: conversions and operators
* `calculates_lowerBinary`, `calculates_lowerFunction`: values from operands
* `calculates_lowerExpr`: expressions
-/

namespace Sproc

/-- The paths of the packages that computations import, apart from the runtime helpers. -/
abbrev computingPaths : List String :=
  ["fmt", "math", "strings", "unicode/utf8", "time", decimalPackage]

/-- The import specifications of the packages that computations import. -/
def Config.computingSpecs (config : Config) : List String :=
  config.runtimeSpec :: computingPaths.map Text.pathLiteral

theorem GoType.importPath?_computing {type : GoType} {path : String}
    (h : type.importPath? = some path) : path ∈ computingPaths := by
  cases type with
  | decimal | time =>
    obtain rfl := Option.some.inj h
    simp
  | _ => cases h

namespace Lower

/-- Steps that are put together from steps with a property and from steps that calculate: these see
nothing of the progress but variables and the transaction, and only add warnings and imports of their
own packages. -/
inductive Calculates (c : Context) (P : (α : Type) → Lower α → Prop) : {α : Type} → Lower α → Prop
  | part {α : Type} {step : Lower α} : P α step → Calculates c P step
  | pure {α : Type} (value : α) : Calculates c P (pure value)
  | bind {α β : Type} {step : Lower α} {next : α → Lower β} : Calculates c P step →
    (∀ value, Calculates c P (next value)) → Calculates c P (step >>= next)
  /-- A fault that is not about a cursor. -/
  | fault {α : Type} {fault : Fault} : fault.concernsCursor = false →
    Calculates c P (fail fault : Lower α)
  /-- What is done with the context is done with the one at hand. -/
  | reads {α : Type} {next : Context → Lower α} : Calculates c P (next c) →
    Calculates c P (read >>= next)
  | looks {α : Type} {next : Progress → Lower α} :
    (∀ p q : Progress, q.symbols = p.symbols → q.transaction = p.transaction → next q = next p) →
    (∀ p, Calculates c P (next p)) → Calculates c P (get >>= next)
  | importSpec {spec : String} : spec ∈ c.config.computingSpecs → Calculates c P (importSpec spec)
  | warn {kind : WarningKind} (message : String) : kind ≠ .fallbackBackend →
    Calculates c P (warn kind message)

variable {α β : Type} {c : Context} {P : (α : Type) → Lower α → Prop}

/-! ## Sequences and primitive steps -/

@[simp]
theorem calculates_pure (value : α) : (pure value : Lower α).Calculates c P :=
  .pure value

@[simp]
theorem calculates_bind {step : Lower α} {next : α → Lower β} (hstep : step.Calculates c P)
    (hnext : ∀ value, (next value).Calculates c P) : (step >>= next).Calculates c P :=
  .bind hstep hnext

@[simp]
theorem calculates_map (f : α → β) {step : Lower α} (h : step.Calculates c P) :
    (f <$> step).Calculates c P := by
  rw [map_eq_pure_bind]
  exact calculates_bind h fun _ => calculates_pure _

@[simp]
theorem calculates_unsupported (construct detail : String) :
    (unsupported construct detail : Lower α).Calculates c P :=
  .fault rfl

/-- What stands behind a failure is never done. -/
theorem calculates_unsupported_bind {next : α → Lower β} (construct detail : String) :
    (unsupported construct detail >>= next).Calculates c P :=
  calculates_unsupported construct detail

@[simp]
theorem calculates_ofExcept {outcome : Except Fault α} (h : FailsPlainly outcome) :
    (ofExcept outcome).Calculates c P := by
  cases outcome with
  | ok value => exact calculates_pure value
  | error fault => exact .fault (h fault rfl)

@[simp]
theorem calculates_lookup (name : String) : (lookup name).Calculates c P :=
  .looks (fun _ _ hsymbols _ => by rw [hsymbols]) fun _ => calculates_ofExcept (failsPlainly_lookup _ name)

@[simp]
theorem calculates_noConversion (value : Value) (target : GoType) :
    (noConversion value target).Calculates c P :=
  calculates_unsupported _ _

@[simp]
theorem calculates_importPath {path : String} (h : path ∈ computingPaths) :
    (importPath path).Calculates c P :=
  .importSpec (List.mem_cons_of_mem _ (List.mem_map_of_mem h))

@[simp]
theorem calculates_warn {kind : WarningKind} (message : String) (h : kind ≠ .fallbackBackend) :
    (warn kind message).Calculates c P :=
  .warn message h

@[simp]
theorem calculates_importRuntime : importRuntime.Calculates c P :=
  .reads (.importSpec List.mem_cons_self)

@[simp]
theorem calculates_importType (type : GoType) : (importType type).Calculates c P := by
  unfold importType
  split
  next path hpath => exact calculates_importPath (GoType.importPath?_computing hpath)
  next => exact calculates_pure ()

/-! ## Conversions -/

@[simp]
theorem calculates_runtimeCall (function : String) (args : List Go.Expr) :
    (runtimeCall function args).Calculates c P :=
  calculates_bind calculates_importRuntime fun _ => calculates_pure _

@[simp]
theorem calculates_toDecimal (value : Value) : (toDecimal value).Calculates c P := by
  unfold toDecimal
  repeat' split
  all_goals simp

@[simp]
theorem calculates_toBool (value : Value) : (toBool value).Calculates c P := by
  unfold toBool
  repeat' split
  all_goals simp

@[simp]
theorem calculates_toNumber (value : Value) (target : GoType) :
    (toNumber value target).Calculates c P := by
  unfold toNumber
  dsimp only
  repeat' split
  all_goals simp

@[simp]
theorem calculates_toText (value : Value) : (toText value).Calculates c P := by
  unfold toText
  repeat' split
  all_goals simp

@[simp]
theorem calculates_toTime (value : Value) : (toTime value).Calculates c P := by
  unfold toTime
  split <;> simp

@[simp]
theorem calculates_toBytes (value : Value) : (toBytes value).Calculates c P := by
  unfold toBytes
  split <;> simp

/-- A conversion only imports what the target needs. -/
@[simp]
theorem calculates_coerce (value : Value) (target : GoType) :
    (coerce value target).Calculates c P := by
  refine calculates_bind (calculates_importType target) fun _ => ?_
  split
  · exact calculates_pure _
  · split
    · exact calculates_pure _
    · cases target <;> simp

/-! ## Operators -/

@[simp]
theorem calculates_floatRemainder (l r : Value) (type : GoType) :
    (floatRemainder l r type).Calculates c P := by
  unfold floatRemainder
  refine calculates_bind (calculates_importPath (by simp)) fun _ => ?_
  split <;> simp

@[simp]
theorem calculates_numericArithmetic (op : BinaryOp) (l r : Value) (hint : Option GoType) :
    (numericArithmetic op l r hint).Calculates c P := by
  unfold numericArithmetic
  split
  · simp
  · refine calculates_bind (calculates_coerce _ _) fun _ => ?_
    refine calculates_bind (calculates_coerce _ _) fun _ => ?_
    split <;> simp

@[simp]
theorem calculates_arithmetic (op : BinaryOp) (l r : Value) (hint : Option GoType) :
    (arithmetic op l r hint).Calculates c P := by
  unfold arithmetic
  repeat' split
  all_goals simp

@[simp]
theorem calculates_isZero (subject : Value) (negated : Bool) :
    (isZero subject negated).Calculates c P := by
  refine calculates_bind (calculates_warn _ (by decide)) fun _ => ?_
  repeat' split
  all_goals simp

@[simp]
theorem calculates_compareConst (op : BinaryOp) (subject : Value) (value : Bool) :
    (compareConst op subject value).Calculates c P :=
  calculates_bind (calculates_coerce _ _) fun _ => calculates_pure _

@[simp]
theorem calculates_compareBool (op : BinaryOp) (l r : Value) :
    (compareBool op l r).Calculates c P := by
  unfold compareBool
  repeat' split
  all_goals simp

@[simp]
theorem calculates_compareTime (op : BinaryOp) (l r : Value) :
    (compareTime op l r).Calculates c P := by
  unfold compareTime
  refine calculates_bind (calculates_coerce _ _) fun _ => ?_
  refine calculates_bind (calculates_coerce _ _) fun _ => ?_
  split <;> simp

@[simp]
theorem calculates_compareDecimal (op : BinaryOp) (l r : Value) :
    (compareDecimal op l r).Calculates c P := by
  unfold compareDecimal
  refine calculates_bind (calculates_coerce _ _) fun _ => ?_
  refine calculates_bind (calculates_coerce _ _) fun _ => ?_
  split <;> simp

@[simp]
theorem calculates_compareNull (op : BinaryOp) (subject : Value) :
    (compareNull op subject).Calculates c P := by
  unfold compareNull
  split <;> simp

@[simp]
theorem calculates_compareNumbers (op : BinaryOp) (l r : Value) :
    (compareNumbers op l r).Calculates c P := by
  unfold compareNumbers
  repeat' split
  all_goals simp

/-- A comparison converts its operands and warns where it tests for NULL. -/
@[simp]
theorem calculates_compare (op : BinaryOp) (l r : Value) :
    (compare op l r).Calculates c P := by
  unfold compare
  -- The tests for NULL come first, and each type has a comparison of its own.
  dsimp only
  repeat' split
  all_goals simp

@[simp]
theorem calculates_lowerLike (negated : Bool) (l r : Value) :
    (lowerLike negated l r).Calculates c P := by
  unfold lowerLike
  refine calculates_bind (calculates_coerce _ _) fun _ => ?_
  refine calculates_bind (calculates_coerce _ _) fun _ => ?_
  exact calculates_bind (calculates_runtimeCall _ _) fun _ => calculates_pure _

/-- A binary operator calculates if its operands do, whatever they are hinted at. -/
theorem calculates_lowerBinary (op : BinaryOp) {left right : Pending} (hint : Option GoType)
    (hleft : ∀ hint, (left hint).Calculates c P)
    (hright : ∀ hint, (right hint).Calculates c P) :
    (lowerBinary op left right hint).Calculates c P := by
  unfold lowerBinary
  split
  · unfold lowerLogical
    refine calculates_bind (hleft _) fun l => calculates_bind (calculates_coerce l _) fun _ => ?_
    refine calculates_bind (hright _) fun r => calculates_bind (calculates_coerce r _) fun _ => ?_
    exact calculates_pure _
  · refine calculates_bind (hleft _) fun l => calculates_bind (hright _) fun r => ?_
    repeat' split
    all_goals simp

@[simp]
theorem calculates_lowerUnary (op : UnaryOp) (value : Value) :
    (lowerUnary op value).Calculates c P := by
  unfold lowerUnary
  split <;> simp

@[simp]
theorem calculates_lowerBetween (negated : Bool) (subject low high : Value) :
    (lowerBetween negated subject low high).Calculates c P := by
  unfold lowerBetween
  refine calculates_bind (calculates_compare _ _ _) fun _ => ?_
  exact calculates_bind (calculates_compare _ _ _) fun _ => calculates_pure _

@[simp]
theorem calculates_coerceArms (type : GoType) (arms : List (Go.Expr × Value)) :
    (coerceArms type arms).Calculates c P := by
  induction arms with
  | nil => exact calculates_pure _
  | cons arm rest ih =>
    exact calculates_bind (calculates_coerce _ _) fun _ =>
      calculates_bind ih fun _ => calculates_pure _

@[simp]
theorem calculates_lowerCase (arms : List (Go.Expr × Value)) (otherwise : Option Value)
    (hint : Option GoType) : (lowerCase arms otherwise hint).Calculates c P := by
  unfold lowerCase
  split
  · exact calculates_unsupported _ _
  · refine calculates_bind (calculates_coerceArms _ _) fun _ => ?_
    split <;> simp

/-! ## Values from the server -/

@[simp]
theorem calculates_tranCount : tranCount.Calculates c P := by
  unfold tranCount
  refine .reads (.looks (fun p q _ htransaction => ?_) fun _ => ?_)
  · simp only [htransaction]
  · dsimp only
    split <;> simp

@[simp]
theorem calculates_lowerGlobal (var : GlobalVar) : (lowerGlobal var).Calculates c P := by
  unfold lowerGlobal
  split <;> simp

@[simp]
theorem calculates_lowerVariable (name : String) :
    (lowerVariable name).Calculates c P :=
  calculates_bind (calculates_lookup name) fun _ => calculates_pure _

/-! ## Built-in functions -/

/-- The arguments of a built-in function calculate, whatever they are hinted at. -/
structure ArgsCalculate (args : List Arg) (c : Context) (P : (α : Type) → Lower α → Prop) : Prop where
  value {arg : Arg} (harg : arg ∈ args) (hint : Option GoType) :
    (arg.value hint).Calculates c P

section Arguments

variable {args : List Arg}

/-- What is done with an argument of a list calculates if it does for every member. -/
theorem calculates_argAt_bind {next : Arg → Lower α} (name : String) (index : Nat)
    (hnext : ∀ arg ∈ args, (next arg).Calculates c P) :
    (argAt name args index >>= next).Calculates c P := by
  unfold argAt
  cases harg : args[index]? with
  | some arg =>
    rw [pure_bind]
    exact hnext arg (List.mem_of_getElem? harg)
  | none => exact calculates_unsupported_bind _ _

variable (hargs : ArgsCalculate args c P)

include hargs

@[simp]
theorem calculates_typedArg (type : GoType) (name : String) (index : Nat) :
    (typedArg type name args index).Calculates c P :=
  calculates_argAt_bind name index fun _ harg =>
    calculates_bind (hargs.value harg _) fun _ => calculates_coerce _ _

@[simp]
theorem calculates_stringArg (name : String) (index : Nat) :
    (stringArg name args index).Calculates c P :=
  calculates_typedArg hargs _ name index

@[simp]
theorem calculates_timeArg (name : String) (index : Nat) :
    (timeArg name args index).Calculates c P :=
  calculates_typedArg hargs _ name index

@[simp]
theorem calculates_intArg (name : String) (index : Nat) :
    (intArg name args index).Calculates c P := by
  refine calculates_argAt_bind name index fun _ harg => ?_
  refine calculates_bind (hargs.value harg _) fun value => ?_
  split <;> simp

omit hargs in
@[simp]
theorem calculates_datePartArg (name : String) (index : Nat) :
    (datePartArg name args index).Calculates c P := by
  refine calculates_argAt_bind name index fun arg _ => ?_
  dsimp only
  repeat' split
  all_goals simp

@[simp]
theorem calculates_evaluateAll (hint : Option GoType) :
    (evaluateAll hint args).Calculates c P := by
  induction args with
  | nil => exact calculates_pure _
  | cons arg rest ih =>
    have hrest : ArgsCalculate rest c P :=
      ⟨fun hother => hargs.value (List.mem_cons_of_mem _ hother)⟩
    refine calculates_bind (hargs.value List.mem_cons_self hint) fun _ => ?_
    exact calculates_bind (ih hrest) fun _ => calculates_pure _

omit hargs in
@[simp]
theorem calculates_coerceAll (type : GoType) (values : List Value) :
    (coerceAll type values).Calculates c P := by
  induction values with
  | nil => exact calculates_pure _
  | cons value rest ih =>
    exact calculates_bind (calculates_coerce _ _) fun _ => calculates_bind ih fun _ => calculates_pure _

@[simp]
theorem calculates_lowerCoalesce (name : String) (hint : Option GoType) :
    (lowerCoalesce name args hint).Calculates c P := by
  unfold lowerCoalesce
  refine calculates_bind (calculates_evaluateAll hargs _) fun _ => ?_
  split <;> simp

@[simp]
theorem calculates_concatArgs (name : String) (indices : List Nat) :
    (concatArgs name args indices).Calculates c P := by
  induction indices with
  | nil => exact calculates_pure _
  | cons index rest ih =>
    exact calculates_bind (calculates_stringArg hargs name index) fun _ =>
      calculates_bind ih fun _ => calculates_pure _

@[simp]
theorem calculates_lowerConcat (name : String) :
    (lowerConcat name args).Calculates c P := by
  unfold lowerConcat
  refine calculates_bind (calculates_concatArgs hargs _ _) fun _ => ?_
  split <;> simp

@[simp]
theorem calculates_roundingArg (name : String) (hint : Option GoType) :
    (roundingArg name args hint).Calculates c P := by
  refine calculates_argAt_bind name 0 fun _ harg => ?_
  refine calculates_bind (hargs.value harg hint) fun value => ?_
  -- The argument is converted first, and the type of what comes out decides.
  split
  · refine calculates_bind (calculates_coerce _ _) fun _ => ?_
    dsimp only
    split <;> simp
  · refine calculates_bind (calculates_coerce _ _) fun _ => ?_
    dsimp only
    split <;> simp
  · refine calculates_bind (calculates_pure _) fun _ => ?_
    dsimp only
    split <;> simp

@[simp]
theorem calculates_lowerAbs (name : String) (hint : Option GoType) :
    (lowerAbs name args hint).Calculates c P := by
  unfold lowerAbs
  refine calculates_bind (calculates_roundingArg hargs _ _) fun _ => ?_
  repeat' split
  all_goals simp

@[simp]
theorem calculates_lowerRound (name : String) (hint : Option GoType) :
    (lowerRound name args hint).Calculates c P := by
  unfold lowerRound
  refine calculates_bind (calculates_roundingArg hargs _ _) fun _ => ?_
  repeat' split
  all_goals simp [hargs]

@[simp]
theorem calculates_lowerToward (function name : String) (hint : Option GoType) :
    (lowerToward function name args hint).Calculates c P := by
  unfold lowerToward
  refine calculates_bind (calculates_roundingArg hargs _ _) fun _ => ?_
  repeat' split
  all_goals simp

omit hargs in
@[simp]
theorem calculates_stringsCall (function : String) (args : List Go.Expr) :
    (stringsCall function args).Calculates c P :=
  calculates_bind (calculates_importPath (by simp)) fun _ => calculates_pure _

@[simp]
theorem calculates_lowerBuiltin (builtin : Builtin) (name : String) (hint : Option GoType) :
    (lowerBuiltin builtin name args hint).Calculates c P := by
  unfold lowerBuiltin
  cases builtin with
  | clock code => exact calculates_bind (calculates_importPath (by simp)) fun _ => calculates_pure _
  | identity => exact calculates_pure _
  | newId => exact calculates_bind (calculates_runtimeCall _ _) fun _ => calculates_pure _
  | coalesce => exact calculates_lowerCoalesce hargs name hint
  | len =>
    refine calculates_bind (calculates_stringArg hargs name 0) fun _ => ?_
    refine calculates_bind (calculates_importPath (by simp)) fun _ => ?_
    exact calculates_bind (calculates_stringsCall _ _) fun _ => calculates_pure _
  | dataLength =>
    exact calculates_bind (calculates_stringArg hargs name 0) fun _ => calculates_pure _
  | stringCall function extra =>
    refine calculates_bind (calculates_stringArg hargs name 0) fun _ => ?_
    exact calculates_bind (calculates_stringsCall _ _) fun _ => calculates_pure _
  | replace =>
    refine calculates_bind (calculates_stringArg hargs name 0) fun _ => ?_
    refine calculates_bind (calculates_stringArg hargs name 1) fun _ => ?_
    refine calculates_bind (calculates_stringArg hargs name 2) fun _ => ?_
    exact calculates_bind (calculates_stringsCall _ _) fun _ => calculates_pure _
  | substring =>
    refine calculates_bind (calculates_stringArg hargs name 0) fun _ => ?_
    refine calculates_bind (calculates_intArg hargs name 1) fun _ => ?_
    refine calculates_bind (calculates_intArg hargs name 2) fun _ => ?_
    exact calculates_bind (calculates_runtimeCall _ _) fun _ => calculates_pure _
  | edge function =>
    refine calculates_bind (calculates_stringArg hargs name 0) fun _ => ?_
    refine calculates_bind (calculates_intArg hargs name 1) fun _ => ?_
    exact calculates_bind (calculates_runtimeCall _ _) fun _ => calculates_pure _
  | charIndex =>
    refine calculates_bind (calculates_stringArg hargs name 0) fun _ => ?_
    refine calculates_bind (calculates_stringArg hargs name 1) fun _ => ?_
    exact calculates_bind (calculates_stringsCall _ _) fun _ => calculates_pure _
  | concat => exact calculates_lowerConcat hargs name
  | abs => exact calculates_lowerAbs hargs name hint
  | round => exact calculates_lowerRound hargs name hint
  | toward function => exact calculates_lowerToward hargs function name hint
  | datePart method =>
    exact calculates_bind (calculates_timeArg hargs name 0) fun _ => calculates_pure _
  | dateAdd =>
    refine calculates_bind (calculates_datePartArg name 0) fun _ => ?_
    refine calculates_bind (calculates_intArg hargs name 1) fun _ => ?_
    refine calculates_bind (calculates_timeArg hargs name 2) fun _ => ?_
    exact calculates_bind (calculates_runtimeCall _ _) fun _ => calculates_pure _
  | dateDiff =>
    refine calculates_bind (calculates_datePartArg name 0) fun _ => ?_
    refine calculates_bind (calculates_timeArg hargs name 1) fun _ => ?_
    refine calculates_bind (calculates_timeArg hargs name 2) fun _ => ?_
    exact calculates_bind (calculates_runtimeCall _ _) fun _ => calculates_pure _

/-- A built-in function calculates if its arguments do, whatever they are hinted at. -/
theorem calculates_lowerFunction (name : String) (hint : Option GoType) :
    (lowerFunction name args hint).Calculates c P := by
  unfold lowerFunction
  refine .reads ?_
  dsimp only
  split
  · split <;> simp
  · split <;> simp [hargs]

end Arguments

/-- What fills a field of a request only calculates. -/
theorem calculates_of_fieldValue?_eq_some {expr : Expr} {evaluate : Lower Value}
    (h : fieldValue? expr = some evaluate) : evaluate.Calculates c P := by
  unfold fieldValue? at h
  split at h
  case h_6 name =>
    rw [Option.ite_none_right_eq_some] at h
    obtain ⟨-, h⟩ := h
    rw [← Option.some.inj h]
    exact calculates_lowerFunction ⟨by simp⟩ name none
  case h_7 => cases h
  all_goals
    rw [← Option.some.inj h]
    simp

/-! ## Expressions -/

/-- The queries among some expressions satisfy a property. -/
structure QueriesIn (exprs : List Expr) (P : (α : Type) → Lower α → Prop) : Prop where
  probe {query : Select} : .exists query ∈ exprs → P _ (hoistExists query)
  scalar {query : Select} {table : TableRef} (hint : Option GoType) : .subquery query ∈ exprs →
    query.source = some table → P _ (hoistScalar query table hint)

theorem QueriesIn.part {exprs inner : List Expr} (h : QueriesIn exprs P)
    (hinner : ∀ e ∈ inner, e ∈ exprs) : QueriesIn inner P where
  probe hquery := h.probe (hinner _ hquery)
  scalar hint hquery hsource := h.scalar hint (hinner _ hquery) hsource

-- The cases follow the mutual recursion of the generation; only the queries write statements.
mutual

/-- An expression does nothing that the queries inside it do not do, other than to calculate. -/
theorem calculates_lowerExpr (expr : Expr) (h : QueriesIn expr.walk P) (hint : Option GoType) :
    (lowerExpr expr hint).Calculates c P := by
  match expr with
  | .literal value =>
    rw [lowerExpr]
    exact calculates_pure _
  | .variable name =>
    rw [lowerExpr]
    exact calculates_lowerVariable name
  | .global var =>
    rw [lowerExpr]
    exact calculates_lowerGlobal var
  | .column ref =>
    rw [lowerExpr]
    exact calculates_unsupported _ _
  | .star =>
    rw [lowerExpr]
    exact calculates_unsupported _ _
  | .unary op operand =>
    rw [lowerExpr]
    have hoperand := calculates_lowerExpr operand (h.part fun e he => by simp [Expr.walk, he]) hint
    exact calculates_bind hoperand fun _ => calculates_lowerUnary op _
  | .binary op left right =>
    rw [lowerExpr]
    have hleft := calculates_lowerExpr left (h.part fun e he => by simp [Expr.walk, he])
    have hright := calculates_lowerExpr right (h.part fun e he => by simp [Expr.walk, he])
    exact calculates_lowerBinary op hint hleft hright
  | .isNull operand negated =>
    rw [lowerExpr]
    have hoperand := calculates_lowerExpr operand (h.part fun e he => by simp [Expr.walk, he]) none
    exact calculates_bind hoperand fun _ => calculates_isZero _ negated
  | .inList operand list negated =>
    rw [lowerExpr]
    have hlist : QueriesIn (walkList list) P :=
      h.part fun e he => by simp [Expr.walk, he]
    have hoperand := calculates_lowerExpr operand (h.part fun e he => by simp [Expr.walk, he]) none
    refine calculates_bind hoperand fun subject => ?_
    exact calculates_bind (calculates_lowerMembers _ subject list hlist) fun _ => calculates_pure _
  | .between operand low high negated =>
    rw [lowerExpr]
    have hoperand := calculates_lowerExpr operand (h.part fun e he => by simp [Expr.walk, he]) none
    have hlow := calculates_lowerExpr low (h.part fun e he => by simp [Expr.walk, he])
    have hhigh := calculates_lowerExpr high (h.part fun e he => by simp [Expr.walk, he])
    refine calculates_bind hoperand fun subject => calculates_bind (hlow _) fun _ => ?_
    exact calculates_bind (hhigh _) fun _ => calculates_lowerBetween ..
  | .function name args =>
    rw [lowerExpr]
    have hargs : QueriesIn (walkList args) P :=
      h.part fun e he => by simp [Expr.walk, he]
    exact calculates_lowerFunction (calculates_lowerArgs args hargs) name hint
  | .cast operand type =>
    rw [lowerExpr]
    refine calculates_bind (calculates_ofExcept (failsPlainly_classify type)) fun info => ?_
    have hoperand := calculates_lowerExpr operand (h.part fun e he => by simp [Expr.walk, he])
    exact calculates_bind (hoperand _) fun _ => calculates_coerce _ _
  | .case branches otherwise =>
    rw [lowerExpr]
    have hbranches : QueriesIn (walkBranches branches) P :=
      h.part fun e he => by simp [Expr.walk, he]
    have hotherwise : QueriesIn (walkOption otherwise) P :=
      h.part fun e he => by simp [Expr.walk, he]
    refine calculates_bind (calculates_lowerBranches hint branches hbranches) fun arms => ?_
    exact calculates_bind (calculates_lowerOtherwise hint otherwise hotherwise) fun _ =>
      calculates_lowerCase ..
  | .exists query =>
    rw [lowerExpr]
    exact .part (h.probe (by simp [Expr.walk]))
  | .subquery query =>
    rw [lowerExpr]
    exact calculates_lowerScalar query h hint

theorem calculates_lowerMembers (op : BinaryOp)
    (subject : Value) (list : List Expr) (h : QueriesIn (walkList list) P) :
    (lowerMembers op subject list).Calculates c P := by
  match list with
  | [] =>
    rw [lowerMembers]
    exact calculates_pure _
  | expr :: rest =>
    rw [lowerMembers]
    have hexpr := calculates_lowerExpr expr (h.part fun e he => by simp [walkList, he])
    have hrest := calculates_lowerMembers op subject rest (h.part fun e he => by simp [walkList, he])
    refine calculates_bind (hexpr _) fun _ => ?_
    refine calculates_bind (calculates_compare op subject _) fun _ => ?_
    exact calculates_bind hrest fun _ => calculates_pure _

theorem calculates_lowerArgs (args : List Expr) (h : QueriesIn (walkList args) P) :
    ArgsCalculate (lowerArgs args) c P := by
  match args with
  | [] => exact ⟨fun harg => by simp [lowerArgs] at harg⟩
  | expr :: rest =>
    refine ⟨fun harg => ?_⟩
    rw [lowerArgs, List.mem_cons] at harg
    rcases harg with rfl | hrest
    · exact calculates_lowerExpr expr (h.part fun e he => by simp [walkList, he])
    · exact (calculates_lowerArgs rest (h.part fun e he => by simp [walkList, he])).value hrest

theorem calculates_lowerBranches (hint : Option GoType) (branches : List CaseBranch)
    (h : QueriesIn (walkBranches branches) P) : (lowerBranches hint branches).Calculates c P := by
  match branches with
  | [] =>
    rw [lowerBranches]
    exact calculates_pure _
  | ⟨test, value⟩ :: rest =>
    rw [lowerBranches]
    have htest := calculates_lowerExpr test (h.part fun e he => by simp [walkBranches, he])
    have hvalue := calculates_lowerExpr value (h.part fun e he => by simp [walkBranches, he])
    have hrest := calculates_lowerBranches hint rest (h.part fun e he => by simp [walkBranches, he])
    refine calculates_bind (htest _) fun _ => ?_
    refine calculates_bind (calculates_coerce _ _) fun _ => ?_
    exact calculates_bind (hvalue hint) fun _ => calculates_bind hrest fun _ => calculates_pure _

theorem calculates_lowerOtherwise (hint : Option GoType)
    (otherwise : Option Expr) (h : QueriesIn (walkOption otherwise) P) :
    (lowerOtherwise hint otherwise).Calculates c P := by
  match otherwise with
  | none =>
    rw [lowerOtherwise]
    exact calculates_pure _
  | some expr =>
    rw [lowerOtherwise]
    exact calculates_bind (calculates_lowerExpr expr h hint) fun _ => calculates_pure _

theorem calculates_lowerScalar (query : Select) (h : QueriesIn (Expr.subquery query).walk P)
    (hint : Option GoType) : (lowerScalar query hint).Calculates c P := by
  match query with
  | ⟨top, distinct, items, source, joins, filter, groupBy, orderBy⟩ =>
    rw [lowerScalar]
    cases hitem : lowerOnlyItem? items hint with
    | none => exact calculates_unsupported _ _
    | some value =>
      cases source with
      | none =>
        have hitems : QueriesIn (walkItems items) P :=
          h.part fun e he => by simp [Expr.walk, Select.walk, he]
        exact calculates_lowerOnlyItem? items hitems hint value hitem
      | some table => exact .part (h.scalar hint (by simp [Expr.walk]) rfl)

theorem calculates_lowerOnlyItem? (items : List SelectItem) (h : QueriesIn (walkItems items) P)
    (hint : Option GoType) (step : Lower Value) (hstep : lowerOnlyItem? items hint = some step) :
    step.Calculates c P := by
  match items with
  | [⟨expr, _, _⟩] =>
    rw [lowerOnlyItem?, Option.some_inj] at hstep
    rw [← hstep]
    exact calculates_lowerExpr expr (h.part fun e he => by simp [walkItems, he]) hint
  | [] => cases hstep
  | ⟨_, _, _⟩ :: _ :: _ => cases hstep

end

theorem calculates_lowerValue (expr : Expr) (h : QueriesIn expr.walk P) (target : GoType) :
    (lowerValue expr target).Calculates c P :=
  calculates_bind (calculates_lowerExpr expr h _) fun _ =>
    calculates_bind (calculates_coerce _ _) fun _ => calculates_pure _

/-- Where no query is met, nothing is asked of queries. -/
theorem QueriesIn.of_unhoisted {expr : Expr} (h : expr.needsHoist = false) :
    QueriesIn expr.walk P := by
  have hnone {e : Expr} (he : e ∈ expr.walk) : e.isQuery = false :=
    Bool.eq_false_iff.mpr (List.any_eq_false.mp h e he)
  refine ⟨fun hquery => ?_, fun _ hquery _ => ?_⟩
  · exact absurd (hnone hquery) (by simp [Expr.isQuery])
  · exact absurd (hnone hquery) (by simp [Expr.isQuery])

end Lower

end Sproc
