import Sproc.Proofs.Lower.Delivery

/-!
# Queries inside expressions

An expression that is evaluated outside of query text makes contacts for the queries inside it, in
the order of the text. A built-in function evaluates its arguments at most once each; some of them
it ignores, with the queries inside them.

## Main definitions

* `Expr.sources`: the tables of the queries inside an expression that it evaluates itself
* `Contact.hoists`: the contacts for such queries

## Main results

* `delivers_lowerExpr`, `carries_lowerValue`: the contacts of an expression
-/

namespace Sproc

open Go

mutual

/-- The tables of the queries that an expression evaluates outside of query text. -/
def Expr.sources : Expr → List TableRef
  | .unary _ operand => operand.sources
  | .binary _ left right => left.sources ++ right.sources
  | .isNull operand _ => operand.sources
  | .inList operand list _ => operand.sources ++ exprSources list
  | .between operand low high _ => operand.sources ++ (low.sources ++ high.sources)
  | .function _ args => exprSources args
  | .cast operand _ => operand.sources
  | .case branches otherwise => branchSources branches ++ optionSources otherwise
  | .exists query => query.source.toList
  | .subquery query => query.scalarSources
  | _ => []

/-- The tables of a list of expressions. -/
def exprSources : List Expr → List TableRef
  | [] => []
  | expr :: rest => expr.sources ++ exprSources rest

/-- The tables of an optional expression. -/
def optionSources : Option Expr → List TableRef
  | none => []
  | some expr => expr.sources

/-- The tables of the arms of a case. -/
def branchSources : List CaseBranch → List TableRef
  | [] => []
  | ⟨test, result⟩ :: rest => test.sources ++ (result.sources ++ branchSources rest)

/-- The tables of a select list. -/
def itemSources : List SelectItem → List TableRef
  | [] => []
  | ⟨expr, _, _⟩ :: rest => expr.sources ++ itemSources rest

/-- The tables of a query for a single value. Without a table of its own it is its only item. -/
def Select.scalarSources : Select → List TableRef
  | ⟨_, _, items, source, _, _, _, _⟩ =>
    match source with
    | some table => [table]
    | none => itemSources items

end

/-- The contacts for queries over tables inside expressions. -/
def Contact.hoists (tables : List TableRef) : List Contact :=
  tables.map .hoisted

namespace Contact

@[simp]
theorem hoists_nil : hoists [] = [] := rfl

@[simp]
theorem hoists_append (front back : List TableRef) :
    hoists (front ++ back) = hoists front ++ hoists back :=
  List.map_append

/-- Queries inside expressions may be left out. -/
theorem fulfils_hoists {made named : List TableRef} (h : made.Subperm named) :
    Fulfils (hoists made) (hoists named) := by
  have hnone (tables : List TableRef) : (hoists tables).filter (·.isStatement) = [] := by
    simp [hoists, List.filter_eq_nil_iff, isStatement]
  refine ⟨by rw [hnone, hnone], ?_⟩
  obtain ⟨middle, hperm, hsub⟩ := h
  exact ⟨(hoists middle).filter (·.isHoisted), (hperm.map _).filter _, (hsub.map _).filter _⟩

end Contact

namespace Lower

open Contact (hoists)

variable {α : Type} {L : Charter} {c : Context}

/-- A step that only computes a value makes no contact. -/
theorem delivers_computed {step : Lower α} (h : step.HasEffect c Progress.Computed) :
    step.Delivers L c [] [] :=
  (sends_computed h).delivers

/-- What follows is only a computation. -/
theorem delivers_bind_computed {β : Type} {step : Lower α} {next : α → Lower β}
    {contacts : List Contact} (h : step.Delivers L c [] contacts)
    (hnext : ∀ value, (next value).HasEffect c Progress.Computed) :
    (step >>= next).Delivers L c [] contacts := by
  refine carries_bind_last h fun value owed howed => ?_
  rw [howed]
  exact delivers_computed (hnext value)

/-- Queries inside expressions may be left out. -/
theorem Delivers.drop {step : Lower α} {made named : List TableRef}
    (h : step.Delivers L c [] (hoists made)) (hsub : made.Sublist named) :
    step.Delivers L c [] (hoists named) :=
  Carries.fulfils h (Contact.fulfils_hoists hsub.subperm)

/-- A computation on the results of two steps. -/
theorem delivers_two_bind {β γ : Type} {first : Lower β} {second : β → Lower γ}
    {next : β → γ → Lower α} {tables tables' : List TableRef}
    (hfirst : first.Delivers L c [] (hoists tables))
    (hsecond : ∀ a, (second a).Delivers L c [] (hoists tables'))
    (hnext : ∀ a b, (next a b).HasEffect c Progress.Computed) :
    (first >>= fun a => second a >>= fun b => next a b).Delivers L c []
      (hoists (tables ++ tables')) := by
  rw [Contact.hoists_append]
  exact delivers_bind hfirst fun a => delivers_bind_computed (hsecond a) fun b => hnext a b

/-! ## Built-in functions -/

/-- The tables of the argument at an index. -/
def argSources (args : List Expr) (index : Nat) : List TableRef :=
  optionSources args[index]?

/-- The first arguments of a function, each of them once. -/
theorem argSources_sublist (args : List Expr) :
    (argSources args 0 ++ (argSources args 1 ++ argSources args 2)).Sublist (exprSources args) := by
  rcases args with _ | ⟨first, _ | ⟨second, _ | ⟨third, rest⟩⟩⟩
  all_goals simp [argSources, exprSources, optionSources]

/-- All arguments of a function. -/
theorem flatMap_argSources (args : List Expr) :
    (List.range args.length).flatMap (argSources args) = exprSources args := by
  induction args with
  | nil => rfl
  | cons arg rest ih =>
    rw [List.length_cons, List.range_succ_eq_map, List.flatMap_cons, List.flatMap_map, exprSources,
      ← ih]
    rfl

/-- Arguments make the contacts of their expressions, whatever they are hinted at. -/
def ArgsDeliver (L : Charter) (c : Context) : List Arg → List Expr → Prop :=
  List.Forall₂ fun arg expr => ∀ hint, (arg.value hint).Delivers L c [] (hoists expr.sources)

section Arguments

variable {args : List Arg} {exprs : List Expr} (hargs : ArgsDeliver L c args exprs)

include hargs

theorem delivers_argAt_bind {next : Arg → Lower α} {contacts : List Contact} (name : String)
    (index : Nat) (hnext : ∀ arg, (∀ hint, (arg.value hint).Delivers L c []
      (hoists (argSources exprs index))) → (next arg).Delivers L c [] contacts) :
    (argAt name args index >>= next).Delivers L c [] contacts := by
  unfold argAt
  cases harg : args[index]? with
  | none => exact carries_unsupported_bind
  | some arg =>
    obtain ⟨hlt, rfl⟩ := List.getElem?_eq_some_iff.mp harg
    have hexpr : index < exprs.length := hargs.length_eq ▸ hlt
    have hsources : argSources exprs index = exprs[index].sources := by
      rw [argSources, List.getElem?_eq_getElem hexpr, optionSources]
    rw [pure_bind]
    exact hnext _ (hsources ▸ hargs.get hlt hexpr)

theorem delivers_typedArg (type : GoType) (name : String) (index : Nat) :
    (typedArg type name args index).Delivers L c [] (hoists (argSources exprs index)) :=
  delivers_argAt_bind hargs name index fun _ harg =>
    delivers_bind_computed (harg _) fun _ => hasEffect_coerce _ _

theorem delivers_stringArg (name : String) (index : Nat) :
    (stringArg name args index).Delivers L c [] (hoists (argSources exprs index)) :=
  delivers_typedArg hargs _ name index

theorem delivers_timeArg (name : String) (index : Nat) :
    (timeArg name args index).Delivers L c [] (hoists (argSources exprs index)) :=
  delivers_typedArg hargs _ name index

theorem delivers_intArg (name : String) (index : Nat) :
    (intArg name args index).Delivers L c [] (hoists (argSources exprs index)) := by
  refine delivers_argAt_bind hargs name index fun _ harg => ?_
  refine delivers_bind_computed (harg _) fun value => ?_
  split <;> simp

theorem delivers_evaluateAll (hint : Option GoType) :
    (evaluateAll hint args).Delivers L c [] (hoists (exprSources exprs)) := by
  induction hargs with
  | nil => exact delivers_computed (hasEffect_pure _)
  | cons harg _ ih =>
    rw [exprSources, Contact.hoists_append]
    refine delivers_bind (harg hint) fun _ => ?_
    exact delivers_bind_computed ih fun _ => hasEffect_pure _

theorem delivers_lowerCoalesce (name : String) (hint : Option GoType) :
    (lowerCoalesce name args hint).Delivers L c [] (hoists (exprSources exprs)) := by
  refine delivers_bind_computed (delivers_evaluateAll hargs _) fun values => ?_
  split <;> exact Calculates.hasEffect (by simp)

theorem delivers_concatArgs (name : String) (indices : List Nat) :
    (concatArgs name args indices).Delivers L c []
      (hoists (indices.flatMap (argSources exprs))) := by
  induction indices with
  | nil => exact delivers_computed (hasEffect_pure _)
  | cons index rest ih =>
    rw [List.flatMap_cons, Contact.hoists_append]
    refine delivers_bind (delivers_stringArg hargs name index) fun _ => ?_
    exact delivers_bind_computed ih fun _ => hasEffect_pure _

theorem delivers_lowerConcat (name : String) :
    (lowerConcat name args).Delivers L c [] (hoists (exprSources exprs)) := by
  rw [← flatMap_argSources exprs, ← hargs.length_eq]
  refine delivers_bind_computed (delivers_concatArgs hargs _ _) fun parts => ?_
  split <;> simp

theorem delivers_roundingArg (name : String) (hint : Option GoType) :
    (roundingArg name args hint).Delivers L c [] (hoists (argSources exprs 0)) := by
  refine delivers_argAt_bind hargs name 0 fun _ harg => ?_
  refine delivers_bind_computed (harg hint) fun value => ?_
  -- The argument is converted first, and the type of what comes out decides.
  split
  · refine hasEffect_bind (hasEffect_coerce _ _) fun _ => ?_
    dsimp only
    split <;> simp
  · refine hasEffect_bind (hasEffect_coerce _ _) fun _ => ?_
    dsimp only
    split <;> simp
  · refine hasEffect_bind (hasEffect_pure _) fun _ => ?_
    dsimp only
    split <;> simp

theorem delivers_lowerAbs (name : String) (hint : Option GoType) :
    (lowerAbs name args hint).Delivers L c [] (hoists (argSources exprs 0)) := by
  refine delivers_bind_computed (delivers_roundingArg hargs _ _) fun _ => ?_
  repeat' split
  all_goals simp

theorem delivers_lowerToward (function name : String) (hint : Option GoType) :
    (lowerToward function name args hint).Delivers L c [] (hoists (argSources exprs 0)) := by
  refine delivers_bind_computed (delivers_roundingArg hargs _ _) fun _ => ?_
  repeat' split
  all_goals simp

/-- The number of places is ignored where there is nothing to round. -/
theorem delivers_lowerRound (name : String) (hint : Option GoType) :
    (lowerRound name args hint).Delivers L c []
      (hoists (argSources exprs 0 ++ argSources exprs 1)) := by
  rw [Contact.hoists_append]
  refine delivers_bind (delivers_roundingArg hargs _ _) fun rounded => ?_
  have hplaces := delivers_intArg hargs name 1
  dsimp only
  split
  · exact delivers_bind_computed hplaces fun _ => hasEffect_pure _
  · split
    · exact (delivers_computed (hasEffect_pure _)).drop (List.nil_sublist _)
    · exact delivers_bind_computed hplaces fun _ => by simp

/-- A built-in function evaluates its arguments at most once each. -/
theorem delivers_lowerBuiltin (builtin : Builtin) (name : String) (hint : Option GoType) :
    (lowerBuiltin builtin name args hint).Delivers L c [] (hoists (exprSources exprs)) := by
  have hstring := delivers_stringArg hargs name
  have hcount := delivers_intArg hargs name
  have htime := delivers_timeArg hargs name
  have hdate : (datePartArg name args 0).Delivers L c [] [] :=
    delivers_computed (calculates_datePartArg name 0).hasEffect
  -- What a function evaluates of its first three arguments.
  have hpart {step : Lower Value} {evaluated : List TableRef}
      (hsub : evaluated.Sublist (argSources exprs 0 ++ (argSources exprs 1 ++ argSources exprs 2)))
      (h : step.Delivers L c [] (hoists evaluated)) :
      step.Delivers L c [] (hoists (exprSources exprs)) :=
    h.drop (hsub.trans (argSources_sublist exprs))
  have hnone {step : Lower Value} (h : step.HasEffect c Progress.Computed) :=
    hpart (List.nil_sublist _) (delivers_computed h)
  have hone {step : Lower Value} :=
    @hpart step _ (List.sublist_append_left (argSources exprs 0) _)
  have htwo {step : Lower Value} :=
    @hpart step _ ((List.Sublist.refl (argSources exprs 0)).append (List.sublist_append_left _ _))
  have hlast {step : Lower Value} :=
    @hpart step _ (List.sublist_append_right (argSources exprs 0) _)
  cases builtin with
  | clock code => exact hnone (hasEffect_bind (hasEffect_importPath _) fun _ => hasEffect_pure _)
  | identity => exact hnone (hasEffect_pure _)
  | newId => exact hnone (hasEffect_bind (hasEffect_runtimeCall _ _) fun _ => hasEffect_pure _)
  | coalesce => exact delivers_lowerCoalesce hargs name hint
  | len =>
    refine hone (delivers_bind_computed (hstring 0) fun _ => ?_)
    refine hasEffect_bind (hasEffect_importPath _) fun _ => ?_
    exact hasEffect_bind (calculates_stringsCall _ _).hasEffect fun _ => hasEffect_pure _
  | dataLength => exact hone (delivers_bind_computed (hstring 0) fun _ => hasEffect_pure _)
  | stringCall function extra =>
    refine hone (delivers_bind_computed (hstring 0) fun _ => ?_)
    exact hasEffect_bind (calculates_stringsCall _ _).hasEffect fun _ => hasEffect_pure _
  | replace =>
    refine hpart (List.Sublist.refl _) ?_
    rw [Contact.hoists_append]
    refine delivers_bind (hstring 0) fun _ => delivers_two_bind (hstring 1) (fun _ => hstring 2) ?_
    exact fun _ _ => hasEffect_bind (calculates_stringsCall _ _).hasEffect fun _ => hasEffect_pure _
  | substring =>
    refine hpart (List.Sublist.refl _) ?_
    rw [Contact.hoists_append]
    refine delivers_bind (hstring 0) fun _ => delivers_two_bind (hcount 1) (fun _ => hcount 2) ?_
    exact fun _ _ => hasEffect_bind (hasEffect_runtimeCall _ _) fun _ => hasEffect_pure _
  | edge function =>
    refine htwo (delivers_two_bind (hstring 0) (fun _ => hcount 1) fun _ _ => ?_)
    exact hasEffect_bind (hasEffect_runtimeCall _ _) fun _ => hasEffect_pure _
  | charIndex =>
    refine htwo (delivers_two_bind (hstring 0) (fun _ => hstring 1) fun _ _ => ?_)
    exact hasEffect_bind (calculates_stringsCall _ _).hasEffect fun _ => hasEffect_pure _
  | concat => exact delivers_lowerConcat hargs name
  | abs => exact hone (delivers_lowerAbs hargs name hint)
  | round => exact htwo (delivers_lowerRound hargs name hint)
  | toward function => exact hone (delivers_lowerToward hargs function name hint)
  | datePart method => exact hone (delivers_bind_computed (htime 0) fun _ => hasEffect_pure _)
  | dateAdd =>
    refine hlast (delivers_first_bind hdate fun _ => ?_)
    refine delivers_two_bind (hcount 1) (fun _ => htime 2) fun _ _ => ?_
    exact hasEffect_bind (hasEffect_runtimeCall _ _) fun _ => hasEffect_pure _
  | dateDiff =>
    refine hlast (delivers_first_bind hdate fun _ => ?_)
    refine delivers_two_bind (htime 1) (fun _ => htime 2) fun _ _ => ?_
    exact hasEffect_bind (hasEffect_runtimeCall _ _) fun _ => hasEffect_pure _

theorem delivers_lowerFunction (name : String) (hint : Option GoType) :
    (lowerFunction name args hint).Delivers L c [] (hoists (exprSources exprs)) := by
  have hnone {step : Lower Value} (h : step.HasEffect c Progress.Computed) :=
    (delivers_computed (L := L) h).drop (List.nil_sublist (exprSources exprs))
  refine carries_read_bind ?_
  dsimp only
  split
  · exact hnone (by split <;> simp)
  · split
    · exact delivers_lowerBuiltin hargs _ _ _
    · exact hnone (hasEffect_unsupported _ _)

end Arguments

/-! ## Expressions -/

theorem delivers_lowerBinary (op : BinaryOp) {left right : Pending} {tables tables' : List TableRef}
    (hint : Option GoType) (hleft : ∀ hint, (left hint).Delivers L c [] (hoists tables))
    (hright : ∀ hint, (right hint).Delivers L c [] (hoists tables')) :
    (lowerBinary op left right hint).Delivers L c [] (hoists (tables ++ tables')) := by
  unfold lowerBinary
  split
  · unfold lowerLogical
    rw [Contact.hoists_append]
    refine delivers_bind (hleft _) fun l => ?_
    refine delivers_first_bind (delivers_computed (hasEffect_coerce l _)) fun _ => ?_
    refine delivers_bind_computed (hright _) fun r => ?_
    exact hasEffect_bind (hasEffect_coerce r _) fun _ => hasEffect_pure _
  · refine delivers_two_bind (hleft _) (fun _ => hright _) fun l r => Calculates.hasEffect ?_
    repeat' split
    all_goals simp

-- The cases follow the mutual recursion of the generation.
mutual

/-- An expression makes contacts for the queries inside it. -/
theorem delivers_lowerExpr (expr : Expr) (hint : Option GoType) :
    (lowerExpr expr hint).Delivers L c [] (hoists expr.sources) := by
  match expr with
  | .literal value =>
    rw [lowerExpr]
    exact delivers_computed (hasEffect_pure _)
  | .variable name =>
    rw [lowerExpr]
    exact delivers_computed (calculates_lowerVariable name).hasEffect
  | .global var =>
    rw [lowerExpr]
    exact delivers_computed (calculates_lowerGlobal var).hasEffect
  | .column ref =>
    rw [lowerExpr]
    exact carries_unsupported
  | .star =>
    rw [lowerExpr]
    exact carries_unsupported
  | .unary op operand =>
    rw [lowerExpr, Expr.sources]
    exact delivers_bind_computed (delivers_lowerExpr operand hint) fun _ =>
      (calculates_lowerUnary op _).hasEffect
  | .binary op left right =>
    rw [lowerExpr, Expr.sources]
    exact delivers_lowerBinary op hint (delivers_lowerExpr left) (delivers_lowerExpr right)
  | .isNull operand negated =>
    rw [lowerExpr, Expr.sources]
    exact delivers_bind_computed (delivers_lowerExpr operand none) fun _ =>
      (calculates_isZero _ negated).hasEffect
  | .inList operand list negated =>
    rw [lowerExpr, Expr.sources, Contact.hoists_append]
    refine delivers_bind (delivers_lowerExpr operand none) fun subject => ?_
    exact delivers_bind_computed (delivers_lowerMembers _ subject list) fun _ => hasEffect_pure _
  | .between operand low high negated =>
    rw [lowerExpr, Expr.sources, Contact.hoists_append]
    refine delivers_bind (delivers_lowerExpr operand none) fun subject => ?_
    exact delivers_two_bind (delivers_lowerExpr low _) (fun _ => delivers_lowerExpr high _)
      fun _ _ => (calculates_lowerBetween ..).hasEffect
  | .function name args =>
    rw [lowerExpr, Expr.sources]
    exact delivers_lowerFunction (argsDeliver_lowerArgs args) name hint
  | .cast operand type =>
    rw [lowerExpr, Expr.sources]
    refine carries_sends_bind (sends_ofExcept fun _ _ => trivial) fun info _ => ?_
    exact delivers_bind_computed (delivers_lowerExpr operand _) fun _ => hasEffect_coerce _ _
  | .case branches otherwise =>
    rw [lowerExpr, Expr.sources]
    exact delivers_two_bind (delivers_lowerBranches hint branches)
      (fun _ => delivers_lowerOtherwise hint otherwise) fun _ _ => (calculates_lowerCase ..).hasEffect
  | .exists query =>
    rw [lowerExpr, Expr.sources, Contact.hoists, ← Option.toList_map]
    exact delivers_hoistExists query
  | .subquery query =>
    rw [lowerExpr, Expr.sources]
    exact delivers_lowerScalar query hint

theorem delivers_lowerMembers (op : BinaryOp) (subject : Value) (list : List Expr) :
    (lowerMembers op subject list).Delivers L c [] (hoists (exprSources list)) := by
  match list with
  | [] =>
    rw [lowerMembers]
    exact delivers_computed (hasEffect_pure _)
  | expr :: rest =>
    rw [lowerMembers, exprSources, Contact.hoists_append]
    refine delivers_bind (delivers_lowerExpr expr _) fun _ => ?_
    refine delivers_first_bind (delivers_computed (calculates_compare op subject _).hasEffect) fun _ => ?_
    exact delivers_bind_computed (delivers_lowerMembers op subject rest) fun _ => hasEffect_pure _

theorem argsDeliver_lowerArgs (args : List Expr) : ArgsDeliver L c (lowerArgs args) args := by
  match args with
  | [] =>
    rw [lowerArgs]
    exact .nil
  | expr :: rest =>
    rw [lowerArgs]
    exact .cons (delivers_lowerExpr expr) (argsDeliver_lowerArgs rest)

theorem delivers_lowerBranches (hint : Option GoType) (branches : List CaseBranch) :
    (lowerBranches hint branches).Delivers L c [] (hoists (branchSources branches)) := by
  match branches with
  | [] =>
    rw [lowerBranches]
    exact delivers_computed (hasEffect_pure _)
  | ⟨test, result⟩ :: rest =>
    rw [lowerBranches, branchSources, Contact.hoists_append]
    refine delivers_bind (delivers_lowerExpr test _) fun _ => ?_
    refine delivers_first_bind (delivers_computed (hasEffect_coerce _ _)) fun _ => ?_
    exact delivers_two_bind (delivers_lowerExpr result hint)
      (fun _ => delivers_lowerBranches hint rest) fun _ _ => hasEffect_pure _

theorem delivers_lowerOtherwise (hint : Option GoType) (otherwise : Option Expr) :
    (lowerOtherwise hint otherwise).Delivers L c [] (hoists (optionSources otherwise)) := by
  match otherwise with
  | none =>
    rw [lowerOtherwise]
    exact delivers_computed (hasEffect_pure _)
  | some expr =>
    rw [lowerOtherwise, optionSources]
    exact delivers_bind_computed (delivers_lowerExpr expr hint) fun _ => hasEffect_pure _

theorem delivers_lowerScalar (query : Select) (hint : Option GoType) :
    (lowerScalar query hint).Delivers L c [] (hoists query.scalarSources) := by
  match query with
  | ⟨top, distinct, items, source, joins, filter, groupBy, orderBy⟩ =>
    rw [lowerScalar]
    cases hitem : lowerOnlyItem? items hint with
    | none => exact carries_unsupported
    | some value =>
      cases source with
      | none =>
        rw [Select.scalarSources]
        exact delivers_lowerOnlyItem? items hint value hitem
      | some table =>
        rw [Select.scalarSources]
        exact delivers_hoistScalar _ table hint

theorem delivers_lowerOnlyItem? (items : List SelectItem) (hint : Option GoType)
    (step : Lower Value) (hstep : lowerOnlyItem? items hint = some step) :
    step.Delivers L c [] (hoists (itemSources items)) := by
  match items with
  | [⟨expr, _, _⟩] =>
    rw [lowerOnlyItem?, Option.some_inj] at hstep
    rw [← hstep, itemSources, itemSources, List.append_nil]
    exact delivers_lowerExpr expr hint
  | [] => cases hstep
  | ⟨_, _, _⟩ :: _ :: _ => cases hstep

end

/-! ## Values -/

/-- What is known about a value is known where nothing is owed. -/
theorem Delivers.drawing {step : Lower α} {P : α → Prop} {contacts : List Contact}
    (h : step.Delivers L c [] contacts) (hvalue : step.DrawsOn .everything c True P) :
    step.Carries L c [] contacts fun value owed => owed = [] ∧ P value := by
  intro before value after hruns hsites
  obtain ⟨owed, howed, hdelivered⟩ := h hruns hsites
  exact ⟨owed, ⟨howed, hvalue.holds hruns⟩, hdelivered⟩

/-- What is done with a value, where nothing is owed. -/
theorem carries_value_bind {β : Type} {P : α → Prop} {R : β → List Event → Prop}
    {contacts more : List Contact} {step : Lower α} {next : α → Lower β}
    (h : step.Carries L c [] contacts fun value owed => owed = [] ∧ P value)
    (hnext : ∀ value, P value → (next value).Carries L c [] more R) :
    (step >>= next).Carries L c [] (contacts ++ more) R := by
  refine carries_bind h fun value owed hvalue => ?_
  obtain ⟨rfl, hP⟩ := hvalue
  exact hnext value hP

/-- What follows a value makes no contact that is named. -/
theorem carries_value_bind_last {β : Type} {P : α → Prop} {R : β → List Event → Prop}
    {contacts : List Contact} {step : Lower α} {next : α → Lower β}
    (h : step.Carries L c [] contacts fun value owed => owed = [] ∧ P value)
    (hnext : ∀ value, P value → (next value).Carries L c [] [] R) :
    (step >>= next).Carries L c [] contacts R :=
  List.append_nil contacts ▸ carries_value_bind h hnext

/-- The code of an expression is that of a value, which has no events; those of the queries inside
the expression happen in front. -/
theorem carries_lowerValue (expr : Expr) (target : GoType) :
    (lowerValue expr target).Carries L c [] (hoists expr.sources) fun e owed =>
      owed = [] ∧ e.Composed .everything false 1 := by
  refine Delivers.drawing ?_ (drawsOn_lowerValue Stock.own_everything expr target)
  refine delivers_bind_computed (delivers_lowerExpr expr _) fun _ => ?_
  exact hasEffect_bind (hasEffect_coerce _ _) fun _ => hasEffect_pure _

/-- A condition without queries inside it may be evaluated where something is due. -/
theorem sends_lowerCondition {condition : Expr} (h : condition.needsHoist = false) :
    (lowerCondition condition).Sends c [] fun e => e.Composed .everything false 1 :=
  sends_value (hasEffect_unhoisted h) (drawsOn_lowerCondition Stock.own_everything condition)

end Lower

end Sproc
