import Sproc.Proofs.Query.References
import Mathlib.Data.List.Perm.Basic

/-!
# Agreement of the dialects

One statement is written in five dialects. Whether this succeeds depends on the references of the
statement and on the resolver, and on nothing that differs between the dialects. What is bound is the
same as well; only the row limit of a query has two places in the text, so that the arguments of one
dialect are a permutation of those of the others.

All of this follows from comparing the references of two dialects. The comparison is made once, for
any relation that concatenation respects: equality and permutation are the two instances.

## Main definitions

* `Resolver.Serves`: the references that can be written
* `Concatenative`: relations that concatenation respects
* `Select.LimitMoves`: a query whose row limit may change its place
* `DataStatement.queries`: the queries of a statement at any depth

## Main results

* `Render.expr_completes`, `Render.select_completes`: rendering succeeds when every reference is served
* `Expr.references_related`, `Select.references_related`: the references of two dialects compared
* `DataStatement.dialects_agree_on_arguments`
-/

namespace Sproc

/-! ## Success -/

section Completes

variable {ε β γ : Type}

/-- A computation that yields a value. -/
def Completes (step : Except ε β) : Prop :=
  ∃ value, step = .ok value

@[simp]
theorem completes_ok (value : β) : Completes (.ok value : Except ε β) :=
  ⟨value, rfl⟩

@[simp]
theorem completes_pure (value : β) : Completes (pure value : Except ε β) :=
  ⟨value, rfl⟩

@[simp]
theorem not_completes_error (fault : ε) : ¬ Completes (.error fault : Except ε β) := by
  simp [Completes]

@[simp]
theorem completes_map {step : Except ε β} {f : β → γ} : Completes (step.map f) ↔ Completes step := by
  cases step <;> simp [Completes, Except.map]

/-- A sequence whose second step succeeds or fails whatever the first one yields. -/
theorem completes_bind {step : Except ε β} {next : β → Except ε γ} {p : Prop}
    (h : ∀ value, Completes (next value) ↔ p) : Completes (step >>= next) ↔ Completes step ∧ p := by
  cases step with
  | error fault => simp [Completes, bind, Except.bind]
  | ok value => simpa [Completes, bind, Except.bind] using h value

/-- A sequence whose second step only puts the result together. -/
@[simp]
theorem completes_bind_pure {step : Except ε β} {f : β → γ} :
    Completes (step >>= fun value => pure (f value)) ↔ Completes step := by
  rw [completes_bind (p := True) fun value => by simp, and_true]

/-- A list is treated when each of its members is. -/
theorem completes_mapM {f : β → Except ε γ} (list : List β) :
    Completes (list.mapM f) ↔ ∀ b ∈ list, Completes (f b) := by
  induction list with
  | nil => simp
  | cons first rest ih =>
    rw [List.mapM_cons, completes_bind fun value => completes_bind_pure, ih, List.forall_mem_cons]

theorem exists_error_of_not_completes {step : Except ε β} (h : ¬ Completes step) :
    ∃ fault, step = .error fault := by
  cases step with
  | error fault => exact ⟨fault, rfl⟩
  | ok value => exact absurd (completes_ok value) h

end Completes

variable {α : Type} {dialect : Dialect} {resolver : Resolver α}

namespace Resolver

/-- The references that can be written: those that the resolver has an answer for, save the status of
a fetch, for which it is not asked. -/
def Serves (resolver : Resolver α) : Reference → Prop
  | .variable name => Completes (resolver.ofVariable name)
  | .global var => var ≠ .fetchStatus ∧ Completes (resolver.ofGlobal var)
  | .function name => ∃ value, resolver.ofFunction name = some (.ok value)

/-- Every reference of a list can be written. -/
def ServesAll (resolver : Resolver α) (references : List Reference) : Prop :=
  ∀ reference ∈ references, resolver.Serves reference

@[simp]
theorem servesAll_nil : resolver.ServesAll [] ↔ True := by
  simp [ServesAll]

@[simp]
theorem servesAll_singleton (reference : Reference) :
    resolver.ServesAll [reference] ↔ resolver.Serves reference := by
  simp [ServesAll]

@[simp]
theorem servesAll_append (front back : List Reference) :
    resolver.ServesAll (front ++ back) ↔ resolver.ServesAll front ∧ resolver.ServesAll back := by
  simp only [ServesAll, List.forall_mem_append]

theorem servesAll_flatMap {β : Type} (list : List β) (references : β → List Reference) :
    resolver.ServesAll (list.flatMap references) ↔
      ∀ b ∈ list, resolver.ServesAll (references b) := by
  induction list with
  | nil => simp
  | cons first rest ih => rw [List.flatMap_cons, servesAll_append, ih, List.forall_mem_cons]

/-- A permutation of references is served with them. -/
theorem ServesAll.perm {front back : List Reference} (h : front.Perm back) :
    resolver.ServesAll front ↔ resolver.ServesAll back := by
  simp only [ServesAll, h.mem_iff]

end Resolver

/-- An expression can be written as a whole, and as operands of a concatenation, when its references
are served. -/
structure Rendered.CompletesFor (rendered : Rendered α) (p : Prop) : Prop where
  whole : Completes rendered.whole ↔ p
  operands : Completes rendered.operands ↔ p

namespace Render

theorem single_completes {expr : Expr} {whole : Except Fault (Fragment α)} {p : Prop}
    (h : Completes whole ↔ p) : (single expr whole).CompletesFor p :=
  ⟨h, by simpa [single] using h⟩

theorem global_completes (var : GlobalVar) :
    Completes (global resolver var) ↔ resolver.Serves (.global var) := by
  cases var <;> simp [global, Resolver.Serves]

-- The cases follow the mutual recursion of rendering, as those for the answers do.
mutual

/-- An expression can be written exactly when every reference in it can. -/
theorem expr_completes : ∀ e : Expr, (expr dialect resolver e).CompletesFor
    (resolver.ServesAll (e.references dialect resolver))
  | .literal value => single_completes (by simp [Expr.references])
  | .variable name => single_completes (by simp [Expr.references, Resolver.Serves])
  | .global var => single_completes (by simp [Expr.references, global_completes])
  | .column ref => single_completes (by simp [Expr.references])
  | .star => single_completes (by simp [Expr.references])
  | .unary op e => by
    apply single_completes
    rw [Expr.references, ← (expr_completes e).whole]
    cases op <;> exact completes_bind_pure
  | .binary op left right => by
    have hl := expr_completes left
    have hr := expr_completes right
    have hoperands : Completes (do return (← (expr dialect resolver left).operands) ++
          (← (expr dialect resolver right).operands)) ↔
        resolver.ServesAll ((Expr.binary op left right).references dialect resolver) := by
      rw [completes_bind fun value => completes_bind_pure, hl.operands, hr.operands, Expr.references,
        Resolver.servesAll_append]
    have hwhole {f : Fragment α → Fragment α → Fragment α} :
        Completes (do
          let l ← (expr dialect resolver left).whole
          let r ← (expr dialect resolver right).whole
          return f l r) ↔
        resolver.ServesAll ((Expr.binary op left right).references dialect resolver) := by
      rw [completes_bind fun value => completes_bind_pure, hl.whole, hr.whole, Expr.references,
        Resolver.servesAll_append]
    unfold expr
    simp only
    split
    · split
      · exact ⟨completes_map.trans hoperands, hoperands⟩
      · exact ⟨hwhole, hoperands⟩
    · exact single_completes hwhole
  | .isNull e negated => by
    apply single_completes
    rw [completes_bind_pure, Expr.references, (expr_completes e).whole]
  | .inList e list negated => by
    apply single_completes
    rw [completes_bind fun value => completes_bind_pure, (expr_completes e).whole,
      exprs_completes list, Expr.references, Resolver.servesAll_append]
  | .between e low high negated => by
    apply single_completes
    rw [completes_bind fun value => completes_bind fun value => completes_bind_pure,
      (expr_completes e).whole, (expr_completes low).whole, (expr_completes high).whole,
      Expr.references, Resolver.servesAll_append, Resolver.servesAll_append]
  | .function name args => by
    apply single_completes
    simp only [Expr.references]
    cases hf : resolver.ofFunction (Text.toUpper name) with
    | some answer =>
      have hserves : resolver.Serves (.function (Text.toUpper name)) ↔ Completes answer := by
        simp [Resolver.Serves, hf, Completes]
      rw [Option.isSome_some, if_pos rfl, Resolver.servesAll_singleton, hserves]
      exact completes_bind_pure
    | none =>
      simp only [Option.isSome_none, Bool.false_eq_true, if_false]
      split
      · simp
      · rw [completes_bind_pure, exprs_completes args]
  | .cast e type => by
    apply single_completes
    rw [completes_bind_pure, Expr.references, (expr_completes e).whole]
  | .case list otherwise => by
    apply single_completes
    rw [completes_bind fun value => completes_bind_pure, branches_completes list,
      elseBranch_completes otherwise, Expr.references, Resolver.servesAll_append]
  | .exists query => by
    apply single_completes
    rw [completes_bind_pure, Expr.references, select_completes query]
  | .subquery query => by
    apply single_completes
    rw [completes_bind_pure, Expr.references, select_completes query]

theorem exprs_completes : ∀ list : List Expr,
    Completes (exprs dialect resolver list) ↔
      resolver.ServesAll (listReferences dialect resolver list)
  | [] => by simp [exprs, listReferences]
  | e :: rest => by
    rw [exprs, completes_bind fun value => completes_bind_pure, (expr_completes e).whole,
      exprs_completes rest, listReferences, Resolver.servesAll_append]

theorem branches_completes : ∀ list : List CaseBranch,
    Completes (branches dialect resolver list) ↔
      resolver.ServesAll (branchReferences dialect resolver list)
  | [] => by simp [branches, branchReferences]
  | ⟨test, result⟩ :: rest => by
    rw [branches, completes_bind fun value => completes_bind fun value => completes_bind_pure,
      (expr_completes test).whole, (expr_completes result).whole, branches_completes rest,
      branchReferences, Resolver.servesAll_append, Resolver.servesAll_append]

theorem elseBranch_completes : ∀ otherwise : Option Expr,
    Completes (elseBranch dialect resolver otherwise) ↔
      resolver.ServesAll (optionReferences dialect resolver otherwise)
  | none => by simp [elseBranch, optionReferences]
  | some e => by
    rw [elseBranch, completes_bind_pure, (expr_completes e).whole, optionReferences]

theorem clause_completes (keyword : String) : ∀ condition : Option Expr,
    Completes (clause dialect resolver keyword condition) ↔
      resolver.ServesAll (optionReferences dialect resolver condition)
  | none => by simp [clause, optionReferences]
  | some e => by rw [clause, completes_bind_pure, (expr_completes e).whole, optionReferences]

/-- The row limit is written in one of its two places, and fails there if it fails. -/
theorem topLimit_completes : ∀ top : Option Expr,
    Completes (topLimit dialect resolver top) ↔
      resolver.ServesAll (if dialect.leadingTop then optionReferences dialect resolver top else [])
  | none => by simp [topLimit, optionReferences]
  | some e => by
    unfold topLimit
    split
    · rw [completes_bind_pure, (expr_completes e).whole, optionReferences]
    · simp

theorem endLimit_completes : ∀ top : Option Expr,
    Completes (endLimit dialect resolver top) ↔
      resolver.ServesAll (if dialect.leadingTop then [] else optionReferences dialect resolver top)
  | none => by simp [endLimit, optionReferences]
  | some e => by
    unfold endLimit
    split
    · simp
    · rw [completes_bind_pure, (expr_completes e).whole, optionReferences]

theorem items_completes : ∀ list : List SelectItem,
    Completes (items dialect resolver list) ↔
      resolver.ServesAll (itemReferences dialect resolver list)
  | [] => by simp [items, itemReferences]
  | ⟨e, aliasName, _⟩ :: rest => by
    rw [items, completes_bind fun value => completes_bind_pure, (expr_completes e).whole,
      items_completes rest, itemReferences, Resolver.servesAll_append]

theorem joins_completes : ∀ list : List Join,
    Completes (joins dialect resolver list) ↔
      resolver.ServesAll (joinReferences dialect resolver list)
  | [] => by simp [joins, joinReferences]
  | ⟨kind, ref, condition⟩ :: rest => by
    unfold joins
    rw [completes_bind fun value => completes_bind_pure, (expr_completes condition).whole,
      joins_completes rest, joinReferences, Resolver.servesAll_append]

theorem orders_completes : ∀ list : List OrderBy,
    Completes (orders dialect resolver list) ↔
      resolver.ServesAll (orderReferences dialect resolver list)
  | [] => by simp [orders, orderReferences]
  | ⟨e, descending⟩ :: rest => by
    rw [orders, completes_bind fun value => completes_bind_pure, (expr_completes e).whole,
      orders_completes rest, orderReferences, Resolver.servesAll_append]

/-- A query can be written exactly when every reference in it can. -/
theorem select_completes : ∀ query : Select,
    Completes (select dialect resolver query) ↔
      resolver.ServesAll (query.references dialect resolver)
  | ⟨top, distinct, list, source, joinList, filter, groupBy, orderBy⟩ => by
    unfold select
    rw [completes_bind fun value => completes_bind fun value => completes_bind fun value =>
        completes_bind fun value => completes_bind fun value => completes_bind fun value =>
        completes_bind_pure,
      topLimit_completes top, items_completes list, joins_completes joinList,
      clause_completes " WHERE " filter, exprs_completes groupBy, orders_completes orderBy,
      endLimit_completes top]
    simp only [Select.references, Resolver.servesAll_append, and_assoc]

end

theorem row_completes (values : List Expr) :
    Completes (row dialect resolver values) ↔
      resolver.ServesAll (listReferences dialect resolver values) := by
  rw [row, completes_bind_pure, exprs_completes values]

theorem assignment_completes (a : Assignment) :
    Completes (assignment dialect resolver a) ↔
      resolver.ServesAll (a.value.references dialect resolver) := by
  rw [assignment, completes_bind_pure, (expr_completes a.value).whole]

theorem execArg_completes (a : ExecArg) :
    Completes (execArg dialect resolver a) ↔
      resolver.ServesAll (a.value.references dialect resolver) := by
  unfold execArg
  rw [← (expr_completes a.value).whole]
  cases a.name <;> exact completes_bind_pure

/-- Fragments that are rendered one by one can be written when all their references can. -/
theorem mapM_completes {β : Type} {f : β → Except Fault (Fragment α)} {refs : β → List Reference}
    (h : ∀ b, Completes (f b) ↔ resolver.ServesAll (refs b)) (list : List β) :
    Completes (list.mapM f) ↔ resolver.ServesAll (list.flatMap refs) := by
  simp only [completes_mapM, Resolver.servesAll_flatMap, h]

end Render

/-- The text of a statement can be written exactly when every reference in it can. -/
theorem DataStatement.query_completes (statement : DataStatement) :
    Completes (statement.query dialect resolver) ↔
      resolver.ServesAll (statement.references dialect resolver) := by
  rw [query_eq_fragment, completes_map]
  cases statement with
  | select q => exact Render.select_completes q
  | probe q => exact completes_map.trans (Render.select_completes q)
  | insert i =>
    rw [fragment, Render.insert, completes_bind_pure, references]
    cases i.source with
    | values rows =>
      rw [Render.insertSource, completes_bind_pure, Render.mapM_completes Render.row_completes]
    | query q => rw [Render.insertSource, completes_bind_pure, Render.select_completes]
  | update u =>
    rw [fragment, Render.update, completes_bind fun value => completes_bind_pure,
      Render.mapM_completes Render.assignment_completes, Render.clause_completes, references,
      Resolver.servesAll_append]
  | delete d => rw [fragment, Render.delete, completes_bind_pure, Render.clause_completes, references]
  | exec e =>
    rw [fragment, Render.exec, completes_bind_pure, Render.mapM_completes Render.execArg_completes,
      references]

/-! ## References in two dialects -/

/-- A relation between lists of references that concatenation respects. -/
structure Concatenative (R : List Reference → List Reference → Prop) : Prop where
  refl : ∀ list, R list list
  append : ∀ {front front' back back'}, R front front' → R back back' →
    R (front ++ back) (front' ++ back')

theorem concatenative_eq : Concatenative Eq :=
  ⟨fun _ => rfl, fun hfront hback => by rw [hfront, hback]⟩

theorem concatenative_perm : Concatenative List.Perm :=
  ⟨fun list => .refl list, List.Perm.append⟩

section TwoDialects

variable (R : List Reference → List Reference → Prop) (one other : Dialect) (resolver : Resolver α)

/-- The row limit of a query may change its place between two dialects: whatever is related around
it, stays related. -/
def Select.LimitMoves (query : Select) : Prop :=
  R (optionReferences one resolver query.top) (optionReferences other resolver query.top) →
  ∀ rest rest', R rest rest' →
    R ((if one.leadingTop then optionReferences one resolver query.top else []) ++ rest ++
        (if one.leadingTop then [] else optionReferences one resolver query.top))
      ((if other.leadingTop then optionReferences other resolver query.top else []) ++ rest' ++
        (if other.leadingTop then [] else optionReferences other resolver query.top))

end TwoDialects

/-- The query that is an operand, for a node that is one. -/
def Expr.query? : Expr → Option Select
  | .exists query => some query
  | .subquery query => some query
  | _ => none

variable {R : List Reference → List Reference → Prop} {one other : Dialect}

/-- Queries in the same dialect, or in two that have the row limit in the same place. -/
theorem Select.limitMoves_eq (h : one.leadingTop = other.leadingTop) (query : Select) :
    query.LimitMoves Eq one other resolver := by
  intro htop rest rest' hrest
  rw [h, htop, hrest]

/-- A permutation does not see where the row limit stands. -/
theorem Select.limitMoves_perm (query : Select) :
    query.LimitMoves List.Perm one other resolver := by
  intro htop rest rest' hrest
  have hcomm (top rest : List Reference) (leading : Bool) :
      ((if leading then top else []) ++ rest ++ if leading then [] else top).Perm (top ++ rest) := by
    cases leading with
    | true => simp
    | false => simpa using List.perm_append_comm
  exact (hcomm _ _ _).trans ((htop.append hrest).trans (hcomm _ _ _).symm)

/-- A row limit without references is not seen. -/
theorem Select.limitMoves_of_eq_nil {query : Select}
    (h : optionReferences one resolver query.top = []) :
    query.LimitMoves Eq one other resolver := by
  intro htop rest rest' hrest
  rw [← htop, h, hrest]
  simp

-- The cases follow the mutual recursion of the references. A node of a part is a node of the whole,
-- so what is assumed of the queries among the nodes passes to the parts.
mutual

/-- The references of an expression in two dialects are related when every row limit inside may
change its place. -/
theorem Expr.references_related (hR : Concatenative R) : ∀ e : Expr,
    (∀ node ∈ e.walk, ∀ query ∈ node.query?, query.LimitMoves R one other resolver) →
    R (e.references one resolver) (e.references other resolver)
  | .literal _, _ => hR.refl _
  | .variable _, _ => hR.refl _
  | .global _, _ => hR.refl _
  | .column _, _ => hR.refl _
  | .star, _ => hR.refl _
  | .unary _ operand, h => by
    rw [Expr.walk, List.forall_mem_cons] at h
    exact Expr.references_related hR operand h.2
  | .binary _ left right, h => by
    rw [Expr.walk, List.forall_mem_cons, List.forall_mem_append] at h
    exact hR.append (Expr.references_related hR left h.2.1) (Expr.references_related hR right h.2.2)
  | .isNull operand _, h => by
    rw [Expr.walk, List.forall_mem_cons] at h
    exact Expr.references_related hR operand h.2
  | .inList operand list _, h => by
    rw [Expr.walk, List.forall_mem_cons, List.forall_mem_append] at h
    exact hR.append (Expr.references_related hR operand h.2.1) (listReferences_related hR list h.2.2)
  | .between operand low high _, h => by
    rw [Expr.walk, List.forall_mem_cons, List.forall_mem_append, List.forall_mem_append] at h
    exact hR.append (Expr.references_related hR operand h.2.1)
      (hR.append (Expr.references_related hR low h.2.2.1)
        (Expr.references_related hR high h.2.2.2))
  | .function name args, h => by
    rw [Expr.walk, List.forall_mem_cons] at h
    simp only [Expr.references]
    split
    · exact hR.refl _
    · split
      · exact hR.refl _
      · exact listReferences_related hR args h.2
  | .cast operand _, h => by
    rw [Expr.walk, List.forall_mem_cons] at h
    exact Expr.references_related hR operand h.2
  | .case branches otherwise, h => by
    rw [Expr.walk, List.forall_mem_cons, List.forall_mem_append] at h
    exact hR.append (branchReferences_related hR branches h.2.1)
      (optionReferences_related hR otherwise h.2.2)
  | .exists query, h => by
    rw [Expr.walk, List.forall_mem_cons] at h
    exact Select.references_related hR query (h.1 query rfl) h.2
  | .subquery query, h => by
    rw [Expr.walk, List.forall_mem_cons] at h
    exact Select.references_related hR query (h.1 query rfl) h.2

theorem listReferences_related (hR : Concatenative R) : ∀ list : List Expr,
    (∀ node ∈ walkList list, ∀ query ∈ node.query?, query.LimitMoves R one other resolver) →
    R (listReferences one resolver list) (listReferences other resolver list)
  | [], _ => hR.refl _
  | e :: rest, h => by
    rw [walkList, List.forall_mem_append] at h
    exact hR.append (Expr.references_related hR e h.1) (listReferences_related hR rest h.2)

theorem optionReferences_related (hR : Concatenative R) : ∀ e : Option Expr,
    (∀ node ∈ walkOption e, ∀ query ∈ node.query?, query.LimitMoves R one other resolver) →
    R (optionReferences one resolver e) (optionReferences other resolver e)
  | none, _ => hR.refl _
  | some e, h => Expr.references_related hR e h

theorem branchReferences_related (hR : Concatenative R) : ∀ list : List CaseBranch,
    (∀ node ∈ walkBranches list, ∀ query ∈ node.query?, query.LimitMoves R one other resolver) →
    R (branchReferences one resolver list) (branchReferences other resolver list)
  | [], _ => hR.refl _
  | ⟨test, result⟩ :: rest, h => by
    rw [walkBranches, List.forall_mem_append, List.forall_mem_append] at h
    exact hR.append (Expr.references_related hR test h.1)
      (hR.append (Expr.references_related hR result h.2.1)
        (branchReferences_related hR rest h.2.2))

theorem itemReferences_related (hR : Concatenative R) : ∀ list : List SelectItem,
    (∀ node ∈ walkItems list, ∀ query ∈ node.query?, query.LimitMoves R one other resolver) →
    R (itemReferences one resolver list) (itemReferences other resolver list)
  | [], _ => hR.refl _
  | ⟨e, _, _⟩ :: rest, h => by
    rw [walkItems, List.forall_mem_append] at h
    exact hR.append (Expr.references_related hR e h.1) (itemReferences_related hR rest h.2)

theorem joinReferences_related (hR : Concatenative R) : ∀ list : List Join,
    (∀ node ∈ walkJoins list, ∀ query ∈ node.query?, query.LimitMoves R one other resolver) →
    R (joinReferences one resolver list) (joinReferences other resolver list)
  | [], _ => hR.refl _
  | ⟨_, _, condition⟩ :: rest, h => by
    rw [walkJoins, List.forall_mem_append] at h
    exact hR.append (Expr.references_related hR condition h.1) (joinReferences_related hR rest h.2)

theorem orderReferences_related (hR : Concatenative R) : ∀ list : List OrderBy,
    (∀ node ∈ walkOrders list, ∀ query ∈ node.query?, query.LimitMoves R one other resolver) →
    R (orderReferences one resolver list) (orderReferences other resolver list)
  | [], _ => hR.refl _
  | ⟨e, _⟩ :: rest, h => by
    rw [walkOrders, List.forall_mem_append] at h
    exact hR.append (Expr.references_related hR e h.1) (orderReferences_related hR rest h.2)

/-- The references of a query in two dialects are related when its own row limit and those inside may
change their places. -/
theorem Select.references_related (hR : Concatenative R) : ∀ query : Select,
    query.LimitMoves R one other resolver →
    (∀ node ∈ query.walk, ∀ inner ∈ node.query?, inner.LimitMoves R one other resolver) →
    R (query.references one resolver) (query.references other resolver)
  | ⟨top, distinct, items, source, joins, filter, groupBy, orderBy⟩, hmoves, h => by
    simp only [Select.walk, List.forall_mem_append] at h
    obtain ⟨htop, hitems, hjoins, hfilter, hgroups, horders⟩ := h
    have hrest := hR.append (hR.append (hR.append (hR.append
      (itemReferences_related hR items hitems) (joinReferences_related hR joins hjoins))
      (optionReferences_related hR filter hfilter)) (listReferences_related hR groupBy hgroups))
      (orderReferences_related hR orderBy horders)
    simpa only [Select.references, List.append_assoc] using
      hmoves (optionReferences_related hR top htop) _ _ hrest

end

namespace DataStatement

/-- Every query of a statement: the one it consists of, and those among its operands, at any depth. -/
def queries (statement : DataStatement) : List Select :=
  let own :=
    match statement with
    | select q | probe q | insert ⟨_, _, .query q⟩ => [q]
    | _ => []
  own ++ statement.walk.filterMap Expr.query?

/-- The references of a statement in two dialects are related when every row limit may change its
place. -/
theorem references_related (hR : Concatenative R) (statement : DataStatement)
    (h : ∀ query ∈ statement.queries, query.LimitMoves R one other resolver) :
    R (statement.references one resolver) (statement.references other resolver) := by
  have hnode : ∀ node ∈ statement.walk, ∀ query ∈ node.query?,
      query.LimitMoves R one other resolver := by
    intro node hnode query hquery
    exact h query (List.mem_append_right _ (List.mem_filterMap.mpr ⟨node, hnode, hquery⟩))
  have hflat {β : Type} {list : List β} {refs : Dialect → β → List Reference}
      (h : ∀ b ∈ list, R (refs one b) (refs other b)) :
      R (list.flatMap (refs one)) (list.flatMap (refs other)) := by
    induction list with
    | nil => exact hR.refl _
    | cons first rest ih =>
      rw [List.forall_mem_cons] at h
      exact hR.append h.1 (ih h.2)
  cases statement with
  | select q => exact Select.references_related hR q (h q List.mem_cons_self) hnode
  | probe q => exact Select.references_related hR q (h q List.mem_cons_self) hnode
  | insert i =>
    obtain ⟨table, columns, source⟩ := i
    cases source with
    | values rows =>
      apply hflat
      intro row hrow
      exact listReferences_related hR row fun node hmem =>
        hnode node (List.mem_flatMap.mpr ⟨row, hrow, hmem⟩)
    | query q => exact Select.references_related hR q (h q List.mem_cons_self) hnode
  | update u =>
    rw [walk, List.forall_mem_append] at hnode
    apply hR.append _ (optionReferences_related hR u.filter hnode.2)
    apply hflat
    intro a ha
    exact Expr.references_related hR a.value fun node hmem =>
      hnode.1 node (List.mem_flatMap.mpr ⟨a, ha, hmem⟩)
  | delete d => exact optionReferences_related hR d.filter hnode
  | exec e =>
    apply hflat
    intro a ha
    exact Expr.references_related hR a.value fun node hmem =>
      hnode node (List.mem_flatMap.mpr ⟨a, ha, hmem⟩)

theorem references_perm (one other : Dialect) (statement : DataStatement) :
    (statement.references one resolver).Perm (statement.references other resolver) :=
  references_related concatenative_perm statement fun query _ => query.limitMoves_perm

end DataStatement

/-! ## Arguments in two dialects -/

/-- A resolver has one answer for a reference. -/
theorem Resolver.answers_unique : Relator.RightUnique resolver.Answers := by
  intro reference value value' h h'
  rcases h with h | h | h <;> rcases h' with h' | h' | h' <;> simpa [h] using h'

/-- The same references have the same answers. -/
theorem Resolver.args_eq {references references' : List Reference} {args args' : List α}
    (h : references = references') (hargs : List.Forall₂ resolver.Answers references args)
    (hargs' : List.Forall₂ resolver.Answers references' args') : args = args' := by
  subst h
  exact Resolver.answers_unique.forall₂ hargs hargs'

/-- Permuted references have permuted answers. -/
theorem Resolver.args_perm {references references' : List Reference} {args args' : List α}
    (h : references.Perm references') (hargs : List.Forall₂ resolver.Answers references args)
    (hargs' : List.Forall₂ resolver.Answers references' args') : args.Perm args' := by
  obtain ⟨moved, hmoved, hperm⟩ := List.perm_comp_forall₂ h hargs'
  rwa [Resolver.args_eq rfl hargs hmoved]

/-- The dialects agree on the arguments of every statement. It can be written in all of them or in
none. All dialects bind the same arguments in the same order, except that one binds a permutation of
them; and if no query of the statement has a row limit with a reference in it, it makes no exception
either. -/
theorem DataStatement.dialects_agree_on_arguments (resolver : Resolver α)
    (statement : DataStatement) :
    (∀ dialect, ∃ fault, statement.query dialect resolver = .error fault) ∨
    ∃ written : Dialect → Query α,
      (∀ dialect, statement.query dialect resolver = .ok (written dialect)) ∧
      (∀ dialect, dialect ≠ .sqlserver → (written dialect).args = (written .postgres).args) ∧
      (written .sqlserver).args.Perm (written .postgres).args ∧
      ((∀ query ∈ statement.queries, optionReferences .postgres resolver query.top = []) →
        (written .sqlserver).args = (written .postgres).args) := by
  by_cases hserved : resolver.ServesAll (statement.references .postgres resolver)
  · right
    have hwritten (dialect : Dialect) : Completes (statement.query dialect resolver) := by
      rwa [query_completes, Resolver.ServesAll.perm (statement.references_perm dialect .postgres)]
    choose written hok using hwritten
    have hanswers (dialect : Dialect) : List.Forall₂ resolver.Answers
        (statement.references dialect resolver) (written dialect).args := by
      have hquery := hok dialect
      rw [query_eq_fragment] at hquery
      obtain ⟨fragment, hfragment, hargs⟩ := map_eq_ok.mp hquery
      rw [← hargs]
      exact statement.fragment_answered fragment hfragment
    refine ⟨written, hok, ?_, ?_, ?_⟩
    · intro dialect hdialect
      have hplace : dialect.leadingTop = Dialect.postgres.leadingTop := by
        cases dialect <;> first | rfl | contradiction
      have hsame := @references_related α resolver Eq dialect .postgres concatenative_eq statement
        fun query _ => Select.limitMoves_eq hplace query
      exact Resolver.args_eq hsame (hanswers dialect) (hanswers .postgres)
    · exact Resolver.args_perm (statement.references_perm .sqlserver .postgres) (hanswers .sqlserver)
        (hanswers .postgres)
    · intro hlimits
      have hsame := @references_related α resolver Eq .postgres .sqlserver concatenative_eq statement
        fun query hquery => Select.limitMoves_of_eq_nil (hlimits query hquery)
      exact (Resolver.args_eq hsame (hanswers .postgres) (hanswers .sqlserver)).symm
  · left
    intro dialect
    apply exists_error_of_not_completes
    rwa [query_completes, Resolver.ServesAll.perm (statement.references_perm dialect .postgres)]

end Sproc
