import Mathlib.Data.List.Forall2
import Sproc.Proofs.Query.Binding

/-!
# Placeholders and their arguments

A finished query is text with numbered placeholders and a list of arguments. The text is cut at its
placeholders into stretches that are the same whatever a placeholder looks like, the placeholders
count up from one, and the arguments are what the resolver answers for the references of the
statement, in the order in which the text meets them.

The order of the text differs from the order of the tree in one place: a row limit stands in front
of the select list in one dialect and at the end of the query in the others. A function that is
evaluated outside of the query hides the references among its own arguments.

## Main definitions

* `Reference`, `Resolver.Answers`: what is bound, and to what
* `Expr.references`, `Select.references`: the references in the order of the text

## Main results

* `Render.expr_answered`, `Render.select_answered`: rendering binds the answers in order
* `Fragment.render_eq_numbered`: the text around the placeholders
* `DataStatement.placeholders_match_arguments`
-/

namespace Sproc

/-- Something in a statement for which a resolver is asked. -/
inductive Reference where
  | variable (name : String)
  | global (var : GlobalVar)
  /-- A function that is evaluated outside of the query, by its name in capitals. -/
  | function (name : String)
  deriving DecidableEq, Repr

variable {α : Type}

/-- What a resolver answers for a reference. -/
inductive Resolver.Answers (resolver : Resolver α) : Reference → α → Prop where
  | variable {name : String} {value : α} :
    resolver.ofVariable name = .ok value → resolver.Answers (.variable name) value
  | global {var : GlobalVar} {value : α} :
    resolver.ofGlobal var = .ok value → resolver.Answers (.global var) value
  | function {name : String} {value : α} :
    resolver.ofFunction name = some (.ok value) → resolver.Answers (.function name) value

section References

variable (dialect : Dialect) (resolver : Resolver α)

mutual

/-- The references of an expression in the order of its text. -/
def Expr.references : Expr → List Reference
  | .literal _ => []
  | .variable name => [.variable name]
  | .global var => [.global var]
  | .column _ => []
  | .star => []
  | .unary _ operand => operand.references
  | .binary _ left right => left.references ++ right.references
  | .isNull operand _ => operand.references
  | .inList operand list _ => operand.references ++ listReferences list
  | .between operand low high _ => operand.references ++ (low.references ++ high.references)
  | .function name args =>
    -- What is evaluated outside of the query, and the clock, take no arguments with them.
    if (resolver.ofFunction (Text.toUpper name)).isSome then [.function (Text.toUpper name)]
    else if Render.timestampFunctions.contains (Text.toUpper name) then []
    else listReferences args
  | .cast operand _ => operand.references
  | .case branches otherwise => branchReferences branches ++ optionReferences otherwise
  | .exists query => query.references
  | .subquery query => query.references

/-- The references of a list of expressions. -/
def listReferences : List Expr → List Reference
  | [] => []
  | expr :: rest => expr.references ++ listReferences rest

/-- The references of an optional expression. -/
def optionReferences : Option Expr → List Reference
  | none => []
  | some expr => expr.references

/-- The references of the arms of a case. -/
def branchReferences : List CaseBranch → List Reference
  | [] => []
  | ⟨test, result⟩ :: rest => test.references ++ (result.references ++ branchReferences rest)

/-- The references of a select list. -/
def itemReferences : List SelectItem → List Reference
  | [] => []
  | ⟨expr, _, _⟩ :: rest => expr.references ++ itemReferences rest

/-- The references of the conditions of joins. -/
def joinReferences : List Join → List Reference
  | [] => []
  | ⟨_, _, condition⟩ :: rest => condition.references ++ joinReferences rest

/-- The references of an ordering. -/
def orderReferences : List OrderBy → List Reference
  | [] => []
  | ⟨expr, _⟩ :: rest => expr.references ++ orderReferences rest

/-- The references of a query, with those of the row limit where the dialect writes it. -/
def Select.references : Select → List Reference
  | ⟨top, _, items, _, joins, filter, groupBy, orderBy⟩ =>
    (if dialect.leadingTop then optionReferences top else []) ++ itemReferences items ++
      joinReferences joins ++ optionReferences filter ++ listReferences groupBy ++
      orderReferences orderBy ++ (if dialect.leadingTop then [] else optionReferences top)

end

end References

/-! ## Rendering binds the answers -/

section Except

variable {ε β γ : Type}

/-- A sequence succeeds exactly when both of its steps do. -/
theorem bind_eq_ok {step : Except ε β} {next : β → Except ε γ} {result : γ} :
    (step >>= next) = .ok result ↔ ∃ value, step = .ok value ∧ next value = .ok result := by
  cases step <;> simp [bind, Except.bind]

theorem map_eq_ok {step : Except ε β} {f : β → γ} {result : γ} :
    step.map f = .ok result ↔ ∃ value, step = .ok value ∧ f value = result := by
  cases step <;> simp [Except.map]

theorem pure_eq_ok {value result : β} : (pure value : Except ε β) = .ok result ↔ value = result := by
  simp [pure, Except.pure]

/-- Every member of a list has been treated, in order. -/
theorem mapM_eq_ok {f : β → Except ε γ} {list : List β} {results : List γ}
    (h : list.mapM f = .ok results) : List.Forall₂ (fun b c => f b = .ok c) list results := by
  induction list generalizing results with
  | nil =>
    rw [List.mapM_nil, pure_eq_ok] at h
    subst h
    exact .nil
  | cons first rest ih =>
    rw [List.mapM_cons, bind_eq_ok] at h
    obtain ⟨result, hresult, h⟩ := h
    obtain ⟨others, hothers, h⟩ := bind_eq_ok.mp h
    rw [pure_eq_ok] at h
    subst h
    exact .cons hresult (ih hothers)

end Except

namespace Resolver

/-- Once its rendering succeeds, a fragment binds the answers for the given references. -/
def Answered (resolver : Resolver α) (references : List Reference)
    (rendered : Except Fault (Fragment α)) : Prop :=
  ∀ fragment, rendered = .ok fragment → List.Forall₂ resolver.Answers references fragment.args

/-- The same for fragments that are joined later. -/
def AllAnswered (resolver : Resolver α) (references : List Reference)
    (rendered : Except Fault (List (Fragment α))) : Prop :=
  ∀ fragments, rendered = .ok fragments →
    List.Forall₂ resolver.Answers references (fragments.flatMap Fragment.args)

end Resolver

/-- An expression binds the same answers as a whole and as operands of a concatenation. -/
structure Rendered.Answered (rendered : Rendered α) (resolver : Resolver α)
    (references : List Reference) : Prop where
  whole : resolver.Answered references rendered.whole
  operands : resolver.AllAnswered references rendered.operands

namespace Render

variable {dialect : Dialect} {resolver : Resolver α}

theorem single_answered {expr : Expr} {whole : Except Fault (Fragment α)}
    {references : List Reference} (h : resolver.Answered references whole) :
    (single expr whole).Answered resolver references := by
  refine ⟨h, fun fragments hfragments => ?_⟩
  obtain ⟨body, hbody, rfl⟩ := map_eq_ok.mp hfragments
  simpa using h body hbody

theorem global_answered (var : GlobalVar) :
    resolver.Answered [.global var] (global resolver var) := by
  intro fragment h
  unfold global at h
  split at h
  · cases h
  · obtain ⟨value, hvalue, rfl⟩ := map_eq_ok.mp h
    exact .cons (.global hvalue) .nil

/-- Two operands bind the answers for the references of both, one after the other. -/
theorem operands_answered {left right : Rendered α} {ls rs : List Reference}
    (hl : left.Answered resolver ls) (hr : right.Answered resolver rs) :
    resolver.AllAnswered (ls ++ rs) (do return (← left.operands) ++ (← right.operands)) := by
  intro fragments h
  obtain ⟨l, hl', h⟩ := bind_eq_ok.mp h
  obtain ⟨r, hr', h⟩ := bind_eq_ok.mp h
  cases h
  rw [List.flatMap_append]
  exact List.rel_append (hl.operands l hl') (hr.operands r hr')

/-- So does a text that is made of both and keeps their arguments. -/
theorem pair_answered {left right : Rendered α} {ls rs : List Reference}
    {glue : Fragment α → Fragment α → Fragment α} (hglue : ∀ l r, (glue l r).args = l.args ++ r.args)
    (hl : left.Answered resolver ls) (hr : right.Answered resolver rs) :
    resolver.Answered (ls ++ rs) (do return glue (← left.whole) (← right.whole)) := by
  intro fragment h
  obtain ⟨l, hl', h⟩ := bind_eq_ok.mp h
  obtain ⟨r, hr', h⟩ := bind_eq_ok.mp h
  cases h
  rw [hglue]
  exact List.rel_append (hl.whole l hl') (hr.whole r hr')

theorem binary_answered (op : BinaryOp) {left right : Expr}
    (hl : (expr dialect resolver left).Answered resolver (left.references dialect resolver))
    (hr : (expr dialect resolver right).Answered resolver (right.references dialect resolver)) :
    (expr dialect resolver (.binary op left right)).Answered resolver
      ((Expr.binary op left right).references dialect resolver) := by
  have hoperands := operands_answered hl hr
  rw [Expr.references, expr]
  dsimp only
  split
  · split
    · refine ⟨fun fragment h => ?_, hoperands⟩
      obtain ⟨parts, hparts, rfl⟩ := map_eq_ok.mp h
      rw [Dialect.args_concat]
      exact hoperands parts hparts
    · exact ⟨pair_answered (by simp) hl hr, hoperands⟩
  · exact single_answered (pair_answered (by simp) hl hr)

mutual

/-- Rendering an expression binds the answers for its references. -/
theorem expr_answered :
    ∀ e : Expr, (expr dialect resolver e).Answered resolver (e.references dialect resolver)
  | .literal value => by
    refine single_answered fun fragment h => ?_
    cases h
    exact .nil
  | .variable name => by
    refine single_answered fun fragment h => ?_
    obtain ⟨value, hvalue, rfl⟩ := map_eq_ok.mp h
    exact .cons (.variable hvalue) .nil
  | .global var => single_answered (global_answered var)
  | .column ref => by
    refine single_answered fun fragment h => ?_
    cases h
    exact .nil
  | .star => by
    refine single_answered fun fragment h => ?_
    cases h
    exact .nil
  | .unary op e => by
    refine single_answered fun fragment h => ?_
    obtain ⟨body, hbody, h⟩ := bind_eq_ok.mp h
    have hargs : fragment.args = body.args := by
      cases op <;> · cases h; simp
    rw [hargs]
    exact (expr_answered e).whole body hbody
  | .binary op left right => binary_answered op (expr_answered left) (expr_answered right)
  | .isNull e negated => by
    refine single_answered fun fragment h => ?_
    obtain ⟨body, hbody, h⟩ := bind_eq_ok.mp h
    cases h
    simpa [Expr.references] using (expr_answered e).whole body hbody
  | .inList e list negated => by
    refine single_answered fun fragment h => ?_
    obtain ⟨body, hbody, h⟩ := bind_eq_ok.mp h
    obtain ⟨items, hitems, h⟩ := bind_eq_ok.mp h
    cases h
    simpa [Expr.references] using
      List.rel_append ((expr_answered e).whole body hbody) (exprs_answered list items hitems)
  | .between e low high negated => by
    refine single_answered fun fragment h => ?_
    obtain ⟨body, hbody, h⟩ := bind_eq_ok.mp h
    obtain ⟨lower, hlower, h⟩ := bind_eq_ok.mp h
    obtain ⟨upper, hupper, h⟩ := bind_eq_ok.mp h
    cases h
    simpa [Expr.references] using List.rel_append ((expr_answered e).whole body hbody)
      (List.rel_append ((expr_answered low).whole lower hlower)
        ((expr_answered high).whole upper hupper))
  | .function name args => by
    refine single_answered fun fragment h => ?_
    simp only [Expr.references]
    cases hf : resolver.ofFunction (Text.toUpper name) with
    | some answer =>
      simp only [hf] at h
      obtain ⟨value, rfl, h⟩ := bind_eq_ok.mp h
      cases h
      exact .cons (.function hf) .nil
    | none =>
      simp only [hf, Option.isSome_none, Bool.false_eq_true, if_false] at h ⊢
      split at h
      · next htime =>
        cases h
        rw [if_pos htime]
        exact .nil
      · next htime =>
        obtain ⟨values, hvalues, h⟩ := bind_eq_ok.mp h
        cases h
        rw [if_neg htime]
        simpa using exprs_answered args values hvalues
  | .cast e type => by
    refine single_answered fun fragment h => ?_
    obtain ⟨body, hbody, h⟩ := bind_eq_ok.mp h
    cases h
    simpa [Expr.references] using (expr_answered e).whole body hbody
  | .case list otherwise => by
    refine single_answered fun fragment h => ?_
    obtain ⟨arms, harms, h⟩ := bind_eq_ok.mp h
    obtain ⟨last, hlast, h⟩ := bind_eq_ok.mp h
    cases h
    simpa [Expr.references] using
      List.rel_append (branches_answered list arms harms) (elseBranch_answered otherwise last hlast)
  | .exists query => by
    refine single_answered fun fragment h => ?_
    obtain ⟨body, hbody, h⟩ := bind_eq_ok.mp h
    cases h
    simpa [Expr.references] using select_answered query body hbody
  | .subquery query => by
    refine single_answered fun fragment h => ?_
    obtain ⟨body, hbody, h⟩ := bind_eq_ok.mp h
    cases h
    simpa [Expr.references] using select_answered query body hbody

theorem exprs_answered : ∀ list : List Expr,
    resolver.AllAnswered (listReferences dialect resolver list) (exprs dialect resolver list)
  | [], fragments, h => by
    cases h
    exact .nil
  | e :: rest, fragments, h => by
    obtain ⟨body, hbody, h⟩ := bind_eq_ok.mp h
    obtain ⟨others, hothers, h⟩ := bind_eq_ok.mp h
    cases h
    exact List.rel_append ((expr_answered e).whole body hbody) (exprs_answered rest others hothers)

theorem branches_answered : ∀ list : List CaseBranch,
    resolver.Answered (branchReferences dialect resolver list) (branches dialect resolver list)
  | [], fragment, h => by
    cases h
    exact .nil
  | ⟨test, result⟩ :: rest, fragment, h => by
    obtain ⟨t, ht, h⟩ := bind_eq_ok.mp h
    obtain ⟨r, hr, h⟩ := bind_eq_ok.mp h
    obtain ⟨others, hothers, h⟩ := bind_eq_ok.mp h
    cases h
    simpa [branchReferences] using List.rel_append ((expr_answered test).whole t ht)
      (List.rel_append ((expr_answered result).whole r hr) (branches_answered rest others hothers))

theorem elseBranch_answered : ∀ otherwise : Option Expr,
    resolver.Answered (optionReferences dialect resolver otherwise)
      (elseBranch dialect resolver otherwise)
  | none, fragment, h => by
    cases h
    exact .nil
  | some e, fragment, h => by
    obtain ⟨body, hbody, h⟩ := bind_eq_ok.mp h
    cases h
    simpa [optionReferences] using (expr_answered e).whole body hbody

theorem clause_answered (keyword : String) : ∀ condition : Option Expr,
    resolver.Answered (optionReferences dialect resolver condition)
      (clause dialect resolver keyword condition)
  | none, fragment, h => by
    cases h
    exact .nil
  | some e, fragment, h => by
    obtain ⟨body, hbody, h⟩ := bind_eq_ok.mp h
    cases h
    simpa [optionReferences] using (expr_answered e).whole body hbody

/-- A limit in front binds its count there. -/
theorem topLimit_answered : ∀ top : Option Expr,
    resolver.Answered (if dialect.leadingTop then optionReferences dialect resolver top else [])
      (topLimit dialect resolver top)
  | none, fragment, h => by
    cases h
    simp [optionReferences]
  | some e, fragment, h => by
    unfold topLimit at h
    split at h
    · next hleading =>
      obtain ⟨count, hcount, h⟩ := bind_eq_ok.mp h
      cases h
      rw [if_pos hleading, Dialect.args_topClause dialect count hleading]
      exact (expr_answered e).whole count hcount
    · next hleading =>
      cases h
      rw [if_neg hleading]
      exact .nil

/-- A limit at the end binds its count there. -/
theorem endLimit_answered : ∀ top : Option Expr,
    resolver.Answered (if dialect.leadingTop then [] else optionReferences dialect resolver top)
      (endLimit dialect resolver top)
  | none, fragment, h => by
    cases h
    simp [optionReferences]
  | some e, fragment, h => by
    unfold endLimit at h
    split at h
    · next hleading =>
      cases h
      rw [if_pos hleading]
      exact .nil
    · next hleading =>
      obtain ⟨count, hcount, h⟩ := bind_eq_ok.mp h
      cases h
      rw [if_neg hleading, Dialect.args_limitClause dialect count (by simpa using hleading)]
      exact (expr_answered e).whole count hcount

theorem items_answered : ∀ list : List SelectItem,
    resolver.AllAnswered (itemReferences dialect resolver list) (items dialect resolver list)
  | [], fragments, h => by
    cases h
    exact .nil
  | ⟨e, aliasName, _⟩ :: rest, fragments, h => by
    obtain ⟨body, hbody, h⟩ := bind_eq_ok.mp h
    obtain ⟨others, hothers, h⟩ := bind_eq_ok.mp h
    have ih := List.rel_append ((expr_answered e).whole body hbody)
      (items_answered rest others hothers)
    cases h
    cases aliasName <;> simpa [itemReferences] using ih

theorem joins_answered : ∀ list : List Join,
    resolver.Answered (joinReferences dialect resolver list) (joins dialect resolver list)
  | [], fragment, h => by
    cases h
    exact .nil
  | ⟨kind, ref, condition⟩ :: rest, fragment, h => by
    obtain ⟨c, hc, h⟩ := bind_eq_ok.mp h
    obtain ⟨others, hothers, h⟩ := bind_eq_ok.mp h
    cases h
    simpa [joinReferences] using
      List.rel_append ((expr_answered condition).whole c hc) (joins_answered rest others hothers)

theorem orders_answered : ∀ list : List OrderBy,
    resolver.AllAnswered (orderReferences dialect resolver list) (orders dialect resolver list)
  | [], fragments, h => by
    cases h
    exact .nil
  | ⟨e, descending⟩ :: rest, fragments, h => by
    obtain ⟨body, hbody, h⟩ := bind_eq_ok.mp h
    obtain ⟨others, hothers, h⟩ := bind_eq_ok.mp h
    have ih := List.rel_append ((expr_answered e).whole body hbody)
      (orders_answered rest others hothers)
    cases h
    cases descending <;> simpa [orderReferences] using ih

/-- Rendering a query binds the answers for its references, clause by clause. -/
theorem select_answered : ∀ query : Select,
    resolver.Answered (query.references dialect resolver) (select dialect resolver query)
  | ⟨top, distinct, list, source, joinList, filter, groupBy, orderBy⟩, fragment, h => by
    obtain ⟨limit, hlimit, h⟩ := bind_eq_ok.mp h
    obtain ⟨columns, hcolumns, h⟩ := bind_eq_ok.mp h
    obtain ⟨joined, hjoined, h⟩ := bind_eq_ok.mp h
    obtain ⟨rows, hrows, h⟩ := bind_eq_ok.mp h
    obtain ⟨groups, hgroups, h⟩ := bind_eq_ok.mp h
    obtain ⟨entries, hentries, h⟩ := bind_eq_ok.mp h
    obtain ⟨rest, hrest, h⟩ := bind_eq_ok.mp h
    have hall := List.rel_append (List.rel_append (List.rel_append (List.rel_append
      (List.rel_append (List.rel_append (topLimit_answered top limit hlimit)
        (items_answered list columns hcolumns)) (joins_answered joinList joined hjoined))
        (clause_answered " WHERE " filter rows hrows)) (exprs_answered groupBy groups hgroups))
        (orders_answered orderBy entries hentries)) (endLimit_answered top rest hrest)
    have hargs : fragment.args = limit.args ++ columns.flatMap Fragment.args ++ joined.args ++
        rows.args ++ groups.flatMap Fragment.args ++ entries.flatMap Fragment.args ++ rest.args := by
      cases h
      -- The clauses that stand without references: no source, no grouping, no ordering.
      cases source <;> cases groups <;> cases entries <;> simp
    rw [hargs]
    exact hall

end

theorem row_answered (values : List Expr) :
    resolver.Answered (listReferences dialect resolver values) (row dialect resolver values) := by
  intro fragment h
  obtain ⟨parts, hparts, h⟩ := bind_eq_ok.mp h
  cases h
  simpa using exprs_answered values parts hparts

/-- Fragments that are rendered one by one bind the answers for all their references. -/
theorem mapM_answered {β : Type} {f : β → Except Fault (Fragment α)} {refs : β → List Reference}
    (h : ∀ b, resolver.Answered (refs b) (f b)) (list : List β) :
    resolver.AllAnswered (list.flatMap refs) (list.mapM f) := by
  intro fragments hfragments
  have hall := mapM_eq_ok hfragments
  clear hfragments
  induction hall with
  | nil => exact .nil
  | cons hfirst _ ih => exact List.rel_append (h _ _ hfirst) ih

end Render

/-! ## Whole statements -/

namespace DataStatement

section Definitions

variable (dialect : Dialect) (resolver : Resolver α)

/-- The references of a statement in the order of its text. -/
def references : DataStatement → List Reference
  | select q => q.references dialect resolver
  | probe q => q.references dialect resolver
  | insert i =>
    match i.source with
    | .values rows => rows.flatMap (listReferences dialect resolver)
    | .query q => q.references dialect resolver
  | update u =>
    u.assignments.flatMap (·.value.references dialect resolver) ++
      optionReferences dialect resolver u.filter
  | delete d => optionReferences dialect resolver d.filter
  | exec e => e.args.flatMap (·.value.references dialect resolver)

end Definitions

variable {dialect : Dialect} {resolver : Resolver α}

/-- The text of a statement binds the answers for its references. -/
theorem fragment_answered (statement : DataStatement) :
    resolver.Answered (statement.references dialect resolver)
      (statement.fragment dialect resolver) := by
  intro fragment h
  cases statement with
  | select q => exact Render.select_answered q fragment h
  | probe q =>
    obtain ⟨inner, hinner, rfl⟩ := map_eq_ok.mp h
    simpa [references] using Render.select_answered q inner hinner
  | insert i =>
    obtain ⟨added, hadded, h⟩ := bind_eq_ok.mp h
    cases h
    simp only [references]
    unfold Render.insertSource at hadded
    split at hadded
    · next rows hsource =>
      obtain ⟨parts, hparts, h⟩ := bind_eq_ok.mp hadded
      cases h
      simpa [hsource] using Render.mapM_answered Render.row_answered rows parts hparts
    · next q hsource =>
      obtain ⟨inner, hinner, h⟩ := bind_eq_ok.mp hadded
      cases h
      simpa [hsource] using Render.select_answered q inner hinner
  | update u =>
    obtain ⟨assignments, hassignments, h⟩ := bind_eq_ok.mp h
    obtain ⟨rows, hrows, h⟩ := bind_eq_ok.mp h
    cases h
    -- The column that is assigned is plain text.
    have hset (a : Assignment) : resolver.Answered (a.value.references dialect resolver)
        (Render.assignment dialect resolver a) := by
      intro fragment h
      obtain ⟨value, hvalue, h⟩ := bind_eq_ok.mp h
      cases h
      simpa using (Render.expr_answered a.value).whole value hvalue
    simpa [references] using List.rel_append
      (Render.mapM_answered hset u.assignments assignments hassignments)
      (Render.clause_answered " WHERE " u.filter rows hrows)
  | delete d =>
    obtain ⟨rows, hrows, h⟩ := bind_eq_ok.mp h
    cases h
    simpa [references] using Render.clause_answered " WHERE " d.filter rows hrows
  | exec e =>
    obtain ⟨args, hargs, h⟩ := bind_eq_ok.mp h
    cases h
    have harg (a : ExecArg) : resolver.Answered (a.value.references dialect resolver)
        (Render.execArg dialect resolver a) := by
      intro fragment h
      obtain ⟨value, hvalue, h⟩ := bind_eq_ok.mp h
      have hargs : fragment.args = value.args := by
        split at h <;> · cases h; simp
      rw [hargs]
      exact (Render.expr_answered a.value).whole value hvalue
    simpa [references] using Render.mapM_answered harg e.args args hargs

end DataStatement

/-! ## The text around the placeholders -/

/-- Placeholders that count up from `next`, each with the text behind it. -/
def numbered (placeholder : Nat → String) (next : Nat) (texts : List String) : String :=
  String.join ((texts.zipIdx next).map fun (text, index) => placeholder index ++ text)

namespace Fragment

/-- The text in front of the first argument, and the texts behind each argument up to the next. -/
def cut : Fragment α → String × List String
  | [] => ("", [])
  | .text s :: rest => (s ++ (cut rest).1, (cut rest).2)
  | .arg _ :: rest => ("", (cut rest).1 :: (cut rest).2)

theorem length_cut (fragment : Fragment α) : fragment.cut.2.length = fragment.args.length := by
  fun_induction cut fragment with
  | case1 => rfl
  | case2 s rest ih => simpa [args] using ih
  | case3 value rest ih => simpa [args] using ih

theorem renderFrom_eq_numbered (placeholder : Nat → String) (next : Nat) (fragment : Fragment α) :
    fragment.renderFrom placeholder next =
      fragment.cut.1 ++ numbered placeholder next fragment.cut.2 := by
  fun_induction renderFrom placeholder next fragment with
  | case1 => rfl
  | case2 next s rest ih => rw [ih, cut, String.append_assoc]
  | case3 next value rest ih => simp [ih, cut, numbered, String.append_assoc]

/-- The text of a fragment is cut at the same places however placeholders are spelled. -/
theorem render_eq_numbered (placeholder : Nat → String) (fragment : Fragment α) :
    fragment.render placeholder = fragment.cut.1 ++ numbered placeholder 1 fragment.cut.2 :=
  renderFrom_eq_numbered placeholder 1 fragment

end Fragment

/-- Placeholders and arguments of every finished query correspond. Its text is cut by placeholders
that count up from one, as many as there are arguments; the texts between them are the same for every
spelling of placeholders; and the arguments are the answers for the references of the statement in
the order of the text. -/
theorem DataStatement.placeholders_match_arguments (dialect : Dialect) (resolver : Resolver α)
    (statement : DataStatement) (query : Query α)
    (h : statement.query dialect resolver = .ok query) :
    ∃ (first : String) (following : List String),
      following.length = query.args.length ∧
      query.sql = first ++ numbered dialect.placeholder 1 following ∧
      (∀ placeholder, statement.queryWith dialect resolver placeholder =
        .ok ⟨first ++ numbered placeholder 1 following, query.args⟩) ∧
      List.Forall₂ resolver.Answers (statement.references dialect resolver) query.args := by
  rw [query_eq_fragment] at h
  obtain ⟨fragment, hfragment, rfl⟩ := map_eq_ok.mp h
  refine ⟨fragment.cut.1, fragment.cut.2, fragment.length_cut,
    fragment.render_eq_numbered dialect.placeholder, fun placeholder => ?_,
    statement.fragment_answered fragment hfragment⟩
  rw [queryWith_eq_fragment, hfragment]
  simp only [Except.map, Fragment.toQuery, fragment.render_eq_numbered]

/-- The resolver that answers each reference by its spelling, evaluates every function outside of
the query, and takes every variable for a string. -/
def Resolver.spelling : Resolver String where
  ofVariable name := .ok name
  ofGlobal var := .ok var.sqlName
  ofFunction name := some (.ok name)
  isString _ := true

/-- A limited query that concatenates a variable, a constant and the value of a function, and whose
condition asks for a server variable. -/
def limitedConcatenation : Select :=
  ⟨some (.variable "@n"), false,
    [⟨.binary .add (.variable "@a") (.binary .add (.literal (.string "-"))
      (.function "ERROR_MESSAGE" [.variable "@hidden"])), none, none⟩],
    some ⟨"t", none⟩, [], some (.binary .eq (.column ⟨none, "y"⟩) (.global .rowCount)), [], []⟩

/-- The limit stands at the end, and the argument of the function is not bound. -/
theorem DataStatement.placeholders_match_arguments_of_limit :
    ∃ (query : Query String) (first : String) (following : List String),
      (select limitedConcatenation).query .postgres .spelling = .ok query ∧
      query.args = ["@a", Text.toUpper "ERROR_MESSAGE", "@@ROWCOUNT", "@n"] ∧
      following.length = 4 ∧
      query.sql = first ++ numbered (Dialect.placeholder .postgres) 1 following := by
  obtain ⟨first, following, hlength, hsql, -, -⟩ :=
    placeholders_match_arguments .postgres .spelling (select limitedConcatenation) _ rfl
  exact ⟨_, first, following, rfl, rfl, hlength, hsql⟩

end Sproc
