import Sproc.Lower.Request
import Sproc.Proofs.Query.Binding

/-!
# Faults of pure steps

Looking up a variable, classifying a type or writing query text can fail, but never because of the
life cycle of a cursor: only the statements that name a cursor can. Query text fails with what its
resolver says, and nothing else about cursors comes up on the way.

## Main definitions

* `Fault.concernsCursor`: whether a fault is about a cursor
* `FailsPlainly`: a pure step fails with other faults only

## Main results

* `Render.expr_failsPlainly`, `Render.select_failsPlainly`: query text fails as its resolver does
* `plainBuild_ofSelect` and the like: query text with the bindings of the generation
-/

namespace Sproc

/-- Whether a fault is about a cursor. -/
def Fault.concernsCursor : Fault → Bool
  | .cursor _ _ => true
  | _ => false

variable {α β : Type}

/-- A sequence fails where its first step does, or behind it where the second one does. -/
theorem bind_eq_error {ε : Type} {step : Except ε α} {next : α → Except ε β} {error : ε} :
    (step >>= next) = .error error ↔
      step = .error error ∨ ∃ value, step = .ok value ∧ next value = .error error := by
  cases step <;> simp [bind, Except.bind]

/-- A pure step that fails with faults that are not about cursors. -/
def FailsPlainly (outcome : Except Fault α) : Prop :=
  ∀ fault, outcome = .error fault → fault.concernsCursor = false

@[simp]
theorem failsPlainly_ok (value : α) : FailsPlainly (.ok value) := by
  rintro fault ⟨⟩

@[simp]
theorem failsPlainly_pure (value : α) : FailsPlainly (pure value) :=
  failsPlainly_ok value

theorem failsPlainly_error {fault : Fault} (h : fault.concernsCursor = false) :
    FailsPlainly (.error fault : Except Fault α) := by
  rintro _ ⟨⟩
  exact h

theorem failsPlainly_bind {step : Except Fault α} {next : α → Except Fault β}
    (hstep : FailsPlainly step) (hnext : ∀ value, FailsPlainly (next value)) :
    FailsPlainly (step >>= next) := by
  intro fault h
  obtain h | ⟨value, -, h⟩ := bind_eq_error.mp h
  · exact hstep fault h
  · exact hnext value fault h

theorem failsPlainly_map {step : Except Fault α} (f : α → β) (h : FailsPlainly step) :
    FailsPlainly (step.map f) := by
  cases step with
  | ok value => exact failsPlainly_ok _
  | error fault =>
    rintro _ ⟨⟩
    exact h fault rfl

theorem failsPlainly_mapM {f : α → Except Fault β} (h : ∀ a, FailsPlainly (f a))
    (list : List α) : FailsPlainly (list.mapM f) := by
  induction list with
  | nil => exact failsPlainly_pure _
  | cons first rest ih =>
    rw [List.mapM_cons]
    exact failsPlainly_bind (h first) fun _ => failsPlainly_bind ih fun _ => failsPlainly_pure _

/-! ## Names, types and constants -/

@[simp]
theorem failsPlainly_lookup (table : SymbolTable) (name : String) :
    FailsPlainly (table.lookup name) := by
  unfold SymbolTable.lookup
  split
  · exact failsPlainly_ok _
  · exact failsPlainly_error rfl

@[simp]
theorem failsPlainly_parse (type : String) : FailsPlainly (TypeName.parse type) := by
  unfold TypeName.parse
  split
  · exact failsPlainly_ok _
  · exact failsPlainly_error rfl

@[simp]
theorem failsPlainly_classify (type : String) : FailsPlainly (TypeName.classify type) := by
  refine failsPlainly_bind (failsPlainly_parse type) fun _ => ?_
  split
  · exact failsPlainly_ok _
  · exact failsPlainly_error rfl

@[simp]
theorem failsPlainly_declare (table : SymbolTable) (name type : String) (kind : SymbolKind) :
    FailsPlainly (table.declare name type kind) := by
  unfold SymbolTable.declare
  split
  · exact failsPlainly_error rfl
  · exact failsPlainly_bind (failsPlainly_classify type) fun _ => failsPlainly_pure (_, _)

@[simp]
theorem failsPlainly_negate (value : Value) : FailsPlainly value.negate := by
  unfold Value.negate
  repeat' split
  all_goals first | exact failsPlainly_ok _ | exact failsPlainly_error rfl

@[simp]
theorem failsPlainly_cutMarker (marker base : String) :
    FailsPlainly (Identifier.cutMarker marker base) := by
  unfold Identifier.cutMarker
  repeat' split
  all_goals first | exact failsPlainly_ok _ | exact failsPlainly_error rfl

@[simp]
theorem failsPlainly_functionName (procedure : String) :
    FailsPlainly (Identifier.functionName procedure) := by
  refine failsPlainly_bind (failsPlainly_bind (failsPlainly_cutMarker _ _) fun _ => ?_) fun _ => ?_
  · split
    · exact failsPlainly_pure _
    · exact failsPlainly_bind (failsPlainly_cutMarker _ _) fun _ => failsPlainly_pure _
  · dsimp only
    repeat' split
    all_goals exact failsPlainly_pure _

@[simp]
theorem failsPlainly_validatePackage (package : Package) :
    FailsPlainly (Config.validatePackage package) := by
  unfold Config.validatePackage
  split
  · exact failsPlainly_error rfl
  · exact failsPlainly_ok ()

@[simp]
theorem failsPlainly_validate (config : Config) : FailsPlainly config.validate := by
  unfold Config.validate
  dsimp only
  split
  · exact failsPlainly_error rfl
  · split
    · exact failsPlainly_error rfl
    · refine failsPlainly_bind (failsPlainly_validatePackage _) fun _ => ?_
      refine failsPlainly_bind (failsPlainly_validatePackage _) fun _ => ?_
      split
      · exact failsPlainly_error rfl
      · exact failsPlainly_ok ()

/-! ## Query text -/

/-- Nothing that a resolver is asked for fails because of a cursor. -/
structure Resolver.Plain (resolver : Resolver α) : Prop where
  ofVariable (name : String) : FailsPlainly (resolver.ofVariable name)
  ofGlobal (var : GlobalVar) : FailsPlainly (resolver.ofGlobal var)
  ofFunction {name : String} {answer : Except Fault α} :
    resolver.ofFunction name = some answer → FailsPlainly answer

/-- An expression fails plainly as a whole and as operands of a concatenation. -/
structure Rendered.Plain (rendered : Rendered α) : Prop where
  whole : FailsPlainly rendered.whole
  operands : FailsPlainly rendered.operands

namespace Render

variable {dialect : Dialect} {resolver : Resolver α}

theorem single_plain {expr : Expr} {whole : Except Fault (Fragment α)} (h : FailsPlainly whole) :
    (single expr whole).Plain :=
  ⟨h, failsPlainly_map _ h⟩

theorem global_failsPlainly (plain : resolver.Plain) (var : GlobalVar) :
    FailsPlainly (global resolver var) := by
  unfold global
  split
  · exact failsPlainly_error rfl
  · exact failsPlainly_map _ (plain.ofGlobal _)

-- The cases follow the mutual recursion of the rendering; only the resolver can fail.
mutual

/-- Rendering an expression fails as the resolver does. -/
theorem expr_plain (plain : resolver.Plain) : ∀ e : Expr, (expr dialect resolver e).Plain
  | .literal _ => single_plain (failsPlainly_ok _)
  | .variable name => single_plain (failsPlainly_map _ (plain.ofVariable name))
  | .global var => single_plain (global_failsPlainly plain var)
  | .column _ => single_plain (failsPlainly_ok _)
  | .star => single_plain (failsPlainly_ok _)
  | .unary op e => by
    refine single_plain (failsPlainly_bind (expr_plain plain e).whole fun _ => ?_)
    cases op <;> exact failsPlainly_pure _
  | .binary op left right => by
    have hl := expr_plain plain left
    have hr := expr_plain plain right
    have hoperands : FailsPlainly (do return (← (expr dialect resolver left).operands) ++
        (← (expr dialect resolver right).operands) : Except Fault (List (Fragment α))) :=
      failsPlainly_bind hl.operands fun _ =>
        failsPlainly_bind hr.operands fun _ => failsPlainly_pure _
    unfold expr
    simp only
    split
    · split
      · exact ⟨failsPlainly_map _ hoperands, hoperands⟩
      · exact ⟨failsPlainly_bind hl.whole fun _ =>
          failsPlainly_bind hr.whole fun _ => failsPlainly_pure _, hoperands⟩
    · exact single_plain (failsPlainly_bind hl.whole fun _ =>
        failsPlainly_bind hr.whole fun _ => failsPlainly_pure _)
  | .isNull e _ =>
    single_plain (failsPlainly_bind (expr_plain plain e).whole fun _ => failsPlainly_pure _)
  | .inList e list _ =>
    single_plain (failsPlainly_bind (expr_plain plain e).whole fun _ =>
      failsPlainly_bind (exprs_failsPlainly plain list) fun _ => failsPlainly_pure _)
  | .between e low high _ =>
    single_plain (failsPlainly_bind (expr_plain plain e).whole fun _ =>
      failsPlainly_bind (expr_plain plain low).whole fun _ =>
        failsPlainly_bind (expr_plain plain high).whole fun _ => failsPlainly_pure _)
  | .function name args => by
    refine single_plain ?_
    cases hf : resolver.ofFunction (Text.toUpper name) with
    | some answer =>
      simp only [hf]
      exact failsPlainly_bind (plain.ofFunction hf) fun _ => failsPlainly_pure _
    | none =>
      simp only [hf]
      split
      · exact failsPlainly_pure _
      · exact failsPlainly_bind (exprs_failsPlainly plain args) fun _ => failsPlainly_pure _
  | .cast e _ =>
    single_plain (failsPlainly_bind (expr_plain plain e).whole fun _ => failsPlainly_pure _)
  | .case list otherwise =>
    single_plain (failsPlainly_bind (branches_failsPlainly plain list) fun _ =>
      failsPlainly_bind (elseBranch_failsPlainly plain otherwise) fun _ => failsPlainly_pure _)
  | .exists query =>
    single_plain (failsPlainly_bind (select_failsPlainly plain query) fun _ => failsPlainly_pure _)
  | .subquery query =>
    single_plain (failsPlainly_bind (select_failsPlainly plain query) fun _ => failsPlainly_pure _)

theorem exprs_failsPlainly (plain : resolver.Plain) :
    ∀ list : List Expr, FailsPlainly (exprs dialect resolver list)
  | [] => failsPlainly_ok _
  | e :: rest =>
    failsPlainly_bind (expr_plain plain e).whole fun _ =>
      failsPlainly_bind (exprs_failsPlainly plain rest) fun _ => failsPlainly_pure _

theorem branches_failsPlainly (plain : resolver.Plain) :
    ∀ list : List CaseBranch, FailsPlainly (branches dialect resolver list)
  | [] => failsPlainly_ok _
  | ⟨test, result⟩ :: rest =>
    failsPlainly_bind (expr_plain plain test).whole fun _ =>
      failsPlainly_bind (expr_plain plain result).whole fun _ =>
        failsPlainly_bind (branches_failsPlainly plain rest) fun _ => failsPlainly_pure _

theorem elseBranch_failsPlainly (plain : resolver.Plain) :
    ∀ otherwise : Option Expr, FailsPlainly (elseBranch dialect resolver otherwise)
  | none => failsPlainly_ok _
  | some e => failsPlainly_bind (expr_plain plain e).whole fun _ => failsPlainly_pure _

theorem clause_failsPlainly (plain : resolver.Plain) (keyword : String) :
    ∀ condition : Option Expr, FailsPlainly (clause dialect resolver keyword condition)
  | none => failsPlainly_ok _
  | some e => failsPlainly_bind (expr_plain plain e).whole fun _ => failsPlainly_pure _

theorem topLimit_failsPlainly (plain : resolver.Plain) :
    ∀ top : Option Expr, FailsPlainly (topLimit dialect resolver top)
  | none => failsPlainly_ok _
  | some e => by
    unfold topLimit
    split
    · exact failsPlainly_bind (expr_plain plain e).whole fun _ => failsPlainly_pure _
    · exact failsPlainly_ok _

theorem endLimit_failsPlainly (plain : resolver.Plain) :
    ∀ top : Option Expr, FailsPlainly (endLimit dialect resolver top)
  | none => failsPlainly_ok _
  | some e => by
    unfold endLimit
    split
    · exact failsPlainly_ok _
    · exact failsPlainly_bind (expr_plain plain e).whole fun _ => failsPlainly_pure _

theorem items_failsPlainly (plain : resolver.Plain) :
    ∀ list : List SelectItem, FailsPlainly (items dialect resolver list)
  | [] => failsPlainly_ok _
  | ⟨e, _, _⟩ :: rest =>
    failsPlainly_bind (expr_plain plain e).whole fun _ =>
      failsPlainly_bind (items_failsPlainly plain rest) fun _ => failsPlainly_pure _

theorem joins_failsPlainly (plain : resolver.Plain) :
    ∀ list : List Join, FailsPlainly (joins dialect resolver list)
  | [] => failsPlainly_ok _
  | ⟨_, _, condition⟩ :: rest =>
    failsPlainly_bind (expr_plain plain condition).whole fun _ =>
      failsPlainly_bind (joins_failsPlainly plain rest) fun _ => failsPlainly_pure _

theorem orders_failsPlainly (plain : resolver.Plain) :
    ∀ list : List OrderBy, FailsPlainly (orders dialect resolver list)
  | [] => failsPlainly_ok _
  | ⟨e, _⟩ :: rest =>
    failsPlainly_bind (expr_plain plain e).whole fun _ =>
      failsPlainly_bind (orders_failsPlainly plain rest) fun _ => failsPlainly_pure _

/-- Rendering a query fails as the resolver does. -/
theorem select_failsPlainly (plain : resolver.Plain) :
    ∀ query : Select, FailsPlainly (select dialect resolver query)
  | ⟨top, _, list, _, joinList, filter, groupBy, orderBy⟩ =>
    failsPlainly_bind (topLimit_failsPlainly plain top) fun _ =>
      failsPlainly_bind (items_failsPlainly plain list) fun _ =>
        failsPlainly_bind (joins_failsPlainly plain joinList) fun _ =>
          failsPlainly_bind (clause_failsPlainly plain " WHERE " filter) fun _ =>
            failsPlainly_bind (exprs_failsPlainly plain groupBy) fun _ =>
              failsPlainly_bind (orders_failsPlainly plain orderBy) fun _ =>
                failsPlainly_bind (endLimit_failsPlainly plain top) fun _ => failsPlainly_pure _

end

section Statements

variable (plain : resolver.Plain)

include plain

theorem insertSource_failsPlainly (source : InsertSource) :
    FailsPlainly (insertSource dialect resolver source) := by
  have hrow (values : List Expr) : FailsPlainly (row dialect resolver values) :=
    failsPlainly_bind (exprs_failsPlainly plain values) fun _ => failsPlainly_pure _
  cases source with
  | values rows =>
    exact failsPlainly_bind (failsPlainly_mapM hrow rows) fun _ => failsPlainly_pure _
  | query q => exact failsPlainly_bind (select_failsPlainly plain q) fun _ => failsPlainly_pure _

theorem update_failsPlainly (u : Update) : FailsPlainly (update dialect resolver u) := by
  have hassignment (a : Assignment) : FailsPlainly (assignment dialect resolver a) :=
    failsPlainly_bind (expr_plain plain a.value).whole fun _ => failsPlainly_pure _
  exact failsPlainly_bind (failsPlainly_mapM hassignment u.assignments) fun _ =>
    failsPlainly_bind (clause_failsPlainly plain " WHERE " u.filter) fun _ => failsPlainly_pure _

theorem exec_failsPlainly (e : Exec) : FailsPlainly (exec dialect resolver e) := by
  have harg (a : ExecArg) : FailsPlainly (execArg dialect resolver a) := by
    refine failsPlainly_bind (expr_plain plain a.value).whole fun _ => ?_
    split <;> exact failsPlainly_pure _
  exact failsPlainly_bind (failsPlainly_mapM harg e.args) fun _ => failsPlainly_pure _

end Statements

end Render

/-- Query text that fails as its resolver does. -/
def PlainBuild (build : Dialect → Resolver α → Except Fault (Query α)) : Prop :=
  ∀ dialect resolver, resolver.Plain → FailsPlainly (build dialect resolver)

section Builds

variable {α : Type}

/-- The query of a statement fails as its resolver does. -/
theorem plainBuild_query (statement : DataStatement) :
    PlainBuild (α := α) fun dialect resolver => statement.query dialect resolver := by
  intro dialect resolver plain
  dsimp only
  rw [DataStatement.query_eq_fragment]
  refine failsPlainly_map _ ?_
  cases statement with
  | select q => exact Render.select_failsPlainly plain q
  | probe q => exact failsPlainly_map _ (Render.select_failsPlainly plain q)
  | insert i =>
    exact failsPlainly_bind (Render.insertSource_failsPlainly plain _) fun _ => failsPlainly_pure _
  | update u => exact Render.update_failsPlainly plain u
  | delete d =>
    exact failsPlainly_bind (Render.clause_failsPlainly plain " WHERE " _) fun _ =>
      failsPlainly_pure _
  | exec e => exact Render.exec_failsPlainly plain e

@[simp]
theorem plainBuild_ofSelect (query : Select) :
    PlainBuild (α := α) fun dialect resolver => Query.ofSelect dialect resolver query :=
  plainBuild_query (.select query)

@[simp]
theorem plainBuild_probe (query : Select) :
    PlainBuild (α := α) fun dialect resolver => Query.probe dialect resolver query :=
  plainBuild_query (.probe query)

@[simp]
theorem plainBuild_ofInsert (insert : Insert) :
    PlainBuild (α := α) fun dialect resolver => Query.ofInsert dialect resolver insert :=
  plainBuild_query (.insert insert)

@[simp]
theorem plainBuild_ofUpdate (update : Update) :
    PlainBuild (α := α) fun dialect resolver => Query.ofUpdate dialect resolver update :=
  plainBuild_query (.update update)

@[simp]
theorem plainBuild_ofDelete (delete : Delete) :
    PlainBuild (α := α) fun dialect resolver => Query.ofDelete dialect resolver delete :=
  plainBuild_query (.delete delete)

@[simp]
theorem plainBuild_ofExec (exec : Exec) :
    PlainBuild (α := α) fun dialect resolver => Query.ofExec dialect resolver exec :=
  plainBuild_query (.exec exec)

end Builds

/-- What is bound in query text by the generation is plain. -/
theorem Lower.plain_queryArgs (context : Context) (progress : Progress) :
    (queryArgs context progress).Plain where
  ofVariable name := failsPlainly_map _ (failsPlainly_lookup progress.symbols name)
  ofGlobal var := by
    cases var with
    | fetchStatus => exact failsPlainly_error rfl
    | _ => exact failsPlainly_ok _
  ofFunction {name answer} h := by
    simp only [queryArgs] at h
    split at h
    · obtain rfl := Option.some.inj h
      exact failsPlainly_ok _
    · obtain ⟨value, -, rfl⟩ := Option.map_eq_some_iff.mp h
      exact failsPlainly_ok _

end Sproc
