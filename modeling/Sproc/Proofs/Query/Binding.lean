import Sproc.Proofs.Query.Fragment

/-!
# Arguments that are bound on the way

While a data statement is written, each argument is put behind the others when its reference is met,
and its placeholder gets its number then. A fragment keeps the same arguments in holes and numbers
the holes from left to right at the end. Both ways lead to the same text and the same arguments: the
order in which the parts of a statement are written is the order in which they stand in the text, in
every dialect, and each part that binds something is put into the text once.

## Main definitions

* `Rendering.Gives`, `Rendering.GivesAll`, `Renderer.Forms.Gives`: writing gives what fragments give
* `DataStatement`: everything that is written as query text

## Main results

* `Renderer.expr_gives`, `Renderer.select_gives`: expressions and queries
* `DataStatement.write_gives`, `DataStatement.query_eq_fragment`: whole statements
-/

namespace Sproc

variable {α β : Type}

/-! ## Numbers in fragments -/

namespace Fragment

variable {placeholder : Nat → String}

@[simp]
theorem renderFrom_ofText (next : Nat) (s : String) :
    renderFrom placeholder next (ofText s : Fragment α) = s := by
  simp [ofText, renderFrom]

@[simp]
theorem renderFrom_ofArg (next : Nat) (value : α) :
    renderFrom placeholder next (ofArg value) = placeholder next := by
  simp [ofArg, renderFrom]

@[simp]
theorem renderFrom_nil (next : Nat) : renderFrom placeholder next ([] : Fragment α) = "" := rfl

/-- The holes of the second part are numbered behind those of the first. -/
@[simp]
theorem renderFrom_append (next : Nat) (a b : Fragment α) :
    renderFrom placeholder next (a ++ b) =
      renderFrom placeholder next a ++ renderFrom placeholder (next + a.args.length) b := by
  induction a generalizing next with
  | nil => simp [args, renderFrom]
  | cons piece rest ih =>
    cases piece with
    | text s => simp [args, renderFrom, ih, String.append_assoc]
    | arg value => simp [args, renderFrom, ih, String.append_assoc, Nat.add_assoc, Nat.add_comm]

@[simp]
theorem renderFrom_parenthesized (next : Nat) (body : Fragment α) :
    renderFrom placeholder next body.parenthesized =
      "(" ++ renderFrom placeholder next body ++ ")" := by
  simp [parenthesized, String.append_assoc]

/-- The texts of fragments that stand one after the other. -/
def renderEach (placeholder : Nat → String) (next : Nat) : List (Fragment α) → List String
  | [] => []
  | first :: others =>
    first.renderFrom placeholder next ::
      renderEach placeholder (next + first.args.length) others

@[simp]
theorem renderEach_nil (next : Nat) : renderEach placeholder next ([] : List (Fragment α)) = [] :=
  rfl

@[simp]
theorem renderEach_cons (next : Nat) (first : Fragment α) (others : List (Fragment α)) :
    renderEach placeholder next (first :: others) = first.renderFrom placeholder next ::
      renderEach placeholder (next + first.args.length) others :=
  rfl

theorem renderEach_append (next : Nat) (front back : List (Fragment α)) :
    renderEach placeholder next (front ++ back) = renderEach placeholder next front ++
      renderEach placeholder (next + (front.flatMap args).length) back := by
  induction front generalizing next with
  | nil => simp
  | cons first others ih => simp [ih, Nat.add_assoc]

@[simp]
theorem renderEach_eq_nil_iff (next : Nat) (parts : List (Fragment α)) :
    renderEach placeholder next parts = [] ↔ parts = [] := by
  cases parts <;> simp

@[simp]
theorem renderFrom_joined (next : Nat) (separator : String) (parts : List (Fragment α)) :
    renderFrom placeholder next (joined separator parts) =
      separator.intercalate (renderEach placeholder next parts) := by
  fun_induction joined separator parts generalizing next with
  | case1 => rfl
  | case2 last => simp
  | case3 first others hne ih =>
    obtain ⟨second, rest, rfl⟩ := List.exists_cons_of_ne_nil hne
    simp [ih, String.intercalate_cons_cons, String.append_assoc]

/-- A clause that lists some parts, and that is left out where there are none. -/
@[simp]
theorem renderFrom_list (next : Nat) (keyword : String) (parts : List (Fragment α)) :
    renderFrom placeholder next (if parts.isEmpty then [] else ofText keyword ++ joined ", " parts) =
      if (renderEach placeholder next parts).isEmpty then ""
      else keyword ++ Text.commaSeparated (renderEach placeholder next parts) := by
  cases parts <;> simp [Text.commaSeparated]

@[simp]
theorem args_list (keyword : String) (parts : List (Fragment α)) :
    args (if parts.isEmpty then [] else ofText keyword ++ joined ", " parts) =
      parts.flatMap args := by
  cases parts <;> simp

end Fragment

namespace Render

@[simp]
theorem renderFrom_operand {placeholder : Nat → String} (next : Nat) (expr : Expr) (parent : Nat)
    (right : Bool) (body : Fragment α) :
    (operand expr parent right body).renderFrom placeholder next =
      Renderer.operand expr parent right (body.renderFrom placeholder next) := by
  unfold operand Renderer.operand
  cases strength? expr with
  | none => rfl
  | some child =>
    dsimp only
    split
    · exact Fragment.renderFrom_parenthesized next body
    · rfl

end Render

namespace Dialect

variable {placeholder : Nat → String} (dialect : Dialect)

@[simp]
theorem renderFrom_concat (next : Nat) (parts : List (Fragment α)) :
    (dialect.concat parts).renderFrom placeholder next =
      dialect.stringConcat (Fragment.renderEach placeholder next parts) := by
  cases dialect <;> simp [concat, stringConcat, Text.commaSeparated, String.append_assoc]

theorem renderFrom_topClause (next : Nat) (count : Fragment α) :
    ((dialect.topClause? count).getD []).renderFrom placeholder next =
      (dialect.topPrefix? (count.renderFrom placeholder next)).getD "" := by
  unfold topClause? topPrefix?
  split <;> simp [String.append_assoc]

@[simp]
theorem renderFrom_limitClause (next : Nat) (count : Fragment α) :
    (dialect.limitClause count).renderFrom placeholder next =
      dialect.limitSuffix (count.renderFrom placeholder next) := by
  cases dialect <;> simp [limitClause, limitSuffix, String.append_assoc]

@[simp]
theorem renderFrom_callProcedure (next : Nat) (name : String) (parts : List (Fragment α)) :
    (dialect.callProcedure name parts).renderFrom placeholder next =
      dialect.procedureCall name (Fragment.renderEach placeholder next parts) := by
  cases dialect <;> cases parts <;>
    simp [callProcedure, procedureCall, Text.commaSeparated, String.append_assoc]

@[simp]
theorem renderFrom_namedArgument (next : Nat) (name : String) (value : Fragment α) :
    (dialect.namedArgument name value).renderFrom placeholder next =
      dialect.argumentNamed name (value.renderFrom placeholder next) := by
  cases dialect <;> simp [namedArgument, argumentNamed, String.append_assoc]

@[simp]
theorem renderFrom_existsProbe (next : Nat) (inner : Fragment α) :
    (dialect.existsProbe inner).renderFrom placeholder next =
      dialect.existenceProbe (inner.renderFrom placeholder next) := by
  unfold existsProbe existenceProbe
  cases dialect <;> simp only [Fragment.renderFrom_append, Fragment.renderFrom_ofText,
    Fragment.args_ofText, List.length_nil, Nat.add_zero]

end Dialect

/-! ## Steps -/

theorem map_eq_bind {ε : Type} {γ : Type} (outcome : Except ε β) (f : β → γ) :
    outcome.map f = outcome >>= fun value => pure (f value) := by
  cases outcome <;> rfl

namespace Rendering

variable {placeholder : Nat → String} {rendered : Except Fault (Fragment α)}
  {list : Except Fault (List (Fragment α))} {step : Rendering α String}
  {steps : Rendering α (List String)}

/-- Writing gives the text of a fragment, whose holes are numbered behind the arguments that have
been bound, and binds what is in the holes. It stops where there is no fragment. -/
def Gives (step : Rendering α String) (placeholder : Nat → String)
    (rendered : Except Fault (Fragment α)) : Prop :=
  ∀ bound, step.run bound = rendered.map fun fragment =>
    (fragment.renderFrom placeholder (bound.length + 1), bound ++ fragment.args)

/-- The same for parts that are put together later. -/
def GivesAll (steps : Rendering α (List String)) (placeholder : Nat → String)
    (list : Except Fault (List (Fragment α))) : Prop :=
  ∀ bound, steps.run bound = list.map fun fragments =>
    (Fragment.renderEach placeholder (bound.length + 1) fragments,
      bound ++ fragments.flatMap Fragment.args)

variable {γ : Type} {glue : Fragment α → Except Fault γ} {gather : List (Fragment α) → Except Fault γ}
  {result : γ → β × List α} {bound : List α}

/-- What is written behind a part is written behind the arguments of this part. -/
theorem Gives.run_bind (h : step.Gives placeholder rendered) {next : String → Rendering α β}
    (hnext : ∀ fragment, (next (fragment.renderFrom placeholder (bound.length + 1))).run
      (bound ++ fragment.args) = (glue fragment).map result) :
    (step >>= next).run bound = (rendered >>= glue).map result := by
  rw [StateT.run_bind, h bound]
  cases rendered with
  | error fault => rfl
  | ok fragment => exact hnext fragment

theorem GivesAll.run_bind (h : steps.GivesAll placeholder list) {next : List String → Rendering α β}
    (hnext : ∀ fragments, (next (Fragment.renderEach placeholder (bound.length + 1) fragments)).run
      (bound ++ fragments.flatMap Fragment.args) = (gather fragments).map result) :
    (steps >>= next).run bound = (list >>= gather).map result := by
  rw [StateT.run_bind, h bound]
  cases list with
  | error fault => rfl
  | ok fragments => exact hnext fragments

theorem run_return {value value' : β} {bound' : List α} (hvalue : value = value')
    (hbound : bound = bound') : (return value : Rendering α β).run bound = .ok (value', bound') := by
  rw [hvalue, hbound]
  rfl

/-- Text that binds nothing. -/
theorem gives_text (s : String) :
    (return s : Rendering α String).Gives placeholder (.ok (.ofText s)) :=
  fun _ => run_return (by simp) (by simp)

theorem gives_nil : (return "" : Rendering α String).Gives placeholder (.ok []) :=
  fun _ => run_return rfl (by simp)

/-- Parts that are written one after the other. -/
theorem mapM_gives {f : β → Rendering α String} {g : β → Except Fault (Fragment α)}
    (h : ∀ b, (f b).Gives placeholder (g b)) (list : List β) :
    (list.mapM f).GivesAll placeholder (list.mapM g) := by
  induction list with
  | nil => exact fun _ => run_return rfl (by simp)
  | cons first rest ih =>
    intro bound
    rw [List.mapM_cons, List.mapM_cons]
    refine (h first).run_bind fun part => ih.run_bind fun others => run_return ?_ (by simp)
    simp [Nat.add_right_comm]

/-- A step that starts without arguments gives a whole query. -/
theorem Gives.finish (h : step.Gives placeholder rendered) :
    step.finish = rendered.map (·.toQuery placeholder) := by
  rw [Rendering.finish, h []]
  cases rendered with
  | error fault => rfl
  | ok fragment => simp [Except.map, Fragment.toQuery, Fragment.render, Bind.bind, Except.bind, pure, Except.pure]

end Rendering

namespace Renderer

open Rendering

variable {r : Renderer α}

/-- An argument that is bound stands in a hole. -/
theorem answer_gives (outcome : Except Fault α) :
    (r.answer outcome).Gives r.placeholder (outcome.map .ofArg) := by
  intro bound
  cases outcome with
  | error fault => rfl
  | ok value =>
    have hrun : (r.answer (.ok value)).run bound =
        .ok (r.placeholder (bound ++ [value]).length, bound ++ [value]) := rfl
    rw [hrun]
    simp [Except.map]

theorem global_gives (var : GlobalVar) :
    (r.global var).Gives r.placeholder (Render.global r.resolver var) := by
  cases var with
  | fetchStatus => exact fun _ => rfl
  | _ => exact answer_gives _

/-- Both ways to write an expression give what its fragments give. -/
structure Forms.Gives (forms : Forms α) (placeholder : Nat → String) (rendered : Rendered α) :
    Prop where
  whole : forms.whole.Gives placeholder rendered.whole
  operands : forms.operands.GivesAll placeholder rendered.operands

theorem single_gives {expr : Expr} {placeholder : Nat → String} {whole : Rendering α String}
    {rendered : Except Fault (Fragment α)} (h : whole.Gives placeholder rendered) :
    (single expr whole).Gives placeholder (Render.single expr rendered) := by
  refine ⟨h, fun bound => ?_⟩
  rw [Render.single, map_eq_bind]
  exact h.run_bind fun body => run_return (by simp) (by simp)

/-- An addition is written as a sum or as a concatenation, and every other operator between its
operands. -/
theorem binary_gives (op : BinaryOp) {left right : Expr}
    (hl : (r.expr left).Gives r.placeholder (Render.expr r.dialect r.resolver left))
    (hr : (r.expr right).Gives r.placeholder (Render.expr r.dialect r.resolver right)) :
    (r.expr (.binary op left right)).Gives r.placeholder
      (Render.expr r.dialect r.resolver (.binary op left right)) := by
  have hoperands : Rendering.GivesAll (α := α)
      (do return (← (r.expr left).operands) ++ (← (r.expr right).operands)) r.placeholder
      (do return (← (Render.expr r.dialect r.resolver left).operands) ++
        (← (Render.expr r.dialect r.resolver right).operands)) := fun bound => by
    refine hl.operands.run_bind fun front => hr.operands.run_bind fun back => run_return ?_ (by simp)
    simp [Fragment.renderEach_append, Nat.add_right_comm]
  rw [expr, Render.expr]
  dsimp only
  split
  · split
    · refine ⟨fun bound => ?_, hoperands⟩
      rw [map_eq_bind]
      exact hoperands.run_bind fun parts => run_return (by simp) (by simp)
    · refine ⟨fun bound => ?_, hoperands⟩
      refine hl.whole.run_bind fun l => hr.whole.run_bind fun r => run_return ?_ (by simp)
      simp [String.append_assoc, Nat.add_right_comm]
  · refine single_gives fun bound => ?_
    refine hl.whole.run_bind fun l => hr.whole.run_bind fun r => run_return ?_ (by simp)
    simp [String.append_assoc, Nat.add_right_comm]

mutual

theorem expr_gives (r : Renderer α) :
    ∀ e : Expr, (r.expr e).Gives r.placeholder (Render.expr r.dialect r.resolver e)
  | .literal value => single_gives (gives_text _)
  | .variable name => single_gives (answer_gives _)
  | .global var => single_gives (global_gives var)
  | .column ref => single_gives (gives_text _)
  | .star => single_gives (gives_text _)
  | .unary op e => by
    refine single_gives fun bound => (expr_gives r e).whole.run_bind fun body => ?_
    cases op <;> exact run_return (by simp) (by simp)
  | .binary op left right => binary_gives op (expr_gives r left) (expr_gives r right)
  | .isNull e negated => single_gives fun bound =>
    (expr_gives r e).whole.run_bind fun body => run_return (by simp) (by simp)
  | .inList e list negated => by
    refine single_gives fun bound => (expr_gives r e).whole.run_bind fun body => ?_
    refine (exprs_gives r list).run_bind fun items => run_return ?_ (by simp)
    simp [Text.commaSeparated, String.append_assoc, Nat.add_right_comm]
  | .between e low high negated => by
    refine single_gives fun bound => (expr_gives r e).whole.run_bind fun body => ?_
    refine (expr_gives r low).whole.run_bind fun lower => ?_
    refine (expr_gives r high).whole.run_bind fun upper => run_return ?_ (by simp)
    simp [String.append_assoc, Nat.add_assoc, Nat.add_comm, Nat.add_left_comm]
  | .function name args => by
    refine single_gives ?_
    dsimp only
    cases r.resolver.ofFunction (Text.toUpper name) with
    | some value =>
      dsimp only
      rw [← map_eq_bind]
      exact answer_gives value
    | none =>
      dsimp only
      split
      · exact gives_text _
      · refine fun bound => (exprs_gives r args).run_bind fun parts => run_return ?_ (by simp)
        simp [Text.commaSeparated, String.append_assoc]
  | .cast e type => single_gives fun bound =>
    (expr_gives r e).whole.run_bind fun body => run_return (by simp [String.append_assoc]) (by simp)
  | .case list otherwise => by
    refine single_gives fun bound => (branches_gives r list).run_bind fun arms => ?_
    refine (elseBranch_gives r otherwise).run_bind fun last => run_return ?_ (by simp)
    simp [String.append_assoc, Nat.add_right_comm]
  | .exists query => single_gives fun bound =>
    (select_gives r query).run_bind fun inner => run_return (by simp [String.append_assoc]) (by simp)
  | .subquery query => single_gives fun bound =>
    (select_gives r query).run_bind fun inner => run_return (by simp [String.append_assoc]) (by simp)

theorem exprs_gives (r : Renderer α) : ∀ list : List Expr,
    (r.exprs list).GivesAll r.placeholder (Render.exprs r.dialect r.resolver list)
  | [] => fun _ => run_return rfl (by simp)
  | e :: rest => fun bound => by
    refine (expr_gives r e).whole.run_bind fun first => ?_
    refine (exprs_gives r rest).run_bind fun others => run_return ?_ (by simp)
    simp [Nat.add_right_comm]

theorem branches_gives (r : Renderer α) : ∀ list : List CaseBranch,
    (r.branches list).Gives r.placeholder (Render.branches r.dialect r.resolver list)
  | [] => gives_nil
  | ⟨test, result⟩ :: rest => fun bound => by
    refine (expr_gives r test).whole.run_bind fun t => ?_
    refine (expr_gives r result).whole.run_bind fun value => ?_
    refine (branches_gives r rest).run_bind fun others => run_return ?_ (by simp)
    simp [String.append_assoc, Nat.add_assoc, Nat.add_comm, Nat.add_left_comm]

theorem elseBranch_gives (r : Renderer α) : ∀ otherwise : Option Expr,
    (r.elseBranch otherwise).Gives r.placeholder (Render.elseBranch r.dialect r.resolver otherwise)
  | none => gives_nil
  | some e => fun bound => (expr_gives r e).whole.run_bind fun body =>
    run_return (by simp) (by simp)

theorem clause_gives (r : Renderer α) (keyword : String) : ∀ condition : Option Expr,
    (r.clause keyword condition).Gives r.placeholder
      (Render.clause r.dialect r.resolver keyword condition)
  | none => gives_nil
  | some e => fun bound => (expr_gives r e).whole.run_bind fun body =>
    run_return (by simp) (by simp)

theorem topLimit_gives (r : Renderer α) : ∀ top : Option Expr,
    (r.topLimit top).Gives r.placeholder (Render.topLimit r.dialect r.resolver top)
  | none => gives_nil
  | some e => by
    unfold topLimit Render.topLimit
    split
    next hleading =>
      refine fun bound => (expr_gives r e).whole.run_bind fun count => ?_
      exact run_return (r.dialect.renderFrom_topClause _ count).symm
        (by rw [r.dialect.args_topClause count hleading])
    next => exact gives_nil

theorem endLimit_gives (r : Renderer α) : ∀ top : Option Expr,
    (r.endLimit top).Gives r.placeholder (Render.endLimit r.dialect r.resolver top)
  | none => gives_nil
  | some e => by
    unfold endLimit Render.endLimit
    split
    next => exact gives_nil
    next htrailing =>
      refine fun bound => (expr_gives r e).whole.run_bind fun count => ?_
      exact run_return (by simp)
        (by rw [r.dialect.args_limitClause count (by simpa using htrailing)])

theorem items_gives (r : Renderer α) : ∀ list : List SelectItem,
    (r.items list).GivesAll r.placeholder (Render.items r.dialect r.resolver list)
  | [] => fun _ => run_return rfl (by simp)
  | ⟨e, aliasName, _⟩ :: rest => fun bound => by
    refine (expr_gives r e).whole.run_bind fun item => ?_
    refine (items_gives r rest).run_bind fun others => ?_
    cases aliasName <;> exact run_return (by simp [Nat.add_right_comm]) (by simp)

theorem joins_gives (r : Renderer α) : ∀ list : List Join,
    (r.joins list).Gives r.placeholder (Render.joins r.dialect r.resolver list)
  | [] => gives_nil
  | ⟨kind, ref, condition⟩ :: rest => fun bound => by
    refine (expr_gives r condition).whole.run_bind fun test => ?_
    refine (joins_gives r rest).run_bind fun others => ?_
    cases kind <;> exact run_return (by simp [String.append_assoc, Nat.add_right_comm]) (by simp)

theorem orders_gives (r : Renderer α) : ∀ list : List OrderBy,
    (r.orders list).GivesAll r.placeholder (Render.orders r.dialect r.resolver list)
  | [] => fun _ => run_return rfl (by simp)
  | ⟨e, descending⟩ :: rest => fun bound => by
    refine (expr_gives r e).whole.run_bind fun key => ?_
    refine (orders_gives r rest).run_bind fun others => ?_
    cases descending <;> exact run_return (by simp [Nat.add_right_comm]) (by simp)

theorem select_gives (r : Renderer α) : ∀ query : Select,
    (r.select query).Gives r.placeholder (Render.select r.dialect r.resolver query)
  | ⟨top, distinct, list, source, joinList, filter, groupBy, orderBy⟩ => fun bound => by
    refine (topLimit_gives r top).run_bind fun limit => ?_
    refine (items_gives r list).run_bind fun columns => ?_
    refine (joins_gives r joinList).run_bind fun joined => ?_
    refine (clause_gives r " WHERE " filter).run_bind fun rows => ?_
    refine (exprs_gives r groupBy).run_bind fun groups => ?_
    refine (orders_gives r orderBy).run_bind fun entries => ?_
    refine (endLimit_gives r top).run_bind fun rest => ?_
    -- A list that is empty is left out in both ways.
    refine run_return ?_ ?_
    · cases source <;> simp only [Fragment.renderFrom_append, Fragment.renderFrom_ofText,
        Fragment.renderFrom_joined, Fragment.renderFrom_list, Fragment.renderFrom_nil,
        Fragment.args_append, Fragment.args_ofText, Fragment.args_joined, Fragment.args_list,
        Fragment.args_nil, Text.commaSeparated, List.length_append, List.length_nil, Nat.zero_add,
        Nat.add_assoc, Nat.add_comm, Nat.add_left_comm]
    · cases source <;> simp only [Fragment.args_append, Fragment.args_ofText, Fragment.args_joined,
        Fragment.args_list, List.append_assoc, List.nil_append]

end

theorem row_gives (values : List Expr) :
    (r.row values).Gives r.placeholder (Render.row r.dialect r.resolver values) := fun bound =>
  (exprs_gives r values).run_bind fun parts =>
    run_return (by simp [Text.commaSeparated, String.append_assoc]) (by simp)

theorem insertSource_gives : ∀ source : InsertSource,
    (r.insertSource source).Gives r.placeholder (Render.insertSource r.dialect r.resolver source)
  | .values rows => fun bound =>
    (mapM_gives row_gives rows).run_bind fun parts =>
      run_return (by simp [Text.commaSeparated]) (by simp)
  | .query q => fun bound =>
    (select_gives r q).run_bind fun inner => run_return (by simp) (by simp)

theorem assignment_gives (a : Assignment) :
    (r.assignment a).Gives r.placeholder (Render.assignment r.dialect r.resolver a) := fun bound =>
  (expr_gives r a.value).whole.run_bind fun value => run_return (by simp) (by simp)

theorem execArg_gives (a : ExecArg) :
    (r.execArg a).Gives r.placeholder (Render.execArg r.dialect r.resolver a) := by
  refine fun bound => (expr_gives r a.value).whole.run_bind fun value => ?_
  cases a.name <;> exact run_return (by simp) (by simp)

end Renderer

/-! ## Whole statements -/

/-- Everything that is written as query text: the data statements, and the question whether a query
has rows. -/
inductive DataStatement where
  | select (query : Select)
  | probe (query : Select)
  | insert (insert : Insert)
  | update (update : Update)
  | delete (delete : Delete)
  | exec (exec : Exec)

namespace DataStatement

/-- Writes a statement. -/
def write (r : Renderer α) : DataStatement → Rendering α String
  | select q => r.select q
  | probe q => r.probe q
  | insert i => r.insert i
  | update u => r.update u
  | delete d => r.delete d
  | exec e => r.exec e

section Definitions

variable (dialect : Dialect) (resolver : Resolver α)

/-- The finished query of a statement. -/
def query : DataStatement → Except Fault (Query α)
  | select q => Query.ofSelect dialect resolver q
  | probe q => Query.probe dialect resolver q
  | insert i => Query.ofInsert dialect resolver i
  | update u => Query.ofUpdate dialect resolver u
  | delete d => Query.ofDelete dialect resolver d
  | exec e => Query.ofExec dialect resolver e

/-- The finished query of a statement when placeholders are spelled in the given way. -/
def queryWith (placeholder : Nat → String) (statement : DataStatement) : Except Fault (Query α) :=
  (statement.write { dialect, resolver, placeholder }).finish

/-- The text of a statement with holes for its arguments. -/
def fragment : DataStatement → Except Fault (Fragment α)
  | select q => Render.select dialect resolver q
  | probe q => (Render.select dialect resolver q).map dialect.existsProbe
  | insert i => Render.insert dialect resolver i
  | update u => Render.update dialect resolver u
  | delete d => Render.delete dialect resolver d
  | exec e => Render.exec dialect resolver e

end Definitions

open Rendering Renderer

/-- Writing a statement gives what its fragment gives: no argument is bound out of the order of the
text, and none is bound for a part that the text leaves out. -/
theorem write_gives (r : Renderer α) : ∀ statement : DataStatement,
    (statement.write r).Gives r.placeholder (statement.fragment r.dialect r.resolver)
  | select q => select_gives r q
  | probe q => fun bound => by
    rw [fragment, map_eq_bind]
    exact (select_gives r q).run_bind fun inner => run_return (by simp) (by simp)
  | insert i => fun bound =>
    (insertSource_gives i.source).run_bind fun added => run_return (by simp) (by simp)
  | update u => fun bound => by
    refine (mapM_gives assignment_gives u.assignments).run_bind fun assignments => ?_
    refine (clause_gives r " WHERE " u.filter).run_bind fun rows => run_return ?_ (by simp)
    simp [Text.commaSeparated, String.append_assoc, Nat.add_right_comm]
  | delete d => fun bound =>
    (clause_gives r " WHERE " d.filter).run_bind fun rows => run_return (by simp) (by simp)
  | exec e => fun bound =>
    (mapM_gives execArg_gives e.args).run_bind fun parts => run_return (by simp) (by simp)

/-- Statements are finished as their fragments are, however placeholders are spelled. -/
theorem queryWith_eq_fragment {dialect : Dialect} {resolver : Resolver α}
    (placeholder : Nat → String) (statement : DataStatement) :
    statement.queryWith dialect resolver placeholder =
      (statement.fragment dialect resolver).map (·.toQuery placeholder) :=
  (write_gives { dialect, resolver, placeholder } statement).finish

theorem query_eq_fragment {dialect : Dialect} {resolver : Resolver α} (statement : DataStatement) :
    statement.query dialect resolver =
      (statement.fragment dialect resolver).map (·.toQuery dialect.placeholder) := by
  have hwith : statement.query dialect resolver =
      statement.queryWith dialect resolver dialect.placeholder := by
    cases statement <;> rfl
  rw [hwith, queryWith_eq_fragment]

end DataStatement

end Sproc
