import Sproc.Proofs.Go.Action
import Sproc.Proofs.Lower.Ledger
import Sproc.Proofs.Query.References

/-!
# What steps ask of the database

Outside of `TRY` statements, the steps that carry out a data statement on the database make exactly
one request, and the handle it goes to is fixed by what is known about the transaction. A triple says
so: taken where that knowledge is given, a step leaves it as it is and writes code with the given
requests.

## Main definitions

* `Lower.Asks`: a step writes code with the given requests

## Main results

* `asks_bind`, `asks_block`, `asks_annotated`: sequences, blocks, and steps that write nothing
* `asks_emitGuarded`, `asks_emitChecked`, `asks_emitScan`, `asks_emitExec`: calls of the database
-/

namespace Sproc

open Go

namespace Lower

variable {α β : Type} {c : Context} {state : TransactionState} {actions more : List Action}

/-- A step, taken in a context with some knowledge about the transaction, keeps the knowledge and
writes code with the given requests, and its result is as `P` says. -/
def Asks (step : Lower α) (c : Context) (state : TransactionState) (actions : List Action)
    (P : α → Prop) : Prop :=
  ∀ ⦃before value after⦄, step.Runs c before value after → before.transaction = state →
    after.transaction = state ∧ P value ∧
      ∃ added, after.output = before.output ++ added ∧ listActions added = actions

variable {P : α → Prop} {Q : β → Prop}

theorem asks_pure {value : α} (h : P value) : (pure value : Lower α).Asks c state [] P := by
  intro before value' after hruns hstate
  obtain ⟨rfl, rfl⟩ := runs_pure.mp hruns
  exact ⟨hstate, h, [], by simp, rfl⟩

/-- The requests of two steps are made one after the other. -/
theorem asks_bind {step : Lower α} {next : α → Lower β} (h : step.Asks c state actions P)
    (hnext : ∀ value, P value → (next value).Asks c state more Q) :
    (step >>= next).Asks c state (actions ++ more) Q := by
  intro before value after hruns hstate
  obtain ⟨first, middle, hfirst, hrest⟩ := runs_bind.mp hruns
  obtain ⟨hmiddle, hP, added, hadded, hactions⟩ := h hfirst hstate
  obtain ⟨hafter, hQ, further, hfurther, hmore⟩ := hnext first hP hrest hmiddle
  exact ⟨hafter, hQ, added ++ further, by rw [hfurther, hadded, List.append_assoc],
    by rw [listActions_append, hactions, hmore]⟩

/-- A step that asks for nothing, and what is done with its result. -/
theorem asks_silent_bind {step : Lower α} {next : α → Lower β} (h : step.Asks c state [] P)
    (hnext : ∀ value, P value → (next value).Asks c state actions Q) :
    (step >>= next).Asks c state actions Q :=
  asks_bind h hnext

/-- The last step asks for nothing. -/
theorem asks_bind_silent {step : Lower α} {next : α → Lower β} (h : step.Asks c state actions P)
    (hnext : ∀ value, P value → (next value).Asks c state [] Q) :
    (step >>= next).Asks c state actions Q :=
  List.append_nil actions ▸ asks_bind h hnext

/-- A step that only computes a value asks for nothing. -/
theorem asks_annotated {step : Lower α} (h : step.HasEffect c Progress.Annotated) :
    step.Asks c state [] fun _ => True := by
  intro before value after hruns hstate
  have hannotated := h hruns
  exact ⟨hannotated.transaction.trans hstate, trivial, [], by simp [hannotated.output], rfl⟩

theorem asks_read : (read : Lower Context).Asks c state [] fun context => context = c := by
  intro before value after hruns hstate
  obtain ⟨rfl, rfl⟩ := runs_read.mp hruns
  exact ⟨hstate, rfl, [], by simp, rfl⟩

theorem asks_get :
    (get : Lower Progress).Asks c state [] fun progress => progress.transaction = state := by
  intro before value after hruns hstate
  obtain ⟨rfl, rfl⟩ := runs_get.mp hruns
  exact ⟨hstate, hstate, [], by simp, rfl⟩

theorem asks_ofExcept {outcome : Except Fault α} :
    (ofExcept outcome).Asks c state [] fun value => outcome = .ok value := by
  intro before value after hruns hstate
  obtain ⟨hvalue, rfl⟩ := runs_ofExcept.mp hruns
  exact ⟨hstate, hvalue, [], by simp, rfl⟩

/-- A step that never succeeds. -/
theorem asks_of_not_runs {step : Lower α}
    (h : ∀ {before value after}, ¬step.Runs c before value after) : step.Asks c state actions P :=
  fun _ _ _ hruns => absurd hruns h

theorem asks_emit {s : Go.Stmt} : (emit s).Asks c state s.actions fun _ => True := by
  intro before value after hruns hstate
  obtain rfl := runs_emit.mp hruns
  exact ⟨hstate, trivial, [s], rfl, by simp [listActions]⟩

/-- The requests of a block are those of its statements, and are not made yet. -/
theorem asks_block {step : Lower Unit} (h : step.Asks c state actions fun _ => True) :
    (block step).Asks c state [] fun body => listActions body = actions := by
  intro before body after hruns hstate
  obtain ⟨inner, hinner, rfl, rfl⟩ := runs_block.mp hruns
  obtain ⟨hafter, -, added, hadded, hactions⟩ := h hinner hstate
  refine ⟨hafter, ?_, [], (List.append_nil _).symm, rfl⟩
  rw [hadded]
  exact hactions

theorem asks_emitAssign {target : String} {value : Go.Expr} (h : value.actions false = []) :
    (emitAssign target value).Asks c state [] fun _ => True := by
  have hactions : (Go.Stmt.assign (assignTo [.name target] value)).actions = [] := by
    simp [Stmt.actions, Assign.actions, assignTo, exprActions, Expr.actions, h]
  exact hactions ▸ asks_emit

theorem asks_emitIf {init : Option Go.Assign} {test : Go.Expr} {step : Lower Unit}
    (htest : test.actions false = []) (h : step.Asks c state more fun _ => True) :
    (emitIf init test step).Asks c state (initActions test init ++ more) fun _ => True := by
  refine asks_silent_bind (asks_block h) fun body hbody => ?_
  have hactions : (Go.Stmt.branch (.mk init test body) [] none).actions =
      initActions test init ++ more := by
    simp [Stmt.actions, htest, hbody, armActions, elseActions]
  exact hactions ▸ asks_emit

/-! ## Names -/

theorem asks_bindLocal (name : String) (type : Go.TypeExpr) :
    (bindLocal name type).Asks c state [] fun _ => True := by
  intro before define after hruns hstate
  obtain ⟨-, -, rfl⟩ | ⟨-, -, -, rfl⟩ | ⟨-, -, rfl⟩ := runs_bindLocal hruns
  · exact ⟨hstate, trivial, [], by simp, rfl⟩
  · exact ⟨hstate, trivial, [], by simp, rfl⟩
  · exact ⟨hstate, trivial, [_], rfl, rfl⟩

theorem asks_localName (base : String) : (localName base).Asks c state [] fun _ => True := by
  intro before name after hruns hstate
  obtain ⟨-, rfl⟩ := runs_localName hruns
  exact ⟨hstate, trivial, [], by simp, rfl⟩

theorem asks_fresh (base : String) : (fresh base).Asks c state [] fun _ => True := by
  intro before name after hruns hstate
  obtain ⟨_, -, -, rfl⟩ := runs_fresh hruns
  exact ⟨hstate, trivial, [], by simp, rfl⟩

/-! ## Ways out -/

section Body

variable (hexits : c.exits = [])

theorem asks_resultValues {status error : Go.Expr} (hstatus : status.actions false = [])
    (herror : error.actions false = []) :
    (resultValues status error).Asks c state [] fun values => exprActions values = [] := by
  refine asks_silent_bind asks_read fun _ hcontext => ?_
  refine asks_silent_bind asks_get fun progress _ => asks_pure (exprActions_eq_nil ?_)
  intro e he
  simp only [List.mem_append, List.mem_filterMap, List.mem_ite_nil_right, List.mem_singleton] at he
  rcases he with (⟨_, _, he⟩ | ⟨_, rfl⟩) | ⟨_, rfl⟩
  · obtain ⟨symbol, -, rfl⟩ := Option.map_eq_some_iff.mp he
    rfl
  · exact hstatus
  · exact herror

theorem asks_emitReturn {status error : Go.Expr} (hstatus : status.actions false = [])
    (herror : error.actions false = []) :
    (emitReturn status error).Asks c state [] fun _ => True :=
  asks_silent_bind (asks_resultValues hstatus herror) fun values hvalues =>
    (show (Go.Stmt.ret values).actions = [] from hvalues) ▸ asks_emit

include hexits

theorem asks_errorExit : errorExit.Asks c state [] fun _ => True := by
  refine asks_silent_bind asks_read fun context hcontext => ?_
  subst hcontext
  rw [show context.exitScope = .body by simp [Context.exitScope, hexits]]
  exact asks_emitReturn rfl rfl

/-- A guarded call makes the requests of the call. -/
theorem asks_emitGuarded {init : Go.Assign}
    (h : init.actions (init.targets.any Go.Expr.isError) = actions) :
    (emitGuarded init).Asks c state actions fun _ => True := by
  have hinit : initActions failed (some init) ++ [] = actions := by
    rw [initActions, List.append_nil, show failed.isFailureTest = true from rfl, Bool.and_true, h]
  exact hinit ▸ asks_emitIf rfl (asks_errorExit hexits)

theorem asks_emitChecked {success : Lower Unit} (h : success.Asks c state actions fun _ => True) :
    (emitChecked success).Asks c state actions fun _ => True := by
  refine asks_silent_bind (asks_block (asks_errorExit hexits)) fun failure hfailure => ?_
  refine asks_silent_bind asks_read fun context hcontext => ?_
  subst hcontext
  rw [if_neg (by simp [Context.exitScope, hexits])]
  have hactions : (Go.Stmt.branch (.mk none failed failure) [] none).actions = [] := by
    simp [Stmt.actions, hfailure, armActions, elseActions, initActions, failed, err, Expr.actions]
  exact asks_silent_bind (hactions ▸ asks_emit) fun _ _ => h

end Body

/-! ## Data calls -/

/-- What is bound in query text asks for nothing. -/
theorem actions_answer {p : Progress} {reference : Reference} {arg : Go.Expr}
    (h : (queryArgs c p).Answers reference arg) : arg.actions false = [] := by
  obtain ⟨hlookup⟩ | ⟨hglobal⟩ | ⟨hfunction⟩ := h
  · obtain ⟨symbol, -, rfl⟩ := map_eq_ok.mp hlookup
    rfl
  next var =>
    cases var with
    | tranCount =>
      cases hglobal
      unfold tranCountCode
      split <;> rfl
    | fetchStatus => cases hglobal
    | _ =>
      cases hglobal
      rfl
  · simp only [queryArgs] at hfunction
    split at hfunction
    · cases hfunction
      rfl
    · obtain ⟨value, hvalue, hok⟩ := Option.map_eq_some_iff.mp hfunction
      cases hok
      unfold errorIntrinsic? at hvalue
      split at hvalue
      · split at hvalue <;> cases hvalue <;> rfl
      all_goals cases hvalue
      all_goals rfl

/-- The arguments of a query ask for nothing. -/
theorem asks_renderQuery (statement : DataStatement) :
    (renderQuery statement.query).Asks c state [] fun query => exprActions query.args = [] := by
  refine asks_silent_bind asks_read fun context _ => asks_silent_bind asks_get fun p _ => ?_
  refine asks_silent_bind asks_ofExcept fun query hquery => ?_
  have hargs : exprActions query.args = [] := exprActions_eq_nil fun arg harg =>
    have ⟨_, _, _, _, hanswer⟩ := DataStatement.exists_answers_of_mem_args hquery harg
    actions_answer hanswer
  dsimp only
  split
  · exact asks_silent_bind (asks_annotated hasEffect_importRuntime) fun _ _ => asks_pure hargs
  · exact asks_pure hargs

/-- The handle is that of the transaction when one is open. -/
theorem asks_handle : handle.Asks c state [] fun owner =>
    owner = .name (sqlHandle c.survey.usesDb state) := by
  refine asks_silent_bind asks_read fun context hcontext => ?_
  refine asks_silent_bind asks_get fun p hp => asks_pure ?_
  rw [hcontext, hp]

/-- A data call makes one request, to the handle that it is a method of. -/
theorem actions_dataCall {checked : Bool} (id method : String) {query : Query Go.Expr}
    (hargs : exprActions query.args = []) :
    (dataCall (.name id) method query).actions checked = [.query id] := by
  simp [dataCall, Expr.invoke, Expr.actions, callActions, exprActions, ctx, hargs, Expr.render]

theorem exprActions_addresses (targets : List String) : exprActions (addresses targets) = [] := by
  refine exprActions_eq_nil fun e he => ?_
  obtain ⟨target, -, rfl⟩ := List.mem_map.mp he
  rfl

/-- A row of a query that is read into variables is one request. -/
theorem actions_scan {checked : Bool} (id : String) {query : Query Go.Expr}
    (hargs : exprActions query.args = []) (targets : List String) :
    (assignTo [err] (.invoke (dataCall (.name id) "QueryRowContext" query) "Scan"
      (addresses targets))).actions checked = [.query id] := by
  have hscan : (Go.Expr.invoke (dataCall (.name id) "QueryRowContext" query) "Scan"
      (addresses targets)).actions checked = [.query id] := by
    rw [actions_invoke (by decide) fun sql hsql => by simp [addresses] at hsql,
      actions_dataCall id _ hargs, exprActions_addresses, List.append_nil]
  simp [Assign.actions, assignTo, exprActions, Expr.actions, err, hscan]

section Body

variable (hexits : c.exits = [])
include hexits

theorem asks_emitScan {query : Query Go.Expr} (hargs : exprActions query.args = [])
    (targets : List String) (trackRows : Bool) :
    (emitScan query targets trackRows).Asks c state
      [.query (sqlHandle c.survey.usesDb state)] fun _ => True := by
  refine asks_silent_bind asks_handle fun owner howner => ?_
  subst howner
  refine asks_silent_bind (asks_annotated (hasEffect_importPath _)) fun _ _ => ?_
  refine asks_silent_bind (asks_annotated (hasEffect_importPath _)) fun _ _ => ?_
  have hmissing : (do
      emit (.assign (assignTo [err] .nil))
      if trackRows then
        emitAssign "rowCount" (.int 0) : Lower Unit).Asks c state [] fun _ => True := by
    refine asks_silent_bind asks_emit fun _ _ => ?_
    split
    · exact asks_emitAssign rfl
    · exact asks_pure trivial
  refine asks_silent_bind (asks_block hmissing) fun missing hmissing => ?_
  refine asks_silent_bind (asks_block (asks_errorExit hexits)) fun failure hfailure => ?_
  have hbranch (otherwise : Option (List Go.Stmt)) (h : elseActions otherwise = []) :
      (Go.Stmt.branch (.mk (some (assignTo [err] (.invoke
        (dataCall (.name (sqlHandle c.survey.usesDb state)) "QueryRowContext" query) "Scan"
          (addresses targets)))) (.invoke (.name "errors") "Is"
            [err, .member (.name "sql") "ErrNoRows"]) missing) [.mk none failed failure]
        otherwise).actions = [.query (sqlHandle c.survey.usesDb state)] := by
    simp only [Stmt.actions, initActions, armActions, actions_scan _ hargs, hmissing, hfailure, h]
    rfl
  split
  · refine asks_silent_bind (asks_block (asks_emitAssign rfl)) fun found hfound => ?_
    exact hbranch (some found) hfound ▸ asks_emit
  · exact hbranch none rfl ▸ asks_emit

theorem asks_emitExec {query : Query Go.Expr} (hargs : exprActions query.args = [])
    (identity : Bool) :
    (emitExec query identity).Asks c state [.query (sqlHandle c.survey.usesDb state)]
      fun _ => True := by
  refine asks_silent_bind asks_handle fun owner howner => ?_
  subst howner
  refine asks_silent_bind asks_read fun context hcontext => ?_
  subst hcontext
  have hassign (target : String) (define checked : Bool) :
      (Go.Assign.mk [.name target, err] define (dataCall
        (.name (sqlHandle context.survey.usesDb state)) "ExecContext" query)).actions checked =
        [.query (sqlHandle context.survey.usesDb state)] := by
    simp [Assign.actions, actions_dataCall _ _ hargs, exprActions, Expr.actions, err]
  dsimp only
  split
  · exact asks_emitGuarded hexits (hassign _ _ _)
  · refine asks_silent_bind (asks_annotated (hasEffect_importPath _)) fun _ _ => ?_
    refine asks_silent_bind (asks_localName _) fun result _ => ?_
    refine asks_silent_bind (asks_bindLocal _ _) fun define _ => ?_
    have hcall : (emit (.assign ⟨[.name result, err], define, dataCall
        (.name (sqlHandle context.survey.usesDb state)) "ExecContext" query⟩)).Asks context state
          [.query (sqlHandle context.survey.usesDb state)] fun _ => True := by
      rw [← hassign result define false]
      exact asks_emit
    refine asks_bind_silent hcall fun _ _ => ?_
    refine asks_emitChecked hexits ?_
    have hkeep (target method : String) (h : method ∉ controlMethods) :
        (emit (.assign (assignTo [.name target, .name "_"]
          (.invoke (.name result) method [])))).Asks context state [] fun _ => True := by
      have hactions : (Go.Stmt.assign (assignTo [.name target, .name "_"]
          (.invoke (.name result) method []))).actions = [] := by
        simp [Stmt.actions, Assign.actions, assignTo, exprActions, Expr.actions,
          actions_invoke h fun _ => List.not_mem_nil]
      exact hactions ▸ asks_emit
    split
    · refine asks_silent_bind (hkeep _ _ (by decide)) fun _ _ => ?_
      split
      · exact hkeep _ _ (by decide)
      · exact asks_pure trivial
    · split
      · exact hkeep _ _ (by decide)
      · exact asks_pure trivial

end Body

end Lower

end Sproc
