import Sproc.Proofs.Go.Event
import Sproc.Proofs.Lower.Stocking

/-!
# What steps send

The code of a data statement reaches its backend: the database by query text, a client or the store
by messages. A triple says of a step which events the code has that it writes. The steps here leave
the cursors alone and make no choice of a backend; those that do are put together from them.

## Main definitions

* `Lower.Sends`: a step writes code with the given events
* `Backend.events`: how a backend is reached

## Main results

* `sends_bind`, `sends_block`: sequences and blocks
* `sends_emitExec`, `sends_emitScan`: calls of the database
* `sends_emitCall`, `sends_emitCallWith`, `sends_requestRows`: messages
* `sends_lowerQuery`, `sends_callDatabase`, `sends_requestSelect`, `sends_requestInsert`,
  `sends_requestUpdate`, `sends_requestDelete`, `sends_requestExec`, `sends_requestExists`:
  statements on a backend
-/

namespace Sproc

open Go

/-- How a backend is reached: by query text, or by messages to the store or to a client. -/
def Backend.events (config : Config) (client : ClientRef) (messages : Nat) : Backend → List Event
  | .sql => [.query]
  | .mock => List.replicate messages (.request "store" config.mockPackage.aliasName)
  | .rpc => List.replicate messages (.request client.var config.rpcPackage.aliasName)

namespace Lower

variable {α β : Type} {c : Context}

/-! ## Code and its events -/

/-- A step writes code with the given events. It leaves the cursors alone, no backend is forced on
it, and its result is as `P` says. -/
def Sends (step : Lower α) (c : Context) (events : List Event) (P : α → Prop) : Prop :=
  ∀ ⦃before value after⦄, step.Runs c before value after →
    after.cursors = before.cursors ∧ forcings after.warnings = forcings before.warnings ∧
      P value ∧ ∃ added, after.output = before.output ++ added ∧ listEvents added = events

section Sends

variable {P : α → Prop} {Q : β → Prop} {events later : List Event}

theorem Sends.mono {step : Lower α} {P' : α → Prop} (h : step.Sends c events P)
    (hP : ∀ value, P value → P' value) : step.Sends c events P' := by
  intro before value after hruns
  obtain ⟨hcursors, hforcings, hvalue, hadded⟩ := h hruns
  exact ⟨hcursors, hforcings, hP value hvalue, hadded⟩

theorem sends_pure {value : α} (h : P value) : (pure value : Lower α).Sends c [] P := by
  intro before value' after hruns
  obtain ⟨rfl, rfl⟩ := runs_pure.mp hruns
  exact ⟨rfl, rfl, h, [], (List.append_nil _).symm, rfl⟩

/-- The events of two steps happen one after the other. -/
theorem sends_bind {step : Lower α} {next : α → Lower β} (h : step.Sends c events P)
    (hnext : ∀ value, P value → (next value).Sends c later Q) :
    (step >>= next).Sends c (events ++ later) Q := by
  intro before value after hruns
  obtain ⟨first, middle, hfirst, hrest⟩ := runs_bind.mp hruns
  obtain ⟨hcursors, hforcings, hP, added, houtput, hevents⟩ := h hfirst
  obtain ⟨hcursors', hforcings', hQ, more, hmore, hlater⟩ := hnext first hP hrest
  refine ⟨hcursors'.trans hcursors, hforcings'.trans hforcings, hQ, added ++ more, ?_, ?_⟩
  · rw [hmore, houtput, List.append_assoc]
  · rw [listEvents_append, hevents, hlater]

/-- A first step without events. -/
theorem sends_first_bind {step : Lower α} {next : α → Lower β} (h : step.Sends c [] P)
    (hnext : ∀ value, P value → (next value).Sends c events Q) :
    (step >>= next).Sends c events Q :=
  sends_bind h hnext

/-- A last step without events. -/
theorem sends_bind_last {step : Lower α} {next : α → Lower β} (h : step.Sends c events P)
    (hnext : ∀ value, P value → (next value).Sends c [] Q) : (step >>= next).Sends c events Q :=
  List.append_nil events ▸ sends_bind h hnext

/-- What is done with the context is done with the one at hand. -/
theorem sends_read_bind {next : Context → Lower α} (h : (next c).Sends c events P) :
    (read >>= next).Sends c events P := by
  intro before value after hruns
  obtain ⟨_, _, hread, hnext⟩ := runs_bind.mp hruns
  obtain ⟨rfl, rfl⟩ := runs_read.mp hread
  exact h hnext

theorem sends_get_bind {next : Progress → Lower α} (h : ∀ p, (next p).Sends c events P) :
    (get >>= next).Sends c events P := by
  intro before value after hruns
  obtain ⟨_, _, hget, hnext⟩ := runs_bind.mp hruns
  obtain ⟨rfl, rfl⟩ := runs_get.mp hget
  exact h _ hnext

/-- A step that never succeeds. -/
theorem sends_of_not_runs {step : Lower α}
    (h : ∀ {before value after}, ¬step.Runs c before value after) : step.Sends c events P :=
  fun _ _ _ hruns => absurd hruns h

/-- What stands behind a failure is never done. -/
theorem sends_when {test : Prop} [Decidable test] {stop : Lower β} {next : Lower α}
    (hstop : ∀ {before value after}, ¬stop.Runs c before value after)
    (h : next.Sends c events P) :
    (if test then stop >>= fun _ => next else next).Sends c events P := by
  split
  · refine sends_of_not_runs fun hruns => ?_
    obtain ⟨_, _, hfailure, -⟩ := runs_bind.mp hruns
    exact hstop hfailure
  · exact h

/-- A step without events that is only taken at times. -/
theorem sends_perhaps {test : Prop} [Decidable test] {step : Lower β} {next : Lower α}
    (hstep : step.Sends c [] fun _ => True) (h : next.Sends c events P) :
    (if test then step >>= fun _ => next else next).Sends c events P := by
  split
  · exact sends_first_bind hstep fun _ _ => h
  · exact h

theorem sends_ofExcept {outcome : Except Fault α} (h : ∀ value, outcome = .ok value → P value) :
    (ofExcept outcome).Sends c [] P := by
  cases outcome with
  | ok value => exact sends_pure (h value rfl)
  | error fault => exact sends_of_not_runs not_runs_fail

/-- A step that only computes a value. -/
theorem sends_computed {step : Lower α} (h : step.HasEffect c Progress.Computed) :
    step.Sends c [] fun _ => True := by
  intro before value after hruns
  have hcomputed := h hruns
  refine ⟨hcomputed.cursors, hcomputed.forcings, trivial, [], ?_, rfl⟩
  rw [hcomputed.output, List.append_nil]

/-- A step that only computes a value, of which something is known. -/
theorem sends_value {step : Lower α} (h : step.HasEffect c Progress.Computed)
    (hvalue : step.DrawsOn .everything c True P) : step.Sends c [] P := by
  intro before value after hruns
  obtain ⟨hcursors, hforcings, -, hadded⟩ := sends_computed h hruns
  exact ⟨hcursors, hforcings, hvalue.holds hruns, hadded⟩

/-- A change that concerns neither cursors nor warnings nor what is written. -/
theorem sends_modify {change : Progress → Progress}
    (hcursors : ∀ p, (change p).cursors = p.cursors) (houtput : ∀ p, (change p).output = p.output)
    (hwarnings : ∀ p, (change p).warnings = p.warnings) :
    (modify change : Lower PUnit).Sends c [] fun _ => True := by
  intro before value after hruns
  obtain rfl := runs_modify.mp hruns
  refine ⟨hcursors before, ?_, trivial, [], ?_, rfl⟩
  · rw [hwarnings]
  · rw [houtput, List.append_nil]

theorem sends_emit {s : Stmt} (h : s.events = events) : (emit s).Sends c events fun _ => True := by
  intro before value after hruns
  obtain rfl := runs_emit.mp hruns
  exact ⟨rfl, rfl, trivial, [s], rfl, by simp [h]⟩

/-- A block is not written yet. -/
theorem sends_block {step : Lower Unit} (h : step.Sends c events fun _ => True) :
    (block step).Sends c [] fun body => listEvents body = events := by
  intro before body after hruns
  obtain ⟨inner, hinner, rfl, rfl⟩ := runs_block.mp hruns
  obtain ⟨hcursors, hforcings, -, added, houtput, hevents⟩ := h hinner
  obtain rfl : inner.output = added := houtput
  exact ⟨hcursors, hforcings, hevents, [], (List.append_nil _).symm, rfl⟩

end Sends

/-! ## Names -/

theorem sends_bindLocal (name : String) (type : Go.TypeExpr) :
    (bindLocal name type).Sends c [] fun _ => True := by
  intro before define after hruns
  obtain ⟨-, -, rfl⟩ | ⟨-, -, -, rfl⟩ | ⟨-, -, rfl⟩ := runs_bindLocal hruns
  · exact ⟨rfl, rfl, trivial, [], (List.append_nil _).symm, rfl⟩
  · exact ⟨rfl, rfl, trivial, [], (List.append_nil _).symm, rfl⟩
  · exact ⟨rfl, rfl, trivial, [_], rfl, rfl⟩

theorem sends_fresh (base : String) : (fresh base).Sends c [] fun _ => True := by
  intro before name after hruns
  obtain ⟨_, -, -, rfl⟩ := runs_fresh hruns
  exact ⟨rfl, rfl, trivial, [], (List.append_nil _).symm, rfl⟩

theorem sends_declare (name type : String) (kind : SymbolKind) :
    (declare name type kind).Sends c [] fun _ => True := by
  intro before symbol after hruns
  obtain ⟨symbols, -, rfl⟩ := runs_declare.mp hruns
  exact ⟨rfl, rfl, trivial, [], (List.append_nil _).symm, rfl⟩

theorem sends_setTransaction (transaction : TransactionState) :
    (setTransaction transaction).Sends c [] fun _ => True :=
  sends_modify (fun _ => rfl) (fun _ => rfl) fun _ => rfl

/-! ## Conditionals and ways out -/

variable {events : List Event}

theorem sends_emitAssign {target : String} {value : Go.Expr} (h : value.events = events) :
    (emitAssign target value).Sends c events fun _ => True :=
  sends_emit (by simp [assignTo, h])

theorem sends_emitIf {init : Option Go.Assign} {test : Go.Expr} {step : Lower Unit}
    (h : step.Sends c events fun _ => True) :
    (emitIf init test step).Sends c (initEvents init ++ (test.events ++ events)) fun _ => True :=
  sends_first_bind (sends_block h) fun body hbody => sends_emit (by simp [hbody])

theorem sends_resultValues {status error : Go.Expr} (hstatus : status.events = [])
    (herror : error.events = []) :
    (resultValues status error).Sends c [] fun values => exprEvents values = [] := by
  refine sends_read_bind (sends_get_bind fun p => sends_pure (exprEvents_eq_nil ?_))
  intro e he
  simp only [List.mem_append, List.mem_filterMap, List.mem_ite_nil_right, List.mem_singleton] at he
  rcases he with (⟨_, _, he⟩ | ⟨_, rfl⟩) | ⟨_, rfl⟩
  · obtain ⟨symbol, -, rfl⟩ := Option.map_eq_some_iff.mp he
    rfl
  · exact hstatus
  · exact herror

theorem sends_emitReturn {status error : Go.Expr} (hstatus : status.events = [])
    (herror : error.events = []) : (emitReturn status error).Sends c [] fun _ => True :=
  sends_first_bind (sends_resultValues hstatus herror) fun _ hvalues => sends_emit hvalues

/-- A line that calls a function of a package. -/
theorem sends_emitLine {path : String} {call : Go.Expr} (h : call.events = []) :
    (do
      importPath path
      emit (.run call) : Lower Unit).Sends c [] fun _ => True :=
  sends_first_bind (sends_computed (hasEffect_importPath _)) fun _ _ => sends_emit h

theorem sends_emitAcknowledge : emitAcknowledge.Sends c [] fun _ => True := by
  refine sends_read_bind ?_
  dsimp only
  split
  · exact sends_emitLine rfl
  · exact sends_emitLine rfl

theorem sends_errorExit : errorExit.Sends c [] fun _ => True := by
  refine sends_read_bind ?_
  cases c.exitScope with
  | body => exact sends_emitReturn rfl rfl
  | tryHalf => exact sends_emit rfl
  | catchHalf => exact sends_first_bind sends_emitAcknowledge fun _ _ => sends_emit rfl

theorem sends_emitGuarded {init : Go.Assign} (h : init.events = events) :
    (emitGuarded init).Sends c events fun _ => True := by
  have hguard : (emitGuarded init).Sends c (init.events ++ ([] ++ [])) fun _ => True :=
    sends_emitIf sends_errorExit
  rwa [List.append_nil, List.append_nil, h] at hguard

theorem sends_emitChecked {success : Lower Unit} (h : success.Sends c events fun _ => True) :
    (emitChecked success).Sends c events fun _ => True := by
  refine sends_first_bind (sends_block sends_errorExit) fun failure hfailure => sends_read_bind ?_
  split
  · exact sends_first_bind (sends_block h) fun rest hrest =>
      sends_emit (by simp [failed, err, hfailure, hrest])
  · exact sends_first_bind (sends_emit (by simp [failed, err, hfailure])) fun _ _ => h

/-- A call whose error is kept beside its result. -/
theorem events_assignTo (target : String) (call : Go.Expr) :
    (assignTo [.name target, err] call).events = call.events := by
  simp [assignTo, err]

/-! ## The database -/

/-- What is bound in query text has no events. -/
theorem events_answer {p : Progress} {reference : Reference} {arg : Go.Expr}
    (h : (queryArgs c p).Answers reference arg) : arg.events = [] := by
  obtain ⟨hlookup⟩ | ⟨hglobal⟩ | ⟨hfunction⟩ := h
  · obtain ⟨symbol, -, rfl⟩ := map_eq_ok.mp hlookup
    rfl
  next var =>
    cases var with
    | tranCount =>
      cases hglobal
      unfold tranCountCode
      split <;> rfl
    | fetchStatus => cases hglobal
    | _ =>
      cases hglobal
      rfl
  · simp only [queryArgs] at hfunction
    split at hfunction
    · cases hfunction
      rfl
    · obtain ⟨value, hvalue, hok⟩ := Option.map_eq_some_iff.mp hfunction
      cases hok
      unfold errorIntrinsic? at hvalue
      split at hvalue
      · split at hvalue <;> cases hvalue <;> rfl
      all_goals cases hvalue
      all_goals rfl

theorem sends_renderQuery (statement : DataStatement) :
    (renderQuery statement.query).Sends c [] fun query => exprEvents query.args = [] := by
  refine sends_read_bind (sends_get_bind fun p => ?_)
  refine sends_first_bind (sends_ofExcept fun _ => id) fun query hquery => ?_
  have hargs : exprEvents query.args = [] := exprEvents_eq_nil fun arg harg =>
    have ⟨_, _, _, _, hanswer⟩ := DataStatement.exists_answers_of_mem_args hquery harg
    events_answer hanswer
  dsimp only
  split
  · exact sends_first_bind (sends_computed hasEffect_importRuntime) fun _ _ => sends_pure hargs
  · exact sends_pure hargs

theorem sends_handle : handle.Sends c [] fun owner => ∃ id, owner = .name id :=
  sends_read_bind (sends_get_bind fun _ => sends_pure ⟨_, rfl⟩)

/-- A data call sends its query. -/
theorem events_dataCall {id method : String} (hstream : method ≠ streamMethod)
    (hmethod : method ∉ iteratorMethods) {query : Query Go.Expr}
    (hargs : exprEvents query.args = []) :
    (dataCall (.name id) method query).events = [.query] := by
  simp [dataCall, Expr.invoke, request?, memberEvents_eq_nil hstream hmethod, ctx, hargs]

/-- A data call that yields rows starts a stream. -/
theorem events_dataCall_stream (id : String) {query : Query Go.Expr}
    (hargs : exprEvents query.args = []) :
    (dataCall (.name id) "QueryContext" query).events = [.stream, .query] := by
  simp [dataCall, Expr.invoke, request?, memberEvents, streamMethod, ctx, hargs]

theorem exprEvents_addresses (targets : List String) : exprEvents (addresses targets) = [] := by
  refine exprEvents_eq_nil fun e he => ?_
  obtain ⟨target, -, rfl⟩ := List.mem_map.mp he
  rfl

/-- A row of a query that is read into variables. -/
theorem events_scan (id : String) {query : Query Go.Expr} (hargs : exprEvents query.args = [])
    (targets : List String) :
    (assignTo [err] (.invoke (dataCall (.name id) "QueryRowContext" query) "Scan"
      (addresses targets))).events = [.query] := by
  have hrow : (dataCall (.name id) "QueryRowContext" query).events = [.query] :=
    events_dataCall (by decide) (by decide) hargs
  have hmember : memberEvents (dataCall (.name id) "QueryRowContext" query) "Scan" = [] := rfl
  have hrequest : request? (.member (dataCall (.name id) "QueryRowContext" query) "Scan")
      (addresses targets) = none := rfl
  simp [assignTo, err, Expr.invoke, hrequest, hmember, hrow, exprEvents_addresses]

theorem sends_emitScan {query : Query Go.Expr} (hargs : exprEvents query.args = [])
    (targets : List String) (trackRows : Bool) :
    (emitScan query targets trackRows).Sends c [.query] fun _ => True := by
  refine sends_first_bind sends_handle fun owner howner => ?_
  obtain ⟨id, rfl⟩ := howner
  refine sends_first_bind (sends_computed (hasEffect_importPath _)) fun _ _ => ?_
  refine sends_first_bind (sends_computed (hasEffect_importPath _)) fun _ _ => ?_
  have hmissing : (do
      emit (.assign (assignTo [err] .nil))
      if trackRows then
        emitAssign "rowCount" (.int 0) : Lower Unit).Sends c [] fun _ => True := by
    refine sends_first_bind (sends_emit rfl) fun _ _ => ?_
    split
    · exact sends_emitAssign rfl
    · exact sends_pure trivial
  refine sends_first_bind (sends_block hmissing) fun missing hmissing => ?_
  refine sends_first_bind (sends_block sends_errorExit) fun failure hfailure => ?_
  have hbranch (otherwise : Option (List Go.Stmt)) (h : elseEvents otherwise = []) :
      (Go.Stmt.branch (.mk (some (assignTo [err] (.invoke
        (dataCall (.name id) "QueryRowContext" query) "Scan" (addresses targets))))
        (.invoke (.name "errors") "Is" [err, .member (.name "sql") "ErrNoRows"]) missing)
        [.mk none failed failure] otherwise).events = [.query] := by
    rw [Stmt.events, initEvents_some, events_scan id hargs targets, hmissing, armEvents, hfailure,
      h]
    rfl
  split
  · exact sends_first_bind (sends_block (sends_emitAssign rfl)) fun found hfound =>
      sends_emit (hbranch (some found) hfound)
  · exact sends_emit (hbranch none rfl)

theorem sends_emitExec {query : Query Go.Expr} (hargs : exprEvents query.args = [])
    (identity : Bool) : (emitExec query identity).Sends c [.query] fun _ => True := by
  refine sends_first_bind sends_handle fun owner howner => sends_read_bind ?_
  obtain ⟨id, rfl⟩ := howner
  have hcall : (dataCall (.name id) "ExecContext" query).events = [.query] :=
    events_dataCall (by decide) (by decide) hargs
  dsimp only
  split
  · exact sends_emitGuarded ((events_assignTo _ _).trans hcall)
  · refine sends_first_bind (sends_computed (hasEffect_importPath _)) fun _ _ => ?_
    refine sends_first_bind (sends_computed (hasEffect_localName _)) fun result _ => ?_
    refine sends_first_bind (sends_bindLocal _ _) fun define _ => ?_
    have hassign : (emit (.assign ⟨[.name result, err], define,
        dataCall (.name id) "ExecContext" query⟩)).Sends c [.query] fun _ => True :=
      sends_emit (by simp [err, hcall])
    refine sends_bind_last hassign fun _ _ => sends_emitChecked ?_
    have hkeep (target method : String) (hstream : method ≠ streamMethod)
        (hmethod : method ∉ iteratorMethods) :
        (emit (.assign (assignTo [.name target, .name "_"]
          (.invoke (.name result) method [])))).Sends c [] fun _ => True :=
      sends_emit (by simp [assignTo, Expr.invoke, request?, memberEvents_eq_nil hstream hmethod])
    split
    · refine sends_first_bind (hkeep _ _ (by decide) (by decide)) fun _ _ => ?_
      split
      · exact hkeep _ _ (by decide) (by decide)
      · exact sends_pure trivial
    · split
      · exact hkeep _ _ (by decide) (by decide)
      · exact sends_pure trivial

/-- A call of a runtime helper sends what its arguments send. -/
theorem sends_runtimeCall {function : String} {args : List Go.Expr}
    (hstream : function ≠ streamMethod) (hmethod : function ∉ iteratorMethods)
    (hrequest : request? (.member (.name "tsqlrt") function) args = none) :
    (runtimeCall function args).Sends c [] fun call => call.events = exprEvents args :=
  sends_first_bind (sends_computed hasEffect_importRuntime) fun _ _ =>
    sends_pure (Expr.events_invoke hstream hmethod hrequest)

/-- A query over a table on the database. -/
theorem sends_lowerQuery (query : Select) : (lowerQuery query).Sends c [.query] fun _ => True := by
  refine sends_first_bind (sends_renderQuery (.select query)) fun rendered hargs => ?_
  refine sends_read_bind ?_
  dsimp only
  split
  · refine sends_when not_runs_unsupported ?_
    refine sends_first_bind (sends_computed (hasEffect_goNames _)) fun targets _ => ?_
    exact sends_emitScan hargs targets _
  · refine sends_first_bind sends_handle fun owner howner => ?_
    obtain ⟨id, rfl⟩ := howner
    have hplain : ∀ sink ∈ ["EmitRow", "EmitRows"],
        sink ≠ streamMethod ∧ sink ∉ iteratorMethods := by
      decide
    obtain ⟨hstream, hmethod⟩ := hplain (if query.isSingleRow then "EmitRow" else "EmitRows")
      (by split <;> simp)
    refine sends_first_bind (sends_runtimeCall hstream hmethod rfl) fun call hcall => ?_
    refine sends_emitGuarded ((events_assignTo _ _).trans (hcall.trans ?_))
    simp [ctx, hargs]

/-- A procedure call on the database. -/
theorem sends_callDatabase (exec : Exec) : (callDatabase exec).Sends c [.query] fun _ => True := by
  refine sends_first_bind (sends_renderQuery (.exec exec)) fun query hargs => ?_
  refine sends_first_bind (sends_computed (hasEffect_outputTargets _)) fun outputs _ => ?_
  have hstatus (status message : String) : (do
      let symbol ← lookup status
      warn .approximation message
      emitAssign symbol.goName (.zero symbol.type.go) : Lower Unit).Sends c [] fun _ => True := by
    refine sends_first_bind (sends_computed (hasEffect_lookup _)) fun symbol _ => ?_
    exact sends_first_bind (sends_computed (hasEffect_warn _ _ (by decide))) fun _ _ => sends_emitAssign rfl
  dsimp only
  split
  · refine sends_bind_last (sends_emitExec hargs _) fun _ _ => ?_
    split
    · exact sends_pure trivial
    · exact hstatus _ _
  · refine sends_bind_last (sends_emitScan hargs _ _) fun _ _ => ?_
    split
    · exact sends_pure trivial
    · exact hstatus _ _

/-! ## Messages -/

/-- Fields are filled with values, which have no events. -/
theorem fieldEvents_of_hasFields {stock : Stock} {fields : Fields} (h : HasFields stock fields) :
    fieldEvents fields = [] :=
  fieldEvents_eq_nil fun field hfield => (h field hfield).events_eq_nil

theorem sends_filterFields (filter : Option Expr) :
    (filterFields filter).Sends c [] (HasFields .everything) :=
  sends_value (hasEffect_filterFields _) (drawsOn_filterFields Stock.own_everything _)

theorem sends_addFields (part : String) (columns : List (String × Expr)) {fields : Fields}
    (hfields : HasFields .everything fields) :
    (addFields part fields columns).Sends c [] (HasFields .everything) :=
  sends_value (hasEffect_addFields _ _ _)
    (drawsOn_addFields Stock.own_everything _ _ fun _ => hfields)

theorem sends_mockPackage :
    mockPackage.Sends c [] fun package => package = c.config.mockPackage.aliasName := by
  refine sends_read_bind ?_
  exact sends_first_bind (sends_computed (hasEffect_importSpec _)) fun _ _ => sends_pure rfl

theorem sends_rpcPackage :
    rpcPackage.Sends c [] fun package => package = c.config.rpcPackage.aliasName := by
  refine sends_read_bind ?_
  exact sends_first_bind (sends_computed (hasEffect_importSpec _)) fun _ _ => sends_pure rfl

/-- The call of a method sends one message. -/
theorem sends_remoteCall {backend : Backend} (hbackend : backend ≠ .sql) (client : ClientRef)
    (method : String) {fields : Fields} (hfields : HasFields .everything fields) :
    (remoteCall backend client method fields).Sends c [] fun call =>
      call.1.events = backend.events c.config client 1 := by
  have hcall (receiver package : String) : (Go.Expr.invoke (.name receiver) method
      [ctx, .message package (method ++ "Request") fields]).events =
        [.request receiver package] := by
    simp [Expr.invoke, request?, ctx, fieldEvents_of_hasFields hfields]
  unfold remoteCall
  dsimp only
  split
  next hmock =>
    subst hmock
    refine sends_first_bind sends_mockPackage fun package hpackage => ?_
    subst hpackage
    exact sends_first_bind (sends_pure (P := fun found => found = _) rfl) fun found hfound =>
      sends_pure (hfound ▸ hcall _ _)
  next hmock =>
    obtain rfl : backend = .rpc := by
      cases backend with
      | sql => exact absurd rfl hbackend
      | mock => exact absurd rfl hmock
      | rpc => rfl
    refine sends_first_bind sends_rpcPackage fun package hpackage => ?_
    subst hpackage
    exact sends_first_bind (sends_pure (P := fun found => found = _) rfl) fun found hfound =>
      sends_pure (hfound ▸ hcall _ _)

section Requests

variable {backend : Backend} (hbackend : backend ≠ .sql)

include hbackend

/-- A call whose response is handed to what follows. -/
theorem sends_emitCallWith (client : ClientRef) (method : String) {fields : Fields}
    (hfields : HasFields .everything fields) {onResponse : Go.Expr → Lower Unit}
    (h : ∀ id, (onResponse (.name id)).Sends c [] fun _ => True) :
    (emitCallWith backend client method fields onResponse).Sends c
      (backend.events c.config client 1) fun _ => True := by
  refine sends_first_bind (sends_remoteCall hbackend client method hfields) fun call hcall => ?_
  obtain ⟨call, package⟩ := call
  refine sends_first_bind (sends_computed (hasEffect_localName _)) fun response _ => ?_
  refine sends_first_bind (sends_bindLocal _ _) fun define _ => ?_
  have hassign : (emit (.assign ⟨[.name response, err], define, call⟩)).Sends c
      (backend.events c.config client 1) fun _ => True :=
    sends_emit (by simpa [err] using hcall)
  exact sends_bind_last hassign fun _ _ => sends_emitChecked (h response)

omit hbackend in
theorem sends_emitOneRow : emitOneRow.Sends c [] fun _ => True :=
  sends_emitAssign rfl

/-- A call whose response is dropped. -/
theorem sends_emitCall (client : ClientRef) (method : String) {fields : Fields}
    (hfields : HasFields .everything fields) :
    (emitCall backend client method fields).Sends c (backend.events c.config client 1)
      fun _ => True := by
  refine sends_first_bind (sends_remoteCall hbackend client method hfields) fun call hcall => ?_
  have hinit := (events_assignTo "_" call.1).trans hcall
  refine sends_read_bind ?_
  split
  · exact sends_bind_last (sends_emit hinit) fun _ _ => sends_emitChecked sends_emitOneRow
  · exact sends_emitGuarded hinit

omit hbackend in
/-- The accessor of a field is no method of an iterator. -/
theorem events_response (id field : String) :
    (Go.Expr.invoke (.name id) ("Get" ++ field) []).events = [] := by
  have hfirst : ("Get" ++ field).toList.head? = some 'G' := by simp
  have hapart : ∀ method ∈ streamMethod :: iteratorMethods, method.toList.head? ≠ some 'G' := by
    decide
  have hne (method : String) (hmem : method ∈ streamMethod :: iteratorMethods) :
      "Get" ++ field ≠ method := by
    rintro rfl
    exact hapart _ hmem hfirst
  rw [Expr.events_invoke (hne _ List.mem_cons_self)
    (fun hmem => hne _ (List.mem_cons_of_mem _ hmem) rfl) rfl]
  rfl

omit hbackend in
theorem sends_emitReads (id : String) (reads : Reads) :
    (emitReads (.name id) reads).Sends c [] fun _ => True := by
  induction reads with
  | nil => exact sends_pure trivial
  | cons read rest ih =>
    exact sends_first_bind (sends_emitAssign (events_response _ _)) fun _ _ => ih

omit hbackend in
/-- The client of a table serves it. -/
theorem sends_tableMethod (table : TableRef) (kind : DmlKind) (single : Bool) :
    (tableMethod table kind single).Sends c [] fun found => found.1 = c.config.clientOf table :=
  sends_read_bind (sends_pure rfl)

theorem sends_requestSelect (query : Select) (table : TableRef) :
    (requestSelect backend query table).Sends c
      (backend.events c.config (c.config.clientOf table) 1) fun _ => True := by
  refine sends_first_bind (sends_computed (hasEffect_warnJoins _)) fun _ _ => ?_
  refine sends_first_bind (sends_tableMethod _ _ _) fun found hfound => ?_
  obtain ⟨client, method⟩ := found
  obtain rfl : client = _ := hfound
  refine sends_first_bind (sends_filterFields _) fun fields hfields => ?_
  split
  · refine sends_first_bind (sends_computed (hasEffect_itemReads _)) fun reads _ => ?_
    refine sends_emitCallWith hbackend _ _ hfields fun id => ?_
    refine sends_first_bind (sends_emitReads id reads) fun _ _ => sends_read_bind ?_
    split
    · exact sends_emitOneRow
    · exact sends_pure trivial
  · refine sends_emitCallWith hbackend _ _ hfields fun id => ?_
    exact sends_first_bind (sends_runtimeCall (by decide) (by decide) rfl) fun call hcall =>
      sends_emit hcall

/-- One message for each row. -/
theorem sends_requestRows (client : ClientRef) (method : String) (columns : List String)
    (rows : List (List Expr)) :
    (requestRows backend client method columns rows).Sends c
      (backend.events c.config client rows.length) fun _ => True := by
  have hsplit (n : Nat) : backend.events c.config client (n + 1) =
      backend.events c.config client 1 ++ backend.events c.config client n := by
    cases backend with
    | sql => exact absurd rfl hbackend
    | mock | rpc => rfl
  induction rows with
  | nil =>
    cases backend with
    | sql => exact absurd rfl hbackend
    | mock | rpc => exact sends_pure trivial
  | cons row rest ih =>
    rw [List.length_cons, hsplit]
    refine sends_first_bind (sends_addFields _ _ (by simp [HasFields])) fun fields hfields => ?_
    exact sends_bind (sends_emitCall hbackend _ _ hfields) fun _ _ => ih

end Requests

end Lower

/-- How many messages an insertion takes: one for each row. -/
def Insert.messages (insert : Insert) : Nat :=
  match insert.source with
  | .values rows => rows.length
  | .query _ => 1

namespace Lower

section Requests

variable {backend : Backend} (hbackend : backend ≠ .sql)

include hbackend

theorem sends_requestInsert (insert : Insert) :
    (requestInsert backend insert).Sends c
      (backend.events c.config (c.config.clientOf insert.table) insert.messages) fun _ => True := by
  refine sends_when not_runs_fail ?_
  unfold Insert.messages
  cases insert.source with
  | query _ => exact sends_of_not_runs not_runs_fail
  | «values» rows =>
    refine sends_first_bind (sends_tableMethod _ _ _) fun found hfound => ?_
    obtain ⟨client, method⟩ := found
    obtain rfl : client = _ := hfound
    exact sends_requestRows hbackend _ _ _ rows

theorem sends_requestUpdate (update : Update) :
    (requestUpdate backend update).Sends c
      (backend.events c.config (c.config.clientOf update.table) 1) fun _ => True := by
  refine sends_first_bind (sends_tableMethod _ _ _) fun found hfound => ?_
  obtain ⟨client, method⟩ := found
  obtain rfl : client = _ := hfound
  refine sends_first_bind (sends_filterFields _) fun fields hfields => ?_
  exact sends_first_bind (sends_addFields _ _ hfields) fun _ hfields =>
    sends_emitCall hbackend _ _ hfields

theorem sends_requestDelete (delete : Delete) :
    (requestDelete backend delete).Sends c
      (backend.events c.config (c.config.clientOf delete.table) 1) fun _ => True := by
  refine sends_first_bind (sends_tableMethod _ _ _) fun found hfound => ?_
  obtain ⟨client, method⟩ := found
  obtain rfl : client = _ := hfound
  exact sends_first_bind (sends_filterFields _) fun _ hfields =>
    sends_emitCall hbackend _ _ hfields

theorem sends_requestExec (exec : Exec) :
    (requestExec backend exec).Sends c (backend.events c.config c.config.execClient 1)
      fun _ => True := by
  refine sends_first_bind (sends_ofExcept fun _ _ => trivial) fun method _ => ?_
  have hargs : (requestArgs exec.baseName 1 [] [] exec.args).Sends c [] fun request =>
      HasFields .everything request.1 :=
    sends_value (hasEffect_requestArgs _ _ _ _ _)
      (drawsOn_requestArgs Stock.own_everything _ _ _ (fun _ => by simp [HasFields]) _)
  refine sends_first_bind hargs fun request hfields => ?_
  have hcall (reads : Reads) : (do
      let client := (← read).config.execClient
      if reads.isEmpty then
        emitCall backend client method request.1
      else
        emitCallWith backend client method request.1 fun response =>
          emitReads response reads : Lower Unit).Sends c
            (backend.events c.config c.config.execClient 1) fun _ => True := by
    refine sends_read_bind ?_
    dsimp only
    split
    · exact sends_emitCall hbackend _ _ hfields
    · exact sends_emitCallWith hbackend _ _ hfields fun id => sends_emitReads id reads
  dsimp only
  split
  · refine sends_first_bind (sends_computed (hasEffect_lookup _)) fun symbol _ => ?_
    exact sends_first_bind (sends_pure (P := fun _ => True) trivial) fun reads _ => hcall reads
  · exact sends_first_bind (sends_pure (P := fun _ => True) trivial) fun reads _ => hcall reads

theorem sends_requestExists (query : Select) (table : TableRef) (target : String) :
    (requestExists backend query table target).Sends c
      (backend.events c.config (c.config.clientOf table) 1) fun _ => True := by
  refine sends_first_bind (sends_tableMethod _ _ _) fun found hfound => ?_
  obtain ⟨client, method⟩ := found
  obtain rfl : client = _ := hfound
  refine sends_first_bind (sends_filterFields _) fun fields hfields => ?_
  split
  · exact sends_first_bind (sends_remoteCall hbackend _ _ hfields) fun call hcall =>
      sends_emitGuarded ((events_assignTo _ _).trans hcall)
  · exact sends_emitCallWith hbackend _ _ hfields fun id =>
      sends_emitAssign (events_response id "Exists")

omit hbackend in
/-- The call of the store that yields the rows of a query. -/
theorem sends_requestRowsOf (query : Select) (table : TableRef) :
    (requestRowsOf query table).Sends c [] fun call =>
      call.events = Backend.mock.events c.config (c.config.clientOf table) 1 := by
  refine sends_first_bind (sends_filterFields _) fun fields hfields => sends_read_bind ?_
  exact sends_first_bind (sends_remoteCall (by decide) _ _ hfields) fun _ hcall =>
    sends_pure hcall

end Requests

/-! ## Transactions -/

theorem sends_warnNoHandle (keyword : String) : (warnNoHandle keyword).Sends c [] fun _ => True :=
  sends_computed (hasEffect_warn _ _ (by decide))

theorem sends_emitBegin : emitBegin.Sends c [] fun _ => True := by
  refine sends_first_bind (sends_emitGuarded rfl) fun _ _ => ?_
  have hrollback : (do
      emit (.assign (assignTo [.name "_"] (.invoke tx "Rollback" [])))
      emitNoTransaction : Lower Unit).Sends c [] fun _ => True :=
    sends_first_bind (sends_emit rfl) fun _ _ => sends_emitAssign rfl
  exact sends_first_bind (sends_block (sends_emitIf hrollback)) fun body hbody => sends_emit hbody

theorem sends_beginTransaction (name : Option String) :
    (beginTransaction name).Sends c [] fun _ => True := by
  refine sends_get_bind fun p => sends_when not_runs_fail ?_
  have hrest : (do
      setTransaction ⟨true, false⟩
      if (← read).survey.usesDb then
        emitBegin
      else
        warnNoHandle "BEGIN TRANSACTION" : Lower Unit).Sends c [] fun _ => True := by
    refine sends_first_bind (sends_setTransaction _) fun _ _ => sends_read_bind ?_
    split
    · exact sends_emitBegin
    · exact sends_warnNoHandle _
  cases name with
  | none => exact hrest
  | some name => exact sends_first_bind (sends_computed (hasEffect_warn _ _ (by decide))) fun _ _ => hrest

theorem sends_endTransaction (keyword : String) {method : String} (hstream : method ≠ streamMethod)
    (hmethod : method ∉ iteratorMethods) :
    (endTransaction keyword method).Sends c [] fun _ => True := by
  have hcall : (Go.Expr.invoke tx method []).events = tx.events ++ exprEvents [] :=
    Expr.events_invoke hstream hmethod rfl
  have hfinish : (do
      emitGuarded (assignTo [err] (.invoke tx method []))
      emitNoTransaction : Lower Unit).Sends c [] fun _ => True :=
    sends_first_bind (sends_emitGuarded hcall) fun _ _ => sends_emitAssign rfl
  refine sends_get_bind fun p => sends_when not_runs_fail ?_
  refine sends_first_bind (sends_setTransaction _) fun _ _ => sends_read_bind ?_
  dsimp only
  split
  · split
    · exact sends_emitIf hfinish
    · exact hfinish
  · exact sends_warnNoHandle _

/-! ## Messages to the caller and ways out -/

theorem sends_emitLog {hooked plain : String} {message : Go.Expr}
    (hhooked : hooked ∈ ["InfoContext", "WarnContext"]) (hplain : plain ∈ ["Println", "Print"])
    (h : message.Composed .everything false 1) :
    (emitLog hooked plain message).Sends c [] fun _ => True := by
  have hall : ∀ name ∈ ["InfoContext", "WarnContext", "Println", "Print"],
      name ≠ streamMethod ∧ name ∉ iteratorMethods := by
    decide
  obtain ⟨hstream, hmethod⟩ := hall hooked (List.mem_append_left ["Println", "Print"] hhooked)
  obtain ⟨hstream', hmethod'⟩ :=
    hall plain (List.mem_append_right ["InfoContext", "WarnContext"] hplain)
  have hrequest : request? (.member (.name "slog") hooked) [ctx, message] = none := by
    unfold request?
    split
    next hargs =>
      cases hargs
      exact absurd h Expr.not_composed_message
    · rfl
  refine sends_read_bind ?_
  split
  · refine sends_emitLine ((Expr.events_invoke hstream hmethod hrequest).trans ?_)
    simp [ctx, h.events_eq_nil]
  · refine sends_emitLine ((Expr.events_invoke hstream' hmethod' rfl).trans ?_)
    simp [h.events_eq_nil]

theorem sends_propagateReturn : propagateReturn.Sends c [] fun _ => True := by
  have hleave : (emit (.ret [])).Sends c [] fun _ => True := sends_emit rfl
  refine sends_read_bind ?_
  split
  · exact sends_first_bind (sends_emitAssign rfl) fun _ _ => hleave
  · exact sends_first_bind (sends_computed (hasEffect_warn _ _ (by decide))) fun _ _ => hleave

theorem sends_lowerReturn {status : Option Go.Expr} (h : ∀ e ∈ status, e.events = []) :
    (lowerReturn status).Sends c [] fun _ => True := by
  refine sends_read_bind ?_
  split
  · refine sends_emitReturn ?_ rfl
    cases status with
    | none => rfl
    | some value => exact h value rfl
  · cases status with
    | none => exact sends_propagateReturn
    | some value =>
      exact sends_first_bind (sends_emitAssign (h value rfl)) fun _ _ => sends_propagateReturn
  · exact sends_first_bind (sends_computed (hasEffect_warn _ _ (by decide))) fun _ _ =>
      sends_emitLog (by decide) (by decide) (.loosen (.str _) (by decide))

theorem sends_raise {error : Go.Expr} (h : error.events = []) :
    (raise error).Sends c [] fun _ => True := by
  refine sends_read_bind ?_
  split
  · exact sends_emitReturn rfl h
  · exact sends_emit h
  · exact sends_first_bind (sends_emit (by simp [assignTo, err, h])) fun _ _ => sends_emit rfl

/-! ## Handlers -/

theorem sends_emitHandlerStart (catchBody : List Statement) :
    (emitHandlerStart catchBody).Sends c [] fun _ => True := by
  have hcaught : emitCaught.Sends c [] fun _ => True := by
    refine sends_first_bind (sends_computed (hasEffect_importPath _)) fun _ _ => ?_
    refine sends_first_bind (sends_emit rfl) fun _ _ => ?_
    exact sends_emitIf (sends_emitAssign rfl)
  have hclear : (do
      if (← read).survey.needsErr then
        emit (.assign (assignTo [err] .nil)) : Lower Unit).Sends c [] fun _ => True := by
    refine sends_read_bind ?_
    split
    · exact sends_emit rfl
    · exact sends_pure trivial
  unfold emitHandlerStart
  split
  · exact sends_first_bind hcaught fun _ _ => hclear
  · exact hclear

theorem sends_returnFlag? (body : List Statement) :
    (returnFlag? body).Sends c [] fun _ => True := by
  refine sends_read_bind ?_
  split
  · refine sends_first_bind (sends_fresh _) fun numbered _ => ?_
    exact sends_first_bind (sends_emit rfl) fun _ _ => sends_pure trivial
  · exact sends_pure trivial

theorem sends_emitWayOut (flag : Option String) (catchBody : List Statement) :
    (emitWayOut flag catchBody).Sends c [] fun _ => True := by
  refine sends_read_bind ?_
  have hreport : (if c.survey.needsErr && Statement.anyHandler Statement.raises catchBody
      then emitIf none failed (if c.exitScope = .catchHalf then emit (.ret []) else errorExit)
      else pure ()).Sends c [] fun _ => True := by
    split
    · refine sends_emitIf ?_
      split
      · exact sends_emit rfl
      · exact sends_errorExit
    · exact sends_pure trivial
  cases flag with
  | none => exact hreport
  | some flag =>
    have hleave : (emitIf none (.name flag) (if c.exitScope = .body then
        emitReturn (.name "returnCode") .nil else propagateReturn)).Sends c [] fun _ => True := by
      refine sends_emitIf ?_
      split
      · exact sends_emitReturn rfl rfl
      · exact sends_propagateReturn
    exact sends_first_bind hleave fun _ _ => hreport

/-! ## The first and the last lines -/

theorem sends_emitUse (name goName : String) : (emitUse name goName).Sends c [] fun _ => True := by
  refine sends_read_bind ?_
  split
  · exact sends_emitAssign rfl
  · exact sends_pure trivial

theorem sends_emitFinalReturn : emitFinalReturn.Sends c [] fun _ => True := by
  refine sends_first_bind (sends_resultValues rfl rfl) fun values hvalues => sends_read_bind ?_
  split
  · exact sends_emit hvalues
  · exact sends_pure trivial

end Lower

end Sproc
