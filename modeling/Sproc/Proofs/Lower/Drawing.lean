import Sproc.Proofs.Lower.Operation
import Sproc.Proofs.Query.References

/-!
# Queries inside expressions, and what they draw on

The value of an expression is composed of variables and packages in stock, and so are the statements
that run in front of it: the ways out for failures, the requests to services, and the queries that
are hoisted out of expressions.

## Main results

* `drawsOn_emitGuarded`, `drawsOn_emitChecked`: calls that can fail
* `drawsOn_remoteCall`, `drawsOn_emitCallWith`: requests
* `drawsOn_hoistExists`, `drawsOn_hoistScalar`: queries inside expressions
* `drawsOn_lowerExpr`, `drawsOn_lowerValue`: expressions
-/

namespace Sproc

namespace Lower

open Go Go.Stock

variable {stock : Stock} {c : Context} {pre : Prop}

/-! ## Code of statements -/

@[simp]
theorem qualifiers_err : err.qualifiers = [] := rfl

@[simp]
theorem qualifiers_ctx : ctx.qualifiers = [] := rfl

@[simp]
theorem qualifiers_failed : failed.qualifiers = [] := rfl

@[simp]
theorem qualifiers_assignTo (targets : List Go.Expr) (value : Go.Expr) :
    (assignTo targets value).qualifiers = exprQualifiers targets ++ value.qualifiers := rfl

/-- A call of what is selected from a name. -/
theorem has_invoke {id : String} (h : stock.Covers (.owner id)) (function : String)
    {args : List Go.Expr} (hargs : ∀ arg ∈ args, stock.Has arg.qualifiers) :
    stock.Has (Expr.invoke (.name id) function args).qualifiers :=
  has_call (by simpa [Expr.qualifiers] using h) hargs

theorem covers_package {package : String} (h : stock.packages package) :
    stock.Covers (.owner package) :=
  .inr h

theorem covers_name {id : String} (h : stock.names id) : stock.Covers (.owner id) :=
  .inl h

theorem drawsOn_emitAssign (target : String) {value : Go.Expr}
    (h : pre → stock.Has value.qualifiers) :
    (emitAssign target value).DrawsOn stock c pre fun _ => True := by
  refine drawsOn_emit fun hpre => ?_
  simpa [Stmt.qualifiers, exprQualifiers, Expr.qualifiers] using h hpre

theorem drawsOn_emitIf {init : Option Go.Assign} {test : Go.Expr} {step : Lower Unit}
    (hinit : pre → stock.Has (initQualifiers init)) (htest : pre → stock.Has test.qualifiers)
    (hstep : step.DrawsOn stock c pre fun _ => True) :
    (emitIf init test step).DrawsOn stock c pre fun _ => True := by
  refine drawsOn_bind (drawsOn_block hstep) fun body => drawsOn_emit fun hpre => ?_
  simp only [Stmt.qualifiers, armQualifiers, elseQualifiers, has_append, has_nil, and_true,
    has_listQualifiers]
  exact ⟨hinit hpre.1, htest hpre.1, hpre.2⟩

/-! ## Ways out -/

theorem drawsOn_resultValues {status error : Go.Expr} (hstatus : pre → stock.Has status.qualifiers)
    (herror : pre → stock.Has error.qualifiers) :
    (resultValues status error).DrawsOn stock c pre fun values =>
      ∀ e ∈ values, stock.Has e.qualifiers := by
  refine drawsOn_read_bind (drawsOn_get_bind fun p => drawsOn_pure fun hpre => ?_)
  refine List.forall_mem_append.mpr ⟨List.forall_mem_append.mpr ⟨fun e he => ?_, ?_⟩, ?_⟩
  · obtain ⟨param, -, hname⟩ := List.mem_filterMap.mp he
    obtain ⟨symbol, -, rfl⟩ := Option.map_eq_some_iff.mp hname
    exact has_nil
  · split
    · exact List.forall_mem_singleton.mpr (hstatus hpre)
    · exact List.forall_mem_nil _
  · split
    · exact List.forall_mem_singleton.mpr (herror hpre)
    · exact List.forall_mem_nil _

theorem drawsOn_emitReturn {status error : Go.Expr} (hstatus : pre → stock.Has status.qualifiers)
    (herror : pre → stock.Has error.qualifiers) :
    (emitReturn status error).DrawsOn stock c pre fun _ => True := by
  refine drawsOn_bind (drawsOn_resultValues hstatus herror) fun values => ?_
  refine drawsOn_emit fun hpre => ?_
  simpa [Stmt.qualifiers] using hpre.2

/-- A line in the log. -/
theorem drawsOn_emitLine {name path function : String} {args : List Go.Expr}
    (hpath : (name, Text.pathLiteral path) ∈ c.config.packages)
    (hargs : pre → ∀ arg ∈ args, stock.Has arg.qualifiers) :
    (do
      importPath path
      emit (.run (.invoke (.name name) function args)) : Lower Unit).DrawsOn stock c pre
        fun _ => True := by
  refine drawsOn_bind (drawsOn_importPath name hpath) fun _ => drawsOn_emit fun hpre => ?_
  simp only [Stmt.qualifiers]
  exact has_invoke (covers_package hpre.2) function (hargs hpre.1)

theorem drawsOn_emitAcknowledge : emitAcknowledge.DrawsOn stock c pre fun _ => True := by
  refine drawsOn_read_bind ?_
  dsimp only
  split
  · exact drawsOn_emitLine (by simp [Config.packages]) fun _ => by simp [Expr.qualifiers]
  · exact drawsOn_emitLine (by simp [Config.packages]) fun _ => by simp [Expr.qualifiers]

theorem drawsOn_errorExit : errorExit.DrawsOn stock c pre fun _ => True := by
  refine drawsOn_read_bind ?_
  cases c.exitScope with
  | body => exact drawsOn_emitReturn (fun _ => has_nil) fun _ => has_nil
  | tryHalf => exact drawsOn_emit fun _ => has_nil
  | catchHalf =>
    refine drawsOn_bind drawsOn_emitAcknowledge fun _ => drawsOn_emit fun _ => ?_
    simp [Stmt.qualifiers, exprQualifiers, Expr.qualifiers]

theorem drawsOn_emitGuarded {init : Go.Assign} (h : pre → stock.Has init.qualifiers) :
    (emitGuarded init).DrawsOn stock c pre fun _ => True :=
  drawsOn_emitIf h (fun _ => has_nil) drawsOn_errorExit

theorem drawsOn_emitChecked {success : Lower Unit} (h : success.DrawsOn stock c pre fun _ => True) :
    (emitChecked success).DrawsOn stock c pre fun _ => True := by
  have hbranch {failure : List Go.Stmt} {otherwise : Option (List Go.Stmt)}
      (hfailure : ∀ s ∈ failure, stock.Has s.qualifiers)
      (hotherwise : stock.Has (elseQualifiers otherwise)) :
      stock.Has (Stmt.branch (.mk none failed failure) [] otherwise).qualifiers := by
    simp only [Stmt.qualifiers, initQualifiers, armQualifiers, qualifiers_failed, has_append,
      has_nil, true_and, has_listQualifiers]
    exact ⟨hfailure, hotherwise⟩
  refine drawsOn_bind (drawsOn_block drawsOn_errorExit) fun failure => drawsOn_read_bind ?_
  split
  · refine drawsOn_bind (drawsOn_block (h.of_pre And.left)) fun rest => drawsOn_emit fun hpre => ?_
    exact hbranch hpre.1.2 (by simpa [elseQualifiers] using hpre.2)
  · refine drawsOn_bind (drawsOn_emit fun hpre => hbranch hpre.2 has_nil) fun _ => ?_
    exact h.of_pre fun hpre => hpre.1.1

/-! ## Values from the server -/

theorem drawsOn_lowerVariable (name : String) :
    (lowerVariable name).DrawsOn stock c pre stock.Fits := by
  refine drawsOn_bind (drawsOn_lookup name) fun symbol => drawsOn_pure fun hpre => ?_
  exact (fitsAs_ofType (fun _ => .name hpre.2.1) hpre.2.2).1

section Own

variable (hown : stock.Own)

include hown

theorem drawsOn_tranCount : tranCount.DrawsOn stock c pre stock.Fits := by
  have htx : (Expr.name "tx").Composed stock false 1 :=
    .loosen (.name (hown.kept _ (by decide))) (by decide)
  refine drawsOn_read_bind (drawsOn_get_bind fun p => ?_)
  dsimp only
  split
  next hopen =>
    refine drawsOn_bind drawsOn_importRuntime fun _ => drawsOn_pure fun hpre => ?_
    rw [tranCountCode, if_pos hopen]
    exact (fitsAs_plain (.packaged (by decide) hpre.2 (List.forall_mem_singleton.mpr htx)) rfl).1
  next hopen =>
    refine drawsOn_pure fun _ => ?_
    rw [tranCountCode, if_neg hopen]
    have hnonneg : (0 : Int) ≤ if p.transaction.active then 1 else 0 := by split <;> decide
    refine fits_atom (composed_int _ (.inl hnonneg) (Nat.le_refl _)) (by simp) ?_
    rintro _ ⟨⟩
    exact hnonneg

theorem drawsOn_lowerGlobal (var : GlobalVar) :
    (lowerGlobal var).DrawsOn stock c pre stock.Fits := by
  cases var with
  | rowCount | identity =>
    exact drawsOn_pure fun _ => (fitsAs_plain (.name (hown.kept _ (by decide))) rfl).1
  | error => exact drawsOn_bind (drawsOn_warn _ _) fun _ => drawsOn_pure fun _ => fits_ofInt 0
  | tranCount => exact drawsOn_tranCount hown
  | fetchStatus => exact drawsOn_unsupported

/-- What is bound in query text is in stock, with the runtime helpers where it calls them. -/
theorem has_answer {p : Progress} {reference : Reference} {arg : Go.Expr}
    (hanswer : (queryArgs c p).Answers reference arg)
    (hruntime : arg.isRuntimeCall = true → stock.packages "tsqlrt") : stock.Has arg.qualifiers := by
  obtain ⟨hlookup⟩ | ⟨hglobal⟩ | ⟨hfunction⟩ := hanswer
  · obtain ⟨symbol, -, rfl⟩ := map_eq_ok.mp hlookup
    exact has_nil
  next var =>
    cases var with
    | tranCount =>
      cases hglobal
      unfold tranCountCode at hruntime ⊢
      split
      next hopen =>
        rw [if_pos hopen] at hruntime
        exact has_invoke (covers_package (hruntime rfl)) _ (by simp [Expr.qualifiers])
      next => exact has_nil
    | fetchStatus => cases hglobal
    | _ =>
      cases hglobal
      exact has_nil
  · simp only [queryArgs] at hfunction
    split at hfunction
    · cases hfunction
      exact has_nil
    · obtain ⟨value, hvalue, hok⟩ := Option.map_eq_some_iff.mp hfunction
      cases hok
      exact (fits_errorIntrinsic hown hvalue).operand.qualified

/-- The arguments of a query are in stock. -/
theorem drawsOn_renderQuery (statement : DataStatement) :
    (renderQuery statement.query).DrawsOn stock c pre fun query =>
      ∀ arg ∈ query.args, stock.Has arg.qualifiers := by
  unfold renderQuery
  refine drawsOn_read_bind (drawsOn_get_bind fun p => ?_)
  have hquery : (ofExcept (statement.query c.config.dialect (queryArgs c p))).DrawsOn stock c pre
      fun query => statement.query c.config.dialect (queryArgs c p) = .ok query :=
    drawsOn_ofExcept fun _ h => h
  refine drawsOn_bind hquery fun query => ?_
  dsimp only
  split
  next hany =>
    refine drawsOn_bind drawsOn_importRuntime fun _ => drawsOn_pure fun hpre arg harg => ?_
    obtain ⟨_, _, reference, -, hanswer⟩ :=
      DataStatement.exists_answers_of_mem_args hpre.1.2 harg
    exact has_answer hown hanswer fun _ => hpre.2
  next hany =>
    refine drawsOn_pure fun hpre arg harg => ?_
    obtain ⟨_, _, reference, -, hanswer⟩ := DataStatement.exists_answers_of_mem_args hpre.2 harg
    refine has_answer hown hanswer fun hruntime => absurd ?_ hany
    exact List.any_eq_true.mpr ⟨arg, harg, hruntime⟩

theorem drawsOn_handle : handle.DrawsOn stock c pre fun owner =>
    ∃ id, owner = .name id ∧ stock.Covers (.owner id) := by
  refine drawsOn_read_bind (drawsOn_get_bind fun p => drawsOn_pure fun _ => ⟨_, rfl, ?_⟩)
  unfold sqlHandle
  split
  · exact covers_name (hown.kept _ (by decide))
  · exact hown.database

omit hown in
theorem has_dataCall {id : String} (h : stock.Covers (.owner id)) (method : String)
    {query : Query Go.Expr} (hargs : ∀ arg ∈ query.args, stock.Has arg.qualifiers) :
    stock.Has (dataCall (.name id) method query).qualifiers :=
  has_invoke h method (by simpa [Expr.qualifiers] using hargs)

end Own

/-! ## Requests -/

/-- Fields are filled with values. -/
def HasFields (stock : Stock) (fields : Fields) : Prop :=
  ∀ field ∈ fields, field.2.Composed stock false 1

section Requests

variable (hown : stock.Own)

include hown

theorem drawsOn_fieldValue? {expr : Expr} {evaluate : Lower Value}
    (h : fieldValue? expr = some evaluate) : evaluate.DrawsOn stock c pre stock.Fits := by
  unfold fieldValue? at h
  split at h
  · obtain rfl := Option.some.inj h
    exact drawsOn_lowerVariable _
  · obtain rfl := Option.some.inj h
    exact drawsOn_pure fun _ => fits_ofLiteral _
  · obtain rfl := Option.some.inj h
    exact drawsOn_lowerGlobal hown _
  · obtain rfl := Option.some.inj h
    exact drawsOn_lowerGlobal hown _
  · obtain rfl := Option.some.inj h
    refine drawsOn_of_annotated (annotated_ofExcept _) fun hruns _ _ => ?_
    exact (fits_ofLiteral _).negate (runs_ofExcept.mp hruns).1
  · split at h
    · obtain rfl := Option.some.inj h
      exact drawsOn_lowerFunction (by simp [ArgsFit]) hown _ fun _ => hasHint_none
    · cases h
  · cases h

theorem drawsOn_addField (part : String) {fields : Fields} (hfields : pre → HasFields stock fields)
    (column : String) (expr : Expr) :
    (addField part fields column expr).DrawsOn stock c pre (HasFields stock) := by
  have hskip (message : String) {pre : Prop} (hfields : pre → HasFields stock fields) :
      (do
        warnSkipped message
        return fields : Lower Fields).DrawsOn stock c pre (HasFields stock) :=
    drawsOn_bind (drawsOn_warn _ _) fun _ => drawsOn_pure fun hpre => hfields hpre.1
  unfold addField
  dsimp only
  split
  · exact hskip _ hfields
  · split
    next => exact hskip _ hfields
    next evaluate hevaluate =>
      refine drawsOn_bind (drawsOn_fieldValue? hown hevaluate) fun value => ?_
      split
      · exact hskip _ fun hpre => hfields hpre.1
      · refine drawsOn_pure fun hpre => List.forall_mem_append.mpr ⟨hfields hpre.1, ?_⟩
        exact List.forall_mem_singleton.mpr hpre.2.operand

theorem drawsOn_addFields (part : String) (columns : List (String × Expr)) {fields : Fields}
    (hfields : pre → HasFields stock fields) :
    (addFields part fields columns).DrawsOn stock c pre (HasFields stock) := by
  induction columns generalizing fields pre with
  | nil => exact drawsOn_pure hfields
  | cons column rest ih =>
    exact drawsOn_bind (drawsOn_addField hown part hfields _ _) fun _ => ih And.right

theorem drawsOn_addConditions (conditions : List Expr) {fields : Fields}
    (hfields : pre → HasFields stock fields) :
    (addConditions fields conditions).DrawsOn stock c pre (HasFields stock) := by
  induction conditions generalizing fields pre with
  | nil => exact drawsOn_pure hfields
  | cons condition rest ih =>
    unfold addConditions
    split
    · exact drawsOn_bind (drawsOn_addField hown "WHERE" hfields _ _) fun _ => ih And.right
    · exact drawsOn_bind (drawsOn_warn _ _) fun _ => ih fun hpre => hfields hpre.1

theorem drawsOn_filterFields (filter : Option Expr) :
    (filterFields filter).DrawsOn stock c pre (HasFields stock) :=
  drawsOn_addConditions hown _ fun _ => by simp [HasFields]

omit hown in
/-- A request names the package of its message, and not the one that it is sent to. -/
theorem drawsOn_remoteCall (backend : Backend) (client : ClientRef) (method : String)
    {fields : Fields} (hfields : pre → HasFields stock fields) :
    (remoteCall backend client method fields).DrawsOn stock c pre fun call =>
      stock.Has call.1.qualifiers ∧ stock.packages call.2 := by
  have hcall {receiver package : String} (hpackage : stock.packages package)
      (hfields : HasFields stock fields) :
      stock.Has (Expr.invoke (.name receiver) method
        [ctx, .message package (method ++ "Request") fields]).qualifiers := by
    simp only [Expr.invoke, Expr.qualifiers, request?, Option.isSome_some, if_true, exprQualifiers,
      qualifiers_ctx, has_append, has_cons, has_nil, has_fieldQualifiers, and_true, true_and]
    exact ⟨hpackage, fun field hfield => (hfields field hfield).qualified⟩
  have hrest {receiver package : String} {pre : Prop} (hpackage : pre → stock.packages package)
      (hfields : pre → HasFields stock fields) :
      (pure (.invoke (.name receiver) method
        [ctx, .message package (method ++ "Request") fields], package) :
        Lower (Go.Expr × String)).DrawsOn stock c pre fun call =>
          stock.Has call.1.qualifiers ∧ stock.packages call.2 :=
    drawsOn_pure fun hpre => ⟨hcall (hpackage hpre) (hfields hpre), hpackage hpre⟩
  unfold remoteCall
  dsimp only
  split
  · refine drawsOn_bind drawsOn_mockPackage fun package => ?_
    refine drawsOn_bind (P := fun found => stock.packages found.2) (drawsOn_pure And.right)
      fun found => ?_
    exact hrest And.right fun hpre => hfields hpre.1.1
  · refine drawsOn_bind drawsOn_rpcPackage fun package => ?_
    refine drawsOn_bind (P := fun found => stock.packages found.2) (drawsOn_pure And.right)
      fun found => ?_
    exact hrest And.right fun hpre => hfields hpre.1.1

omit hown in
theorem drawsOn_bindLocal (name : String) {type : Go.TypeExpr}
    (h : pre → stock.Has type.qualifiers) :
    (bindLocal name type).DrawsOn stock c pre fun _ => True := by
  intro before define after hruns _
  have hgrows := NameScope.Grows.bind before.names name
  rcases runs_bindLocal hruns with ⟨-, -, rfl⟩ | ⟨-, -, -, rfl⟩ | ⟨-, -, rfl⟩
  · exact ⟨.refl _, [], (List.append_nil _).symm, fun _ _ => ⟨List.forall_mem_nil _, trivial⟩⟩
  · exact ⟨.of_grows (.of_names hgrows) rfl rfl, [], (List.append_nil _).symm,
      fun _ _ => ⟨List.forall_mem_nil _, trivial⟩⟩
  · refine ⟨.of_grows ((Progress.Grows.of_names hgrows).wrote _) rfl rfl, [.declare name type none],
      rfl, fun _ hpre => ⟨List.forall_mem_singleton.mpr ?_, trivial⟩⟩
    simpa [Stmt.qualifiers, optionQualifiers] using h hpre

/-- The variable that holds a response. -/
theorem drawsOn_response (method : String) :
    (localName (Identifier.camelCase method ++ "Resp")).DrawsOn stock c pre fun id =>
      stock.Covers (.owner id) := by
  refine drawsOn_of_annotated (hasEffect_localName _) fun hruns _ _ => hown.results _ ?_
  obtain ⟨rfl, -⟩ := runs_localName hruns
  refine .call (.response (show _ ∈ responseNames method from ?_))
  split <;> simp [responseNames, String.append_assoc]

omit hown in
/-- The result of a call in a variable, whose error is checked. -/
theorem has_assigned {result : String} {define : Bool} {call : Go.Expr}
    (h : stock.Has call.qualifiers) :
    stock.Has (Stmt.assign ⟨[.name result, err], define, call⟩).qualifiers := by
  simpa [Stmt.qualifiers, Assign.qualifiers, exprQualifiers, Expr.qualifiers] using h

/-- A call whose response is handed to what follows. -/
theorem drawsOn_emitCallWith (backend : Backend) (client : ClientRef) (method : String)
    {fields : Fields} (hfields : pre → HasFields stock fields) {onResponse : Go.Expr → Lower Unit}
    (h : ∀ id, (onResponse (.name id)).DrawsOn stock c (pre ∧ stock.Covers (.owner id))
      fun _ => True) :
    (emitCallWith backend client method fields onResponse).DrawsOn stock c pre fun _ => True := by
  refine drawsOn_bind (drawsOn_remoteCall backend client method hfields) fun call => ?_
  dsimp only
  refine drawsOn_bind (drawsOn_response hown method) fun response => ?_
  refine drawsOn_bind (drawsOn_bindLocal response fun hpre => ?_) fun define => ?_
  · simpa [TypeExpr.qualifiers, Stock.Covers] using hpre.1.2.2
  · refine drawsOn_bind (drawsOn_emit fun hpre => has_assigned hpre.1.1.2.1) fun _ => ?_
    exact drawsOn_emitChecked ((h response).of_pre fun hpre => ⟨hpre.1.1.1.1, hpre.1.1.2⟩)

omit hown in
theorem drawsOn_emitOneRow : emitOneRow.DrawsOn stock c pre fun _ => True :=
  drawsOn_emitAssign _ fun _ => has_nil

omit hown in
/-- A call whose response is dropped. -/
theorem drawsOn_emitCall (backend : Backend) (client : ClientRef) (method : String)
    {fields : Fields} (hfields : pre → HasFields stock fields) :
    (emitCall backend client method fields).DrawsOn stock c pre fun _ => True := by
  have hinit {call : Go.Expr} (h : stock.Has call.qualifiers) :
      stock.Has (assignTo [.name "_", err] call).qualifiers := by
    simpa [exprQualifiers, Expr.qualifiers] using h
  refine drawsOn_bind (drawsOn_remoteCall backend client method hfields) fun call => ?_
  refine drawsOn_read_bind ?_
  split
  · refine drawsOn_bind (drawsOn_emit fun hpre => ?_) fun _ =>
      drawsOn_emitChecked drawsOn_emitOneRow
    simpa [Stmt.qualifiers] using hinit hpre.2.1
  · exact drawsOn_emitGuarded fun hpre => hinit hpre.2.1

omit hown in
/-- A response is only read from. -/
theorem has_response {id : String} (h : stock.Covers (.owner id)) (field : String) :
    stock.Has (Expr.invoke (.name id) field []).qualifiers :=
  has_invoke h field (List.forall_mem_nil _)

omit hown in
theorem drawsOn_emitReads {id : String} (reads : Reads) (h : pre → stock.Covers (.owner id)) :
    (emitReads (.name id) reads).DrawsOn stock c pre fun _ => True := by
  induction reads generalizing pre with
  | nil => exact drawsOn_pure fun _ => trivial
  | cons read rest ih =>
    exact drawsOn_bind (drawsOn_emitAssign _ fun hpre => has_response (h hpre) _) fun _ =>
      ih fun hpre => h hpre.1

theorem drawsOn_requestExists (backend : Backend) (query : Select) (table : TableRef)
    (target : String) :
    (requestExists backend query table target).DrawsOn stock c pre fun _ => True := by
  refine drawsOn_bind (drawsOn_annotated (by simp [tableMethod])) fun found => ?_
  dsimp only
  refine drawsOn_bind (drawsOn_filterFields hown _) fun fields => ?_
  split
  · refine drawsOn_bind (drawsOn_remoteCall _ _ _ And.right) fun call => ?_
    refine drawsOn_emitGuarded fun hpre => ?_
    simpa [exprQualifiers, Expr.qualifiers] using hpre.2.1
  · refine drawsOn_emitCallWith hown _ _ _ And.right fun id => ?_
    exact drawsOn_emitAssign _ fun hpre => has_response hpre.2 _

/-! ## Queries inside expressions -/

omit hown in
theorem drawsOn_backendFor (table : TableRef) :
    (backendFor table).DrawsOn stock c pre fun _ => True :=
  drawsOn_annotated (hasEffect_backendFor table)

omit hown in
theorem has_addresses (targets : List String) :
    ∀ e ∈ addresses targets, stock.Has e.qualifiers := by
  intro e he
  obtain ⟨target, -, rfl⟩ := List.mem_map.mp he
  exact has_nil

omit hown in
/-- A row of a query read into variables. -/
theorem has_scan {id : String} (h : stock.Covers (.owner id)) {query : Query Go.Expr}
    (hargs : ∀ arg ∈ query.args, stock.Has arg.qualifiers) (targets : List String) :
    stock.Has (assignTo [err] (.invoke (dataCall (.name id) "QueryRowContext" query) "Scan"
      (addresses targets))).qualifiers := by
  have hrow : stock.Has (Expr.invoke (dataCall (.name id) "QueryRowContext" query) "Scan"
      (addresses targets)).qualifiers := by
    refine has_call (has_member _ (has_dataCall h _ hargs) ?_) (has_addresses targets)
    rintro _ ⟨⟩
  simpa [exprQualifiers] using hrow

theorem drawsOn_emitScan {query : Query Go.Expr}
    (hargs : pre → ∀ arg ∈ query.args, stock.Has arg.qualifiers) (targets : List String)
    (trackRows : Bool) : (emitScan query targets trackRows).DrawsOn stock c pre fun _ => True := by
  unfold emitScan
  refine drawsOn_bind (drawsOn_handle hown) fun owner => ?_
  refine drawsOn_bind (drawsOn_importPath "errors" (by simp [Config.packages])) fun _ => ?_
  refine drawsOn_bind (drawsOn_importPath "sql" (by simp [Config.packages])) fun _ => ?_
  have hnoRow (herrors : stock.packages "errors") (hsql : stock.packages "sql") : stock.Has
      (Expr.invoke (.name "errors") "Is" [err, .member (.name "sql") "ErrNoRows"]).qualifiers :=
    has_invoke (covers_package herrors) _ (by simp [Expr.qualifiers, Stock.Covers, hsql])
  have hbranch {missing failure : List Go.Stmt} {otherwise : Option (List Go.Stmt)}
      (howner : ∃ id, owner = .name id ∧ stock.Covers (.owner id))
      (herrors : stock.packages "errors") (hsql : stock.packages "sql")
      (hargs : ∀ arg ∈ query.args, stock.Has arg.qualifiers)
      (hmissing : ∀ s ∈ missing, stock.Has s.qualifiers)
      (hfailure : ∀ s ∈ failure, stock.Has s.qualifiers)
      (hotherwise : stock.Has (elseQualifiers otherwise)) :
      stock.Has (Stmt.branch (.mk (some (assignTo [err]
        (.invoke (dataCall owner "QueryRowContext" query) "Scan" (addresses targets))))
        (.invoke (.name "errors") "Is" [err, .member (.name "sql") "ErrNoRows"]) missing)
        [.mk none failed failure] otherwise).qualifiers := by
    obtain ⟨id, rfl, hid⟩ := howner
    simp only [Stmt.qualifiers, initQualifiers, armQualifiers, qualifiers_failed, has_append,
      has_nil, true_and, and_true, has_listQualifiers]
    exact ⟨has_scan hid hargs targets, hnoRow herrors hsql, hmissing, hfailure, hotherwise⟩
  have hmissing {pre : Prop} : (block do
      emit (.assign (assignTo [err] .nil))
      if trackRows then
        emitAssign "rowCount" (.int 0)).DrawsOn stock c pre fun body =>
          ∀ s ∈ body, stock.Has s.qualifiers := by
    refine drawsOn_block (drawsOn_bind (drawsOn_emit fun _ => has_nil) fun _ => ?_)
    split
    · exact drawsOn_emitAssign _ fun _ => has_nil
    · exact drawsOn_pure fun _ => trivial
  refine drawsOn_bind hmissing fun missing => ?_
  refine drawsOn_bind (drawsOn_block drawsOn_errorExit) fun failure => ?_
  split
  · refine drawsOn_bind (drawsOn_block drawsOn_emitOneRow) fun found => drawsOn_emit ?_
    rintro ⟨⟨⟨⟨⟨⟨hpre, howner⟩, herrors⟩, hsql⟩, hmissing⟩, hfailure⟩, hfound⟩
    exact hbranch howner herrors hsql (hargs hpre) hmissing hfailure
      (by simpa [elseQualifiers] using hfound)
  · refine drawsOn_emit ?_
    rintro ⟨⟨⟨⟨⟨hpre, howner⟩, herrors⟩, hsql⟩, hmissing⟩, hfailure⟩
    exact hbranch howner herrors hsql (hargs hpre) hmissing hfailure has_nil

theorem drawsOn_hoistExists (query : Select) :
    (hoistExists query).DrawsOn stock c pre stock.Fits := by
  unfold hoistExists
  split
  · exact drawsOn_pure fun _ => (fitsAs_plain (.bool true) rfl).1
  next table _ =>
    have hresult {target : String} {pre : Prop} (h : pre → stock.names target) :
        (pure (.ofType (.name target) .bool) : Lower Value).DrawsOn stock c pre stock.Fits :=
      drawsOn_pure fun hpre => (fitsAs_plain (.name (h hpre)) rfl).1
    refine drawsOn_bind (drawsOn_fresh (hown.numbered _ (by decide))) fun target => ?_
    refine drawsOn_bind (drawsOn_emit fun _ => ?_) fun _ => ?_
    · simp [Stmt.qualifiers, TypeExpr.qualifiers, optionQualifiers, HasType, GoType.package?]
    refine drawsOn_bind (drawsOn_backendFor table) fun backend => ?_
    cases backend with
    | sql =>
      refine drawsOn_bind (drawsOn_renderQuery hown (.probe query)) fun probe => ?_
      refine drawsOn_bind (drawsOn_handle hown) fun owner => ?_
      refine drawsOn_bind (drawsOn_emitGuarded fun hpre => ?_) fun _ =>
        hresult fun hpre => hpre.1.1.1.1.1.2
      obtain ⟨⟨-, hargs⟩, id, rfl, hid⟩ := hpre
      exact has_scan hid hargs _
    | _ =>
      exact drawsOn_bind (drawsOn_requestExists hown _ _ _ _) fun _ =>
        hresult fun hpre => hpre.1.1.1.2

theorem drawsOn_hoistScalar (query : Select) (table : TableRef) (hint : Option GoType) :
    (hoistScalar query table hint).DrawsOn stock c pre stock.Fits := by
  refine drawsOn_bind (drawsOn_backendFor table) fun backend => ?_
  dsimp only
  split
  · exact drawsOn_unsupported_bind
  split
  · exact drawsOn_unsupported
  next type _ =>
    refine drawsOn_bind (drawsOn_importType type) fun _ => ?_
    refine drawsOn_bind (drawsOn_fresh (hown.numbered _ (by decide))) fun target => ?_
    refine drawsOn_bind (drawsOn_emit fun hpre => ?_) fun _ => ?_
    · simpa [Stmt.qualifiers, TypeExpr.qualifiers, optionQualifiers] using hpre.1.2
    refine drawsOn_bind (drawsOn_renderQuery hown (.select query)) fun rendered => ?_
    refine drawsOn_bind (drawsOn_emitScan hown And.right _ _) fun _ => drawsOn_pure fun hpre => ?_
    exact (fitsAs_ofType (fun _ => .name hpre.1.1.1.2) hpre.1.1.1.1.2).1

end Requests

/-! ## Expressions -/

-- The cases follow the mutual recursion of the generation.
mutual

/-- An expression becomes a value that fits, whatever type in stock it is hinted at. -/
theorem drawsOn_lowerExpr (hown : stock.Own) (expr : Expr) (hint : Option GoType) {pre : Prop}
    (hhint : pre → stock.HasHint hint) : (lowerExpr expr hint).DrawsOn stock c pre stock.Fits := by
  match expr with
  | .literal value =>
    rw [lowerExpr]
    exact drawsOn_pure fun _ => fits_ofLiteral value
  | .variable name =>
    rw [lowerExpr]
    exact drawsOn_lowerVariable name
  | .global var =>
    rw [lowerExpr]
    exact drawsOn_lowerGlobal hown var
  | .column ref =>
    rw [lowerExpr]
    exact drawsOn_unsupported
  | .star =>
    rw [lowerExpr]
    exact drawsOn_unsupported
  | .unary op operand =>
    rw [lowerExpr]
    exact drawsOn_bind (drawsOn_lowerExpr hown operand hint hhint) fun _ =>
      drawsOn_lowerUnary And.right op
  | .binary op left right =>
    rw [lowerExpr]
    exact drawsOn_lowerBinary op hhint (fun hhint => drawsOn_lowerExpr hown left _ hhint)
      fun hhint => drawsOn_lowerExpr hown right _ hhint
  | .isNull operand negated =>
    rw [lowerExpr]
    exact drawsOn_bind (drawsOn_lowerExpr hown operand none fun _ => hasHint_none) fun _ =>
      drawsOn_isZero And.right negated
  | .inList operand list negated =>
    rw [lowerExpr]
    have hsubject := drawsOn_lowerExpr hown operand none fun _ : pre => hasHint_none
    refine drawsOn_bind hsubject fun subject => ?_
    have hop : (if negated then BinaryOp.notEq else .eq).isComparison = true := by
      cases negated <;> rfl
    refine drawsOn_bind (drawsOn_lowerMembers hown hop And.right list) fun tests => ?_
    exact drawsOn_pure fun hpre => fits_lowerMember negated hpre.2
  | .between operand low high negated =>
    rw [lowerExpr]
    have hsubject := drawsOn_lowerExpr hown operand none fun _ : pre => hasHint_none
    refine drawsOn_bind hsubject fun subject => ?_
    refine drawsOn_bind (drawsOn_lowerExpr hown low _ fun hpre => hpre.2.goType?) fun low => ?_
    refine drawsOn_bind (drawsOn_lowerExpr hown high _ fun hpre => hpre.1.2.goType?) fun high => ?_
    exact drawsOn_lowerBetween (fun hpre => hpre.1.1.2) (fun hpre => hpre.1.2) And.right negated
  | .function name args =>
    rw [lowerExpr]
    exact drawsOn_lowerFunction (argsFit_lowerArgs hown args) hown name hhint
  | .cast operand type =>
    rw [lowerExpr]
    refine drawsOn_bind (drawsOn_ofExcept fun _ _ => trivial) fun info => ?_
    refine (drawsOn_bind_coerce (drawsOn_lowerExpr hown operand _ fun hpre => ?_)).mono
      fun _ _ hvalue => hvalue.1
    exact hasHint_some.mpr hpre.2
  | .case branches otherwise =>
    rw [lowerExpr]
    refine drawsOn_bind (drawsOn_lowerBranches hown hint branches hhint) fun arms => ?_
    refine drawsOn_bind (drawsOn_lowerOtherwise hown hint otherwise fun hpre => hhint hpre.1)
      fun last => ?_
    exact drawsOn_lowerCase (fun hpre => hhint hpre.1.1) (fun hpre => hpre.1.2) And.right
  | .exists query =>
    rw [lowerExpr]
    exact drawsOn_hoistExists hown query
  | .subquery query =>
    rw [lowerExpr]
    exact drawsOn_lowerScalar hown query hint hhint

theorem drawsOn_lowerMembers (hown : stock.Own) {op : BinaryOp} (hop : op.isComparison = true)
    {subject : Value} {pre : Prop} (hsubject : pre → stock.Fits subject) (list : List Expr) :
    (lowerMembers op subject list).DrawsOn stock c pre fun tests =>
      ∀ test ∈ tests, stock.Fits test := by
  match list with
  | [] =>
    rw [lowerMembers]
    exact drawsOn_pure fun _ => List.forall_mem_nil _
  | expr :: rest =>
    rw [lowerMembers]
    refine drawsOn_bind (drawsOn_lowerExpr hown expr _ fun hpre => (hsubject hpre).goType?)
      fun value => ?_
    refine drawsOn_bind (drawsOn_compare (fun hpre => hsubject hpre.1) And.right hop) fun test => ?_
    refine drawsOn_bind (drawsOn_lowerMembers hown hop (fun hpre => hsubject hpre.1.1) rest)
      fun tests => ?_
    exact drawsOn_pure fun hpre => List.forall_mem_cons.mpr ⟨hpre.1.2, hpre.2⟩

theorem argsFit_lowerArgs (hown : stock.Own) (args : List Expr) :
    ArgsFit (lowerArgs args) stock c := by
  match args with
  | [] =>
    intro arg harg
    simp [lowerArgs] at harg
  | expr :: rest =>
    intro arg harg
    rw [lowerArgs, List.mem_cons] at harg
    rcases harg with rfl | hrest
    · exact fun hhint => drawsOn_lowerExpr hown expr _ hhint
    · exact argsFit_lowerArgs hown rest arg hrest

theorem drawsOn_lowerBranches (hown : stock.Own) (hint : Option GoType)
    (branches : List CaseBranch) {pre : Prop} (hhint : pre → stock.HasHint hint) :
    (lowerBranches hint branches).DrawsOn stock c pre fun arms =>
      ∀ arm ∈ arms, arm.1.Composed stock false 1 ∧ stock.Fits arm.2 := by
  match branches with
  | [] =>
    rw [lowerBranches]
    exact drawsOn_pure fun _ => List.forall_mem_nil _
  | ⟨test, value⟩ :: rest =>
    rw [lowerBranches]
    have hbool : stock.HasHint (some .bool) := hasHint_some.mpr (hasType_of_package? rfl)
    refine drawsOn_bind (drawsOn_lowerExpr hown test _ fun _ => hbool) fun test => ?_
    refine drawsOn_bind (drawsOn_coerce And.right _) fun test => ?_
    refine drawsOn_bind (drawsOn_lowerExpr hown value hint fun hpre => hhint hpre.1.1)
      fun result => ?_
    refine drawsOn_bind (drawsOn_lowerBranches hown hint rest fun hpre => hhint hpre.1.1.1)
      fun arms => ?_
    refine drawsOn_pure fun hpre => List.forall_mem_cons.mpr ⟨⟨?_, hpre.1.2⟩, hpre.2⟩
    exact hpre.1.1.2.1.operand

theorem drawsOn_lowerOtherwise (hown : stock.Own) (hint : Option GoType) (otherwise : Option Expr)
    {pre : Prop} (hhint : pre → stock.HasHint hint) :
    (lowerOtherwise hint otherwise).DrawsOn stock c pre fun result =>
      ∀ value ∈ result, stock.Fits value := by
  match otherwise with
  | none =>
    rw [lowerOtherwise]
    exact drawsOn_pure fun _ => by simp
  | some expr =>
    rw [lowerOtherwise]
    refine drawsOn_bind (drawsOn_lowerExpr hown expr hint hhint) fun value => drawsOn_pure ?_
    exact fun hpre other hother => Option.some.inj hother ▸ hpre.2

theorem drawsOn_lowerScalar (hown : stock.Own) (query : Select) (hint : Option GoType) {pre : Prop}
    (hhint : pre → stock.HasHint hint) :
    (lowerScalar query hint).DrawsOn stock c pre stock.Fits := by
  match query with
  | ⟨top, distinct, items, source, joins, filter, groupBy, orderBy⟩ =>
    rw [lowerScalar]
    cases hitem : lowerOnlyItem? items hint with
    | none => exact drawsOn_unsupported
    | some value =>
      cases source with
      | none => exact drawsOn_lowerOnlyItem? hown items hint hhint value hitem
      | some table => exact drawsOn_hoistScalar hown _ table hint

theorem drawsOn_lowerOnlyItem? (hown : stock.Own) (items : List SelectItem) (hint : Option GoType)
    {pre : Prop} (hhint : pre → stock.HasHint hint) (step : Lower Value)
    (hstep : lowerOnlyItem? items hint = some step) : step.DrawsOn stock c pre stock.Fits := by
  match items with
  | [⟨expr, _, _⟩] =>
    rw [lowerOnlyItem?, Option.some_inj] at hstep
    rw [← hstep]
    exact drawsOn_lowerExpr hown expr hint hhint
  | [] => cases hstep
  | ⟨_, _, _⟩ :: _ :: _ => cases hstep

end

/-- An expression as a value of a given type. -/
theorem drawsOn_lowerValue (hown : stock.Own) (expr : Expr) (target : GoType) :
    (lowerValue expr target).DrawsOn stock c pre fun e =>
      e.Composed stock false 1 := by
  refine drawsOn_bind_later (drawsOn_lowerExpr hown expr _ fun hpre => hasHint_some.mpr hpre.2)
    (fun value => ?_) fun value => ?_
  · exact drawsOn_bind (drawsOn_coerce_type value target) fun _ => drawsOn_pure And.right
  · exact drawsOn_bind (drawsOn_coerce And.right target) fun _ => drawsOn_pure fun hpre =>
      hpre.2.1.operand

theorem drawsOn_lowerCondition (hown : stock.Own) (expr : Expr) :
    (lowerCondition expr).DrawsOn stock c pre fun e => e.Composed stock false 1 :=
  drawsOn_lowerValue hown expr .bool

end Lower

end Sproc
