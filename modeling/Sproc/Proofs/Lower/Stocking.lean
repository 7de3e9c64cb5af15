import Sproc.Proofs.Lower.Drawing
import Sproc.Proofs.Lower.Fetch

/-!
# Statements without statements inside, and what they draw on

The code of data statements, of transactions, of cursors and of errors only names variables and
packages in stock. The calls of `database/sql` and of the runtime helpers import their packages, and
so do the types of what holds their results.

## Main results

* `drawsOn_lowerSelect`, `drawsOn_lowerInsert`, `drawsOn_lowerUpdate`, `drawsOn_lowerDelete`,
  `drawsOn_lowerExec`: data statements
* `drawsOn_beginTransaction`, `drawsOn_endTransaction`: transactions
* `drawsOn_declareCursor`, `drawsOn_openCursor`, `drawsOn_fetchRow`: cursors
* `drawsOn_lowerReturn`, `drawsOn_lowerThrow`, `drawsOn_lowerRaiserror`: ways out
-/

namespace Sproc

namespace Lower

open Go Go.Stock

variable {stock : Stock} {c : Context} {pre : Prop}

/-- A call of a runtime helper. -/
theorem drawsOn_runtimeCall_qualified (function : String) {args : List Go.Expr}
    (hargs : pre → ∀ arg ∈ args, stock.Has arg.qualifiers) :
    (runtimeCall function args).DrawsOn stock c pre fun e => stock.Has e.qualifiers :=
  drawsOn_bind drawsOn_importRuntime fun _ => drawsOn_pure fun hpre =>
    has_invoke (covers_package hpre.2) function (hargs hpre.1)

/-- A call whose error is kept. -/
theorem has_guarded {target : String} {call : Go.Expr} (h : stock.Has call.qualifiers) :
    stock.Has (assignTo [.name target, err] call).qualifiers := by
  simpa [exprQualifiers, Expr.qualifiers] using h

theorem has_checked {call : Go.Expr} (h : stock.Has call.qualifiers) :
    stock.Has (assignTo [err] call).qualifiers := by
  simpa [exprQualifiers] using h

section Own

variable (hown : stock.Own)

include hown

/-! ## Statements on the database -/

theorem drawsOn_emitExec {query : Query Go.Expr}
    (hargs : pre → ∀ arg ∈ query.args, stock.Has arg.qualifiers) (identity : Bool) :
    (emitExec query identity).DrawsOn stock c pre fun _ => True := by
  unfold emitExec
  refine drawsOn_bind (drawsOn_handle hown) fun owner => drawsOn_read_bind ?_
  have hcall {pre : Prop} (h : pre → (∃ id, owner = .name id ∧ stock.Covers (.owner id)) ∧
      ∀ arg ∈ query.args, stock.Has arg.qualifiers) (hpre : pre) :
      stock.Has (dataCall owner "ExecContext" query).qualifiers := by
    obtain ⟨⟨id, rfl, hid⟩, hargs⟩ := h hpre
    exact has_dataCall hid _ hargs
  dsimp only
  split
  · exact drawsOn_emitGuarded fun hpre =>
      has_guarded (hcall (fun hpre => ⟨hpre.2, hargs hpre.1⟩) hpre)
  refine drawsOn_bind (drawsOn_importPath "sql" (by simp [Config.packages])) fun _ => ?_
  have hresult {pre : Prop} : (localName "res").DrawsOn stock c pre fun id =>
      stock.Covers (.owner id) := by
    refine drawsOn_of_annotated (hasEffect_localName _) fun hruns _ _ => hown.results _ (.call ?_)
    obtain ⟨rfl, -⟩ := runs_localName hruns
    refine .result ?_
    split <;> decide
  refine drawsOn_bind hresult fun result => ?_
  refine drawsOn_bind (drawsOn_bindLocal result fun hpre => ?_) fun define => ?_
  · simpa [TypeExpr.qualifiers, Stock.Covers] using hpre.1.2
  refine drawsOn_bind (drawsOn_emit fun hpre => ?_) fun _ => drawsOn_emitChecked ?_
  · exact has_assigned (hcall (fun hpre => ⟨hpre.1.1.1.2, hargs hpre.1.1.1.1⟩) hpre)
  have hkeep (target method : String) {pre : Prop} (h : pre → stock.Covers (.owner result)) :
      (emit (.assign (assignTo [.name target, .name "_"]
        (.invoke (.name result) method [])))).DrawsOn stock c pre fun _ => True := by
    refine drawsOn_emit fun hpre => ?_
    simpa [Stmt.qualifiers, exprQualifiers, Expr.qualifiers] using has_response (h hpre) method
  refine drawsOn_when (hkeep _ _ fun hpre => hpre.1.1.2) ?_
  split
  · exact hkeep _ _ fun hpre => hpre.1.1.2
  · exact drawsOn_pure fun _ => trivial

theorem drawsOn_assignVariable (name : String) (value : Expr) :
    (assignVariable name value).DrawsOn stock c pre fun _ => True := by
  refine drawsOn_bind (drawsOn_lookup name) fun symbol => ?_
  refine drawsOn_bind (drawsOn_lowerValue hown value symbol.type.go) fun e => ?_
  exact drawsOn_emitAssign _ fun hpre => hpre.2.qualified

omit hown in
theorem drawsOn_mixedSelect {α : Type} {P : α → Prop} :
    (mixedSelect : Lower α).DrawsOn stock c pre P :=
  drawsOn_unsupported

theorem drawsOn_assignItems (items : List SelectItem) :
    (assignItems items).DrawsOn stock c pre fun _ => True := by
  induction items generalizing pre with
  | nil => exact drawsOn_pure fun _ => trivial
  | cons item rest ih =>
    obtain ⟨expr, label, target⟩ := item
    cases target with
    | none => exact drawsOn_mixedSelect
    | some target => exact drawsOn_bind (drawsOn_assignVariable hown target expr) fun _ => ih

omit hown in
theorem drawsOn_rowValue {value : Value} (h : pre → stock.Fits value) :
    (rowValue value).DrawsOn stock c pre fun e => e.Composed stock false 1 := by
  have hcoerce (target : GoType) : (do
      return (← coerce value target).code : Lower Go.Expr).DrawsOn stock c pre fun e =>
        e.Composed stock false 1 :=
    drawsOn_bind (drawsOn_coerce h target) fun _ => drawsOn_pure fun hpre => hpre.2.1.operand
  unfold rowValue
  split
  · exact drawsOn_pure fun hpre => (h hpre).operand
  · exact hcoerce _
  · exact drawsOn_pure fun _ => .loosen .nil (by decide)
  · exact hcoerce _

theorem drawsOn_rowValues (items : List SelectItem) :
    (rowValues items).DrawsOn stock c pre fun values =>
      ∀ e ∈ values, e.Composed stock false 1 := by
  induction items generalizing pre with
  | nil => exact drawsOn_pure fun _ => List.forall_mem_nil _
  | cons item rest ih =>
    obtain ⟨expr, label, target⟩ := item
    refine drawsOn_bind (drawsOn_lowerExpr hown expr none fun _ => hasHint_none) fun value => ?_
    refine drawsOn_bind (drawsOn_rowValue And.right) fun e => ?_
    exact drawsOn_bind ih fun values => drawsOn_pure fun hpre =>
      List.forall_mem_cons.mpr ⟨hpre.1.2, hpre.2⟩

theorem drawsOn_lowerValues (query : Select) :
    (lowerValues query).DrawsOn stock c pre fun _ => True := by
  have hcount {pre : Prop} : (do
      if (← read).survey.tracksRowCount then
        emitOneRow : Lower Unit).DrawsOn stock c pre fun _ => True := by
    refine drawsOn_read_bind ?_
    split
    · exact drawsOn_emitOneRow
    · exact drawsOn_pure fun _ => trivial
  unfold lowerValues
  split
  · exact drawsOn_bind (drawsOn_assignItems hown query.items) fun _ => hcount
  · refine drawsOn_bind (drawsOn_rowValues hown query.items) fun values => ?_
    refine drawsOn_bind (drawsOn_runtimeCall_qualified "EmitValues" fun hpre => ?_) fun call => ?_
    · simpa [Expr.qualifiers] using fun e he => (hpre.2 e he).qualified
    · exact drawsOn_bind (drawsOn_emit fun hpre => hpre.2) fun _ => hcount

theorem drawsOn_lowerQuery (query : Select) :
    (lowerQuery query).DrawsOn stock c pre fun _ => True := by
  unfold lowerQuery
  refine drawsOn_bind (drawsOn_renderQuery hown (.select query)) fun rendered => ?_
  refine drawsOn_read_bind ?_
  dsimp only
  split
  · refine drawsOn_when drawsOn_mixedSelect ?_
    refine drawsOn_bind (drawsOn_annotated (hasEffect_goNames _)) fun targets => ?_
    exact drawsOn_emitScan hown (fun hpre => hpre.1.2) targets _
  · refine drawsOn_bind (drawsOn_handle hown) fun owner => ?_
    refine drawsOn_bind (drawsOn_runtimeCall_qualified _ fun hpre => ?_) fun call =>
      drawsOn_emitGuarded fun hpre => has_guarded hpre.2
    obtain ⟨⟨-, hargs⟩, id, rfl, -⟩ := hpre
    simpa [Expr.qualifiers] using hargs

/-! ## Requests -/

theorem drawsOn_requestSelect (backend : Backend) (query : Select) (table : TableRef) :
    (requestSelect backend query table).DrawsOn stock c pre fun _ => True := by
  unfold requestSelect
  refine drawsOn_bind (drawsOn_annotated (hasEffect_warnJoins _)) fun _ => ?_
  refine drawsOn_bind (drawsOn_annotated (hasEffect_tableMethod ..)) fun found => ?_
  dsimp only
  refine drawsOn_bind (drawsOn_filterFields hown _) fun fields => ?_
  split
  · refine drawsOn_bind (drawsOn_annotated (hasEffect_itemReads _)) fun reads => ?_
    refine drawsOn_emitCallWith hown _ _ _ (fun hpre => hpre.1.2) fun id => ?_
    refine drawsOn_bind (drawsOn_emitReads reads And.right) fun _ => drawsOn_read_bind ?_
    split
    · exact drawsOn_emitOneRow
    · exact drawsOn_pure fun _ => trivial
  · refine drawsOn_emitCallWith hown _ _ _ And.right fun id => ?_
    refine drawsOn_bind (drawsOn_runtimeCall_qualified "EmitMessage" fun _ => ?_) fun call =>
      drawsOn_emit fun hpre => hpre.2
    simp [Expr.qualifiers]

theorem drawsOn_requestRows (backend : Backend) (client : ClientRef) (method : String)
    (columns : List String) (rows : List (List Expr)) :
    (requestRows backend client method columns rows).DrawsOn stock c pre fun _ => True := by
  induction rows generalizing pre with
  | nil => exact drawsOn_pure fun _ => trivial
  | cons row rest ih =>
    refine drawsOn_bind (drawsOn_addFields hown _ _ fun _ => by simp [HasFields]) fun fields => ?_
    exact drawsOn_bind (drawsOn_emitCall _ _ _ And.right) fun _ => ih

theorem drawsOn_requestInsert (backend : Backend) (insert : Insert) :
    (requestInsert backend insert).DrawsOn stock c pre fun _ => True := by
  unfold requestInsert
  refine drawsOn_when drawsOn_fail ?_
  split
  · exact drawsOn_fail
  · refine drawsOn_bind (drawsOn_annotated (hasEffect_tableMethod ..)) fun found => ?_
    exact drawsOn_requestRows hown _ _ _ _ _

theorem drawsOn_requestUpdate (backend : Backend) (update : Update) :
    (requestUpdate backend update).DrawsOn stock c pre fun _ => True := by
  refine drawsOn_bind (drawsOn_annotated (hasEffect_tableMethod ..)) fun found => ?_
  refine drawsOn_bind (drawsOn_filterFields hown _) fun fields => ?_
  refine drawsOn_bind (drawsOn_addFields hown _ _ And.right) fun fields => ?_
  exact drawsOn_emitCall _ _ _ And.right

theorem drawsOn_requestDelete (backend : Backend) (delete : Delete) :
    (requestDelete backend delete).DrawsOn stock c pre fun _ => True := by
  refine drawsOn_bind (drawsOn_annotated (hasEffect_tableMethod ..)) fun found => ?_
  refine drawsOn_bind (drawsOn_filterFields hown _) fun fields => ?_
  exact drawsOn_emitCall _ _ _ And.right

theorem drawsOn_requestArgs (callee : String) (args : List ExecArg) (position : Nat)
    {fields : Fields} (hfields : pre → HasFields stock fields) (reads : Reads) :
    (requestArgs callee position fields reads args).DrawsOn stock c pre fun result =>
      HasFields stock result.1 := by
  induction args generalizing position fields reads pre with
  | nil => exact drawsOn_pure hfields
  | cons arg rest ih =>
    have hnext {fields : Fields} {pre : Prop} (hfields : pre → HasFields stock fields) :
        (if arg.output = true then outputVariable arg >>= fun found =>
          requestArgs callee (position + 1) fields
            (reads ++ [(found.2, Identifier.fieldName (arg.name.getD found.1))]) rest
        else requestArgs callee (position + 1) fields reads rest).DrawsOn stock c pre fun result =>
          HasFields stock result.1 := by
      split
      · exact drawsOn_bind (drawsOn_annotated (hasEffect_outputVariable arg)) fun found =>
          ih _ (fun hpre => hfields hpre.1) _
      · exact ih _ hfields _
    have hfilled (field : String) {pre : Prop} (hfields : pre → HasFields stock fields) :=
      drawsOn_addField (c := c) hown "argument" hfields field arg.value
    unfold requestArgs
    dsimp only
    split
    · refine drawsOn_bind (P := fun _ => True) (drawsOn_pure fun _ => trivial) fun field => ?_
      exact drawsOn_bind (hfilled field fun hpre => hfields hpre.1) fun fields => hnext And.right
    · refine drawsOn_bind (drawsOn_warn _ _) fun _ => ?_
      refine drawsOn_bind (P := fun _ => True) (drawsOn_pure fun _ => trivial) fun field => ?_
      exact drawsOn_bind (hfilled field fun hpre => hfields hpre.1.1) fun fields => hnext And.right

theorem drawsOn_requestExec (backend : Backend) (exec : Exec) :
    (requestExec backend exec).DrawsOn stock c pre fun _ => True := by
  refine drawsOn_bind (drawsOn_ofExcept fun _ _ => trivial) fun method => ?_
  refine drawsOn_bind (drawsOn_requestArgs hown _ _ _ (fun _ => by simp [HasFields]) _)
    fun request => ?_
  have hcall (reads : Reads) {pre : Prop} (hfields : pre → HasFields stock request.1) : (do
      let client := (← read).config.execClient
      if reads.isEmpty then
        emitCall backend client method request.1
      else
        emitCallWith backend client method request.1 fun response =>
          emitReads response reads : Lower Unit).DrawsOn stock c pre fun _ => True := by
    refine drawsOn_read_bind ?_
    dsimp only
    split
    · exact drawsOn_emitCall _ _ _ hfields
    · exact drawsOn_emitCallWith hown _ _ _ hfields fun id => drawsOn_emitReads _ And.right
  dsimp only
  split
  · refine drawsOn_bind (drawsOn_lookup _) fun symbol => ?_
    exact drawsOn_bind (P := fun _ => True) (drawsOn_pure fun _ => trivial) fun reads =>
      hcall _ fun hpre => hpre.1.1.2
  · exact drawsOn_bind (P := fun _ => True) (drawsOn_pure fun _ => trivial) fun reads =>
      hcall _ fun hpre => hpre.1.2

theorem drawsOn_requestRowsOf (query : Select) (table : TableRef) :
    (requestRowsOf query table).DrawsOn stock c pre fun e => stock.Has e.qualifiers := by
  refine drawsOn_bind (drawsOn_filterFields hown _) fun fields => drawsOn_read_bind ?_
  exact drawsOn_bind (drawsOn_remoteCall _ _ _ And.right) fun call => drawsOn_pure fun hpre => hpre.2.1

/-! ## Data statements -/

theorem drawsOn_lowerSelect (query : Select) :
    (lowerSelect query).DrawsOn stock c pre fun _ => True := by
  unfold lowerSelect
  split
  · exact drawsOn_lowerValues hown query
  next table _ =>
    refine drawsOn_bind (drawsOn_backendFor table) fun backend => ?_
    cases backend with
    | sql => exact drawsOn_lowerQuery hown query
    | _ => exact drawsOn_requestSelect hown _ query table

theorem drawsOn_lowerInsert (insert : Insert) :
    (lowerInsert insert).DrawsOn stock c pre fun _ => True := by
  refine drawsOn_bind (drawsOn_backendFor insert.table) fun backend => ?_
  cases backend with
  | sql =>
    exact drawsOn_bind (drawsOn_renderQuery hown (.insert insert)) fun query =>
      drawsOn_emitExec hown And.right true
  | _ => exact drawsOn_requestInsert hown _ insert

theorem drawsOn_lowerUpdate (update : Update) :
    (lowerUpdate update).DrawsOn stock c pre fun _ => True := by
  refine drawsOn_bind (drawsOn_backendFor update.table) fun backend => ?_
  cases backend with
  | sql =>
    exact drawsOn_bind (drawsOn_renderQuery hown (.update update)) fun query =>
      drawsOn_emitExec hown And.right false
  | _ => exact drawsOn_requestUpdate hown _ update

theorem drawsOn_lowerDelete (delete : Delete) :
    (lowerDelete delete).DrawsOn stock c pre fun _ => True := by
  refine drawsOn_bind (drawsOn_backendFor delete.table) fun backend => ?_
  cases backend with
  | sql =>
    exact drawsOn_bind (drawsOn_renderQuery hown (.delete delete)) fun query =>
      drawsOn_emitExec hown And.right false
  | _ => exact drawsOn_requestDelete hown _ delete

theorem drawsOn_callDatabase (exec : Exec) :
    (callDatabase exec).DrawsOn stock c pre fun _ => True := by
  unfold callDatabase
  refine drawsOn_bind (drawsOn_renderQuery hown (.exec exec)) fun query => ?_
  refine drawsOn_bind (drawsOn_annotated (hasEffect_outputTargets _)) fun outputs => ?_
  have hstatus {pre : Prop} (status : String) : (do
      let symbol ← lookup status
      warn .approximation
        (s!"return status of {exec.baseName} is not reported by database/sql; " ++
          s!"{status} is set to its zero value")
      emitAssign symbol.goName (.zero symbol.type.go) : Lower Unit).DrawsOn stock c pre
        fun _ => True := by
    refine drawsOn_bind (drawsOn_lookup _) fun symbol => ?_
    refine drawsOn_bind (drawsOn_warn _ _) fun _ => drawsOn_emitAssign _ fun hpre => ?_
    simpa [Expr.qualifiers] using hpre.1.2.2
  dsimp only
  split
  · refine drawsOn_bind (drawsOn_emitExec hown (fun hpre => hpre.1.2) false) fun _ => ?_
    split
    · exact drawsOn_pure fun _ => trivial
    · exact hstatus _
  · refine drawsOn_bind (drawsOn_emitScan hown (fun hpre => hpre.1.2) outputs false) fun _ => ?_
    split
    · exact drawsOn_pure fun _ => trivial
    · exact hstatus _

theorem drawsOn_lowerExec (exec : Exec) :
    (lowerExec exec).DrawsOn stock c pre fun _ => True := by
  refine drawsOn_read_bind ?_
  cases c.config.backend with
  | sql => exact drawsOn_callDatabase hown exec
  | _ => exact drawsOn_requestExec hown _ exec

omit hown in
theorem drawsOn_modify {change : Progress → Progress}
    (hprovides : ∀ p, stock.Iterates p → p.Provides stock (change p))
    (houtput : ∀ p, (change p).output = p.output) :
    (modify change : Lower PUnit).DrawsOn stock c pre fun _ => True := by
  intro before _ after hruns hiterates
  obtain rfl := runs_modify.mp hruns
  refine ⟨hprovides before hiterates, [], ?_, fun _ _ => ⟨List.forall_mem_nil _, trivial⟩⟩
  rw [houtput, List.append_nil]

/-! ## Transactions -/

omit hown in
theorem drawsOn_setTransaction (transaction : TransactionState) :
    (setTransaction transaction).DrawsOn stock c pre fun _ => True :=
  drawsOn_modify (fun _ _ => .of_grows (.of_eq rfl rfl rfl rfl) rfl rfl) fun _ => rfl

theorem covers_tx : stock.Covers (.owner "tx") :=
  covers_name (hown.kept _ (by decide))

omit hown in
theorem drawsOn_emitNoTransaction : emitNoTransaction.DrawsOn stock c pre fun _ => True :=
  drawsOn_emitAssign _ fun _ => has_nil

theorem drawsOn_emitBegin : emitBegin.DrawsOn stock c pre fun _ => True := by
  have hrollback {pre : Prop} : (emitIf none (.chain "&&" [failed, txOpen]) do
      emit (.assign (assignTo [.name "_"] (.invoke tx "Rollback" [])))
      emitNoTransaction).DrawsOn stock c pre fun _ => True := by
    refine drawsOn_emitIf (fun _ => has_nil) (fun _ => has_nil) ?_
    refine drawsOn_bind (drawsOn_emit fun _ => ?_) fun _ => drawsOn_emitNoTransaction
    simpa [Stmt.qualifiers, exprQualifiers, Expr.qualifiers, tx] using
      has_response (covers_tx hown) "Rollback"
  refine drawsOn_bind (drawsOn_emitGuarded fun _ => ?_) fun _ => ?_
  · have hcall : stock.Has (Expr.invoke (.name "db") "BeginTx" [ctx, .nil]).qualifiers :=
      has_invoke hown.database "BeginTx" (by simp [Expr.qualifiers])
    simpa [exprQualifiers, Expr.qualifiers, tx] using hcall
  · refine drawsOn_bind (drawsOn_block hrollback) fun body => drawsOn_emit fun hpre => ?_
    simpa [Stmt.qualifiers] using hpre.2

omit hown in
theorem drawsOn_transactionFault {α : Type} {P : α → Prop} (problem : String) :
    (transactionFault problem : Lower α).DrawsOn stock c pre P :=
  drawsOn_fail

theorem drawsOn_beginTransaction (name : Option String) :
    (beginTransaction name).DrawsOn stock c pre fun _ => True := by
  unfold beginTransaction
  refine drawsOn_get_bind fun p => ?_
  refine drawsOn_when (drawsOn_transactionFault _) ?_
  have hopen {pre : Prop} : (do
      setTransaction ⟨true, false⟩
      if (← read).survey.usesDb then
        emitBegin
      else
        warnNoHandle "BEGIN TRANSACTION" : Lower Unit).DrawsOn stock c pre fun _ => True := by
    refine drawsOn_bind (drawsOn_setTransaction _) fun _ => drawsOn_read_bind ?_
    split
    · exact drawsOn_emitBegin hown
    · exact drawsOn_warn _ _
  cases name with
  | none => exact hopen
  | some name => exact drawsOn_bind (drawsOn_warn _ _) fun _ => hopen

theorem drawsOn_endTransaction (keyword method : String) :
    (endTransaction keyword method).DrawsOn stock c pre fun _ => True := by
  unfold endTransaction
  refine drawsOn_get_bind fun p => ?_
  dsimp only
  refine drawsOn_when (drawsOn_transactionFault _) ?_
  refine drawsOn_bind (drawsOn_setTransaction _) fun _ => drawsOn_read_bind ?_
  have hfinish {pre : Prop} : (do
      emitGuarded (assignTo [err] (.invoke tx method []))
      emitNoTransaction : Lower Unit).DrawsOn stock c pre fun _ => True :=
    drawsOn_bind (drawsOn_emitGuarded fun _ => has_checked (has_response (covers_tx hown) method))
      fun _ => drawsOn_emitNoTransaction
  split
  · split
    · exact drawsOn_emitIf (fun _ => has_nil) (fun _ => has_nil) hfinish
    · exact hfinish
  · exact drawsOn_warn _ _

/-! ## Cursors -/

omit hown in
theorem drawsOn_cursorFault {α : Type} {P : α → Prop} (cursor : String) (problem : CursorProblem) :
    (cursorFault cursor problem : Lower α).DrawsOn stock c pre P :=
  drawsOn_fail

omit hown in
/-- A cursor that is known has an iterator in stock. -/
theorem drawsOn_getCursor_bind {α : Type} {P : α → Prop} {name : String} {next : Cursor → Lower α}
    (h : ∀ cursor, stock.Covers (.owner cursor.iterator) → (next cursor).DrawsOn stock c pre P) :
    (getCursor name >>= next).DrawsOn stock c pre P := by
  intro before value after hruns hiterates
  obtain ⟨cursor, _, hget, hnext⟩ := runs_bind.mp hruns
  obtain ⟨hcursor, rfl⟩ := runs_getCursor.mp hget
  exact h cursor (hiterates _ (CursorTable.mem_of_get? hcursor)) hnext hiterates

omit hown in
theorem drawsOn_putCursor (name : String) {cursor : Cursor}
    (h : stock.Covers (.owner cursor.iterator)) :
    (putCursor name cursor).DrawsOn stock c pre fun _ => True := by
  refine drawsOn_modify (fun p hiterates => ?_) fun _ => rfl
  exact ⟨.of_eq rfl rfl rfl rfl, fun _ hsymbol => .inl hsymbol,
    fun _ => CursorTable.forall_mem_put hiterates h⟩

/-- What is done with the name of an iterator is done with one in stock. -/
theorem drawsOn_iteratorName_bind {α : Type} {P : α → Prop} {cursor : String}
    {next : String → Lower α}
    (h : ∀ id, stock.Covers (.owner id) → (next id).DrawsOn stock c pre P) :
    (iteratorName cursor >>= next).DrawsOn stock c pre P := by
  intro before value after hruns
  obtain ⟨id, _, hname, hnext⟩ := runs_bind.mp hruns
  obtain ⟨rfl, rfl⟩ := runs_localName hname
  refine h _ (hown.results _ (.iterator (show _ ∈ iteratorNames cursor from ?_))) hnext
  split <;> simp [iteratorNames, String.append_assoc]

omit hown in
theorem drawsOn_iteratorType (backend : Backend) :
    (iteratorType backend).DrawsOn stock c pre fun type => stock.Has type.qualifiers := by
  have hrows {package : String} (h : stock.packages package) :
      stock.Has (TypeExpr.pointer (.named package "Rows")).qualifiers := by
    simpa [TypeExpr.qualifiers, Stock.Covers] using h
  unfold iteratorType
  split
  · exact drawsOn_bind drawsOn_mockPackage fun package => drawsOn_pure fun hpre => hrows hpre.2
  · exact drawsOn_bind (drawsOn_importPath "sql" (by simp [Config.packages])) fun _ =>
      drawsOn_pure fun hpre => hrows hpre.2

omit hown in
theorem drawsOn_emitRelease {iterator : String} (h : stock.Covers (.owner iterator)) :
    (emitRelease iterator).DrawsOn stock c pre fun _ => True := by
  have hclose : stock.Has (Stmt.assign (assignTo [.name "_"]
      (.invoke (.name iterator) "Close" []))).qualifiers := by
    simpa [Stmt.qualifiers, exprQualifiers, Expr.qualifiers] using has_response h "Close"
  refine drawsOn_bind (drawsOn_block (drawsOn_emitIf (fun _ => has_nil) (fun _ => has_nil)
    (drawsOn_emit fun _ => hclose))) fun body => drawsOn_emit fun hpre => ?_
  simpa [Stmt.qualifiers] using hpre.2

theorem drawsOn_hoistIterator (name : String) (query : Select) :
    (hoistIterator name query).DrawsOn stock c pre fun _ => True := by
  refine drawsOn_read_bind ?_
  dsimp only
  split
  · refine drawsOn_iteratorName_bind hown fun iterator hiterator => ?_
    refine drawsOn_bind (drawsOn_iteratorType _) fun type => ?_
    have hbind : ∀ p : Progress,
        p.Provides stock { p with names := (p.names.bind iterator).2 } := fun p =>
      .of_grows (.of_names (.bind p.names iterator)) rfl rfl
    refine drawsOn_bind (drawsOn_modify (fun p _ => hbind p) fun _ => rfl) fun _ => ?_
    refine drawsOn_bind (drawsOn_emit fun hpre => ?_) fun _ => ?_
    · simpa [Stmt.qualifiers, optionQualifiers] using hpre.1.2
    · split
      · exact drawsOn_emitRelease hiterator
      · exact drawsOn_pure fun _ => trivial
  · exact drawsOn_pure fun _ => trivial

theorem drawsOn_hoistIterators (statements : List Statement) :
    (hoistIterators statements).DrawsOn stock c pre fun _ => True := by
  induction statements generalizing pre with
  | nil => exact drawsOn_pure fun _ => trivial
  | cons statement rest ih =>
    cases statement with
    | declareCursor name query =>
      exact drawsOn_bind (drawsOn_hoistIterator hown name query) fun _ => ih
    | _ => exact ih

theorem drawsOn_declareCursor (name : String) (query : Select) :
    (declareCursor name query).DrawsOn stock c pre fun _ => True := by
  unfold declareCursor
  refine drawsOn_get_bind fun p => ?_
  refine drawsOn_when (drawsOn_cursorFault _ _) ?_
  split
  · exact drawsOn_cursorFault _ _
  next table _ =>
    refine drawsOn_bind (drawsOn_backendFor table) fun backend => ?_
    refine drawsOn_when (drawsOn_cursorFault _ _) ?_
    exact drawsOn_iteratorName_bind hown fun iterator hiterator => drawsOn_putCursor name hiterator

theorem drawsOn_rowsCall (cursor : Cursor) :
    (rowsCall cursor).DrawsOn stock c pre fun call => stock.Has call.qualifiers := by
  unfold rowsCall
  split
  · exact drawsOn_requestRowsOf hown _ _
  · exact drawsOn_unsupported
  · refine drawsOn_bind (drawsOn_renderQuery hown (.select cursor.query)) fun query => ?_
    refine drawsOn_bind (drawsOn_handle hown) fun owner => drawsOn_pure fun hpre => ?_
    obtain ⟨⟨-, hargs⟩, id, rfl, hid⟩ := hpre
    exact has_dataCall hid _ hargs

theorem drawsOn_openCursor (name : String) :
    (openCursor name).DrawsOn stock c pre fun _ => True := by
  unfold openCursor
  refine drawsOn_getCursor_bind fun cursor hcursor => ?_
  refine drawsOn_when (drawsOn_cursorFault _ _) ?_
  refine drawsOn_bind (drawsOn_rowsCall hown cursor) fun call => ?_
  refine drawsOn_bind (drawsOn_iteratorType _) fun type => ?_
  refine drawsOn_bind (drawsOn_bindLocal _ And.right) fun define => ?_
  refine drawsOn_bind (drawsOn_emit fun hpre => has_assigned hpre.1.1.2) fun _ => ?_
  refine drawsOn_read_bind ?_
  have hput {pre : Prop} :
      (putCursor name { cursor with state := .opened }).DrawsOn stock c pre fun _ => True :=
    drawsOn_putCursor name hcursor
  split
  · refine drawsOn_bind (drawsOn_emitIf (fun _ => has_nil) (fun _ => has_nil) drawsOn_errorExit)
      fun _ => hput
  · refine drawsOn_bind (drawsOn_emitChecked (drawsOn_emit fun _ => ?_)) fun _ => hput
    exact has_response hcursor "Close"

omit hown in
/-- What is done with the iterator of a fetch is done with one in stock. -/
theorem drawsOn_fetchIterator_bind {α : Type} {P : α → Prop} (fetch : Fetch)
    {next : Go.Expr → Lower α}
    (h : ∀ id, stock.Covers (.owner id) → (next (.name id)).DrawsOn stock c pre P) :
    (fetchIterator fetch >>= next).DrawsOn stock c pre P := by
  intro before value after hruns hiterates
  obtain ⟨iterator, _, hfetch, hnext⟩ := runs_bind.mp hruns
  obtain ⟨rfl, cursor, hcursor, -, rfl⟩ := runs_fetchIterator hfetch
  have hget := CursorTable.get_eq_ok_iff.mp hcursor
  exact h _ (hiterates _ (CursorTable.mem_of_get? hget)) hnext hiterates

omit hown in
theorem drawsOn_emitRow {iterator : String} (h : stock.Covers (.owner iterator))
    (targets : List String) :
    (emitRow (.name iterator) targets).DrawsOn stock c pre fun _ => True :=
  drawsOn_emitGuarded fun _ => has_checked (has_invoke h "Scan" (has_addresses targets))

omit hown in
theorem drawsOn_fetchRow (fetch : Fetch) : (fetchRow fetch).DrawsOn stock c pre fun _ => True := by
  refine drawsOn_fetchIterator_bind fetch fun iterator hiterator => drawsOn_read_bind ?_
  split
  · exact drawsOn_pure fun _ => trivial
  · refine drawsOn_bind (drawsOn_annotated (hasEffect_goNames _)) fun targets => ?_
    exact drawsOn_emitIf (fun _ => has_nil) (fun _ => has_response hiterator "Next")
      (drawsOn_emitRow hiterator targets)

omit hown in
theorem drawsOn_closeCursor (name : String) :
    (closeCursor name).DrawsOn stock c pre fun _ => True := by
  refine drawsOn_getCursor_bind fun cursor hcursor => ?_
  split
  · refine drawsOn_putCursor name ?_
    exact hcursor
  · exact drawsOn_cursorFault _ _
  · exact drawsOn_cursorFault _ _

omit hown in
theorem drawsOn_deallocateCursor (name : String) :
    (deallocateCursor name).DrawsOn stock c pre fun _ => True := by
  refine drawsOn_getCursor_bind fun cursor _ => ?_
  refine drawsOn_modify (fun p hiterates => ?_) fun _ => rfl
  exact ⟨.of_eq rfl rfl rfl rfl, fun _ hsymbol => .inl hsymbol,
    fun _ entry hentry => hiterates entry (CursorTable.remove_subset hentry)⟩

theorem drawsOn_emitLoopTest (condition : Expr) :
    (emitLoopTest condition).DrawsOn stock c pre fun _ => True := by
  refine drawsOn_bind (drawsOn_lowerCondition hown condition) fun test => ?_
  refine drawsOn_emitIf (fun _ => has_nil) (fun hpre => ?_) (drawsOn_emit fun _ => has_nil)
  simpa [Expr.qualifiers] using hpre.2.qualified

theorem drawsOn_emitRound {iterator : String} (h : stock.Covers (.owner iterator))
    (targets : List String) (rest : Option Expr) :
    (emitRound (.name iterator) targets rest).DrawsOn stock c pre fun _ => True := by
  refine drawsOn_bind (drawsOn_emitRow h targets) fun _ => ?_
  split
  · exact drawsOn_emitLoopTest hown _
  · exact drawsOn_pure fun _ => trivial

/-- A loop over the rows of a cursor, whose body is taken inside the loop. -/
theorem drawsOn_lowerCursorLoop (fetch : Fetch) (rest : Option Expr) {body : Lower Unit}
    (hbody : ∀ pre : Prop, body.DrawsOn stock (inCursorLoop fetch c) pre fun _ => True) :
    (lowerCursorLoop fetch rest body).DrawsOn stock c pre fun _ => True := by
  refine drawsOn_fetchIterator_bind fetch fun iterator hiterator => ?_
  refine drawsOn_bind (drawsOn_annotated (hasEffect_goNames _)) fun targets => ?_
  have hround {pre : Prop} : (do emitRound (.name iterator) targets rest; body).DrawsOn stock
      (inCursorLoop fetch c) pre fun _ => True :=
    drawsOn_bind (drawsOn_emitRound hown hiterator targets rest) fun _ => hbody _
  refine drawsOn_bind (drawsOn_within rfl (drawsOn_block hround)) fun statements => ?_
  refine drawsOn_bind (drawsOn_emit fun hpre => ?_) fun _ => drawsOn_emitGuarded fun _ => ?_
  · simp only [Stmt.qualifiers, optionQualifiers, has_append, has_listQualifiers]
    exact ⟨has_response hiterator "Next", hpre.2⟩
  · exact has_checked (has_response hiterator "Err")

/-! ## Errors -/

omit hown in
theorem drawsOn_emitLog (hooked plain : String) {message : Go.Expr}
    (h : pre → stock.Has message.qualifiers) :
    (emitLog hooked plain message).DrawsOn stock c pre fun _ => True := by
  refine drawsOn_read_bind ?_
  split
  · exact drawsOn_emitLine (by simp [Config.packages]) fun hpre => by simpa using h hpre
  · exact drawsOn_emitLine (by simp [Config.packages]) fun hpre => by simpa using h hpre

omit hown in
theorem drawsOn_propagateReturn : propagateReturn.DrawsOn stock c pre fun _ => True := by
  have hleave {pre : Prop} : (emit (.ret [])).DrawsOn stock c pre fun _ => True :=
    drawsOn_emit fun _ => has_nil
  refine drawsOn_read_bind ?_
  split
  · exact drawsOn_bind (drawsOn_emitAssign _ fun _ => has_nil) fun _ => hleave
  · exact drawsOn_bind (drawsOn_warn _ _) fun _ => hleave

theorem drawsOn_lowerStatus (status : Option Expr) :
    (lowerStatus status).DrawsOn stock c pre fun value =>
      ∀ e ∈ value, stock.Has e.qualifiers := by
  cases status with
  | none => exact drawsOn_pure fun _ => by simp
  | some expr =>
    refine drawsOn_bind (drawsOn_lowerValue hown expr .int32) fun value => drawsOn_pure ?_
    rintro ⟨-, hvalue⟩ _ ⟨⟩
    exact hvalue.qualified

omit hown in
theorem drawsOn_lowerReturn {status : Option Go.Expr}
    (h : pre → ∀ e ∈ status, stock.Has e.qualifiers) :
    (lowerReturn status).DrawsOn stock c pre fun _ => True := by
  refine drawsOn_read_bind ?_
  split
  · refine drawsOn_emitReturn (fun hpre => ?_) fun _ => has_nil
    cases status with
    | none => exact has_nil
    | some value => exact h hpre value rfl
  · cases status with
    | none => exact drawsOn_propagateReturn
    | some value =>
      exact drawsOn_bind (drawsOn_emitAssign _ fun hpre => h hpre value rfl) fun _ =>
        drawsOn_propagateReturn
  · exact drawsOn_bind (drawsOn_warn _ _) fun _ => drawsOn_emitLog _ _ fun _ => has_nil

omit hown in
theorem drawsOn_raise {error : Go.Expr} (h : pre → stock.Has error.qualifiers) :
    (raise error).DrawsOn stock c pre fun _ => True := by
  refine drawsOn_read_bind ?_
  split
  · exact drawsOn_emitReturn (fun _ => has_nil) h
  · exact drawsOn_emit fun hpre => by simpa [Stmt.qualifiers] using h hpre
  · refine drawsOn_bind (drawsOn_emit fun hpre => ?_) fun _ => drawsOn_emit fun _ => has_nil
    simpa [Stmt.qualifiers] using has_checked (h hpre)

theorem drawsOn_lowerThrow (args : Option ThrowArgs) :
    (lowerThrow args).DrawsOn stock c pre fun _ => True := by
  cases args with
  | none =>
    refine drawsOn_read_bind ?_
    exact drawsOn_when drawsOn_unsupported (drawsOn_raise fun _ => has_nil)
  | some args =>
    refine drawsOn_bind (drawsOn_lowerValue hown args.number .int32) fun number => ?_
    refine drawsOn_bind (drawsOn_lowerValue hown args.message .string) fun message => ?_
    refine drawsOn_bind (drawsOn_importPath "fmt" (by simp [Config.packages])) fun _ => ?_
    refine drawsOn_raise fun hpre => has_invoke (covers_package hpre.2) _ ?_
    simp [Expr.qualifiers, hpre.1.1.2.qualified, hpre.1.2.qualified]

theorem drawsOn_lowerRaiserror (message severity : Expr) :
    (lowerRaiserror message severity).DrawsOn stock c pre fun _ => True := by
  refine drawsOn_bind (drawsOn_lowerValue hown message .string) fun text => ?_
  split
  · exact drawsOn_emitLog _ _ fun hpre => hpre.2.qualified
  · refine drawsOn_bind (drawsOn_importPath "errors" (by simp [Config.packages])) fun _ => ?_
    refine drawsOn_raise fun hpre => has_invoke (covers_package hpre.2) _ ?_
    simpa using hpre.1.2.qualified

omit hown in
theorem drawsOn_emitCaught : emitCaught.DrawsOn stock c pre fun _ => True := by
  refine drawsOn_bind (drawsOn_importPath "fmt" (by simp [Config.packages])) fun _ => ?_
  refine drawsOn_bind (drawsOn_emit fun _ => has_nil) fun _ => ?_
  refine drawsOn_emitIf (fun _ => has_nil) (fun _ => has_nil) (drawsOn_emitAssign _ fun hpre => ?_)
  exact has_invoke (covers_package hpre.1.2) _ (by simp [Expr.qualifiers])

omit hown in
theorem drawsOn_emitHandlerStart (catchBody : List Statement) :
    (emitHandlerStart catchBody).DrawsOn stock c pre fun _ => True := by
  refine drawsOn_when drawsOn_emitCaught (drawsOn_read_bind ?_)
  split
  · exact drawsOn_emit fun _ => has_nil
  · exact drawsOn_pure fun _ => trivial

omit hown in
/-- A handler, whose statements are taken in its own context. -/
theorem drawsOn_emitRecover (catchBody : List Statement) {handler : Lower Unit}
    (h : ∀ pre : Prop, handler.DrawsOn stock (inHandler c) pre fun _ => True) :
    (emitRecover catchBody handler).DrawsOn stock c pre fun _ => True := by
  have hhandler {pre : Prop} : (do emitHandlerStart catchBody; within inHandler handler).DrawsOn
      stock c pre fun _ => True :=
    drawsOn_bind (drawsOn_emitHandlerStart catchBody) fun _ => drawsOn_within rfl (h _)
  refine drawsOn_bind (drawsOn_block (drawsOn_emitIf (fun _ => has_nil) (fun _ => has_nil) hhandler))
    fun deferred => drawsOn_emit fun hpre => ?_
  simpa [Stmt.qualifiers] using hpre.2

omit hown in
theorem drawsOn_emitWayOut (flag : Option String) (catchBody : List Statement) :
    (emitWayOut flag catchBody).DrawsOn stock c pre fun _ => True := by
  refine drawsOn_read_bind ?_
  have hreport {pre : Prop} : (if c.survey.needsErr && Statement.anyHandler Statement.raises catchBody
      then emitIf none failed (if c.exitScope = .catchHalf then emit (.ret []) else errorExit)
      else pure ()).DrawsOn stock c pre fun _ => True := by
    split
    · refine drawsOn_emitIf (fun _ => has_nil) (fun _ => has_nil) ?_
      split
      · exact drawsOn_emit fun _ => has_nil
      · exact drawsOn_errorExit
    · exact drawsOn_pure fun _ => trivial
  cases flag with
  | none => exact hreport
  | some flag =>
    refine drawsOn_bind (drawsOn_emitIf (fun _ => has_nil) (fun _ => has_nil) ?_) fun _ => hreport
    split
    · exact drawsOn_emitReturn (fun _ => has_nil) fun _ => has_nil
    · exact drawsOn_propagateReturn

omit hown in
theorem drawsOn_returnFlag? (body : List Statement) :
    (returnFlag? body).DrawsOn stock c pre fun _ => True := by
  refine drawsOn_read_bind ?_
  split
  · refine drawsOn_bind (drawsOn_fresh (P := fun _ => True) fun _ => trivial) fun name => ?_
    refine drawsOn_bind (drawsOn_emit fun _ => ?_) fun _ => drawsOn_pure fun _ => trivial
    simp [Stmt.qualifiers, TypeExpr.qualifiers, optionQualifiers, HasType, GoType.package?]
  · exact drawsOn_pure fun _ => trivial

omit hown in
/-- A `TRY` statement, whose halves are taken in their own contexts. -/
theorem drawsOn_lowerTryCatch (tryBody catchBody : List Statement) {attempt handler : Lower Unit}
    (hattempt : ∀ (pre : Prop) (flag : Option String),
      attempt.DrawsOn stock (inTry flag c) pre fun _ => True)
    (hhandler : ∀ pre : Prop, handler.DrawsOn stock (inHandler c) pre fun _ => True) :
    (lowerTryCatch tryBody catchBody attempt handler).DrawsOn stock c pre fun _ => True := by
  refine drawsOn_get_bind fun p => ?_
  refine drawsOn_bind (drawsOn_returnFlag? tryBody) fun flag => ?_
  refine drawsOn_bind (drawsOn_setTransaction _) fun _ => ?_
  have hliteral {pre : Prop} : (do
      emitRecover catchBody handler
      let afterCatch := (← get).transaction
      setTransaction p.transaction
      within (inTry flag) attempt
      setTransaction ((← get).transaction.join afterCatch) : Lower Unit).DrawsOn stock c pre
        fun _ => True := by
    refine drawsOn_bind (drawsOn_emitRecover catchBody hhandler) fun _ => drawsOn_get_bind fun q => ?_
    refine drawsOn_bind (drawsOn_setTransaction _) fun _ => ?_
    refine drawsOn_bind (drawsOn_within rfl (hattempt _ flag)) fun _ => drawsOn_get_bind fun r => ?_
    exact drawsOn_setTransaction _
  refine drawsOn_bind (drawsOn_block hliteral) fun literal => ?_
  refine drawsOn_bind (drawsOn_emit fun hpre => ?_) fun _ => drawsOn_emitWayOut flag catchBody
  simpa [Stmt.qualifiers] using hpre.2

end Own

end Lower

end Sproc
