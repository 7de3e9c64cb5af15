import Sproc.Proofs.Lower.Ledger

/-!
# Regular effects

Statements that hold no others are written in few forms: plain statements, conditionals, checked
calls, queries for a single row. An effect is regular in a context if these forms have it there, and
then data statements have it whatever backend they go to. With the ways out and the uses of cursors
and transactions, all statements that hold no others have it. So what is true of such statements is
shown for the forms alone.

## Main definitions

* `Effect.Regular`: the forms of data statements have an effect
* `Effect.Jumping`, `Effect.Raising`: so do jumps, messages, and the ways out for `RETURN` and for
  errors
* `Effect.AllowsCursors`, `Effect.AllowsTransactions`: so do the uses of cursors and transactions
* `Effect.Opening`: so does what stands in front of the statements

## Main results

* `hasEffect_lowerSelect`, `hasEffect_lowerInsert`, `hasEffect_lowerUpdate`,
  `hasEffect_lowerDelete`, `hasEffect_lowerExec`: data statements have regular effects
* `hasEffect_leaf`: all statements that hold no others
* `hasEffect_emitPrologue`: what the statements of a function share
-/

namespace Sproc

/-- Whether a statement holds no other statements and does not direct control. -/
def Go.Stmt.isPlain : Go.Stmt → Bool
  | .assign _ | .declare _ _ _ | .run _ | .deferCall _ => true
  | _ => false

/-- Whether a statement is about a cursor. -/
def Statement.isCursorUse : Statement → Bool
  | .declareCursor _ _ | .openCursor _ | .fetch _ | .closeCursor _ | .deallocate _ => true
  | _ => false

open Lower

namespace Effect

variable (effect : Effect) (context : Context)

/-- The forms that data statements are written in have an effect in a context. -/
structure Regular : Prop where
  /-- A plain statement that introduces nothing and assigns no variable that has been introduced. -/
  plain {s : Go.Stmt} : s.isPlain = true → s.introduces = [] →
    (∀ scope, s.rebindings scope = []) → s.bindsError = false → (emit s).HasEffect context effect
  /-- A variable with a numbered name, which is declared. -/
  numbered {α : Type} {base : String} {type : Go.TypeExpr} {next : String → Lower α}
    {f : String → String} : base ∈ NameScope.bases →
    (∀ n : Nat, f (base ++ toString n) = NameScope.numberedName base n) →
    (∀ target, (next target).HasEffect context effect) → (do
      let target ← fresh base
      emit (.declare (f target) type none)
      next target : Lower α).HasEffect context effect
  conditional (init : Option Go.Assign) (test : Go.Expr) {step : Lower Unit} :
    step.HasEffect context effect → (emitIf init test step).HasEffect context effect
  exit : errorExit.HasEffect context effect
  checked {success : Lower Unit} :
    success.HasEffect context effect → (emitChecked success).HasEffect context effect
  backend (table : TableRef) : (backendFor table).HasEffect context effect
  scan (query : Query Go.Expr) (targets : List String) (trackRows : Bool) :
    (emitScan query targets trackRows).HasEffect context effect
  exec (query : Query Go.Expr) (identity : Bool) : (emitExec query identity).HasEffect context effect
  call (backend : Backend) (client : ClientRef) (method : String) (fields : Fields) :
    (emitCall backend client method fields).HasEffect context effect
  callWith (backend : Backend) (client : ClientRef) (method : String) (fields : Fields)
    {onResponse : Go.Expr → Lower Unit} :
    (∀ response, (onResponse response).HasEffect context effect) →
    (emitCallWith backend client method fields onResponse).HasEffect context effect
  probe (backend : Backend) (query : Select) (table : TableRef) (target : String) :
    (requestExists backend query table target).HasEffect context effect

/-- So do jumps out of a loop, where there is one, a `RETURN`, and a message that is printed. -/
structure Jumping : Prop extends effect.Regular context where
  breakLoop : 0 < context.loops → (emit .breakLoop).HasEffect context effect
  continueLoop : 0 < context.loops → (emit .continueLoop).HasEffect context effect
  leave (status : Option Go.Expr) : (lowerReturn status).HasEffect context effect
  print (message : Expr) : (do
    emitPrint (← lowerValue message .string) : Lower Unit).HasEffect context effect

/-- The ways out for a raised error have an effect in a context. -/
structure Raising : Prop where
  raise (error : Go.Expr) : (raise error).HasEffect context effect
  raiseNew (message : Go.Expr) : (do
    importPath "errors"
    Lower.raise (.invoke (.name "errors") "New" [message]) : Lower Unit).HasEffect context effect

/-- The uses of cursors have an effect in a context, which may be refused. -/
structure AllowsCursors : Prop where
  admits : effect.AdmitsCursors
  put (name : String) (cursor : Cursor) : (putCursor name cursor).HasEffect context effect
  remove (name : String) : (modify fun p =>
    { p with cursors := p.cursors.remove name } : Lower PUnit).HasEffect context effect
  opens (name : String) : (openCursor name).HasEffect context effect

/-- What stands in front of the statements has an effect in a context: the note that the function is
entered, and the declarations at function entry. -/
structure Opening : Prop extends effect.Regular context where
  entry : emitEntry.HasEffect context effect
  counters : emitCounters.HasEffect context effect
  line (name : String) (type : Go.TypeExpr) : (emit (.declare name type none)).HasEffect context effect
  iterator (name : String) (query : Select) : (hoistIterator name query).HasEffect context effect

/-- The uses of transactions have an effect in a context. -/
structure AllowsTransactions : Prop where
  sets (transaction : TransactionState) : (setTransaction transaction).HasEffect context effect
  begins : emitBegin.HasEffect context effect

end Effect

namespace Lower

variable {α : Type} {context : Context}

/-! ## Jumps -/

/-- A jump is allowed where there is a loop in the innermost function literal. -/
theorem runs_checkJump {keyword : String} {p after : Progress} :
    (checkJump keyword).Runs context p () after ↔ 0 < context.loops ∧ after = p := by
  simp only [checkJump, runs_bind, runs_read, exists_and_left, and_assoc, exists_eq_left]
  split
  next hnone => split <;> simp [hnone]
  next hsome => simp [Nat.pos_of_ne_zero hsome]

/-- The refusal of a jump says whether there is a loop outside of the innermost function literal. -/
theorem fails_checkJump {keyword : String} {p after : Progress} {error : Error} :
    (checkJump keyword).Fails context p error after ↔ context.loops = 0 ∧ after = p ∧
      error = ⟨.unsupported keyword (if context.outerLoops.any (· > 0) then
        "cannot leave a loop across a TRY/CATCH boundary" else "outside of a WHILE loop"), none⟩ := by
  simp only [checkJump, fails_bind, not_fails_read, runs_read, false_or, exists_and_left, and_assoc,
    exists_eq_left]
  split
  next hnone => split <;> simp [hnone, unsupported, fails_fail, and_comm]
  next hsome => simp [hsome, not_fails_pure]

variable {effect : Effect} [effect.Composable]

/-- A jump is only written where a loop of the same function literal can be left. -/
theorem hasEffect_checkJump_bind (keyword : String) {next : Lower α}
    (h : 0 < context.loops → next.HasEffect context effect) :
    (checkJump keyword >>= fun _ => next).HasEffect context effect := by
  refine ⟨fun before result after hruns => ?_, fun before error after hfails => ?_⟩
  · obtain ⟨_, middle, hcheck, hnext⟩ := runs_bind.mp hruns
    obtain ⟨hloop, rfl⟩ := runs_checkJump.mp hcheck
    exact h hloop hnext
  · obtain hcheck | ⟨_, middle, hcheck, hnext⟩ := fails_bind.mp hfails
    · exact (hasEffect_checkJump keyword).fails hcheck
    · obtain ⟨hloop, rfl⟩ := runs_checkJump.mp hcheck
      exact (h hloop).fails hnext

variable [effect.Sparing context]

section Regular

variable (regular : effect.Regular context)

include regular

omit [effect.Composable] [effect.Sparing context] in
theorem hasEffect_assign (target : String) (value : Go.Expr) :
    (emitAssign target value).HasEffect context effect :=
  regular.plain rfl rfl (fun _ => rfl) rfl

omit [effect.Composable] [effect.Sparing context] in
/-- A call whose failure leaves at once. -/
theorem hasEffect_emitGuarded (init : Go.Assign) :
    (emitGuarded init).HasEffect context effect :=
  regular.conditional _ _ regular.exit

/-! ## Requests -/

omit [effect.Composable] [effect.Sparing context] in
theorem hasEffect_emitOneRow : emitOneRow.HasEffect context effect :=
  hasEffect_assign regular _ _

omit [effect.Sparing context] in
/-- Where rows are counted, a single row is. -/
theorem hasEffect_countRow : (do
    if (← read).survey.tracksRowCount then emitOneRow : Lower Unit).HasEffect context effect := by
  refine hasEffect_bind hasEffect_read fun _ => ?_
  split
  · exact hasEffect_emitOneRow regular
  · exact hasEffect_pure _

omit [effect.Sparing context] in
theorem hasEffect_emitReads (response : Go.Expr) (reads : Reads) :
    (emitReads response reads).HasEffect context effect := by
  induction reads with
  | nil => exact hasEffect_pure _
  | cons entry rest ih => exact hasEffect_bind (hasEffect_assign regular _ _) fun _ => ih

theorem hasEffect_requestSelect (backend : Backend) (query : Select) (table : TableRef) :
    (requestSelect backend query table).HasEffect context effect := by
  refine hasEffect_bind (hasEffect_warnJoins _) fun _ => ?_
  refine hasEffect_bind (hasEffect_tableMethod _ _ _) fun _ => ?_
  refine hasEffect_bind (hasEffect_filterFields _) fun _ => ?_
  split
  · refine hasEffect_bind (hasEffect_itemReads _) fun _ => ?_
    refine regular.callWith _ _ _ _ fun _ => ?_
    exact hasEffect_bind (hasEffect_emitReads regular _ _) fun _ => hasEffect_countRow regular
  · refine regular.callWith _ _ _ _ fun _ => ?_
    refine hasEffect_bind (hasEffect_runtimeCall _ _) fun _ => ?_
    exact regular.plain rfl rfl (fun _ => rfl) rfl

theorem hasEffect_requestRows (backend : Backend) (client : ClientRef) (method : String)
    (columns : List String) (rows : List (List Expr)) :
    (requestRows backend client method columns rows).HasEffect context effect := by
  induction rows with
  | nil => exact hasEffect_pure _
  | cons row rest ih =>
    refine hasEffect_bind (hasEffect_addFields ..) fun fields => ?_
    exact hasEffect_bind (regular.call ..) fun _ => ih

theorem hasEffect_requestInsert (backend : Backend) (insert : Insert) :
    (requestInsert backend insert).HasEffect context effect := by
  unfold requestInsert
  refine hasEffect_when (hasEffect_fail rfl) ?_
  split
  · exact hasEffect_fail rfl
  · refine hasEffect_bind (hasEffect_tableMethod _ _ _) fun _ => ?_
    exact hasEffect_requestRows regular _ _ _ _ _

theorem hasEffect_requestUpdate (backend : Backend) (update : Update) :
    (requestUpdate backend update).HasEffect context effect := by
  refine hasEffect_bind (hasEffect_tableMethod _ _ _) fun _ => ?_
  refine hasEffect_bind (hasEffect_filterFields _) fun _ => ?_
  refine hasEffect_bind (hasEffect_addFields _ _ _) fun _ => ?_
  exact regular.call _ _ _ _

theorem hasEffect_requestDelete (backend : Backend) (delete : Delete) :
    (requestDelete backend delete).HasEffect context effect := by
  refine hasEffect_bind (hasEffect_tableMethod _ _ _) fun _ => ?_
  refine hasEffect_bind (hasEffect_filterFields _) fun _ => ?_
  exact regular.call _ _ _ _

theorem hasEffect_requestExec (backend : Backend) (exec : Exec) :
    (requestExec backend exec).HasEffect context effect := by
  refine hasEffect_bind (hasEffect_ofExcept (failsPlainly_functionName _)) fun method => ?_
  refine hasEffect_bind (hasEffect_requestArgs ..) fun request => ?_
  have hcall (reads : Reads) : (do
      let client := (← read).config.execClient
      if reads.isEmpty then
        emitCall backend client method request.1
      else
        emitCallWith backend client method request.1 fun response =>
          emitReads response reads : Lower Unit).HasEffect context effect := by
    refine hasEffect_bind hasEffect_read fun _ => ?_
    dsimp only
    split
    · exact regular.call _ _ _ _
    · exact regular.callWith _ _ _ _ fun _ => hasEffect_emitReads regular _ _
  dsimp only
  split
  · refine hasEffect_bind (hasEffect_lookup _) fun _ => ?_
    exact hasEffect_bind (hasEffect_pure _) fun _ => hcall _
  · exact hasEffect_bind (hasEffect_pure _) fun _ => hcall _

/-! ## Queries inside expressions -/

theorem hasEffect_hoistExists (query : Select) :
    (hoistExists query).HasEffect context effect := by
  unfold hoistExists
  split
  · exact hasEffect_pure _
  · refine regular.numbered (f := id) (by decide)
      (fun n => (NameScope.numberedName_eq (by decide) n).symm) fun target => ?_
    refine hasEffect_bind (regular.backend _) fun backend => ?_
    cases backend with
    | sql =>
      refine hasEffect_bind (hasEffect_renderQuery (plainBuild_probe _)) fun _ => ?_
      refine hasEffect_bind hasEffect_handle fun _ => ?_
      exact hasEffect_bind (hasEffect_emitGuarded regular _) fun _ => hasEffect_pure _
    | _ => exact hasEffect_bind (regular.probe _ _ _ _) fun _ => hasEffect_pure _

theorem hasEffect_hoistScalar (query : Select) (table : TableRef) (hint : Option GoType) :
    (hoistScalar query table hint).HasEffect context effect := by
  unfold hoistScalar
  refine hasEffect_bind (regular.backend _) fun backend => ?_
  have htyped (type : GoType) : (do
      importType type
      let target ← fresh "scalar"
      emit (.declare target (.value type) none)
      let rendered ← renderQuery fun dialect resolver => Query.ofSelect dialect resolver query
      emitScan rendered [target] false
      return Value.ofType (.name target) type : Lower Value).HasEffect context effect := by
    refine hasEffect_bind (hasEffect_importType type) fun _ => ?_
    refine regular.numbered (f := id) (by decide)
      (fun n => (NameScope.numberedName_eq (by decide) n).symm) fun target => ?_
    refine hasEffect_bind (hasEffect_renderQuery (plainBuild_ofSelect _)) fun _ => ?_
    exact hasEffect_bind (regular.scan _ _ _) fun _ => hasEffect_pure _
  refine hasEffect_when (hasEffect_unsupported _ _) ?_
  split
  · exact hasEffect_unsupported _ _
  · exact htyped _

/-- The queries inside expressions have regular effects, and so do expressions. -/
theorem queriesHaveEffect : QueriesHaveEffect context effect where
  probe := hasEffect_hoistExists regular
  scalar := hasEffect_hoistScalar regular

theorem hasEffect_lowerValue_regular (expr : Expr) (target : GoType) :
    (lowerValue expr target).HasEffect context effect :=
  hasEffect_lowerValue (queriesHaveEffect regular) expr target

theorem hasEffect_lowerCondition (expr : Expr) :
    (lowerCondition expr).HasEffect context effect :=
  hasEffect_lowerValue_regular regular expr _

/-! ## Data statements -/

theorem hasEffect_assignVariable (name : String) (value : Expr) :
    (assignVariable name value).HasEffect context effect := by
  refine hasEffect_bind (hasEffect_lookup _) fun _ => ?_
  refine hasEffect_bind (hasEffect_lowerValue_regular regular _ _) fun _ => ?_
  exact hasEffect_assign regular _ _

theorem hasEffect_assignItems (items : List SelectItem) :
    (assignItems items).HasEffect context effect := by
  induction items with
  | nil => exact hasEffect_pure _
  | cons item rest ih =>
    obtain ⟨expr, aliasName, target⟩ := item
    cases target with
    | none => exact hasEffect_unsupported _ _
    | some target => exact hasEffect_bind (hasEffect_assignVariable regular _ _) fun _ => ih

theorem hasEffect_rowValues (items : List SelectItem) :
    (rowValues items).HasEffect context effect := by
  induction items with
  | nil => exact hasEffect_pure _
  | cons item rest ih =>
    obtain ⟨expr, aliasName, target⟩ := item
    refine hasEffect_bind (hasEffect_lowerExpr (queriesHaveEffect regular) expr _) fun _ => ?_
    exact hasEffect_bind (hasEffect_rowValue _) fun _ => hasEffect_bind ih fun _ => hasEffect_pure _

theorem hasEffect_lowerValues (query : Select) :
    (lowerValues query).HasEffect context effect := by
  unfold lowerValues
  have hcount := hasEffect_countRow regular
  dsimp only
  split
  · exact hasEffect_bind (hasEffect_assignItems regular _) fun _ => hcount
  · refine hasEffect_bind (hasEffect_rowValues regular _) fun _ => ?_
    refine hasEffect_bind (hasEffect_runtimeCall _ _) fun _ => ?_
    exact hasEffect_bind (regular.plain rfl rfl (fun _ => rfl) rfl) fun _ => hcount

theorem hasEffect_lowerQuery (query : Select) : (lowerQuery query).HasEffect context effect := by
  refine hasEffect_bind (hasEffect_renderQuery (plainBuild_ofSelect _)) fun _ => ?_
  refine hasEffect_bind hasEffect_read fun _ => ?_
  dsimp only
  split
  · refine hasEffect_when (hasEffect_unsupported _ _) ?_
    exact hasEffect_bind (hasEffect_goNames _) fun _ => regular.scan _ _ _
  · refine hasEffect_bind hasEffect_handle fun _ => ?_
    exact hasEffect_bind (hasEffect_runtimeCall _ _) fun _ => hasEffect_emitGuarded regular _

/-- A query has every regular effect. -/
theorem hasEffect_lowerSelect (query : Select) :
    (lowerSelect query).HasEffect context effect := by
  unfold lowerSelect
  split
  · exact hasEffect_lowerValues regular query
  · refine hasEffect_bind (regular.backend _) fun _ => ?_
    split
    · exact hasEffect_lowerQuery regular query
    · exact hasEffect_requestSelect regular _ query _

theorem hasEffect_lowerInsert (insert : Insert) :
    (lowerInsert insert).HasEffect context effect := by
  refine hasEffect_bind (regular.backend _) fun _ => ?_
  split
  · exact hasEffect_bind (hasEffect_renderQuery (plainBuild_ofInsert _)) fun _ =>
      regular.exec _ _
  · exact hasEffect_requestInsert regular _ insert

theorem hasEffect_lowerUpdate (update : Update) :
    (lowerUpdate update).HasEffect context effect := by
  refine hasEffect_bind (regular.backend _) fun _ => ?_
  split
  · exact hasEffect_bind (hasEffect_renderQuery (plainBuild_ofUpdate _)) fun _ =>
      regular.exec _ _
  · exact hasEffect_requestUpdate regular _ update

theorem hasEffect_lowerDelete (delete : Delete) :
    (lowerDelete delete).HasEffect context effect := by
  refine hasEffect_bind (regular.backend _) fun _ => ?_
  split
  · exact hasEffect_bind (hasEffect_renderQuery (plainBuild_ofDelete _)) fun _ =>
      regular.exec _ _
  · exact hasEffect_requestDelete regular _ delete

theorem hasEffect_callDatabase (exec : Exec) :
    (callDatabase exec).HasEffect context effect := by
  refine hasEffect_bind (hasEffect_renderQuery (plainBuild_ofExec _)) fun _ => ?_
  refine hasEffect_bind (hasEffect_outputTargets _) fun _ => ?_
  have hstatus (status : String) : (do
      let symbol ← lookup status
      warn .approximation (s!"return status of {exec.baseName} is not reported by database/sql; " ++
        s!"{status} is set to its zero value")
      emitAssign symbol.goName (.zero symbol.type.go) : Lower Unit).HasEffect context effect := by
    refine hasEffect_bind (hasEffect_lookup _) fun _ => ?_
    refine hasEffect_bind (hasEffect_warn _ _ (by decide)) fun _ => ?_
    exact hasEffect_assign regular _ _
  dsimp only
  split
  · refine hasEffect_bind (regular.exec _ _) fun _ => ?_
    split
    · exact hasEffect_pure _
    · exact hstatus _
  · refine hasEffect_bind (regular.scan _ _ _) fun _ => ?_
    split
    · exact hasEffect_pure _
    · exact hstatus _

/-- A procedure call has every regular effect. -/
theorem hasEffect_lowerExec (exec : Exec) : (lowerExec exec).HasEffect context effect := by
  refine hasEffect_bind hasEffect_read fun _ => ?_
  split
  · exact hasEffect_callDatabase regular exec
  · exact hasEffect_requestExec regular _ exec

/-! ## Variables and messages -/

omit [effect.Sparing context] in
theorem hasEffect_emitUse (name goName : String) :
    (emitUse name goName).HasEffect context effect := by
  refine hasEffect_bind hasEffect_read fun _ => ?_
  split
  · exact hasEffect_assign regular _ _
  · exact hasEffect_pure _

theorem hasEffect_lowerSet (target : String) (value : Expr) :
    (lowerSet target value).HasEffect context effect := by
  unfold lowerSet
  split
  · exact hasEffect_bind (hasEffect_lookup _) fun _ => hasEffect_lowerSelect regular _
  · exact hasEffect_assignVariable regular target value

theorem hasEffect_lowerStatus (status : Option Expr) :
    (lowerStatus status).HasEffect context effect := by
  cases status with
  | none => exact hasEffect_pure _
  | some value =>
    exact hasEffect_bind (hasEffect_lowerValue_regular regular value _) fun _ => hasEffect_pure _

/-- Variables that are declared at function entry are only assigned where their declarations
stand. -/
theorem hasEffect_lowerDeclares_hoisted {vars : List VarDecl}
    (h : ∀ var ∈ vars, context.survey.isHoisted var.name = true) :
    (lowerDeclares vars).HasEffect context effect := by
  induction vars with
  | nil => exact hasEffect_pure _
  | cons var rest ih =>
    rw [List.forall_mem_cons] at h
    refine hasEffect_bind (hasEffect_read_bind ?_) fun _ => ih h.2
    rw [if_pos h.1]
    split
    · exact hasEffect_assignVariable regular _ _
    · exact hasEffect_pure _

/-- Declarations have a regular effect if a variable that is declared in place does. -/
theorem hasEffect_lowerDeclare_of (var : VarDecl)
    (h : ∀ (type : GoType) (value : Option Go.Expr), (do
      let symbol ← declare var.name var.type .declared
      importType type
      emit (.declare symbol.goName (.value type) value)
      emitUse var.name symbol.goName : Lower Unit).HasEffect context effect) :
    (lowerDeclare var).HasEffect context effect := by
  refine hasEffect_bind hasEffect_read fun _ => ?_
  split
  · split
    · exact hasEffect_assignVariable regular _ _
    · exact hasEffect_pure _
  · refine hasEffect_bind (hasEffect_ofExcept (failsPlainly_classify _)) fun _ => ?_
    dsimp only
    split
    · have hinit (init : Expr) (type : GoType) :
          (some <$> lowerValue init type).HasEffect context effect :=
        hasEffect_map some (hasEffect_lowerValue_regular regular init type)
      exact hasEffect_bind (hinit _ _) fun _ => h _ _
    · exact hasEffect_bind (hasEffect_pure _) fun _ => h _ _

omit [effect.Sparing context] regular in
theorem hasEffect_lowerDeclares_of (h : ∀ var, (lowerDeclare var).HasEffect context effect)
    (vars : List VarDecl) : (lowerDeclares vars).HasEffect context effect := by
  induction vars with
  | nil => exact hasEffect_pure _
  | cons var rest ih => exact hasEffect_bind (h var) fun _ => ih

/-- A `THROW` has a regular effect if raising an error does. -/
theorem hasEffect_lowerThrow (args : Option ThrowArgs)
    (hraise : ∀ error, (raise error).HasEffect context effect) :
    (lowerThrow args).HasEffect context effect := by
  unfold lowerThrow
  split
  · refine hasEffect_bind hasEffect_read fun _ => ?_
    exact hasEffect_when (hasEffect_unsupported _ _) (hraise _)
  · refine hasEffect_bind (hasEffect_lowerValue_regular regular _ _) fun _ => ?_
    refine hasEffect_bind (hasEffect_lowerValue_regular regular _ _) fun _ => ?_
    exact hasEffect_bind (hasEffect_computingPath (by simp)) fun _ => hraise _

omit regular in
/-- A `RAISERROR` has the effect of printing its message, or of raising an error, where it raises
one. -/
theorem hasEffect_lowerRaiserror (jumping : effect.Jumping context) (message severity : Expr)
    (hraise : severity.isInformational = false → effect.Raising context) :
    (lowerRaiserror message severity).HasEffect context effect := by
  unfold lowerRaiserror
  cases hsevere : severity.isInformational with
  | true => exact jumping.print message
  | false =>
    refine hasEffect_bind (hasEffect_lowerValue_regular jumping.toRegular _ _) fun _ => ?_
    exact (hraise hsevere).raiseNew _

/-! ## Loops and handlers -/

omit [effect.Composable] [effect.Sparing context] in
theorem hasEffect_emitRow (iterator : Go.Expr) (targets : List String) :
    (emitRow iterator targets).HasEffect context effect :=
  hasEffect_emitGuarded regular _

omit [effect.Sparing context] in
theorem hasEffect_fetchRow (hadmits : effect.AdmitsCursors) (fetch : Fetch) :
    (fetchRow fetch).HasEffect context effect := by
  refine hasEffect_bind (hasEffect_fetchIterator hadmits fetch) fun iterator => ?_
  refine hasEffect_bind hasEffect_read fun _ => ?_
  split
  · exact hasEffect_pure _
  · refine hasEffect_bind (hasEffect_goNames _) fun targets => ?_
    exact regular.conditional _ _ (hasEffect_emitRow regular iterator targets)

theorem hasEffect_emitLoopTest (condition : Expr)
    (hbreak : (emit .breakLoop).HasEffect context effect) :
    (emitLoopTest condition).HasEffect context effect :=
  hasEffect_bind (hasEffect_lowerCondition regular condition) fun _ =>
    regular.conditional _ _ hbreak

theorem hasEffect_emitRound (iterator : Go.Expr) (targets : List String) (rest : Option Expr)
    (hbreak : (emit .breakLoop).HasEffect context effect) :
    (emitRound iterator targets rest).HasEffect context effect := by
  refine hasEffect_bind (hasEffect_emitRow regular iterator targets) fun _ => ?_
  cases rest with
  | none => exact hasEffect_pure _
  | some condition => exact hasEffect_emitLoopTest regular condition hbreak

omit [effect.Sparing context] in
theorem hasEffect_returnFlag? (body : List Statement) :
    (returnFlag? body).HasEffect context effect := by
  refine hasEffect_bind hasEffect_read fun _ => ?_
  split
  · exact regular.numbered (by decide) (fun _ => rfl) fun _ => hasEffect_pure _
  · exact hasEffect_pure _

omit [effect.Sparing context] in
/-- What follows the literal of a `TRY` statement has a regular effect if the ways on for a `RETURN`
and for an error do. -/
theorem hasEffect_emitWayOut (flag : Option String) (catchBody : List Statement)
    (hresume : (if context.exitScope = .body then emitReturn (.name "returnCode") .nil
      else propagateReturn).HasEffect context effect)
    (hreport : (if context.exitScope = .catchHalf then emit (.ret [])
      else errorExit).HasEffect context effect) :
    (emitWayOut flag catchBody).HasEffect context effect := by
  refine hasEffect_read_bind ?_
  have hreports : (if context.survey.needsErr && Statement.anyHandler Statement.raises catchBody then
      emitIf none failed (if context.exitScope = .catchHalf then emit (.ret []) else errorExit)
      else pure ()).HasEffect context effect := by
    split
    · exact regular.conditional none failed hreport
    · exact hasEffect_pure _
  dsimp only
  split
  · exact hasEffect_bind (regular.conditional none _ hresume) fun _ => hreports
  · exact hreports

/-! ## Transactions -/

omit regular in
/-- The start of a transaction, where its uses have the effect. -/
theorem hasEffect_beginTransaction (allows : effect.AllowsTransactions context)
    (name : Option String) : (beginTransaction name).HasEffect context effect := by
  have hopen : (do
      setTransaction ⟨true, false⟩
      if (← read).survey.usesDb then emitBegin
      else warnNoHandle "BEGIN TRANSACTION" : Lower Unit).HasEffect context effect := by
    refine hasEffect_bind (allows.sets _) fun _ => ?_
    refine hasEffect_bind hasEffect_read fun _ => ?_
    split
    · exact allows.begins
    · exact hasEffect_warn _ _ (by decide)
  refine hasEffect_bind hasEffect_get fun _ => ?_
  refine hasEffect_when (hasEffect_fail rfl) ?_
  split
  · exact hasEffect_bind (hasEffect_warn _ _ (by decide)) fun _ => hopen
  · exact hopen

/-- The end of a transaction, where its uses have the effect. -/
theorem hasEffect_endTransaction (allows : effect.AllowsTransactions context)
    (keyword method : String) : (endTransaction keyword method).HasEffect context effect := by
  have hfinish : (do
      emitGuarded (assignTo [err] (.invoke tx method []))
      emitNoTransaction : Lower Unit).HasEffect context effect :=
    hasEffect_bind (hasEffect_emitGuarded regular _) fun _ => hasEffect_assign regular _ _
  refine hasEffect_bind hasEffect_get fun _ => ?_
  refine hasEffect_when (hasEffect_fail rfl) ?_
  refine hasEffect_bind (allows.sets _) fun _ => ?_
  refine hasEffect_bind hasEffect_read fun _ => ?_
  split
  · dsimp only
    split
    · exact regular.conditional _ _ hfinish
    · exact hfinish
  · exact hasEffect_warn _ _ (by decide)

/-! ## Cursors -/

omit [effect.Sparing context] in
theorem hasEffect_declareCursor (allows : effect.AllowsCursors context) (name : String)
    (query : Select) : (declareCursor name query).HasEffect context effect := by
  refine hasEffect_bind hasEffect_get fun _ => ?_
  have hfault (problem : CursorProblem) :
      (cursorFault name problem : Lower Unit).HasEffect context effect :=
    hasEffect_cursorFault allows.admits name problem
  refine hasEffect_when (hfault _) ?_
  split
  · exact hfault _
  · refine hasEffect_bind (regular.backend _) fun _ => ?_
    refine hasEffect_when (hfault _) ?_
    exact hasEffect_bind (hasEffect_iteratorName _) fun _ => allows.put _ _

omit [effect.Sparing context] regular in
theorem hasEffect_closeCursor (allows : effect.AllowsCursors context) (name : String) :
    (closeCursor name).HasEffect context effect := by
  refine hasEffect_bind (hasEffect_getCursor allows.admits name) fun _ => ?_
  split
  · exact allows.put _ _
  · exact hasEffect_cursorFault allows.admits _ _
  · exact hasEffect_cursorFault allows.admits _ _

omit [effect.Sparing context] regular in
theorem hasEffect_deallocateCursor (allows : effect.AllowsCursors context) (name : String) :
    (deallocateCursor name).HasEffect context effect :=
  hasEffect_bind (hasEffect_getCursor allows.admits name) fun _ => allows.remove name

end Regular

/-! ## The first lines of a function -/

omit [effect.Sparing context] in
theorem hasEffect_inputPairs (params : List Parameter) :
    (inputPairs params).HasEffect context effect := by
  induction params with
  | nil => exact hasEffect_pure _
  | cons param rest ih =>
    exact hasEffect_bind (hasEffect_lookup _) fun _ => hasEffect_bind ih fun _ => hasEffect_pure _

section Declaring

variable (hdeclare : ∀ name type kind, (declare name type kind).HasEffect context effect)

include hdeclare

omit [effect.Sparing context] in
theorem hasEffect_declareParams (params : List Parameter) :
    (declareParams params).HasEffect context effect := by
  induction params with
  | nil => exact hasEffect_pure _
  | cons param rest ih => exact hasEffect_bind (hdeclare _ _ _) fun _ => ih

omit [effect.Sparing context] in
theorem hasEffect_declareHoisted (statements : List Statement) (names : List String) :
    (declareHoisted statements names).HasEffect context effect := by
  induction names with
  | nil => exact hasEffect_pure _
  | cons name rest ih =>
    unfold declareHoisted
    split
    · exact hasEffect_bind (hdeclare _ _ _) fun _ => ih
    · exact ih

end Declaring

theorem hasEffect_emitDefaults (regular : effect.Regular context) (params : List Parameter) :
    (emitDefaults params).HasEffect context effect := by
  induction params with
  | nil => exact hasEffect_pure _
  | cons param rest ih =>
    unfold emitDefaults
    split
    · exact hasEffect_bind (hasEffect_assignVariable regular _ _) fun _ => ih
    · exact ih

theorem hasEffect_emitHoisted (regular : effect.Regular context)
    (hline : ∀ name type, (emit (.declare name type none)).HasEffect context effect)
    (names : List String) : (emitHoisted names).HasEffect context effect := by
  induction names with
  | nil => exact hasEffect_pure _
  | cons name rest ih =>
    unfold emitHoisted
    refine hasEffect_bind hasEffect_get fun _ => ?_
    split
    · refine hasEffect_bind (hasEffect_importType _) fun _ => ?_
      refine hasEffect_bind (hline _ _) fun _ => ?_
      exact hasEffect_bind (hasEffect_emitUse regular _ _) fun _ => ih
    · exact ih

section Opening

variable (opening : effect.Opening context)

include opening

omit [effect.Sparing context] in
theorem hasEffect_hoistIterators (statements : List Statement) :
    (hoistIterators statements).HasEffect context effect := by
  induction statements with
  | nil => exact hasEffect_pure _
  | cons statement rest ih =>
    cases statement with
    | declareCursor name query => exact hasEffect_bind (opening.iterator _ _) fun _ => ih
    | _ => exact ih

theorem hasEffect_emitPrologue : emitPrologue.HasEffect context effect := by
  refine hasEffect_bind hasEffect_read fun _ => hasEffect_when opening.entry ?_
  refine hasEffect_bind (hasEffect_emitDefaults opening.toRegular _) fun _ => ?_
  refine hasEffect_bind opening.counters fun _ => ?_
  refine hasEffect_bind (hasEffect_emitHoisted opening.toRegular opening.line _) fun _ => ?_
  exact hasEffect_hoistIterators opening _

end Opening

/-! ## Statements that hold no others -/

/-- Every statement that holds no others has a regular effect that the ways out have as well.
Declarations have to be minded, and so have errors, cursors and transactions, where the statement is
about them. -/
theorem hasEffect_leaf (jumping : effect.Jumping context) (rest : List Statement)
    (prepared : Option Fetch) {source : Statement}
    (hdeclares : ∀ vars, source = .declare vars → (lowerDeclares vars).HasEffect context effect)
    (hraises : source.raises = true → effect.Raising context)
    (hcursors : source.isCursorUse = true → effect.AllowsCursors context)
    (htransactions : source.isTransaction = true → effect.AllowsTransactions context)
    (hchildren : source.children = []) :
    (lowerStatement rest prepared source).HasEffect context effect := by
  have regular := jumping.toRegular
  have hreturn {step : Lower Unit} (hstep : step.HasEffect context effect)
      (result : Option Fetch) : (step >>= fun _ => pure result).HasEffect context effect :=
    hasEffect_bind hstep fun _ => hasEffect_pure _
  cases source with
  | ifElse | «while» | block | tryCatch => cases hchildren
  | ret value =>
    rw [lowerStatement]
    exact hasEffect_bind (hasEffect_lowerStatus regular value) fun status =>
      hreturn (jumping.leave status) _
  | breakLoop =>
    rw [lowerStatement]
    exact hasEffect_checkJump_bind _ fun hloop => hreturn (jumping.breakLoop hloop) _
  | continueLoop =>
    rw [lowerStatement]
    exact hasEffect_checkJump_bind _ fun hloop => hreturn (jumping.continueLoop hloop) _
  | raiserror message severity state =>
    rw [lowerStatement]
    exact hreturn (hasEffect_lowerRaiserror jumping message severity fun hsevere =>
      hraises (by simp [Statement.raises, hsevere])) _
  | throw args =>
    rw [lowerStatement]
    exact hreturn (hasEffect_lowerThrow regular args (hraises rfl).raise) _
  | savepoint name =>
    rw [lowerStatement, savepoint, transactionFault]
    exact hreturn (hasEffect_fail rfl) _
  | beginTransaction name =>
    rw [lowerStatement]
    exact hreturn (hasEffect_beginTransaction (htransactions rfl) name) _
  | commit name | rollback name =>
    rw [lowerStatement]
    exact hreturn (hasEffect_endTransaction regular (htransactions rfl) _ _) _
  | declare vars =>
    rw [lowerStatement]
    exact hreturn (hdeclares vars rfl) _
  | declareCursor name query =>
    rw [lowerStatement]
    exact hreturn (hasEffect_declareCursor regular (hcursors rfl) name query) _
  | set target value =>
    rw [lowerStatement]
    exact hreturn (hasEffect_lowerSet regular target value) _
  | print value =>
    rw [lowerStatement]
    simpa only [bind_assoc] using hreturn (jumping.print value) prepared
  | select query =>
    rw [lowerStatement]
    exact hreturn (hasEffect_lowerSelect regular query) _
  | insert i =>
    rw [lowerStatement]
    exact hreturn (hasEffect_lowerInsert regular i) _
  | update u =>
    rw [lowerStatement]
    exact hreturn (hasEffect_lowerUpdate regular u) _
  | delete d =>
    rw [lowerStatement]
    exact hreturn (hasEffect_lowerDelete regular d) _
  | exec e =>
    rw [lowerStatement]
    exact hreturn (hasEffect_lowerExec regular e) _
  | execDynamic text =>
    rw [lowerStatement]
    exact hasEffect_unsupported _ _
  | openCursor name =>
    rw [lowerStatement]
    exact hreturn ((hcursors rfl).opens name) _
  | fetch f =>
    rw [lowerStatement]
    have hadmits := (hcursors rfl).admits
    refine hasEffect_bind (hasEffect_ofExcept_cursor hadmits _) fun primes => ?_
    split
    · exact hasEffect_pure _
    · exact hreturn (hasEffect_fetchRow regular hadmits f) _
  | closeCursor name =>
    rw [lowerStatement]
    exact hreturn (hasEffect_closeCursor (hcursors rfl) name) _
  | deallocate name =>
    rw [lowerStatement]
    exact hreturn (hasEffect_deallocateCursor (hcursors rfl) name) _

end Lower

end Sproc
