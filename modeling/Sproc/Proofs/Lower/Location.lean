import Sproc.Proofs.Lower.Frame
import Sproc.Proofs.Lower.Regular

/-!
# Where warnings are recorded

A warning names the path of the context in which it is recorded, and only the steps that hold other
statements change the path of their context. So whatever a step that holds no statements does, all
its warnings name the statement at hand. This effect is regular: the forms that statements are
written in record no warnings of their own, save those about tables.

## Main definitions

* `Lower.WarnsHere`: all warnings of a step name the statement at hand

## Main results

* `regular_warnedAt`: the effect is regular
* `warnsHere_lowerLeaf`: statements that hold no others
* `warnsHere_lowerEntry`, `warnsHere_emitFinalReturn`: what stands around the statements
-/

namespace Sproc.Lower

variable {α : Type} {c : Context}

/-- All warnings of a step name the path of the context in which it is taken. -/
abbrev WarnsHere (step : Lower α) (c : Context) : Prop :=
  step.HasEffect c (Progress.WarnedAt c.pathText)

/-! ## Forms of steps -/

/-- A step that records no warnings. -/
theorem warnsHere_of_eq {step : Lower α}
    (h : ∀ {before result after}, step.Runs c before result after →
      after.warnings = before.warnings) : step.WarnsHere c :=
  HasEffect.of_runs fun hruns => .of_eq (h hruns)

theorem warnsHere_ite {test : Prop} [Decidable test] {step other : Lower α}
    (hstep : step.WarnsHere c) (hother : other.WarnsHere c) :
    (if test then step else other).WarnsHere c := by
  split
  · exact hstep
  · exact hother

theorem warnsHere_anyWarning (kind : WarningKind) (message : String) :
    (warn kind message).WarnsHere c :=
  HasEffect.of_runs warnedAt_warn

theorem warnsHere_emit (s : Go.Stmt) : (emit s).WarnsHere c :=
  warnsHere_of_eq fun hruns => by rw [runs_emit.mp hruns]; rfl

theorem warnsHere_modify {change : Progress → Progress}
    (h : ∀ p, (change p).warnings = p.warnings) : (modify change : Lower PUnit).WarnsHere c :=
  warnsHere_of_eq fun hruns => by rw [runs_modify.mp hruns, h]

theorem warnsHere_block {step : Lower Unit} (h : step.WarnsHere c) : (block step).WarnsHere c :=
  HasEffect.of_runs fun hruns => by
    obtain ⟨inner, hinner, -, rfl⟩ := runs_block.mp hruns
    have hwarned : Progress.WarnedAt c.pathText _ inner := h hinner
    exact hwarned

theorem warnsHere_fresh (base : String) : (fresh base).WarnsHere c :=
  warnsHere_of_eq fun hruns => by
    simp only [fresh, runs_bind, runs_get, runs_set, runs_pure] at hruns
    obtain ⟨_, _, ⟨rfl, rfl⟩, _, _, rfl, -, rfl⟩ := hruns
    rfl

theorem warnsHere_bindLocal (name : String) (type : Go.TypeExpr) :
    (bindLocal name type).WarnsHere c := by
  refine hasEffect_bind hasEffect_get fun p => ?_
  refine hasEffect_bind (warnsHere_modify fun _ => rfl) fun _ => ?_
  split
  · exact hasEffect_pure _
  · refine warnsHere_ite (hasEffect_pure _) ?_
    exact hasEffect_bind (warnsHere_emit _) fun _ => hasEffect_pure _

theorem warnsHere_declare (name type : String) (kind : SymbolKind) :
    (declare name type kind).WarnsHere c := by
  refine hasEffect_bind hasEffect_get fun p => ?_
  refine hasEffect_bind (hasEffect_ofExcept (failsPlainly_declare _ _ _ _)) fun _ => ?_
  exact hasEffect_bind (warnsHere_modify fun _ => rfl) fun _ => hasEffect_pure _

theorem warnsHere_backendFor (table : TableRef) : (backendFor table).WarnsHere c := by
  refine hasEffect_bind hasEffect_read fun _ => ?_
  exact hasEffect_when (warnsHere_anyWarning _ _) (hasEffect_pure _)

/-! ## Ways out and calls that can fail -/

theorem warnsHere_emitAssign (target : String) (value : Go.Expr) :
    (emitAssign target value).WarnsHere c :=
  warnsHere_emit _

theorem warnsHere_emitIf (init : Option Go.Assign) (test : Go.Expr) {step : Lower Unit}
    (h : step.WarnsHere c) : (emitIf init test step).WarnsHere c :=
  hasEffect_bind (warnsHere_block h) fun _ => warnsHere_emit _

theorem warnsHere_emitReturn (status error : Go.Expr) : (emitReturn status error).WarnsHere c :=
  hasEffect_bind (hasEffect_resultValues _ _) fun _ => warnsHere_emit _

/-- A line that goes to one of two logs. -/
theorem warnsHere_importing (hooked : Context → Prop) [DecidablePred hooked]
    {path other : String} {s t : Context → Go.Stmt} :
    (do
      let context ← read
      if hooked context then
        importPath path
        emit (s context)
      else
        importPath other
        emit (t context) : Lower Unit).WarnsHere c :=
  hasEffect_bind hasEffect_read fun _ => warnsHere_ite
    (hasEffect_bind (hasEffect_importPath _) fun _ => warnsHere_emit _)
    (hasEffect_bind (hasEffect_importPath _) fun _ => warnsHere_emit _)

theorem warnsHere_emitAcknowledge : emitAcknowledge.WarnsHere c :=
  warnsHere_importing _

theorem warnsHere_errorExit : errorExit.WarnsHere c := by
  refine hasEffect_bind hasEffect_read fun _ => ?_
  split
  · exact warnsHere_emitReturn _ _
  · exact warnsHere_emit _
  · exact hasEffect_bind warnsHere_emitAcknowledge fun _ => warnsHere_emit _

theorem warnsHere_emitGuarded (init : Go.Assign) : (emitGuarded init).WarnsHere c :=
  warnsHere_emitIf _ _ warnsHere_errorExit

theorem warnsHere_emitChecked {success : Lower Unit} (h : success.WarnsHere c) :
    (emitChecked success).WarnsHere c := by
  refine hasEffect_bind (warnsHere_block warnsHere_errorExit) fun _ => ?_
  refine hasEffect_bind hasEffect_read fun _ => warnsHere_ite ?_ ?_
  · exact hasEffect_bind (warnsHere_block h) fun _ => warnsHere_emit _
  · exact hasEffect_bind (warnsHere_emit _) fun _ => h

theorem warnsHere_emitScan (query : Query Go.Expr) (targets : List String) (trackRows : Bool) :
    (emitScan query targets trackRows).WarnsHere c := by
  have hmissing : (do
      emit (.assign (assignTo [err] .nil))
      if trackRows then
        emitAssign "rowCount" (.int 0) : Lower Unit).WarnsHere c :=
    hasEffect_bind (warnsHere_emit _) fun _ =>
      warnsHere_ite (warnsHere_emitAssign _ _) (hasEffect_pure _)
  refine hasEffect_bind hasEffect_handle fun _ => ?_
  refine hasEffect_bind (hasEffect_importPath _) fun _ => ?_
  refine hasEffect_bind (hasEffect_importPath _) fun _ => ?_
  refine hasEffect_bind (warnsHere_block hmissing) fun _ => ?_
  refine hasEffect_bind (warnsHere_block warnsHere_errorExit) fun _ => warnsHere_ite ?_ ?_
  · exact hasEffect_bind (warnsHere_block (warnsHere_emitAssign _ _)) fun _ => warnsHere_emit _
  · exact warnsHere_emit _

theorem warnsHere_emitExec (query : Query Go.Expr) (identity : Bool) :
    (emitExec query identity).WarnsHere c := by
  refine hasEffect_bind hasEffect_handle fun _ => hasEffect_bind hasEffect_read fun _ => ?_
  refine warnsHere_ite (warnsHere_emitGuarded _) ?_
  refine hasEffect_bind (hasEffect_importPath _) fun _ => ?_
  refine hasEffect_bind (hasEffect_localName _) fun _ => ?_
  refine hasEffect_bind (warnsHere_bindLocal _ _) fun _ => ?_
  refine hasEffect_bind (warnsHere_emit _) fun _ => warnsHere_emitChecked ?_
  refine hasEffect_when (warnsHere_emit _) ?_
  exact warnsHere_ite (warnsHere_emit _) (hasEffect_pure _)

theorem warnsHere_emitCallWith (backend : Backend) (client : ClientRef) (method : String)
    (fields : Fields) {onResponse : Go.Expr → Lower Unit}
    (h : ∀ response, (onResponse response).WarnsHere c) :
    (emitCallWith backend client method fields onResponse).WarnsHere c := by
  refine hasEffect_bind (hasEffect_remoteCall ..) fun _ => ?_
  refine hasEffect_bind (hasEffect_localName _) fun _ => ?_
  refine hasEffect_bind (warnsHere_bindLocal _ _) fun _ => ?_
  exact hasEffect_bind (warnsHere_emit _) fun _ => warnsHere_emitChecked (h _)

theorem warnsHere_emitCall (backend : Backend) (client : ClientRef) (method : String)
    (fields : Fields) : (emitCall backend client method fields).WarnsHere c := by
  refine hasEffect_bind (hasEffect_remoteCall ..) fun _ => ?_
  refine hasEffect_bind hasEffect_read fun _ => warnsHere_ite ?_ (warnsHere_emitGuarded _)
  exact hasEffect_bind (warnsHere_emit _) fun _ => warnsHere_emitChecked (warnsHere_emitAssign _ _)

theorem warnsHere_requestExists (backend : Backend) (query : Select) (table : TableRef)
    (target : String) : (requestExists backend query table target).WarnsHere c := by
  refine hasEffect_bind (hasEffect_tableMethod ..) fun _ => ?_
  refine hasEffect_bind (hasEffect_filterFields _) fun _ => warnsHere_ite ?_ ?_
  · exact hasEffect_bind (hasEffect_remoteCall ..) fun _ => warnsHere_emitGuarded _
  · exact warnsHere_emitCallWith _ _ _ _ fun _ => warnsHere_emitAssign _ _

theorem warnsHere_emitLog (hooked plain : String) (message : Go.Expr) :
    (emitLog hooked plain message).WarnsHere c :=
  warnsHere_importing _

/-- The forms of data statements record no warnings but those about their tables, which name the
statement at hand. -/
theorem regular_warnedAt : Effect.Regular (Progress.WarnedAt c.pathText) c where
  plain _ _ _ _ := warnsHere_emit _
  numbered _ _ hnext := hasEffect_bind (warnsHere_fresh _) fun target =>
    hasEffect_bind (warnsHere_emit _) fun _ => hnext target
  conditional := warnsHere_emitIf
  exit := warnsHere_errorExit
  checked := warnsHere_emitChecked
  backend := warnsHere_backendFor
  scan := warnsHere_emitScan
  exec := warnsHere_emitExec
  call := warnsHere_emitCall
  callWith := warnsHere_emitCallWith
  probe := warnsHere_requestExists

/-! ## Returns and errors -/

theorem warnsHere_propagateReturn : propagateReturn.WarnsHere c := by
  refine hasEffect_bind hasEffect_read fun _ => ?_
  split
  · exact hasEffect_bind (warnsHere_emitAssign _ _) fun _ => warnsHere_emit _
  · exact hasEffect_bind (warnsHere_anyWarning _ _) fun _ => warnsHere_emit _

theorem warnsHere_lowerReturn (status : Option Go.Expr) : (lowerReturn status).WarnsHere c := by
  refine hasEffect_bind hasEffect_read fun _ => ?_
  dsimp only
  split
  · exact warnsHere_emitReturn _ _
  · cases status with
    | none => exact warnsHere_propagateReturn
    | some value =>
      exact hasEffect_bind (warnsHere_emitAssign _ _) fun _ => warnsHere_propagateReturn
  · exact hasEffect_bind (warnsHere_anyWarning _ _) fun _ => warnsHere_emitLog _ _ _

theorem warnsHere_raise (error : Go.Expr) : (raise error).WarnsHere c := by
  refine hasEffect_bind hasEffect_read fun _ => ?_
  split
  · exact warnsHere_emitReturn _ _
  · exact warnsHere_emit _
  · exact hasEffect_bind (warnsHere_emit _) fun _ => warnsHere_emit _

theorem jumping_warnedAt : Effect.Jumping (Progress.WarnedAt c.pathText) c where
  toRegular := regular_warnedAt
  breakLoop _ := warnsHere_emit _
  continueLoop _ := warnsHere_emit _
  leave := warnsHere_lowerReturn
  print message := hasEffect_bind (hasEffect_lowerValue_regular regular_warnedAt message _)
    fun _ => warnsHere_emitLog _ _ _

theorem raising_warnedAt : Effect.Raising (Progress.WarnedAt c.pathText) c where
  raise := warnsHere_raise
  raiseNew _ := hasEffect_bind (hasEffect_importPath _) fun _ => warnsHere_raise _

theorem warnsHere_emitHandlerStart (catchBody : List Statement) :
    (emitHandlerStart catchBody).WarnsHere c := by
  have hcaught : emitCaught.WarnsHere c := by
    refine hasEffect_bind (hasEffect_importPath _) fun _ => ?_
    exact hasEffect_bind (warnsHere_emit _) fun _ => warnsHere_emitIf _ _ (warnsHere_emitAssign _ _)
  refine hasEffect_when hcaught (hasEffect_bind hasEffect_read fun _ => ?_)
  exact warnsHere_ite (warnsHere_emit _) (hasEffect_pure _)

theorem warnsHere_emitWayOut (flag : Option String) (catchBody : List Statement) :
    (emitWayOut flag catchBody).WarnsHere c := by
  refine hasEffect_bind hasEffect_read fun context => ?_
  have hreport : (if context.survey.needsErr && Statement.anyHandler Statement.raises catchBody then
      emitIf none failed <|
        if context.exitScope = .catchHalf then emit (.ret []) else errorExit
      else pure () : Lower Unit).WarnsHere c :=
    warnsHere_ite (warnsHere_emitIf _ _ (warnsHere_ite (warnsHere_emit _) warnsHere_errorExit))
      (hasEffect_pure _)
  cases flag with
  | none => exact hreport
  | some flag =>
    refine hasEffect_bind (warnsHere_emitIf _ _ ?_) fun _ => hreport
    exact warnsHere_ite (warnsHere_emitReturn _ _) warnsHere_propagateReturn

/-! ## Cursors and transactions -/

/-- An error about a cursor comes without warnings. -/
theorem admitsCursors_warnedAt (path : String) :
    Effect.AdmitsCursors (Progress.WarnedAt path) :=
  fun _ _ _ => trivial

theorem warnsHere_putCursor (name : String) (cursor : Cursor) :
    (putCursor name cursor).WarnsHere c :=
  warnsHere_modify fun _ => rfl

theorem warnsHere_openCursor (name : String) : (openCursor name).WarnsHere c := by
  refine hasEffect_bind (hasEffect_getCursor (admitsCursors_warnedAt _) name) fun _ => ?_
  refine hasEffect_when (hasEffect_cursorFault (admitsCursors_warnedAt _) name _) ?_
  refine hasEffect_bind (hasEffect_rowsCall _) fun _ => ?_
  refine hasEffect_bind (hasEffect_iteratorType _) fun _ => ?_
  refine hasEffect_bind (warnsHere_bindLocal _ _) fun _ => ?_
  refine hasEffect_bind (warnsHere_emit _) fun _ => hasEffect_bind hasEffect_read fun _ => ?_
  dsimp only
  split
  · exact hasEffect_bind (warnsHere_emitIf _ _ warnsHere_errorExit) fun _ => warnsHere_putCursor _ _
  · exact hasEffect_bind (warnsHere_emitChecked (warnsHere_emit _)) fun _ => warnsHere_putCursor _ _

theorem allowsCursors_warnedAt : Effect.AllowsCursors (Progress.WarnedAt c.pathText) c where
  admits := admitsCursors_warnedAt _
  put := warnsHere_putCursor
  remove _ := warnsHere_modify fun _ => rfl
  opens := warnsHere_openCursor

theorem allowsTransactions_warnedAt :
    Effect.AllowsTransactions (Progress.WarnedAt c.pathText) c where
  sets _ := warnsHere_modify fun _ => rfl
  begins := by
    refine hasEffect_bind (warnsHere_emitGuarded _) fun _ => ?_
    refine hasEffect_bind (warnsHere_block (warnsHere_emitIf _ _ ?_)) fun _ => warnsHere_emit _
    exact hasEffect_bind (warnsHere_emit _) fun _ => warnsHere_emitAssign _ _

/-! ## Statements that hold no others -/

theorem warnsHere_lowerDeclares (vars : List VarDecl) : (lowerDeclares vars).WarnsHere c := by
  refine hasEffect_lowerDeclares_of (fun var => ?_) vars
  refine hasEffect_lowerDeclare_of regular_warnedAt var fun type value => ?_
  refine hasEffect_bind (warnsHere_declare _ _ _) fun _ => ?_
  refine hasEffect_bind (hasEffect_importType _) fun _ => ?_
  exact hasEffect_bind (warnsHere_emit _) fun _ => hasEffect_emitUse regular_warnedAt _ _

/-- All warnings of a statement that holds no others name the statement. -/
theorem warnsHere_lowerLeaf (rest : List Statement) (prepared : Option Fetch) {source : Statement}
    (hchildren : source.children = []) : (lowerStatement rest prepared source).WarnsHere c :=
  hasEffect_leaf jumping_warnedAt rest prepared (fun vars _ => warnsHere_lowerDeclares vars)
    (fun _ => raising_warnedAt) (fun _ => allowsCursors_warnedAt)
    (fun _ => allowsTransactions_warnedAt) hchildren

/-! ## Around the statements -/

theorem opening_warnedAt : Effect.Opening (Progress.WarnedAt c.pathText) c where
  toRegular := regular_warnedAt
  entry := by
    refine hasEffect_bind hasEffect_read fun _ => ?_
    refine hasEffect_bind (hasEffect_importPath _) fun _ => ?_
    exact hasEffect_bind (hasEffect_inputPairs _) fun _ => warnsHere_emit _
  counters := by
    refine hasEffect_bind hasEffect_read fun _ => ?_
    refine hasEffect_when (warnsHere_emit _) (hasEffect_when (warnsHere_emit _) ?_)
    exact warnsHere_ite (hasEffect_bind (hasEffect_importPath _) fun _ => warnsHere_emit _)
      (hasEffect_pure _)
  line _ _ := warnsHere_emit _
  iterator name query := by
    refine hasEffect_bind hasEffect_read fun _ => warnsHere_ite ?_ (hasEffect_pure _)
    refine hasEffect_bind (hasEffect_iteratorName _) fun _ => ?_
    refine hasEffect_bind (hasEffect_iteratorType _) fun _ => ?_
    refine hasEffect_bind (warnsHere_modify fun _ => rfl) fun _ => ?_
    refine hasEffect_bind (warnsHere_emit _) fun _ => warnsHere_ite ?_ (hasEffect_pure _)
    exact hasEffect_bind (warnsHere_block (warnsHere_emitIf _ _ (warnsHere_emit _))) fun _ =>
      warnsHere_emit _

/-- All warnings in front of the statements name the entry of the procedure. -/
theorem warnsHere_lowerEntry : lowerEntry.WarnsHere c := by
  refine hasEffect_bind hasEffect_read fun _ => ?_
  refine hasEffect_bind (hasEffect_declareParams warnsHere_declare _) fun _ => ?_
  refine hasEffect_bind (hasEffect_declareHoisted warnsHere_declare _ _) fun _ => ?_
  refine hasEffect_bind hasEffect_functionParams fun _ => ?_
  exact hasEffect_bind hasEffect_functionResults fun _ => hasEffect_emitPrologue opening_warnedAt

theorem warnsHere_emitFinalReturn : emitFinalReturn.WarnsHere c := by
  refine hasEffect_bind (hasEffect_resultValues _ _) fun _ => ?_
  refine hasEffect_bind hasEffect_read fun _ => ?_
  exact warnsHere_ite (warnsHere_emit _) (hasEffect_pure _)

end Sproc.Lower
