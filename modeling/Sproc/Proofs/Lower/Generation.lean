import Sproc.Proofs.Lower.Generator
import Sproc.Proofs.Lower.Placement
import Sproc.Proofs.Lower.Returns
import Sproc.Proofs.Lower.Blame

/-!
# Generation with stacks

Every handler of a statement follows the handler that is given its context, the handlers of lists,
loops, chains of conditionals and `TRY` statements by induction on the statement. A part that fails
leaves the stacks only after they have been put right, so what stands around the part sees its own
path. A chain of conditionals is the one place where the two do not go in step: with stacks, a test
is treated while the block in front of it is still open, which makes no difference as the test
neither sees nor changes what has been written.

## Main definitions

* `Lower.Detached`: a step neither sees nor changes the generated names and what has been written
* `Generate.FollowsBehind`: the branches behind an open block
* `Generate.Mirrors`: a statement is treated with stacks as it is treated in its context

## Main results

* `Generate.follows_lowerStatements`: so are lists of statements
* `Procedure.generate_eq`: a procedure has the same function and the same error either way, and its
  text is that of the function
-/

namespace Sproc

namespace Lower

/-- What a handler starts with does not depend on the transaction. -/
theorem execute_emitHandlerStart (catchBody : List Statement) (c : Context) (p : Progress)
    (transaction : TransactionState) : ∃ after, (emitHandlerStart catchBody).Runs c p () after ∧
      (emitHandlerStart catchBody).Runs c { p with transaction } () { after with transaction } := by
  unfold emitHandlerStart Runs
  have hread (q : Progress) : (read : Lower Context).execute c q = (.ok c, q) := rfl
  split <;> cases hneeds : c.survey.needsErr <;> simp only [execute_bind, hread, hneeds] <;>
    exact ⟨_, rfl, rfl⟩

/-- A step neither sees nor changes the generated names and what has been written. -/
def Detached {α : Type} (c : Context) (step : Lower α) : Prop :=
  ∀ (p : Progress) (names : NameScope) (output : List Go.Stmt),
    step.execute c { p with names, output } =
      ((step.execute c p).1, { (step.execute c p).2 with names, output })

/-- Computations are detached. -/
theorem Calculates.detached {α : Type} {c : Context} {step : Lower α}
    (h : step.Calculates c fun _ step => Detached c step) : Detached c step := by
  induction h with
  | part h => exact h
  | pure | fault | importSpec | warn => exact fun _ _ _ => rfl
  | reads _ ih => exact ih
  | @bind _ _ step next _ _ ih ihnext =>
    intro p names output
    rw [execute_bind, execute_bind, ih p names output]
    rcases step.execute c p with ⟨outcome, middle⟩
    cases outcome with
    | ok value => exact ihnext value middle names output
    | error error => rfl
  | @looks _ next hnext _ ih =>
    intro p names output
    change (next { p with names, output }).execute c _ = _
    rw [hnext p { p with names, output } rfl rfl]
    exact ih p p names output

theorem detached_lowerCondition {c : Context} {condition : Expr}
    (h : condition.needsHoist = false) : Detached c (lowerCondition condition) :=
  (calculates_lowerValue condition (.of_unhoisted h) .bool).detached

end Lower

namespace Generate

open Lower (hasEffect_handle hasEffect_importPath hasEffect_localName)

variable {c : Context}

/-! ## Data statements -/

theorem follows_emitAssign (target : String) (value : Go.Expr) :
    Follows (perform (Lower.emitAssign target value)) (Lower.emitAssign target value) c :=
  follows_perform (Lower.hasEffect_emitAssign (Discipline.regular_adding c).toBasic _ _)

theorem follows_emitMissing (trackRows : Bool) :
    Follows (emitMissing trackRows)
      (do
        Lower.emit (.assign (Lower.assignTo [Lower.err] .nil))
        if trackRows then
          Lower.emitAssign "rowCount" (.int 0)) c :=
  follows_bind (follows_emit _) fun _ => follows_ite (follows_emitAssign _ _) (follows_pure _)

theorem follows_emitScan (query : Query Go.Expr) (targets : List String) (trackRows : Bool) :
    Follows (emitScan query targets trackRows) (Lower.emitScan query targets trackRows) c := by
  unfold emitScan Lower.emitScan
  refine follows_bind (follows_perform hasEffect_handle) fun _ => ?_
  refine follows_bind (follows_perform (hasEffect_importPath _)) fun _ => ?_
  refine follows_bind (follows_perform (hasEffect_importPath _)) fun _ => ?_
  refine follows_openBlock (follows_emitMissing trackRows) ?_
  refine followsInside_reopenBlock follows_errorExit fun _ => followsInside_ite ?_ ?_
  · refine followsInside_reopenBlock (follows_emitAssign _ _) fun _ => ?_
    exact followsInside_last fun _ _ => rfl
  · exact followsInside_last fun _ _ => rfl

theorem follows_bindLocal (name : String) (type : Go.TypeExpr) :
    Follows (bindLocal name type) (Lower.bindLocal name type) c := by
  refine follows_get fun p writer blocks => ?_
  have hnames : (Generator.of c p writer blocks).progress.names = p.names := rfl
  rw [hnames]
  obtain ⟨binding, names⟩ := p.names.bind name
  refine follows_bind (follows_change fun _ => rfl) fun _ => ?_
  cases binding with
  | assign => exact follows_pure _
  | define => exact follows_ite (follows_pure _) (follows_bind (follows_emit _) fun _ => follows_pure _)

theorem follows_emitExec (query : Query Go.Expr) (identity : Bool) :
    Follows (emitExec query identity) (Lower.emitExec query identity) c := by
  refine follows_bind (follows_perform hasEffect_handle) fun _ => follows_read ?_
  refine follows_ite (follows_emitGuarded _) ?_
  refine follows_bind (follows_perform (hasEffect_importPath _)) fun _ => ?_
  refine follows_bind (follows_perform (hasEffect_localName _)) fun _ => ?_
  refine follows_bind (follows_bindLocal _ _) fun _ => ?_
  refine follows_bind (follows_emit _) fun _ => follows_emitChecked ?_
  exact follows_when (follows_emit _) (follows_when (follows_emit _) (follows_pure _))

theorem follows_emitCallWith (backend : Backend) (client : ClientRef) (method : String)
    (fields : Lower.Fields) {onResponse : Go.Expr → Generate Unit}
    {lowerOnResponse : Go.Expr → Lower Unit}
    (h : ∀ response, Follows (onResponse response) (lowerOnResponse response) c) :
    Follows (emitCallWith backend client method fields onResponse)
      (Lower.emitCallWith backend client method fields lowerOnResponse) c := by
  refine follows_bind (follows_perform (Lower.hasEffect_remoteCall _ _ _ _)) fun _ => ?_
  refine follows_bind (follows_perform (hasEffect_localName _)) fun _ => ?_
  refine follows_bind (follows_bindLocal _ _) fun _ => ?_
  exact follows_bind (follows_emit _) fun _ => follows_emitChecked (h _)

theorem follows_emitOneRow : Follows (perform Lower.emitOneRow) Lower.emitOneRow c :=
  follows_perform (Lower.hasEffect_emitOneRow (Discipline.regular_adding c).forms)

theorem follows_emitCall (backend : Backend) (client : ClientRef) (method : String)
    (fields : Lower.Fields) :
    Follows (emitCall backend client method fields) (Lower.emitCall backend client method fields)
      c := by
  refine follows_bind (follows_perform (Lower.hasEffect_remoteCall _ _ _ _)) fun _ => ?_
  refine follows_read (follows_ite ?_ (follows_emitGuarded _))
  exact follows_bind (follows_emit _) fun _ => follows_emitChecked follows_emitOneRow

theorem follows_emitReads (response : Go.Expr) (reads : Lower.Reads) :
    Follows (perform (Lower.emitReads response reads)) (Lower.emitReads response reads) c :=
  follows_perform (Lower.hasEffect_emitReads (Discipline.regular_adding c).forms _ _)

theorem follows_requestSelect (backend : Backend) (query : Select) (table : TableRef) :
    Follows (requestSelect backend query table) (Lower.requestSelect backend query table) c := by
  refine follows_bind (follows_perform (Lower.hasEffect_warnJoins _)) fun _ => ?_
  refine follows_bind (follows_perform (Lower.hasEffect_tableMethod _ _ _)) fun _ => ?_
  refine follows_bind (follows_perform (Lower.hasEffect_filterFields _)) fun _ => ?_
  refine follows_ite ?_ ?_
  · refine follows_bind (follows_perform (Lower.hasEffect_itemReads _)) fun _ => ?_
    refine follows_emitCallWith _ _ _ _ fun _ => ?_
    refine follows_bind (follows_emitReads _ _) fun _ => follows_read ?_
    exact follows_ite follows_emitOneRow (follows_pure _)
  · refine follows_emitCallWith _ _ _ _ fun _ => ?_
    exact follows_bind (follows_perform (Lower.hasEffect_runtimeCall _ _)) fun _ => follows_emit _

theorem follows_requestRows (backend : Backend) (client : ClientRef) (method : String)
    (columns : List String) (rows : List (List Expr)) :
    Follows (requestRows backend client method columns rows)
      (Lower.requestRows backend client method columns rows) c := by
  induction rows with
  | nil => exact follows_pure _
  | cons row rest ih =>
    refine follows_bind (follows_perform (Lower.hasEffect_addFields _ _ _)) fun _ => ?_
    exact follows_bind (follows_emitCall _ _ _ _) fun _ => ih

theorem follows_requestInsert (backend : Backend) (insert : Insert) :
    Follows (requestInsert backend insert) (Lower.requestInsert backend insert) c := by
  refine follows_when (follows_perform (Lower.hasEffect_fail rfl)) ?_
  cases insert.source with
  | query _ => exact follows_perform (Lower.hasEffect_fail rfl)
  | values rows =>
    refine follows_bind (follows_perform (Lower.hasEffect_tableMethod _ _ _)) fun _ => ?_
    exact follows_requestRows _ _ _ _ _

theorem follows_requestUpdate (backend : Backend) (update : Update) :
    Follows (requestUpdate backend update) (Lower.requestUpdate backend update) c := by
  refine follows_bind (follows_perform (Lower.hasEffect_tableMethod _ _ _)) fun _ => ?_
  refine follows_bind (follows_perform (Lower.hasEffect_filterFields _)) fun _ => ?_
  refine follows_bind (follows_perform (Lower.hasEffect_addFields _ _ _)) fun _ => ?_
  exact follows_emitCall _ _ _ _

theorem follows_requestDelete (backend : Backend) (delete : Delete) :
    Follows (requestDelete backend delete) (Lower.requestDelete backend delete) c := by
  refine follows_bind (follows_perform (Lower.hasEffect_tableMethod _ _ _)) fun _ => ?_
  refine follows_bind (follows_perform (Lower.hasEffect_filterFields _)) fun _ => ?_
  exact follows_emitCall _ _ _ _

theorem follows_requestExec (backend : Backend) (exec : Exec) :
    Follows (requestExec backend exec) (Lower.requestExec backend exec) c := by
  unfold requestExec Lower.requestExec
  refine follows_bind (follows_perform
    (Lower.hasEffect_ofExcept (failsPlainly_functionName _))) fun _ => ?_
  refine follows_bind (follows_perform (Lower.hasEffect_requestArgs _ _ _ _ _)) fun request => ?_
  obtain ⟨fields, reads⟩ := request
  have hreads (method : String) (client : ClientRef) (reads : Lower.Reads) :
      Follows (if reads.isEmpty then emitCall backend client method fields
          else emitCallWith backend client method fields fun response =>
            perform (Lower.emitReads response reads))
        (if reads.isEmpty then Lower.emitCall backend client method fields
          else Lower.emitCallWith backend client method fields fun response =>
            Lower.emitReads response reads) c :=
    follows_ite (follows_emitCall _ _ _ _)
      (follows_emitCallWith _ _ _ _ fun _ => follows_emitReads _ _)
  cases exec.returnStatus with
  | none => exact follows_bind (follows_pure _) fun _ => follows_read (hreads _ _ _)
  | some status =>
    refine follows_bind (follows_perform (Lower.hasEffect_lookup _)) fun _ => ?_
    exact follows_bind (follows_pure _) fun _ => follows_read (hreads _ _ _)

theorem follows_lowerQuery (query : Select) :
    Follows (lowerQuery query) (Lower.lowerQuery query) c := by
  refine follows_bind (follows_perform
    (Lower.hasEffect_renderQuery (plainBuild_ofSelect _))) fun _ => ?_
  refine follows_read (follows_ite ?_ ?_)
  · refine follows_when (follows_perform (Lower.hasEffect_unsupported _ _)) ?_
    refine follows_bind (follows_perform (Lower.hasEffect_goNames _)) fun _ => ?_
    exact follows_emitScan _ _ _
  · refine follows_bind (follows_perform hasEffect_handle) fun _ => ?_
    refine follows_bind (follows_perform (Lower.hasEffect_runtimeCall _ _)) fun _ => ?_
    exact follows_emitGuarded _

theorem follows_backendFor (table : TableRef) :
    Follows (perform (Lower.backendFor table)) (Lower.backendFor table) c :=
  follows_perform (Lower.hasEffect_backendFor _)

theorem follows_lowerSelect (query : Select) :
    Follows (lowerSelect query) (Lower.lowerSelect query) c := by
  unfold lowerSelect Lower.lowerSelect
  cases query.source with
  | none =>
    exact follows_perform (Lower.hasEffect_lowerValues (Discipline.regular_adding c).forms query)
  | some table =>
    refine follows_bind (follows_backendFor table) fun backend => ?_
    cases backend with
    | sql => exact follows_lowerQuery query
    | rpc | mock => exact follows_requestSelect _ _ _

theorem follows_lowerInsert (insert : Insert) :
    Follows (lowerInsert insert) (Lower.lowerInsert insert) c := by
  refine follows_bind (follows_backendFor _) fun backend => ?_
  cases backend with
  | sql =>
    exact follows_bind (follows_perform
      (Lower.hasEffect_renderQuery (plainBuild_ofInsert _))) fun _ => follows_emitExec _ _
  | rpc | mock => exact follows_requestInsert _ _

theorem follows_lowerUpdate (update : Update) :
    Follows (lowerUpdate update) (Lower.lowerUpdate update) c := by
  refine follows_bind (follows_backendFor _) fun backend => ?_
  cases backend with
  | sql =>
    exact follows_bind (follows_perform
      (Lower.hasEffect_renderQuery (plainBuild_ofUpdate _))) fun _ => follows_emitExec _ _
  | rpc | mock => exact follows_requestUpdate _ _

theorem follows_lowerDelete (delete : Delete) :
    Follows (lowerDelete delete) (Lower.lowerDelete delete) c := by
  refine follows_bind (follows_backendFor _) fun backend => ?_
  cases backend with
  | sql =>
    exact follows_bind (follows_perform
      (Lower.hasEffect_renderQuery (plainBuild_ofDelete _))) fun _ => follows_emitExec _ _
  | rpc | mock => exact follows_requestDelete _ _

theorem follows_callDatabase (exec : Exec) :
    Follows (callDatabase exec) (Lower.callDatabase exec) c := by
  unfold callDatabase Lower.callDatabase
  refine follows_bind (follows_perform
    (Lower.hasEffect_renderQuery (plainBuild_ofExec _))) fun _ => ?_
  refine follows_bind (follows_perform (Lower.hasEffect_outputTargets _)) fun _ => ?_
  have hrun {next : Unit → Generate Unit} {lowerNext : Unit → Lower Unit} {query : Query Go.Expr}
      {outputs : List String} (h : ∀ value, Follows (next value) (lowerNext value) c) :
      Follows
        (if outputs.isEmpty then emitExec query false >>= next
          else emitScan query outputs false >>= next)
        (if outputs.isEmpty then Lower.emitExec query false >>= lowerNext
          else Lower.emitScan query outputs false >>= lowerNext) c :=
    follows_ite (follows_bind (follows_emitExec _ _) h) (follows_bind (follows_emitScan _ _ _) h)
  cases exec.returnStatus with
  | none => exact hrun fun _ => follows_pure _
  | some status =>
    refine hrun fun _ => follows_bind (follows_perform (Lower.hasEffect_lookup _)) fun _ => ?_
    refine follows_bind (follows_perform (Lower.hasEffect_anyWarning _ _)) fun _ => ?_
    exact follows_emitAssign _ _

theorem follows_lowerExec (exec : Exec) :
    Follows (lowerExec exec) (Lower.lowerExec exec) c := by
  refine follows_read ?_
  dsimp only [Context.fixed]
  cases c.config.backend with
  | sql => exact follows_callDatabase exec
  | rpc | mock => exact follows_requestExec _ exec

theorem follows_assignVariable (name : String) (value : Expr) :
    Follows (perform (Lower.assignVariable name value)) (Lower.assignVariable name value) c :=
  follows_perform (Lower.hasEffect_assignVariable (Discipline.regular_adding c).forms name value)

theorem follows_lowerSet (target : String) (value : Expr) :
    Follows (lowerSet target value) (Lower.lowerSet target value) c := by
  unfold lowerSet Lower.lowerSet
  cases Lower.assignmentQuery? target value with
  | none => exact follows_assignVariable target value
  | some query =>
    exact follows_bind (follows_perform (Lower.hasEffect_lookup _)) fun _ => follows_lowerSelect query

/-! ## Cursors -/

theorem follows_emitRelease (iterator : String) :
    Follows (emitRelease iterator) (Lower.emitRelease iterator) c :=
  follows_emitClosure _ (follows_emitIf _ _ (follows_emit _))

theorem follows_hoistIterator (name : String) (query : Select) :
    Follows (hoistIterator name query) (Lower.hoistIterator name query) c := by
  refine follows_read (follows_ite ?_ (follows_pure _))
  refine follows_bind (follows_perform (Lower.hasEffect_iteratorName _)) fun _ => ?_
  refine follows_bind (follows_perform (Lower.hasEffect_iteratorType _)) fun _ => ?_
  refine follows_bind (follows_change fun _ => rfl) fun _ => ?_
  refine follows_bind (follows_emit _) fun _ => ?_
  exact follows_ite (follows_emitRelease _) (follows_pure _)

theorem follows_hoistIterators (statements : List Statement) :
    Follows (hoistIterators statements) (Lower.hoistIterators statements) c := by
  induction statements with
  | nil => exact follows_pure _
  | cons statement rest ih =>
    cases statement with
    | declareCursor name query => exact follows_bind (follows_hoistIterator _ _) fun _ => ih
    | _ => exact ih

theorem follows_getCursor (name : String) :
    Follows (perform (Lower.getCursor name)) (Lower.getCursor name) c :=
  follows_perform (Lower.hasEffect_getCursor Lower.ignoresCursors_discipline.admitsCursors name)

theorem follows_openCursor (name : String) :
    Follows (openCursor name) (Lower.openCursor name) c := by
  have hadmits := (Lower.ignoresCursors_discipline (S := .keeping fun _ => True)
    (c := c)).admitsCursors
  refine follows_bind (follows_getCursor name) fun cursor => ?_
  refine follows_when (follows_perform (Lower.hasEffect_cursorFault hadmits _ _)) ?_
  refine follows_bind (follows_perform (Lower.hasEffect_rowsCall _)) fun _ => ?_
  refine follows_bind (follows_perform (Lower.hasEffect_iteratorType _)) fun _ => ?_
  refine follows_bind (follows_bindLocal _ _) fun _ => follows_bind (follows_emit _) fun _ => ?_
  have hput (cursor : Cursor) :
      Follows (perform (Lower.putCursor name cursor)) (Lower.putCursor name cursor) c :=
    follows_perform (Lower.hasEffect_putCursor Lower.ignoresCursors_discipline _ _)
  refine follows_read (follows_ite ?_ ?_)
  · exact follows_bind (follows_emitIf _ _ follows_errorExit) fun _ => hput _
  · exact follows_bind (follows_emitChecked (follows_emit _)) fun _ => hput _

theorem follows_emitRow (iterator : Go.Expr) (targets : List String) :
    Follows (emitRow iterator targets) (Lower.emitRow iterator targets) c :=
  follows_emitGuarded _

theorem follows_fetchIterator (fetch : Fetch) :
    Follows (perform (Lower.fetchIterator fetch)) (Lower.fetchIterator fetch) c :=
  follows_perform
    (Lower.hasEffect_fetchIterator Lower.ignoresCursors_discipline.admitsCursors fetch)

theorem follows_goNames (names : List String) :
    Follows (perform (Lower.goNames names)) (Lower.goNames names) c :=
  follows_perform (Lower.hasEffect_goNames names)

theorem follows_fetchRow (fetch : Fetch) :
    Follows (fetchRow fetch) (Lower.fetchRow fetch) c := by
  refine follows_bind (follows_fetchIterator fetch) fun _ => follows_stacks fun _ _ _ => ?_
  refine follows_ite (follows_pure _) ?_
  refine follows_bind (follows_goNames _) fun _ => ?_
  exact follows_emitIf _ _ (follows_emitRow _ _)

/-! ## Loops -/

theorem follows_lowerCondition (condition : Expr) :
    Follows (perform (Lower.lowerCondition condition)) (Lower.lowerCondition condition) c :=
  follows_perform (Lower.hasEffect_lowerCondition (Discipline.regular_adding c).forms condition)

theorem follows_emitLoopTest (condition : Expr) :
    Follows (emitLoopTest condition) (Lower.emitLoopTest condition) c :=
  follows_bind (follows_lowerCondition _) fun _ => follows_emitIf _ _ (follows_emit _)

theorem runs_emitLoop {test : Option Go.Expr} {round : Generate Unit} {lower : Lower Unit}
    (h : Follows round lower c.enterLoop) {p inner : Progress}
    (hruns : lower.Runs c.enterLoop p.opened () inner) (writer : Go.Writer)
    (blocks : List (List Go.Stmt)) :
    (emitLoop test round).Runs c.fixed (.of c p writer blocks) (.ok ())
      (.of c ((p.closed inner).wrote (.loop test inner.output))
        ((Go.Stmt.loop test inner.output).write writer) blocks) := by
  have hround := h.runs_inside hruns rfl (writer.openBlock (Go.loopHead test)) (p.output :: blocks)
  cases test <;>
    exact (runs_openBlock _).bind <| runs_enterLoop.bind <| (runs_attempt hround).bind <|
      runs_leaveLoop.bind <| (runs_closeBlock _).bind <| (runs_record _).bind (runs_pure _)

theorem fails_emitLoop {test : Option Go.Expr} {round : Generate Unit} {lower : Lower Unit}
    (h : Follows round lower c.enterLoop) {p after : Progress} {error : Error}
    (hfails : lower.Fails c.enterLoop p.opened error after) (writer : Go.Writer)
    (blocks : List (List Go.Stmt)) :
    ∃ g, (emitLoop test round).Runs c.fixed (.of c p writer blocks) (.error error) g ∧
      g.path = c.path := by
  obtain ⟨g, hround, hpath⟩ :=
    h.fails hfails (writer.openBlock (Go.loopHead test)) (p.output :: blocks)
  have hclose (g : Generator) : (closeBlock Go.blockFoot).Runs c.fixed g g.progress.output _ := rfl
  exact ⟨_, (runs_openBlock _).bind <| runs_enterLoop.bind <| hround.attempt.bind <|
    (runs_modify _).bind <| (hclose _).bind <| (runs_modify _).bind (runs_pure _), hpath⟩

/-- A loop is left on every way out. -/
theorem follows_loop {test : Option Go.Expr} {round : Generate Unit} {lower : Lower Unit}
    (h : Follows round lower c.enterLoop) :
    Follows (emitLoop test round >>= resume)
      (do
        let body ← Lower.within Context.enterLoop (Lower.block lower)
        Lower.emit (.loop test body)) c where
  runs p _ _ hruns writer blocks := by
    simp only [Lower.runs_bind, Lower.runs_within, Lower.runs_block, Lower.runs_emit] at hruns
    obtain ⟨_, _, ⟨inner, hinner, rfl, rfl⟩, rfl⟩ := hruns
    exact ⟨[.loop test inner.output], rfl,
      (runs_emitLoop h hinner writer blocks).bind (runs_resume _)⟩
  fails p _ _ hfails writer blocks := by
    simp only [Lower.fails_bind, Lower.fails_within, Lower.fails_block, Lower.not_fails_emit,
      and_false, exists_false, or_false] at hfails
    obtain ⟨g, hloop, hpath⟩ := fails_emitLoop h hfails writer blocks
    exact ⟨g, hloop.bind_fails (fails_resume _), hpath⟩

theorem follows_lowerWhile (condition : Expr) {body : Generate Unit} {lower : Lower Unit}
    (h : Follows body lower (c.enterLoop.enter 0)) :
    Follows (lowerWhile condition body)
      (Lower.lowerWhile condition (Lower.within (Context.enter 0) lower)) c := by
  refine follows_ite ?_ ?_
  · exact follows_loop (follows_bind (follows_emitLoopTest _) fun _ => follows_branch 0 h)
  · exact follows_bind (follows_lowerCondition _) fun _ => follows_loop (follows_branch 0 h)

theorem follows_emitRound (iterator : Go.Expr) (targets : List String) (rest : Option Expr) :
    Follows (emitRound iterator targets rest) (Lower.emitRound iterator targets rest) c := by
  refine follows_bind (follows_emitRow _ _) fun _ => ?_
  cases rest with
  | none => exact follows_pure _
  | some condition => exact follows_emitLoopTest condition

theorem follows_emitCursorLoop (fetch : Fetch) (test : Go.Expr) {round : Generate Unit}
    {lower : Lower Unit} (h : Follows round lower (Lower.inCursorLoop fetch c)) :
    Follows (emitCursorLoop (Text.toLower fetch.cursor) test round)
      (do
        let body ← Lower.within (Lower.inCursorLoop fetch) (Lower.block lower)
        Lower.emit (.loop (some test) body)) c where
  runs p _ _ hruns writer blocks := by
    simp only [Lower.runs_bind, Lower.runs_within, Lower.runs_block, Lower.runs_emit] at hruns
    obtain ⟨_, _, ⟨inner, hinner, rfl, rfl⟩, rfl⟩ := hruns
    exact ⟨[.loop (some test) inner.output], rfl, (runs_pushLooping _).bind <|
      (runs_emitLoop h hinner writer blocks).bind <| (runs_popLooping _).bind (runs_resume _)⟩
  fails p _ _ hfails writer blocks := by
    simp only [Lower.fails_bind, Lower.fails_within, Lower.fails_block, Lower.not_fails_emit,
      and_false, exists_false, or_false] at hfails
    let pushed : Context := { c with looping := Text.toLower fetch.cursor :: c.looping }
    obtain ⟨g, hloop, hpath⟩ := fails_emitLoop (c := pushed) h hfails writer blocks
    exact ⟨_, (runs_pushLooping _).bind_fails <| hloop.bind_fails <|
      (runs_modify _).bind_fails (fails_resume _), hpath⟩

theorem follows_lowerCursorLoop (fetch : Fetch) (rest : Option Expr) {body : Generate Unit}
    {lower : Lower Unit} (h : Follows body lower (Lower.inCursorLoop fetch c)) :
    Follows (lowerCursorLoop fetch rest body) (Lower.lowerCursorLoop fetch rest lower) c := by
  refine follows_bind (follows_fetchIterator fetch) fun iterator => ?_
  refine follows_bind (follows_goNames _) fun targets => ?_
  have hround := follows_bind (follows_emitRound iterator targets rest) fun _ => h
  have hloop := follows_emitCursorLoop fetch (.invoke iterator "Next" []) hround
  have hcheck := follows_bind hloop fun _ =>
    follows_emitGuarded (Lower.assignTo [Lower.err] (.invoke iterator "Err" []))
  rwa [bind_assoc] at hcheck

theorem follows_lowerFetchLoop (prepared : Option Fetch) (rest : Option Expr)
    (statements : List Statement) {body : Generate Unit} {lower : Lower Unit}
    (h : ∀ fetch, Follows body lower (Lower.inCursorLoop fetch (c.enter 0))) :
    Follows (lowerFetchLoop prepared rest statements body)
      (Lower.lowerFetchLoop prepared rest statements lower) c := by
  unfold lowerFetchLoop Lower.lowerFetchLoop
  cases prepared.or (Statement.firstFetch? statements) with
  | none => exact follows_perform (Lower.hasEffect_unsupported _ _)
  | some fetch => exact follows_branch 0 (follows_lowerCursorLoop fetch rest (h fetch))

/-! ## Handlers -/

/-- Both halves of a `TRY` statement are left on every way out. -/
theorem follows_runScoped (scope : ExitScope) (index : Nat) {body : Generate Unit}
    {lower : Lower Unit} (h : Follows body lower (Lower.inHalf scope index c)) :
    Follows (runScoped scope index body) (Lower.within (Lower.inHalf scope index) lower) c where
  runs p _ after hruns writer blocks := by
    obtain ⟨code, hcode, hbody⟩ := h.runs (Lower.runs_within.mp hruns) writer blocks
    let pushed : Context := { c with exits := scope :: c.exits }
    exact ⟨code, hcode, (runs_pushExit scope).bind <| runs_enterClosure.bind <|
      (runs_enter index).bind <| (runs_attempt hbody).bind <| (runs_leave index).bind <|
      (runs_leaveClosure (c := pushed)).bind <| (runs_popExit scope).bind (runs_resume _)⟩
  fails p _ _ hfails writer blocks := by
    obtain ⟨g, hbody, hpath⟩ := h.fails (Lower.fails_within.mp hfails) writer blocks
    obtain ⟨g', hclosure, hpath'⟩ :=
      exists_runs_leaveClosure c.fixed { g with path := g.path.tail }
    obtain ⟨g'', hexit, hpath''⟩ := exists_runs_popExit c.fixed g'
    refine ⟨g'', (runs_pushExit scope).bind_fails <| runs_enterClosure.bind_fails <|
      (runs_enter index).bind_fails <| hbody.attempt.bind_fails <| (runs_modify _).bind_fails <|
      hclosure.bind_fails <| hexit.bind_fails (fails_resume _), ?_⟩
    rw [hpath'', hpath', hpath]
    rfl

theorem runs_setTransaction {p : Progress} {writer : Go.Writer} {blocks : List (List Go.Stmt)}
    (transaction : TransactionState) :
    (setTransaction transaction).Runs c.fixed (.of c p writer blocks) ()
      (.of c { p with transaction } writer blocks) :=
  runs_perform_silent (Lower.runs_modify.mpr rfl) rfl

theorem follows_emitCaught : Follows emitCaught Lower.emitCaught c := by
  refine follows_bind (follows_perform (hasEffect_importPath _)) fun _ => ?_
  refine follows_bind (follows_emit _) fun _ => ?_
  exact follows_emitIf _ _ (follows_emitAssign _ _)

theorem follows_emitHandlerStart (catchBody : List Statement) :
    Follows (emitHandlerStart catchBody) (Lower.emitHandlerStart catchBody) c := by
  refine follows_when follows_emitCaught (follows_read ?_)
  exact follows_ite (follows_emit _) (follows_pure _)

/-- What a handler is written into is closed behind it, and what is known about the transaction is
handed on. -/
theorem runs_emitRecover {tryBody catchBody : List Statement} {before : TransactionState}
    {handler : Generate Unit} {lower : Lower Unit} {p handled : Progress}
    (h : Follows handler lower (Lower.inHandler c))
    (hruns : (Lower.emitRecover catchBody lower).Runs c
      { p with transaction := Lower.handlerTransaction tryBody before } () handled)
    (writer : Go.Writer) (blocks : List (List Go.Stmt)) :
    ∃ code, handled.output = p.output ++ code ∧
      (emitRecover tryBody catchBody before handler).Runs c.fixed (.of c p writer blocks)
        handled.transaction (.of c handled (Go.writeList writer code) blocks) := by
  simp only [Lower.emitRecover, Lower.emitIf, Lower.runs_bind, Lower.runs_block, Lower.runs_within,
    Lower.runs_emit] at hruns
  obtain ⟨_, _, ⟨_, ⟨_, _, ⟨caught, ⟨_, started, hstart, hhandler⟩, rfl, rfl⟩, rfl⟩, rfl, rfl⟩,
    rfl⟩ := hruns
  obtain ⟨fresh, hfresh, hstart'⟩ := Lower.execute_emitHandlerStart catchBody c p.opened.opened
    (Lower.handlerTransaction tryBody before)
  obtain ⟨-, rfl⟩ := hstart.unique hstart'
  let front := (writer.openBlock (Go.closureHead true)).openBlock
    (Go.ifHead (some recovered) (.binary "!=" (.name "r") .nil))
  have hbegun := (follows_emitHandlerStart catchBody).runs_inside hfresh rfl front
    ([] :: p.output :: blocks)
  obtain ⟨code, hcode, hscoped⟩ := (follows_runScoped .catchHalf 1 h).runs
    (Lower.runs_within.mpr hhandler) (Go.writeList front fresh.output) ([] :: p.output :: blocks)
  rw [← Go.writeList_append, ← hcode] at hscoped
  let branch : Go.Stmt :=
    .branch (.mk (some recovered) (.binary "!=" (.name "r") .nil) caught.output) [] none
  have hwrite : Go.writeList writer [.closure true [branch]] =
      ((Go.writeList front caught.output).closeBlock Go.blockFoot).closeBlock Go.closureFoot := rfl
  refine ⟨[.closure true [branch]], rfl, ?_⟩
  rw [hwrite]
  refine (runs_openBlock _).bind <| (runs_openBlock _).bind <| hbegun.bind <|
    (runs_setTransaction _).bind <| hscoped.bind <| runs_get.bind ?_
  exact (runs_closeBlock (p := p.opened) _).bind <| (runs_record branch).bind <|
    (runs_closeBlock (p := p) _).bind <| (runs_record _).bind <| runs_pure _

theorem fails_emitRecover {tryBody catchBody : List Statement} {before : TransactionState}
    {handler : Generate Unit} {lower : Lower Unit} {p after : Progress} {error : Error}
    (h : Follows handler lower (Lower.inHandler c))
    (hfails : (Lower.emitRecover catchBody lower).Fails c
      { p with transaction := Lower.handlerTransaction tryBody before } error after)
    (writer : Go.Writer) (blocks : List (List Go.Stmt)) :
    ∃ g, (emitRecover tryBody catchBody before handler).Fails c.fixed (.of c p writer blocks)
      error g ∧ g.path = c.path := by
  obtain ⟨fresh, hfresh, hstart'⟩ := Lower.execute_emitHandlerStart catchBody c p.opened.opened
    (Lower.handlerTransaction tryBody before)
  obtain hstart | ⟨started, hstart, hhandler⟩ := Lower.fails_emitRecover.mp hfails
  · exact absurd hstart' hstart.not_runs
  obtain ⟨-, rfl⟩ := hstart.unique hstart'
  let front := (writer.openBlock (Go.closureHead true)).openBlock
    (Go.ifHead (some recovered) (.binary "!=" (.name "r") .nil))
  have hbegun := (follows_emitHandlerStart catchBody).runs_inside hfresh rfl front
    ([] :: p.output :: blocks)
  obtain ⟨g, hscoped, hpath⟩ := (follows_runScoped .catchHalf 1 h).fails
    (Lower.fails_within.mpr hhandler) (Go.writeList front fresh.output) ([] :: p.output :: blocks)
  exact ⟨g, (runs_openBlock _).bind_fails <| (runs_openBlock _).bind_fails <| hbegun.bind_fails <|
    (runs_setTransaction _).bind_fails <| hscoped.bind, hpath⟩

theorem follows_emitWayOut (flag : Option String) (catchBody : List Statement) :
    Follows (emitWayOut c.exitScope flag catchBody) (Lower.emitWayOut flag catchBody) c := by
  refine follows_read ?_
  have hreport {test : Prop} [Decidable test] :
      Follows (if test then emitIf none Lower.failed
          (if c.exitScope = .catchHalf then emit (.ret []) else perform Lower.errorExit) else pure ())
        (if test then Lower.emitIf none Lower.failed
          (if c.exitScope = .catchHalf then Lower.emit (.ret []) else Lower.errorExit) else pure ())
        c :=
    follows_ite (follows_emitIf _ _ (follows_ite (follows_emit _) follows_errorExit)) (follows_pure _)
  cases flag with
  | none => exact follows_bind (follows_pure _) fun _ => hreport
  | some flag =>
    refine follows_bind (follows_emitIf _ _ (follows_perform ?_)) fun _ => hreport
    exact (Scheme.permissive_keeping _ c).leaving.resume

theorem follows_returnFlag? (body : List Statement) :
    Follows (perform (Lower.returnFlag? body)) (Lower.returnFlag? body) c :=
  follows_perform (Lower.hasEffect_returnFlag? (Discipline.regular_adding c).forms body)

/-- Protected statements, where a `RETURN` sets a flag. -/
theorem follows_protected {protect : Generate Unit} {lower : Lower Unit}
    (h : ∀ flag, Follows protect lower (Lower.inTry flag c)) (flag : Option String) :
    Follows (runScoped .tryHalf 0 protect) (Lower.within (Lower.inHalf .tryHalf 0) lower)
      { c with returnFlags := flag :: c.returnFlags } :=
  follows_runScoped .tryHalf 0 (h flag)

theorem follows_lowerTryCatch (tryBody catchBody : List Statement)
    {protect handler : Generate Unit} {lowerProtect lowerHandler : Lower Unit}
    (hprotect : ∀ flag, Follows protect lowerProtect (Lower.inTry flag c))
    (hhandler : Follows handler lowerHandler (Lower.inHandler c)) :
    Follows (lowerTryCatch tryBody catchBody protect handler)
      (Lower.lowerTryCatch tryBody catchBody lowerProtect lowerHandler) c where
  runs p _ after hruns writer blocks := by
    obtain ⟨flag, flagged, handled, inner, hflag, hrecover, hattempt, _, hout, -, -, -, -, -,
      rfl⟩ := Lower.runs_lowerTryCatch hruns
    obtain ⟨flags, hflags, hflagged⟩ := (follows_returnFlag? tryBody).runs hflag writer blocks
    let front := (Go.writeList writer flags).openBlock (Go.closureHead false)
    obtain ⟨recover, hrecovers, hhandled⟩ := runs_emitRecover (p := flagged.opened) hhandler hrecover
      front (flagged.output :: blocks)
    obtain ⟨code, hcode, hprotected⟩ := (follows_protected hprotect flag).runs
      (Lower.runs_within.mpr hattempt) (Go.writeList front recover) (flagged.output :: blocks)
    have hwritten : inner.output = recover ++ code := by rw [hcode, hrecovers]; rfl
    rw [← Go.writeList_append, ← hwritten] at hprotected
    let literal : Go.Stmt := .closure false inner.output
    obtain ⟨back, hback, hwayOut⟩ := (follows_emitWayOut flag catchBody).runs hout
      (literal.write (Go.writeList writer flags)) blocks
    refine ⟨flags ++ literal :: back, ?_, ?_⟩
    · rw [hback]
      simp [Progress.wrote, Progress.closed, hflags, literal]
    rw [Go.writeList_append, Go.writeList]
    refine runs_exitScope.bind <| runs_get.bind <| hflagged.bind <| (runs_openBlock _).bind <|
      hhandled.bind <| (runs_setTransaction _).bind <| (runs_pushFlag flag).bind <|
      (runs_attempt hprotected).bind <| (runs_popFlag flag).bind <| (runs_resume _).bind ?_
    exact (runs_closeBlock (p := flagged) _).bind <| (runs_record literal).bind <| runs_get.bind <|
      (runs_setTransaction _).bind hwayOut
  fails p error after hfails writer blocks := by
    obtain hflag | ⟨flag, flagged, hflag, hfails⟩ := Lower.fails_lowerTryCatch.mp hfails
    · obtain ⟨g, hstep, hpath⟩ := (follows_returnFlag? tryBody).fails hflag writer blocks
      exact ⟨g, runs_exitScope.bind_fails <| runs_get.bind_fails hstep.bind, hpath⟩
    obtain ⟨flags, hflags, hflagged⟩ := (follows_returnFlag? tryBody).runs hflag writer blocks
    let front := (Go.writeList writer flags).openBlock (Go.closureHead false)
    have hentered {g : Generator} (h : Generate.Fails _ c.fixed
        (.of c flagged.opened front (flagged.output :: blocks)) error g) :
        (lowerTryCatch tryBody catchBody protect handler).Fails c.fixed (.of c p writer blocks)
          error g :=
      runs_exitScope.bind_fails <| runs_get.bind_fails <| hflagged.bind_fails <|
        (runs_openBlock _).bind_fails h
    obtain hrecover | ⟨handled, hrecover, hfails⟩ := hfails
    · obtain ⟨g, hstep, hpath⟩ := fails_emitRecover (p := flagged.opened) hhandler hrecover front
        (flagged.output :: blocks)
      exact ⟨g, hentered hstep.bind, hpath⟩
    obtain ⟨recover, hrecovers, hhandled⟩ := runs_emitRecover (p := flagged.opened) hhandler hrecover
      front (flagged.output :: blocks)
    obtain hattempt | ⟨inner, hattempt, hout⟩ := hfails
    · obtain ⟨g, hstep, hpath⟩ := (follows_protected hprotect flag).fails
        (Lower.fails_within.mpr hattempt) (Go.writeList front recover) (flagged.output :: blocks)
      exact ⟨_, hentered <| hhandled.bind_fails <| (runs_setTransaction _).bind_fails <|
        (runs_pushFlag flag).bind_fails <| hstep.attempt.bind_fails <|
        (runs_modify _).bind_fails (fails_resume _).bind, hpath⟩
    · obtain ⟨code, hcode, hprotected⟩ := (follows_protected hprotect flag).runs
        (Lower.runs_within.mpr hattempt) (Go.writeList front recover) (flagged.output :: blocks)
      obtain ⟨g, hstep, hpath⟩ := (follows_emitWayOut flag catchBody).fails hout
        ((Go.writeList (Go.writeList front recover) code).closeBlock Go.closureFoot) blocks
      refine ⟨g, hentered <| hhandled.bind_fails <| (runs_setTransaction _).bind_fails <|
        (runs_pushFlag flag).bind_fails <| (runs_attempt hprotected).bind_fails <|
        (runs_popFlag flag).bind_fails <| (runs_resume _).bind_fails ?_, hpath⟩
      exact (runs_closeBlock (p := flagged) _).bind_fails <| (runs_record _).bind_fails <|
        runs_get.bind_fails <| (runs_setTransaction _).bind_fails hstep

/-! ## Transactions and jumps -/

theorem follows_setTransaction (transaction : TransactionState) :
    Follows (setTransaction transaction) (Lower.setTransaction transaction) c :=
  follows_perform (Lower.hasEffect_setTransaction Lower.ignoresTransaction_discipline transaction)

theorem follows_transactionFault (problem : String) :
    Follows (α := Unit) (perform (Lower.transactionFault problem)) (Lower.transactionFault problem)
      c :=
  follows_perform (Lower.hasEffect_fail rfl)

theorem follows_warn (kind : WarningKind) (message : String) :
    Follows (perform (Lower.warn kind message)) (Lower.warn kind message) c :=
  follows_perform (Lower.hasEffect_anyWarning kind message)

theorem follows_emitBegin : Follows emitBegin Lower.emitBegin c := by
  refine follows_bind (follows_emitGuarded _) fun _ => follows_emitClosure true ?_
  refine follows_emitIf _ _ (follows_bind (follows_emit _) fun _ => follows_emitAssign _ _)

theorem follows_beginTransaction (name : Option String) :
    Follows (beginTransaction name) (Lower.beginTransaction name) c := by
  refine follows_get fun p _ _ => follows_when (follows_transactionFault _) ?_
  have hbegin : Follows
      (do
        setTransaction ⟨true, false⟩
        if (← read).survey.usesDb then emitBegin
        else perform (Lower.warnNoHandle "BEGIN TRANSACTION"))
      (do
        Lower.setTransaction ⟨true, false⟩
        if (← read).survey.usesDb then Lower.emitBegin
        else Lower.warnNoHandle "BEGIN TRANSACTION") c := by
    refine follows_bind (follows_setTransaction _) fun _ => follows_read ?_
    exact follows_ite follows_emitBegin (follows_warn _ _)
  cases name with
  | none => exact hbegin
  | some name => exact follows_bind (follows_warn _ _) fun _ => hbegin

theorem follows_endTransaction (keyword method : String) :
    Follows (endTransaction keyword method) (Lower.endTransaction keyword method) c := by
  refine follows_get fun p _ _ => follows_when (follows_transactionFault _) ?_
  refine follows_bind (follows_setTransaction _) fun _ => follows_read ?_
  refine follows_ite ?_ (follows_warn _ _)
  have hfinish := follows_bind (c := c)
    (follows_emitGuarded (Lower.assignTo [Lower.err] (.invoke Lower.tx method [])))
    fun _ => follows_emitAssign "tx" .nil
  exact follows_ite (follows_emitIf _ _ hfinish) hfinish

theorem follows_checkJump (keyword : String) :
    Follows (checkJump keyword) (Lower.checkJump keyword) c := by
  refine follows_stacks fun p _ _ => ?_
  change Follows (if c.loops = 0 then _ else _) (if c.loops = 0 then _ else _) c
  by_cases hloops : c.loops = 0
  · have hany : (Generator.of c p ‹_› ‹_›).loops.any (· > 0) = c.outerLoops.any (· > 0) := by
      simp [Generator.of, hloops]
    rw [if_pos hloops, if_pos hloops, hany]
    exact follows_ite (follows_perform (Lower.hasEffect_unsupported _ _))
      (follows_perform (Lower.hasEffect_unsupported _ _))
  · rw [if_neg hloops, if_neg hloops]
    exact follows_pure _

/-! ## Chains of conditionals -/

theorem lowerElse_of_not_continuesChain {body : List Statement}
    (h : Statement.continuesChain body = false) :
    lowerElse (some body) = (do
      let statements ← reopenBlock Go.elseHead
      branch 1 (lowerStatements 0 none body)
      let otherwise ← closeBlock Go.blockFoot
      return (statements, [], some otherwise)) := by
  unfold lowerElse
  split
  next heq => cases heq
  next condition thenBranch elseBranch heq =>
    obtain rfl := Option.some.inj heq
    have hhoist : condition.needsHoist = true := by simpa [Statement.continuesChain] using h
    rw [if_pos hhoist]
  next heq =>
    obtain rfl := Option.some.inj heq
    rfl

/-- A step writes the branches behind an open block, where the other step stands behind the block
and only returns them. -/
structure FollowsBehind (step : Generate (List Go.Stmt × List Go.Arm × Option (List Go.Stmt)))
    (lower : Lower (List Go.Arm × Option (List Go.Stmt))) (c : Context) : Prop where
  runs ⦃p inner after : Progress⦄ ⦃others : List Go.Arm⦄ ⦃otherwise : Option (List Go.Stmt)⦄ :
    lower.Runs c (p.closed inner) (others, otherwise) after → ∀ writer blocks,
      step.Runs c.fixed (.of c inner writer (p.output :: blocks)) (inner.output, others, otherwise)
        (.of c after ((Go.writeElse (Go.writeArms writer others) otherwise).closeBlock Go.blockFoot)
          blocks)
  fails ⦃p inner after : Progress⦄ ⦃error : Error⦄ :
    lower.Fails c (p.closed inner) error after → ∀ writer blocks,
      ∃ g, step.Fails c.fixed (.of c inner writer (p.output :: blocks)) error g ∧ g.path = c.path

theorem followsBehind_branch {step : Generate (List Go.Stmt × List Go.Arm × Option (List Go.Stmt))}
    {lower : Lower (List Go.Arm × Option (List Go.Stmt))} (index : Nat)
    (h : FollowsBehind step lower (c.enter index)) :
    FollowsBehind (branch index step) (Lower.within (Context.enter index) lower) c where
  runs p _ _ _ _ hruns writer blocks :=
    (runs_enter index).bind <| (runs_attempt (h.runs (Lower.runs_within.mp hruns) writer blocks)).bind <|
      (runs_leave index).bind <| runs_resume _
  fails p _ _ _ hfails writer blocks := by
    obtain ⟨g, hstep, hpath⟩ := h.fails (Lower.fails_within.mp hfails) writer blocks
    exact ⟨_, (runs_enter index).bind_fails <| hstep.attempt.bind_fails <|
      (runs_modify _).bind_fails <| fails_resume _, congrArg List.tail hpath⟩

theorem followsBehind_located {step : Generate (List Go.Stmt × List Go.Arm × Option (List Go.Stmt))}
    {lower : Lower (List Go.Arm × Option (List Go.Stmt))} (h : FollowsBehind step lower c) :
    FollowsBehind (located step) (Lower.located lower) c where
  runs p _ _ _ _ hruns writer blocks := (h.runs (Lower.runs_located.mp hruns) writer blocks).located
  fails p _ _ _ hfails writer blocks := by
    obtain ⟨error, hinner, rfl⟩ := Lower.fails_located.mp hfails
    obtain ⟨g, hstep, hpath⟩ := h.fails hinner writer blocks
    exact ⟨g, hstep.located_of_path_eq hpath, hpath⟩

/-- Without an alternative the block is only closed. -/
theorem followsBehind_none : FollowsBehind (lowerElse none) (Lower.lowerElse none) c where
  runs p inner after others otherwise hruns writer blocks := by
    obtain ⟨heq, rfl⟩ := Lower.runs_pure.mp hruns
    obtain ⟨rfl, rfl⟩ := Prod.mk.inj heq
    exact (runs_closeBlock _).bind (runs_pure _)
  fails _ _ _ _ hfails := absurd hfails Lower.not_fails_pure

theorem followsBehind_some {body : List Statement} (h : Statement.continuesChain body = false)
    (hbody : Follows (lowerStatements 0 none body) (Lower.lowerStatements 0 none body) (c.enter 1)) :
    FollowsBehind (lowerElse (some body)) (Lower.lowerElse (some body)) c where
  runs p inner after others otherwise hruns writer blocks := by
    simp only [Lower.lowerElse_of_not_continuesChain h, Lower.runs_bind, Lower.runs_block,
      Lower.runs_pure] at hruns
    obtain ⟨_, _, ⟨written, hwritten, rfl, rfl⟩, heq, rfl⟩ := hruns
    obtain ⟨rfl, rfl⟩ := Prod.mk.inj heq
    have hbranch := (follows_branch 1 hbody).runs_inside hwritten rfl
      (writer.reopenBlock Go.elseHead) (p.output :: blocks)
    rw [lowerElse_of_not_continuesChain h]
    exact (runs_reopenBlock _).bind <| hbranch.bind <| (runs_closeBlock _).bind (runs_pure _)
  fails p inner after error hfails writer blocks := by
    simp only [Lower.lowerElse_of_not_continuesChain h, Lower.fails_bind, Lower.fails_block,
      Lower.not_fails_pure, and_false, exists_false, or_false] at hfails
    obtain ⟨g, hbranch, hpath⟩ := (follows_branch 1 hbody).fails hfails
      (writer.reopenBlock Go.elseHead) (p.output :: blocks)
    rw [lowerElse_of_not_continuesChain h]
    exact ⟨g, (runs_reopenBlock _).bind_fails hbranch.bind, hpath⟩

/-- A condition that depends on no query may be treated before the block in front of it is closed. -/
theorem runs_condition_inside {condition : Expr} (h : condition.needsHoist = false)
    {p inner tested : Progress} {test : Go.Expr}
    (htest : (Lower.lowerCondition condition).Runs c (p.closed inner) test tested)
    (writer : Go.Writer) (blocks : List (List Go.Stmt)) :
    ∃ ready, (perform (Lower.lowerCondition condition)).Runs c.fixed (.of c inner writer blocks) test
      (.of c ready writer blocks) ∧ ready.output = inner.output ∧ p.closed ready = tested := by
  have hannotated := Lower.annotated_lowerCondition h htest
  have hready : (Lower.lowerCondition condition).Runs c inner test
      { tested with names := inner.names, output := inner.output } := by
    have hdetached :=
      Lower.detached_lowerCondition (c := c) h (p.closed inner) inner.names inner.output
    rw [htest] at hdetached
    exact hdetached
  refine ⟨_, runs_perform_silent hready rfl, rfl, ?_⟩
  have houtput : tested.output = p.output := hannotated.output
  have hnames : tested.names = inner.names.pop := hannotated.names
  rw [Progress.closed, ← houtput, ← hnames]

theorem fails_condition_inside {condition : Expr} (h : condition.needsHoist = false)
    {p inner after : Progress} {error : Error}
    (htest : (Lower.lowerCondition condition).Fails c (p.closed inner) error after)
    (writer : Go.Writer) (blocks : List (List Go.Stmt)) :
    ∃ g, (perform (Lower.lowerCondition condition)).Fails c.fixed (.of c inner writer blocks) error
      g ∧ g.path = c.path := by
  have hdetached :=
    Lower.detached_lowerCondition (c := c) h (p.closed inner) inner.names inner.output
  rw [htest] at hdetached
  exact fails_perform hdetached

/-- A further test of a chain, whose own alternative is treated alike. -/
theorem followsBehind_elseIf {condition : Expr} {body : Generate Unit} {lower : Lower Unit}
    {step : Generate (List Go.Stmt × List Go.Arm × Option (List Go.Stmt))}
    {lowerStep : Lower (List Go.Arm × Option (List Go.Stmt))} (h : condition.needsHoist = false)
    (hbody : Follows body lower c) (hstep : FollowsBehind step lowerStep c) :
    FollowsBehind
      (do
        let test ← perform (Lower.lowerCondition condition)
        let front ← reopenBlock (Go.elseIfHead none test)
        body
        let (next, others, otherwise) ← step
        return (front, .mk none test next :: others, otherwise))
      (do
        let test ← Lower.lowerCondition condition
        let next ← Lower.block lower
        let (others, otherwise) ← lowerStep
        return (.mk none test next :: others, otherwise)) c where
  runs p inner after others otherwise hruns writer blocks := by
    simp only [Lower.runs_bind, Lower.runs_block, Lower.runs_pure] at hruns
    obtain ⟨test, tested, htest, _, _, ⟨written, hwritten, rfl, rfl⟩, ⟨more, last⟩, _, hmore, heq,
      rfl⟩ := hruns
    obtain ⟨rfl, rfl⟩ := Prod.mk.inj heq
    obtain ⟨ready, hready, houtput, rfl⟩ := runs_condition_inside h htest writer
      (p.output :: blocks)
    let front := writer.reopenBlock (Go.elseIfHead none test)
    have hwrites := hbody.runs_inside hwritten rfl front (p.output :: blocks)
    have hrest := hstep.runs hmore (Go.writeList front written.output) blocks
    rw [← houtput]
    exact hready.bind <| (runs_reopenBlock _).bind <| hwrites.bind <| hrest.bind (runs_pure _)
  fails p inner after error hfails writer blocks := by
    obtain htest | ⟨test, tested, htest, hfails⟩ := Lower.fails_bind.mp hfails
    · obtain ⟨g, hfailed, hpath⟩ := fails_condition_inside h htest writer (p.output :: blocks)
      exact ⟨g, hfailed.bind, hpath⟩
    obtain ⟨ready, hready, houtput, rfl⟩ := runs_condition_inside h htest writer
      (p.output :: blocks)
    let front := writer.reopenBlock (Go.elseIfHead none test)
    obtain hblock | ⟨_, _, hblock, hfails⟩ := Lower.fails_bind.mp hfails
    · obtain ⟨g, hfailed, hpath⟩ :=
        hbody.fails (Lower.fails_block.mp hblock) front (p.output :: blocks)
      exact ⟨g, hready.bind_fails <| (runs_reopenBlock _).bind_fails hfailed.bind, hpath⟩
    obtain ⟨written, hwritten, rfl, rfl⟩ := Lower.runs_block.mp hblock
    have hwrites := hbody.runs_inside hwritten rfl front (p.output :: blocks)
    obtain hmore | ⟨_, _, hmore, hfails⟩ := Lower.fails_bind.mp hfails
    · obtain ⟨g, hfailed, hpath⟩ := hstep.fails hmore (Go.writeList front written.output) blocks
      exact ⟨g, hready.bind_fails <| (runs_reopenBlock _).bind_fails <| hwrites.bind_fails
        hfailed.bind, hpath⟩
    · exact absurd hfails Lower.not_fails_pure

/-- A conditional with the branches behind its first one. -/
theorem followsInside_branches {α : Type} {test : Go.Expr} {elseBranch : Option (List Statement)}
    {next : Generate α} {lowerNext : Lower α}
    (h : FollowsBehind (lowerElse elseBranch) (Lower.lowerElse elseBranch) c)
    (hnext : Follows next lowerNext c) :
    FollowsInside (·.openBlock (Go.ifHead none test))
      (do
        let (body, others, otherwise) ← lowerElse elseBranch
        record (.branch (.mk none test body) others otherwise)
        next)
      (fun body => do
        let (others, otherwise) ← Lower.lowerElse elseBranch
        Lower.emit (.branch (.mk none test body) others otherwise)
        lowerNext) c where
  runs p inner result after hruns writer blocks := by
    obtain ⟨⟨others, otherwise⟩, passed, hstep, hruns⟩ := Lower.runs_bind.mp hruns
    obtain ⟨_, _, hemit, hruns⟩ := Lower.runs_bind.mp hruns
    obtain rfl := Lower.runs_emit.mp hemit
    let tree : Go.Stmt := .branch (.mk none test inner.output) others otherwise
    obtain ⟨code, hcode, hrest⟩ := hnext.runs hruns (tree.write writer) blocks
    have hpassed : passed.output = p.output := (Lower.output_lowerElse hstep :)
    refine ⟨tree :: code, ?_, (h.runs hstep _ blocks).bind ((runs_record tree).bind hrest)⟩
    rw [hcode, Progress.wrote, hpassed, List.append_assoc]
    rfl
  fails p inner error after hfails writer blocks := by
    obtain hstep | ⟨⟨others, otherwise⟩, passed, hstep, hfails⟩ := Lower.fails_bind.mp hfails
    · obtain ⟨g, hfailed, hpath⟩ := h.fails hstep _ blocks
      exact ⟨g, hfailed.bind, hpath⟩
    obtain hemit | ⟨_, _, hemit, hfails⟩ := Lower.fails_bind.mp hfails
    · exact absurd hemit Lower.not_fails_emit
    obtain rfl := Lower.runs_emit.mp hemit
    let tree : Go.Stmt := .branch (.mk none test inner.output) others otherwise
    obtain ⟨g, hfailed, hpath⟩ := hnext.fails hfails (tree.write writer) blocks
    exact ⟨g, (h.runs hstep _ blocks).bind_fails ((runs_record tree).bind_fails hfailed), hpath⟩

/-- A statement is treated with stacks as it is treated in its context. The branches of a
conditional may be a part of another one. -/
structure Mirrors (source : Statement) : Prop where
  whole (c : Context) (rest : List Statement) (prepared : Option Fetch) :
    Follows (lowerStatement rest prepared source) (Lower.lowerStatement rest prepared source) c
  chain ⦃condition : Expr⦄ ⦃thenBranch : List Statement⦄ ⦃elseBranch : Option (List Statement)⦄ :
    source = .ifElse condition thenBranch elseBranch →
    (∀ c, Follows (lowerStatements 0 none thenBranch) (Lower.lowerStatements 0 none thenBranch) c) ∧
      ∀ c, FollowsBehind (lowerElse elseBranch) (Lower.lowerElse elseBranch) c

theorem follows_lowerStatements_of {statements : List Statement}
    (h : ∀ s ∈ statements, Mirrors s) (c : Context) (index : Nat) (prepared : Option Fetch) :
    Follows (lowerStatements index prepared statements)
      (Lower.lowerStatements index prepared statements) c := by
  induction statements generalizing index prepared with
  | nil => exact follows_pure _
  | cons statement rest ih =>
    have hfirst := (h statement List.mem_cons_self).whole (c.enter index) rest prepared
    refine follows_bind (follows_branch index (follows_located hfirst)) fun prepared => ?_
    exact ih (fun s hs => h s (List.mem_cons_of_mem _ hs)) (index + 1) prepared

theorem followsBehind_lowerElse_of {elseBranch : Option (List Statement)}
    (h : ∀ body ∈ elseBranch, ∀ s ∈ body, Mirrors s) (c : Context) :
    FollowsBehind (lowerElse elseBranch) (Lower.lowerElse elseBranch) c := by
  cases elseBranch with
  | none => exact followsBehind_none
  | some body =>
    cases hchain : Statement.continuesChain body with
    | false => exact followsBehind_some hchain (follows_lowerStatements_of (h body rfl) _ 0 none)
    | true =>
      obtain ⟨condition, thenBranch, elseBranch, rfl, hhoist⟩ :=
        Statement.continuesChain_iff.mp hchain
      obtain ⟨hthen, helse⟩ := (h _ rfl _ List.mem_cons_self).chain rfl
      simp only [lowerElse, Lower.lowerElse, hhoist, Bool.false_eq_true, if_false]
      exact followsBehind_branch 1 <| followsBehind_branch 0 <| followsBehind_located <|
        followsBehind_elseIf hhoist (follows_branch 0 (hthen _)) (helse _)

/-- A statement is treated with stacks as in its context if the statements inside it are. -/
theorem follows_lowerStatement_of {source : Statement}
    (h : ∀ body ∈ source.children, ∀ s ∈ body, Mirrors s) (c : Context) (rest : List Statement)
    (prepared : Option Fetch) :
    Follows (lowerStatement rest prepared source) (Lower.lowerStatement rest prepared source) c := by
  have jumping : (Discipline.adding c).Jumping c := (Scheme.permissive_keeping _ c).jumping
  have regular := jumping.toRegular
  have hcursors := Lower.allowsCursors regular Lower.ignoresCursors_discipline jumping.opens
  have hlist {body : List Statement} (hbody : body ∈ source.children) (c : Context) :
      Follows (lowerStatements 0 none body) (Lower.lowerStatements 0 none body) c :=
    follows_lowerStatements_of (h body hbody) c 0 none
  cases source with
  | ifElse condition thenBranch elseBranch =>
    have helse : ∀ body ∈ elseBranch, ∀ s ∈ body, Mirrors s := fun body hbody =>
      h body (List.mem_cons_of_mem _ (Option.mem_toList.mpr hbody))
    rw [lowerStatement, Lower.lowerStatement]
    refine follows_bind (follows_lowerCondition _) fun test => ?_
    refine follows_openBlock (follows_branch 0 (hlist List.mem_cons_self _)) ?_
    exact followsInside_branches (followsBehind_lowerElse_of helse c) (follows_pure _)
  | «while» condition body =>
    have hbody := @hlist body List.mem_cons_self
    rw [lowerStatement, Lower.lowerStatement]
    cases sentinelRest? condition with
    | some more =>
      exact follows_bind (follows_lowerFetchLoop _ _ _ fun _ => hbody _) fun _ => follows_pure _
    | none => exact follows_bind (follows_lowerWhile _ (hbody _)) fun _ => follows_pure _
  | block body =>
    rw [lowerStatement, Lower.lowerStatement]
    exact follows_bind (hlist List.mem_cons_self c) fun _ => follows_pure _
  | tryCatch tryBody catchBody =>
    rw [lowerStatement, Lower.lowerStatement]
    refine follows_bind (follows_lowerTryCatch _ _ (fun _ => hlist List.mem_cons_self _) ?_)
      fun _ => follows_pure _
    exact hlist (List.mem_cons_of_mem _ List.mem_cons_self) _
  | declare vars =>
    rw [lowerStatement, Lower.lowerStatement]
    exact follows_bind (follows_perform (Lower.hasEffect_lowerDeclares regular
      (Scheme.lasting_keeping (fun _ _ => trivial) c) vars)) fun _ => follows_pure _
  | declareCursor name query =>
    rw [lowerStatement, Lower.lowerStatement]
    exact follows_bind (follows_perform (Lower.hasEffect_declareCursor regular.forms hcursors
      name query)) fun _ => follows_pure _
  | set target value =>
    rw [lowerStatement, Lower.lowerStatement]
    exact follows_bind (follows_lowerSet target value) fun _ => follows_pure _
  | ret value =>
    rw [lowerStatement, Lower.lowerStatement]
    refine follows_bind (follows_perform (Lower.hasEffect_lowerStatus regular.forms value)) fun _ => ?_
    exact follows_bind (follows_perform (jumping.leave _)) fun _ => follows_pure _
  | print value =>
    rw [lowerStatement, Lower.lowerStatement]
    refine follows_bind (follows_perform (Lower.hasEffect_lowerValue_regular regular.forms value _))
      fun _ => ?_
    exact follows_bind (follows_perform (regular.log _ _ _)) fun _ =>
      follows_pure _
  | breakLoop | continueLoop =>
    rw [lowerStatement, Lower.lowerStatement]
    exact follows_bind (follows_checkJump _) fun _ =>
      follows_bind (follows_emit _) fun _ => follows_pure _
  | select query =>
    rw [lowerStatement, Lower.lowerStatement]
    exact follows_bind (follows_lowerSelect query) fun _ => follows_pure _
  | insert insert =>
    rw [lowerStatement, Lower.lowerStatement]
    exact follows_bind (follows_lowerInsert insert) fun _ => follows_pure _
  | update update =>
    rw [lowerStatement, Lower.lowerStatement]
    exact follows_bind (follows_lowerUpdate update) fun _ => follows_pure _
  | delete delete =>
    rw [lowerStatement, Lower.lowerStatement]
    exact follows_bind (follows_lowerDelete delete) fun _ => follows_pure _
  | exec exec =>
    rw [lowerStatement, Lower.lowerStatement]
    exact follows_bind (follows_lowerExec exec) fun _ => follows_pure _
  | execDynamic _ =>
    rw [lowerStatement, Lower.lowerStatement]
    exact follows_perform (Lower.hasEffect_unsupported _ _)
  | openCursor name =>
    rw [lowerStatement, Lower.lowerStatement]
    exact follows_bind (follows_openCursor name) fun _ => follows_pure _
  | fetch fetch =>
    rw [lowerStatement, Lower.lowerStatement]
    refine follows_bind
      (follows_perform (Lower.hasEffect_ofExcept_cursor hcursors.admits _)) fun _ => ?_
    exact follows_ite (follows_pure _)
      (follows_bind (follows_fetchRow fetch) fun _ => follows_pure _)
  | closeCursor name =>
    rw [lowerStatement, Lower.lowerStatement]
    exact follows_bind (follows_perform (Lower.hasEffect_closeCursor hcursors name)) fun _ =>
      follows_pure _
  | deallocate name =>
    rw [lowerStatement, Lower.lowerStatement]
    exact follows_bind (follows_perform (Lower.hasEffect_deallocateCursor hcursors name)) fun _ =>
      follows_pure _
  | beginTransaction name =>
    rw [lowerStatement, Lower.lowerStatement]
    exact follows_bind (follows_beginTransaction name) fun _ => follows_pure _
  | commit _ | rollback _ =>
    rw [lowerStatement, Lower.lowerStatement]
    exact follows_bind (follows_endTransaction _ _) fun _ => follows_pure _
  | savepoint name =>
    rw [lowerStatement, Lower.lowerStatement]
    exact follows_bind (follows_transactionFault _) fun _ => follows_pure _
  | raiserror message severity _ =>
    rw [lowerStatement, Lower.lowerStatement]
    exact follows_bind (follows_perform (Lower.hasEffect_lowerRaiserror jumping.forms message severity
      fun _ => jumping.raising)) fun _ => follows_pure _
  | throw args =>
    rw [lowerStatement, Lower.lowerStatement]
    exact follows_bind (follows_perform (Lower.hasEffect_lowerThrow regular.forms args
      jumping.raise)) fun _ => follows_pure _

theorem mirrors (source : Statement) : Mirrors source := by
  induction source using Statement.childInduction with
  | step source ih =>
    refine ⟨fun c rest prepared => follows_lowerStatement_of ih c rest prepared, ?_⟩
    rintro condition thenBranch elseBranch rfl
    refine ⟨fun c => follows_lowerStatements_of (ih _ List.mem_cons_self) c 0 none, ?_⟩
    exact followsBehind_lowerElse_of fun body hbody =>
      ih body (List.mem_cons_of_mem _ (Option.mem_toList.mpr hbody))

/-- Lists of statements are treated with stacks as they are treated in their context. -/
theorem follows_lowerStatements (c : Context) (index : Nat) (prepared : Option Fetch)
    (statements : List Statement) :
    Follows (lowerStatements index prepared statements)
      (Lower.lowerStatements index prepared statements) c :=
  follows_lowerStatements_of (fun s _ => mirrors s) c index prepared

/-! ## Procedures -/

theorem follows_emitPrologue : Follows emitPrologue Lower.emitPrologue c := by
  have regular := Discipline.regular_adding c
  have hcounts : ¬(Discipline.adding c).counts := fun h => h.1
  refine follows_read ?_
  refine follows_when (follows_perform (Lower.hasEffect_emitEntry regular.toBasic)) ?_
  refine follows_bind (follows_perform (Lower.hasEffect_emitDefaults regular.forms _)) fun _ => ?_
  refine follows_bind (follows_perform (Lower.hasEffect_emitCounters regular.toBasic hcounts))
    fun _ => ?_
  refine follows_bind (follows_perform (Lower.hasEffect_emitHoisted regular.forms
    (Lower.hasEffect_emitLine regular.toBasic hcounts) _)) fun _ => ?_
  exact follows_hoistIterators _

theorem runs_writeLines (lines : List String) {fixed : Context} {p : Progress} {writer : Go.Writer}
    {blocks : List (List Go.Stmt)} :
    (writeLines lines).Runs fixed (.of c p writer blocks) ()
      (.of c p (lines.foldl Go.Writer.line writer) blocks) := by
  induction lines generalizing writer with
  | nil => exact runs_pure _
  | cons s rest ih => exact (runs_modify _).bind ih

theorem follows_emitFinalReturn :
    Follows (perform Lower.emitFinalReturn) Lower.emitFinalReturn c :=
  follows_perform (Scheme.permissive_keeping _ c).emitFinalReturn

/-- The head of a function is written in front of its body. -/
theorem runs_openProcedure {start declared hoisted middle headed entered : Progress}
    {params results : List (String × Go.TypeExpr)}
    (hdeclared : (Lower.declareParams c.procedure.params).Runs c start () declared)
    (hhoisted : (Lower.declareHoisted c.procedure.statements c.survey.hoisted).Runs c declared ()
      hoisted)
    (hparams : Lower.functionParams.Runs c hoisted params middle)
    (hresults : Lower.functionResults.Runs c middle results headed)
    (hentered : Lower.emitPrologue.Runs c headed () entered) (hempty : start.output = []) :
    let function : Go.Func := ⟨Lower.commentLines c.functionName c.procedure hoisted.symbols,
      c.functionName, params, results, []⟩
    openProcedure.Runs c.fixed (.of c start {} []) function
      (.of c entered (Go.writeList function.head entered.output) []) := by
  intro function
  have hdeclares : declared.output = start.output := by
    obtain ⟨_, -, rfl⟩ := Lower.runs_declareParams hdeclared
    rfl
  have hhoists := (Lower.symbols_declareHoisted hhoisted).2
  have hmiddle := (Lower.hasEffect_functionParams.annotated hparams).output
  have hheaded := (Lower.hasEffect_functionResults.annotated hresults).output
  have hnone : headed.output = [] := by rw [hheaded, hmiddle, hhoists, hdeclares, hempty]
  obtain ⟨code, hcode, hprologue⟩ := follows_emitPrologue.runs hentered function.head []
  obtain rfl : entered.output = code := by rw [hcode, hnone, List.nil_append]
  refine runs_read.bind <| (runs_perform_silent hdeclared hdeclares).bind <|
    (runs_perform_silent hhoisted hhoists).bind <| runs_get.bind <| (runs_writeLines _).bind ?_
  exact (runs_perform_silent hparams hmiddle).bind <| (runs_perform_silent hresults hheaded).bind <|
    (runs_modify _).bind <| hprologue.bind (runs_pure _)

/-- The function of a procedure is generated with stacks as in its context, and its text is the
written form of the function. -/
theorem runs_lowerProcedure {start after : Progress} {function : Go.Func}
    (h : Lower.lowerProcedure.Runs c start function after) (hempty : start.output = []) :
    lowerProcedure.Runs c.fixed (.of c start {} []) function (.of c after function.written []) := by
  obtain ⟨declared, hoisted, hdeclared, hhoisted, middle, headed, hparams, hresults, entered,
    finished, hentered, hfinished, hfinal, hbody, hcomment, hname⟩ := Lower.runs_lowerProcedure h
  let head := Go.Func.head ⟨Lower.commentLines c.functionName c.procedure hoisted.symbols,
    c.functionName, function.params, function.results, []⟩
  have hopen := runs_openProcedure hdeclared hhoisted hparams hresults hentered hempty
  obtain ⟨code, hcode, hstatements⟩ :=
    (follows_lowerStatements c 0 none c.procedure.body).runs hfinished
      (Go.writeList head entered.output) []
  obtain ⟨last, hlast, hreturn⟩ := follows_emitFinalReturn.runs hfinal
    (Go.writeList (Go.writeList head entered.output) code) []
  rw [← Go.writeList_append, ← hcode] at hstatements
  rw [← Go.writeList_append, ← Go.writeList_append, ← hcode, ← hlast] at hreturn
  have hclose : closeFunction.Runs c.fixed (.of c after (Go.writeList head after.output) []) ()
    (.of c after ((Go.writeList head after.output).closeBlock Go.blockFoot) []) := rfl
  obtain ⟨comment, name, params, results, body⟩ := function
  obtain rfl : comment = _ := hcomment
  obtain rfl : name = _ := hname
  obtain rfl : body = _ := hbody
  exact Runs.located <| hopen.bind <| runs_read.bind <| hstatements.bind <| hreturn.bind <|
    hclose.bind <| runs_get.bind <| runs_pure _

/-- What stands in front of the statements fails with stacks as it fails in its context. -/
theorem fails_openProcedure {start after : Progress} {error : Error} (writer : Go.Writer)
    (blocks : List (List Go.Stmt)) (h : Lower.lowerEntry.Fails c start error after) :
    ∃ g, openProcedure.Fails c.fixed (.of c start writer blocks) error g ∧ g.path = c.path := by
  have lasting : (Discipline.adding c).Lasting := Scheme.lasting_keeping (fun _ _ => trivial) c
  have hdeclare (name type : String) (kind : SymbolKind) :
      (Lower.declare name type kind).HasEffect c (Discipline.adding c).effect :=
    Lower.hasEffect_declare lasting name type kind
  have hparams := follows_perform (Lower.hasEffect_declareParams hdeclare c.procedure.params)
  have hhoists := follows_perform (Lower.hasEffect_declareHoisted hdeclare c.procedure.statements
    c.survey.hoisted)
  have hinputs : Follows (perform Lower.functionParams) Lower.functionParams c :=
    follows_perform Lower.hasEffect_functionParams
  have hresults : Follows (perform Lower.functionResults) Lower.functionResults c :=
    follows_perform Lower.hasEffect_functionResults
  rw [Lower.lowerEntry, Lower.fails_bind] at h
  obtain hread | ⟨context, p, hread, h⟩ := h
  · exact absurd hread Lower.not_fails_read
  obtain ⟨hcontext, hp⟩ := Lower.runs_read.mp hread
  rw [hcontext, hp] at h
  obtain hfails | ⟨_, declared, hdeclared, h⟩ := Lower.fails_bind.mp h
  · obtain ⟨g, hstep, hpath⟩ := hparams.fails hfails writer blocks
    exact ⟨g, runs_read.bind_fails hstep.bind, hpath⟩
  obtain ⟨_, -, hdeclares⟩ := hparams.runs hdeclared writer blocks
  obtain hfails | ⟨_, hoisted, hhoisted, h⟩ := Lower.fails_bind.mp h
  · obtain ⟨g, hstep, hpath⟩ := hhoists.fails hfails _ blocks
    exact ⟨g, runs_read.bind_fails <| hdeclares.bind_fails hstep.bind, hpath⟩
  obtain ⟨_, -, hmoves⟩ := hhoists.runs hhoisted _ blocks
  obtain hfails | ⟨params, middle, hmiddle, h⟩ := Lower.fails_bind.mp h
  · obtain ⟨g, hstep, hpath⟩ := hinputs.fails hfails _ blocks
    exact ⟨g, runs_read.bind_fails <| hdeclares.bind_fails <| hmoves.bind_fails <|
      runs_get.bind_fails <| (runs_writeLines _).bind_fails hstep.bind, hpath⟩
  obtain ⟨_, -, hgives⟩ := hinputs.runs hmiddle _ blocks
  obtain hfails | ⟨results, headed, hheaded, h⟩ := Lower.fails_bind.mp h
  · obtain ⟨g, hstep, hpath⟩ := hresults.fails hfails _ blocks
    exact ⟨g, runs_read.bind_fails <| hdeclares.bind_fails <| hmoves.bind_fails <|
      runs_get.bind_fails <| (runs_writeLines _).bind_fails <| hgives.bind_fails hstep.bind, hpath⟩
  obtain ⟨_, -, hreturns⟩ := hresults.runs hheaded _ blocks
  obtain ⟨g, hstep, hpath⟩ := follows_emitPrologue.fails h _ blocks
  exact ⟨g, runs_read.bind_fails <| hdeclares.bind_fails <| hmoves.bind_fails <|
    runs_get.bind_fails <| (runs_writeLines _).bind_fails <| hgives.bind_fails <|
    hreturns.bind_fails <| (runs_modify _).bind_fails hstep.bind, hpath⟩

theorem fails_lowerProcedure {start after : Progress} {error : Error}
    (h : Lower.lowerProcedure.Fails c start error after) (hempty : start.output = []) :
    ∃ g, lowerProcedure.Fails c.fixed (.of c start {} []) error g := by
  obtain ⟨inner, rfl, hinner⟩ := Procedure.fails_lowerProcedure.mp h
  obtain hentry | ⟨entered, hentry, hstatements⟩ := hinner
  · obtain ⟨g, hstep, hpath⟩ := fails_openProcedure {} [] hentry
    exact ⟨g, hstep.bind.located_of_path_eq hpath⟩
  · rw [Lower.lowerEntry, Lower.runs_bind] at hentry
    obtain ⟨context, p, hread, hentry⟩ := hentry
    obtain ⟨hcontext, hp⟩ := Lower.runs_read.mp hread
    rw [hcontext, hp] at hentry
    simp only [Lower.runs_bind] at hentry
    obtain ⟨_, declared, hdeclared, _, hoisted, hhoisted, params, middle, hparams, results, headed,
      hresults, hentered⟩ := hentry
    have hopen := runs_openProcedure hdeclared hhoisted hparams hresults hentered hempty
    obtain ⟨g, hstep, hpath⟩ :=
      (follows_lowerStatements c 0 none c.procedure.body).fails hstatements _ []
    refine ⟨g, Fails.located_of_path_eq ?_ hpath⟩
    exact hopen.bind_fails <| runs_read.bind_fails hstep.bind

end Generate

/-- The stacks of a generation that has not begun lead to its context. -/
theorem Context.start_eq_of {config : Config} {survey : Survey} {procedure : Procedure}
    {fixed : Context} (h : Context.start config survey procedure = .ok fixed) (p : Progress) :
    fixed.fixed = fixed ∧ ({ progress := p } : Generator) = .of fixed p {} [] := by
  obtain ⟨functionName, verb, rfl⟩ := Context.start_eq_ok h
  exact ⟨rfl, rfl⟩

theorem Progress.output_start (config : Config) (survey : Survey) :
    (Progress.start config survey).output = [] := rfl

/-- A procedure is generated with stacks exactly when it is in its contexts, with the same function
and the same error, and the text that has been written is that of the function. -/
theorem Procedure.generate_eq (procedure : Procedure) (config : Config) :
    procedure.generate config =
      (procedure.lower config).map fun lowered => ⟨lowered, lowered.source⟩ := by
  unfold generate lower
  dsimp only
  cases config.validate with
  | error fault => rfl
  | ok _ =>
    cases hstart : Context.start config (.ofProcedure config procedure) procedure with
    | error fault => rfl
    | ok fixed =>
      obtain ⟨hfixed, hbegin⟩ := Context.start_eq_of hstart
        (Progress.start config (.ofProcedure config procedure))
      have hempty := Progress.output_start config (.ofProcedure config procedure)
      obtain ⟨function, after, hruns⟩ | ⟨error, after, hfails⟩ := Lower.runs_or_fails
        Lower.lowerProcedure fixed (Progress.start config (.ofProcedure config procedure))
      · have hgenerates := Generate.runs_lowerProcedure hruns hempty
        rw [hfixed, ← hbegin] at hgenerates
        rw [Generate.Runs] at hgenerates
        rw [Lower.Runs] at hruns
        simp only [hgenerates, hruns]
        rfl
      · obtain ⟨g, hgenerates⟩ := Generate.fails_lowerProcedure hfails hempty
        rw [hfixed, ← hbegin] at hgenerates
        rw [Generate.Fails] at hgenerates
        rw [Lower.Fails] at hfails
        simp only [hgenerates, hfails]
        rfl

end Sproc
