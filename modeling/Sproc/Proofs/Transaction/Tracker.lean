import Sproc.Proofs.Lower.Entry

/-!
# What is known about the transaction

The generation keeps what it knows about the transaction in its progress, and changes it only at
transaction statements and around `TRY` statements. So the knowledge can be read off the source: it
goes through the statements in the order of the text, through both branches of a conditional one
after the other, and once through the body of a loop.

## Main definitions

* `Statement.track`, `Statement.listTrack`: the knowledge behind statements
* `Statement.partTrack`: the knowledge at the start of a part of a statement

## Main results

* `Frame.Step.transaction_eq`: the generation knows behind a statement what `Statement.track` says
* `Opens.transaction_eq`: it knows at the start of a part what `Statement.partTrack` says
* `Procedure.Begins.transaction_eq`: no transaction is open at the start of a procedure
-/

namespace Sproc

open Lower

namespace Statement

mutual

/-- What is known behind a statement, given what is known in front of it. -/
def track : Statement → TransactionState → TransactionState
  | beginTransaction _, _ => ⟨true, false⟩
  | commit _, _ => {}
  | rollback _, _ => {}
  | ifElse _ thenBranch elseBranch, state => elseTrack elseBranch (listTrack thenBranch state)
  | .while _ body, state => listTrack body state
  | block body, state => listTrack body state
  | tryCatch tryBody catchBody, state =>
    (listTrack tryBody state).join (listTrack catchBody (handlerTransaction tryBody state))
  | _, state => state

/-- The same for a list of statements. -/
def listTrack : List Statement → TransactionState → TransactionState
  | [], state => state
  | statement :: rest, state => listTrack rest (track statement state)

/-- The same for an alternative. -/
def elseTrack : Option (List Statement) → TransactionState → TransactionState
  | none, state => state
  | some body, state => listTrack body state

end

/-- What is known at the start of a part of a statement. -/
def partTrack : Statement → TransactionState → Part → TransactionState
  | ifElse _ thenBranch _, state, .elseBranch => listTrack thenBranch state
  | tryCatch tryBody _, state, .catchHalf => handlerTransaction tryBody state
  | _, state, _ => state

end Statement

/-- The discipline of steps that leave the knowledge about the transaction alone. -/
def Discipline.sameTransaction (state : TransactionState) : Discipline where
  keeps p := p.transaction = state
  writes _ := True
  stable _ _ _ _ htransaction hkeeps := htransaction ▸ hkeeps

namespace Discipline

theorem permissive_sameTransaction (state : TransactionState) : (sameTransaction state).Permissive :=
  fun _ => trivial

theorem regular_sameTransaction (state : TransactionState) (c : Context) :
    (sameTransaction state).Regular c :=
  (permissive_sameTransaction state).regular

theorem lasting_sameTransaction (state : TransactionState) : (sameTransaction state).Lasting :=
  fun _ _ _ _ _ _ _ hkeeps => hkeeps

theorem ignoresCursors_sameTransaction (state : TransactionState) :
    (sameTransaction state).IgnoresCursors where
  outlasts _ hkeeps := hkeeps

end Discipline

open Discipline

namespace Lower

variable {α : Type} {c : Context} {p after : Progress} {rest : List Statement}
  {prepared result : Option Fetch}

theorem HasEffect.transaction_eq {step : Lower α} {value : α}
    (h : step.HasEffect c (sameTransaction p.transaction).effect)
    (hruns : step.Runs c p value after) : after.transaction = p.transaction :=
  (h hruns rfl).1

theorem transaction_lowerCondition {condition : Expr} {test : Go.Expr}
    (h : (lowerCondition condition).Runs c p test after) : after.transaction = p.transaction :=
  (hasEffect_lowerCondition (regular_sameTransaction _ c).forms condition).transaction_eq h

theorem transaction_emitLoopTest {condition : Expr}
    (h : (emitLoopTest condition).Runs c p () after) : after.transaction = p.transaction :=
  (hasEffect_emitLoopTest (regular_sameTransaction _ c).forms condition
    (hasEffect_emitBreak trivial)).transaction_eq h

theorem transaction_fetchTargets {fetch : Fetch} {iterator : Go.Expr} {targets : List String}
    {found : Progress} (hiterator : (fetchIterator fetch).Runs c p iterator found)
    (htargets : (goNames fetch.into).Runs c found targets after) :
    after.transaction = p.transaction := by
  have hfound : found.transaction = p.transaction :=
    (hasEffect_fetchIterator (ignoresCursors_sameTransaction _).admitsCursors
      fetch).transaction_eq hiterator
  rw [← hfound]
  exact (hasEffect_goNames fetch.into).transaction_eq htargets

theorem transaction_emitRound {iterator : Go.Expr} {targets : List String} {more : Option Expr}
    (h : (emitRound iterator targets more).Runs c p () after) :
    after.transaction = p.transaction :=
  (hasEffect_emitRound (regular_sameTransaction _ c).forms iterator targets more
    (hasEffect_emitBreak trivial)).transaction_eq h

theorem transaction_emitGuarded {init : Go.Assign} (h : (emitGuarded init).Runs c p () after) :
    after.transaction = p.transaction :=
  (hasEffect_emitGuarded (regular_sameTransaction _ c).forms init).transaction_eq h

theorem transaction_emitHandlerStart {body : List Statement}
    (h : (emitHandlerStart body).Runs c p () after) : after.transaction = p.transaction :=
  (hasEffect_emitHandlerStart (regular_sameTransaction _ c).toBasic id body).transaction_eq h

theorem transaction_emitWayOut {flag : Option String} {body : List Statement}
    (h : (emitWayOut flag body).Runs c p () after) : after.transaction = p.transaction :=
  ((permissive_sameTransaction _).emitWayOut flag body).transaction_eq h

theorem transaction_setTransaction_bind {state : TransactionState} {next : PUnit → Lower α}
    {value : α} (hnext : (next ⟨⟩).HasEffect c (sameTransaction state).effect)
    (h : (setTransaction state >>= next).Runs c p value after) : after.transaction = state := by
  obtain ⟨_, _, hset, hrest⟩ := runs_bind.mp h
  obtain rfl := runs_modify.mp hset
  exact (hnext hrest rfl).1

/-- Behind `BEGIN` a transaction is open. -/
theorem transaction_beginTransaction {name : Option String}
    (h : (beginTransaction name).Runs c p () after) : after.transaction = ⟨true, false⟩ := by
  have hregular := regular_sameTransaction ⟨true, false⟩ c
  have hbegin := hasEffect_emitBegin (permissive_sameTransaction ⟨true, false⟩).releasing hregular
  have htail : (read >>= fun context : Context => if context.survey.usesDb = true then emitBegin
      else warnNoHandle "BEGIN TRANSACTION").HasEffect c (sameTransaction ⟨true, false⟩).effect := by
    refine hasEffect_bind hasEffect_read fun _ => ?_
    split
    · exact hbegin
    · exact hasEffect_warn _ _ (by decide)
  unfold beginTransaction at h
  obtain ⟨_, _, -, h⟩ := runs_bind.mp h
  dsimp only at h
  split at h
  · obtain ⟨_, _, hfail, -⟩ := runs_bind.mp h
    simp [transactionFault] at hfail
  · cases name with
    | none => exact transaction_setTransaction_bind htail h
    | some name =>
      obtain ⟨_, _, -, h⟩ := runs_bind.mp h
      exact transaction_setTransaction_bind htail h

/-- Behind `COMMIT` and `ROLLBACK` none is open. -/
theorem transaction_endTransaction {keyword method : String}
    (h : (endTransaction keyword method).Runs c p () after) : after.transaction = {} := by
  have hregular := regular_sameTransaction {} c
  unfold endTransaction at h
  obtain ⟨_, _, -, h⟩ := runs_bind.mp h
  dsimp only at h
  split at h
  · obtain ⟨_, _, hfail, -⟩ := runs_bind.mp h
    simp [transactionFault] at hfail
  · refine transaction_setTransaction_bind ?_ h
    have hfinish : (do
        emitGuarded (assignTo [err] (.invoke tx method []))
        emitNoTransaction : Lower Unit).HasEffect c (sameTransaction {}).effect :=
      hasEffect_bind (hasEffect_emitGuarded hregular.forms _) fun _ =>
        hasEffect_emitAssign hregular.toBasic _ _
    refine hasEffect_bind hasEffect_read fun _ => ?_
    split
    · split
      · exact hasEffect_emitIf hregular.toBasic _ _ hfinish
      · exact hfinish
    · exact hasEffect_warn _ _ (by decide)

/-- The generation knows behind a statement what is tracked. -/
def Tracks (statement : Statement) : Prop :=
  ∀ ⦃c : Context⦄ ⦃p after : Progress⦄ ⦃rest : List Statement⦄ ⦃prepared result : Option Fetch⦄,
    (lowerStatement rest prepared statement).Runs c p result after →
      after.transaction = statement.track p.transaction

theorem transaction_lowerStatements_of {statements : List Statement}
    (ih : ∀ s ∈ statements, Tracks s) {index : Nat}
    (h : (lowerStatements index prepared statements).Runs c p () after) :
    after.transaction = Statement.listTrack statements p.transaction := by
  induction statements generalizing index prepared p with
  | nil =>
    obtain ⟨-, rfl⟩ := runs_pure.mp h
    rfl
  | cons statement rest ihrest =>
    simp only [lowerStatements, runs_bind, runs_within, runs_located] at h
    obtain ⟨prepared', middle, hfirst, hrest⟩ := h
    rw [Statement.listTrack, ← ih statement List.mem_cons_self hfirst]
    exact ihrest (fun s hs => ih s (.tail _ hs)) hrest

theorem elseStart_transaction (elseBranch : List Statement) (p : Progress) :
    (elseStart elseBranch p).transaction = p.transaction := by
  unfold elseStart
  split <;> rfl

theorem transaction_lowerElse_of {elseBranch : Option (List Statement)}
    (ih : ∀ body ∈ elseBranch, ∀ s ∈ body, Tracks s)
    {arms : List Go.Arm × Option (List Go.Stmt)} (h : (lowerElse elseBranch).Runs c p arms after) :
    after.transaction = Statement.elseTrack elseBranch p.transaction := by
  cases elseBranch with
  | none =>
    obtain ⟨-, rfl⟩ := runs_pure.mp h
    rfl
  | some elseBranch =>
    obtain ⟨inner, hinner, htransaction, -⟩ := runs_lowerElse h
    rw [htransaction, transaction_lowerStatements_of (ih elseBranch rfl) hinner,
      elseStart_transaction, Statement.elseTrack]

theorem tracks_ifElse {condition : Expr} {thenBranch : List Statement}
    {elseBranch : Option (List Statement)} (hthen : ∀ s ∈ thenBranch, Tracks s)
    (helse : ∀ body ∈ elseBranch, ∀ s ∈ body, Tracks s) :
    Tracks (.ifElse condition thenBranch elseBranch) := by
  intro c p after rest prepared result h
  obtain ⟨chain, passed, hchain, rfl, -⟩ := runs_ifElse h
  obtain ⟨test, tested, inner, htest, hinner, hpassed, -⟩ := runs_lowerChain hchain
  have hbranch := transaction_lowerStatements_of hthen hinner
  have hafter := transaction_lowerElse_of helse hpassed
  rw [Progress.opened_transaction, transaction_lowerCondition htest] at hbranch
  rw [Progress.closed_transaction, hbranch] at hafter
  exact hafter

theorem tracks_while {condition : Expr} {body : List Statement} (ih : ∀ s ∈ body, Tracks s) :
    Tracks (.while condition body) := by
  intro c p after rest prepared result h
  rw [Statement.track]
  cases hcursor : sentinelRest? condition with
  | none =>
    obtain ⟨hwhile, -⟩ := runs_while hcursor h
    obtain ⟨-, tested, inner, htest, hbody, rfl⟩ | ⟨-, test, tested, inner, htest, hbody, rfl⟩ :=
      runs_lowerWhile hwhile
    · have hinner := transaction_lowerStatements_of ih (runs_within.mp hbody)
      rw [transaction_emitLoopTest htest] at hinner
      exact hinner
    · have hinner := transaction_lowerStatements_of ih (runs_within.mp hbody)
      rw [Progress.opened_transaction, transaction_lowerCondition htest] at hinner
      exact hinner
  | some more =>
    obtain ⟨-, fetch, -, hloop⟩ := runs_cursorLoop hcursor h
    obtain ⟨iterator, targets, found, named, started, inner, hiterator, htargets, hround, hbody,
      hcheck⟩ := runs_lowerCursorLoop hloop
    have hinner := transaction_lowerStatements_of ih hbody
    have hafter := transaction_emitGuarded hcheck
    rw [transaction_emitRound hround, Progress.opened_transaction,
      transaction_fetchTargets hiterator htargets] at hinner
    rw [hafter]
    exact hinner

theorem tracks_tryCatch {tryBody catchBody : List Statement} (htry : ∀ s ∈ tryBody, Tracks s)
    (hcatch : ∀ s ∈ catchBody, Tracks s) : Tracks (.tryCatch tryBody catchBody) := by
  intro c p after rest prepared result h
  obtain ⟨flag, flagged, handled, inner, -, hrecover, hattempt, literal, hout, hjoin, -⟩ :=
    runs_lowerTryCatch (runs_tryCatch h).2
  obtain ⟨started, caught, hstart, hhandler, hhandled, -⟩ := runs_emitRecover hrecover
  have hinner := transaction_lowerStatements_of htry hattempt
  have hcaught := transaction_lowerStatements_of hcatch hhandler
  rw [transaction_emitHandlerStart hstart] at hcaught
  rw [transaction_emitWayOut hout, hjoin, hinner, hhandled, hcaught]
  rfl

/-- The generation tracks every statement. -/
theorem tracks (statement : Statement) : Tracks statement := by
  induction statement using Statement.childInduction with
  | step statement ih =>
    cases statement with
    | ifElse condition thenBranch elseBranch =>
      refine tracks_ifElse (ih _ List.mem_cons_self) fun body hbody => ?_
      exact ih body (List.mem_cons_of_mem _ (Option.mem_toList.mpr hbody))
    | «while» condition body => exact tracks_while (ih _ List.mem_cons_self)
    | block body =>
      intro c p after rest prepared result h
      exact transaction_lowerStatements_of (ih _ List.mem_cons_self) (runs_blockStatement h).1
    | tryCatch tryBody catchBody =>
      exact tracks_tryCatch (ih _ List.mem_cons_self)
        (ih _ (List.mem_cons_of_mem _ List.mem_cons_self))
    | beginTransaction name =>
      intro c p after rest prepared result h
      simp only [lowerStatement, runs_bind, runs_pure] at h
      obtain ⟨_, _, hbegin, -, rfl⟩ := h
      exact transaction_beginTransaction hbegin
    | commit name | rollback name =>
      intro c p after rest prepared result h
      simp only [lowerStatement, runs_bind, runs_pure] at h
      obtain ⟨_, _, hend, -, rfl⟩ := h
      exact transaction_endTransaction hend
    | _ =>
      intro c p after rest prepared result h
      have hpermissive := permissive_sameTransaction p.transaction
      exact (hpermissive.lowerLeaf (lasting_sameTransaction _) rest prepared
        (fun _ => ignoresCursors_sameTransaction _) (by simp [Statement.isTransaction])
        rfl).transaction_eq h

theorem transaction_lowerStatements {statements : List Statement} {index : Nat}
    (h : (lowerStatements index prepared statements).Runs c p () after) :
    after.transaction = Statement.listTrack statements p.transaction :=
  transaction_lowerStatements_of (fun s _ => tracks s) h

end Lower

/-- Behind the first statement of a frame, the generation knows what is tracked. -/
theorem Frame.Step.transaction_eq {frame next : Frame} (h : frame.Step next) {statement : Statement}
    {rest : List Statement} (hstatements : frame.statements = statement :: rest) :
    next.progress.transaction = statement.track frame.progress.transaction := by
  cases h with
  | mk hruns =>
    obtain ⟨rfl, -⟩ := List.cons.inj hstatements
    exact tracks _ hruns

/-- At the start of a part of a statement, the generation knows what is tracked. -/
theorem Opens.transaction_eq {c : Context} {prepared : Option Fetch} {p : Progress}
    {statement : Statement} {part : Part} {frame : Frame}
    (h : Opens c prepared p statement part frame) :
    frame.progress.transaction = statement.partTrack p.transaction part := by
  cases h with
  | thenBranch htest => exact (transaction_lowerCondition htest :)
  | @elseBranch condition thenBranch elseBranch test body tested passed htest hthen =>
    obtain ⟨inner, hinner, -, rfl⟩ := runs_block.mp hthen
    have hbranch := transaction_lowerStatements (runs_within.mp hinner)
    rw [Progress.opened_transaction, transaction_lowerCondition htest] at hbranch
    rw [elseStart_transaction]
    exact hbranch
  | loop _ _ htest => exact (transaction_lowerCondition htest :)
  | testedLoop _ _ htest => exact (transaction_emitLoopTest htest :)
  | cursorLoop _ _ hiterator htargets hround =>
    have hnamed := transaction_fetchTargets hiterator htargets
    exact (transaction_emitRound hround).trans hnamed
  | block => rfl
  | catchHalf _ hstart => exact (transaction_emitHandlerStart hstart :)
  | tryHalf => rfl

/-- No transaction is open at the start of a procedure. -/
theorem Procedure.Begins.transaction_eq {procedure : Procedure} {config : Config} {frame : Frame}
    (h : procedure.Begins config frame) : frame.progress.transaction = {} := by
  obtain ⟨-, hentry, -⟩ := h
  have hpermissive := permissive_sameTransaction {}
  have hkept : lowerEntry.HasEffect frame.context (sameTransaction {}).effect :=
    hasEffect_lowerEntry hpermissive.regular hpermissive.releasing id (lasting_sameTransaction {})
  exact (hkept hentry rfl).1

end Sproc
