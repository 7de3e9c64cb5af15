import Sproc.Proofs.Lower.Asking
import Sproc.Proofs.Lower.Blame
import Sproc.Proofs.Lower.Imports
import Sproc.Proofs.Transaction.Tracker

/-!
# Transactions in straight-line procedures

In a procedure without conditionals, loops and `TRY` statements, the order of the source is the
order of execution, and the database is asked for exactly what the statements say: each data
statement is one query, and each transaction statement is one call whose error is asked for. Whether
a query goes through the transaction or past it is decided statement by statement; blocks change
nothing, however they are nested.

The transaction statements of such a procedure have to alternate. The first one that does not is
refused, unless a statement in front of it already is.

## Main definitions

* `Statement.listPlaces`, `Procedure.places`: statements with their paths, where blocks are opened
* `Statement.admits`, `Statement.behind`, `Statement.alternates`: the automaton of transactions
* `Statement.requests`, `Statement.listRequests`: what statements ask of the database

## Main results

* `runs_straight`, `fails_straight`: single statements
* `Lower.RoutesStraight`, `Lower.StopsStraight`: what lists of statements do, by induction on their
  blocks
* `Procedure.straightLine_transactions`: straight-line procedures
-/

namespace Sproc

open Go Lower

namespace Statement

/-! ## Places -/

mutual

/-- The statement at a path, or those of a block with their paths; indices lead with the
innermost. -/
def places (path : List Nat) : Statement → List (List Nat × Statement)
  | .block body => listPlaces path 0 body
  | statement => [(path, statement)]

/-- The statements of a list with their paths, where the first has the given index. -/
def listPlaces (path : List Nat) (index : Nat) : List Statement → List (List Nat × Statement)
  | [] => []
  | statement :: rest => places (index :: path) statement ++ listPlaces path (index + 1) rest

end

theorem places_of_ne_block {statement : Statement} (path : List Nat)
    (h : ∀ body, statement ≠ .block body) : statement.places path = [(path, statement)] := by
  cases statement with
  | block body => exact absurd rfl (h body)
  | _ => rfl

/-! ## The automaton -/

/-- Whether a statement is a query over a table, another data statement, or starts or ends a
transaction. -/
def isStraight : Statement → Bool
  | .select query => query.source.isSome
  | .insert _ | .update _ | .delete _ | .exec _ => true
  | .beginTransaction _ | .commit _ | .rollback _ => true
  | _ => false

/-- Whether a statement may stand where a transaction is open, or where none is. -/
def admits (opened : Bool) : Statement → Bool
  | .beginTransaction _ => !opened
  | .commit _ | .rollback _ => opened
  | _ => true

/-- Whether a transaction is open behind a statement. -/
def behind (opened : Bool) : Statement → Bool
  | .beginTransaction _ => true
  | .commit _ | .rollback _ => false
  | _ => opened

/-- Whether a transaction is open behind a list of statements. -/
def listBehind (opened : Bool) (statements : List Statement) : Bool :=
  statements.foldl behind opened

/-- Whether transactions are started where none is open, and ended where one is. -/
def alternates (opened : Bool) : List Statement → Bool
  | [] => true
  | statement :: rest => statement.admits opened && alternates (statement.behind opened) rest

/-- What a statement asks of the database: a query goes through the transaction when one is open. -/
def requests (opened : Bool) : Statement → List Action
  | .beginTransaction _ => [.control "db" "BeginTx" true, .guard]
  | .commit _ => [.control "tx" "Commit" true]
  | .rollback _ => [.control "tx" "Rollback" true]
  | _ => [.query (if opened then "tx" else "db")]

/-- What statements ask of the database, one after the other. -/
def listRequests (opened : Bool) : List Statement → List Action
  | [] => []
  | statement :: rest => statement.requests opened ++ listRequests (statement.behind opened) rest

/-- What is reported about a transaction statement that stands in the wrong place. -/
def refusal : Statement → String
  | .beginTransaction _ => "nested BEGIN TRANSACTION is not supported"
  | .commit _ => "COMMIT without an open transaction"
  | .rollback _ => "ROLLBACK without an open transaction"
  | _ => ""

variable {opened : Bool}

theorem listBehind_append (front back : List Statement) :
    listBehind opened (front ++ back) = listBehind (listBehind opened front) back :=
  List.foldl_append

theorem alternates_append (front back : List Statement) :
    alternates opened (front ++ back) =
      (alternates opened front && alternates (listBehind opened front) back) := by
  induction front generalizing opened with
  | nil => rfl
  | cons statement rest ih =>
    rw [List.cons_append, alternates, ih, alternates, Bool.and_assoc]
    rfl

theorem listRequests_append (front back : List Statement) :
    listRequests opened (front ++ back) =
      listRequests opened front ++ listRequests (listBehind opened front) back := by
  induction front generalizing opened with
  | nil => rfl
  | cons statement rest ih =>
    rw [List.cons_append, listRequests, ih, listRequests, List.append_assoc]
    rfl

end Statement

/-- The statements of a procedure with their paths, where blocks are opened. -/
def Procedure.places (procedure : Procedure) : List (List Nat × Statement) :=
  Statement.listPlaces [] 0 procedure.body

/-- Where the database is the backend of all tables, it is that of each. -/
theorem Config.backendOf_sql {config : Config} (hbackend : config.backend = .sql)
    (hfallback : config.fallback = .sql) (table : TableRef) :
    (config.backendOf (some table)).1 = .sql := by
  unfold backendOf
  dsimp only
  split
  · dsimp only
    exact hfallback
  · exact hbackend

namespace Lower

/-- A context outside of `TRY` statements in which all data statements go to the database. -/
structure Direct (c : Context) : Prop where
  exits : c.exits = []
  backend : c.config.backend = .sql
  fallback : c.config.fallback = .sql

theorem Direct.enter {c : Context} (h : Direct c) (index : Nat) : Direct (c.enter index) :=
  ⟨h.exits, h.backend, h.fallback⟩

variable {c : Context} {p after : Progress} {opened : Bool} {state : TransactionState}

/-! ## Single statements -/

theorem asks_backendFor (hc : Direct c) (table : TableRef) :
    (backendFor table).Asks c state [] fun backend => backend = .sql := by
  have hbackend := Config.backendOf_sql hc.backend hc.fallback table
  refine asks_silent_bind asks_read fun context hcontext => ?_
  subst hcontext
  dsimp only
  split
  · exact asks_silent_bind (asks_annotated (hasEffect_anyWarning _ _)) fun _ _ => asks_pure hbackend
  · exact asks_pure hbackend

/-- A query over a table is one request. -/
theorem asks_lowerQuery (hexits : c.exits = []) (query : Select) :
    (lowerQuery query).Asks c state [.query (sqlHandle c.survey.usesDb state)] fun _ => True := by
  refine asks_silent_bind (asks_renderQuery (.select query)) fun rendered hargs => ?_
  refine asks_silent_bind asks_read fun context _ => ?_
  dsimp only
  split
  · have htargets : (goNames query.assigned >>= fun targets =>
        emitScan rendered targets context.survey.tracksRowCount).Asks c state
          [.query (sqlHandle c.survey.usesDb state)] fun _ => True :=
      asks_silent_bind (asks_annotated (hasEffect_goNames _)) fun targets _ =>
        asks_emitScan hexits hargs targets _
    split
    · exact asks_of_not_runs fun h => by simp [mixedSelect, runs_bind] at h
    · exact htargets
  · refine asks_silent_bind asks_handle fun owner howner => ?_
    subst howner
    refine asks_silent_bind (P := fun call : Go.Expr =>
      ∀ checked, call.actions checked = [.query (sqlHandle c.survey.usesDb state)])
      (asks_silent_bind (asks_annotated hasEffect_importRuntime) fun _ _ => asks_pure ?_)
      fun call hcall => ?_
    · intro checked
      simp [Go.Expr.runtime, Go.Expr.invoke, Go.Expr.actions, callActions, exprActions, ctx, hargs,
        Go.Expr.render]
    · refine asks_emitGuarded hexits ?_
      simp [Assign.actions, assignTo, exprActions, Go.Expr.actions, err, hcall]

/-- A procedure call is one request. -/
theorem asks_callDatabase (hexits : c.exits = []) (exec : Exec) :
    (callDatabase exec).Asks c state [.query (sqlHandle c.survey.usesDb state)] fun _ => True := by
  refine asks_silent_bind (asks_renderQuery (.exec exec)) fun query hargs => ?_
  refine asks_silent_bind (asks_annotated (hasEffect_outputTargets _)) fun outputs _ => ?_
  have hstatus (status message : String) : (do
      let symbol ← lookup status
      warn .approximation message
      emitAssign symbol.goName (.zero symbol.type.go) : Lower Unit).Asks c state []
        fun _ => True := by
    refine asks_silent_bind (asks_annotated (hasEffect_lookup _)) fun symbol _ => ?_
    refine asks_silent_bind (asks_annotated (hasEffect_warn _ _ (by decide))) fun _ _ => ?_
    exact asks_emitAssign rfl
  dsimp only
  split
  · refine asks_bind_silent (asks_emitExec hexits hargs _) fun _ _ => ?_
    split
    · exact asks_pure trivial
    · exact hstatus _ _
  · refine asks_bind_silent (asks_emitScan hexits hargs _ _) fun _ _ => ?_
    split
    · exact asks_pure trivial
    · exact hstatus _ _

/-- A data statement is one request. -/
theorem asks_lowerInsert (hc : Direct c) (insert : Insert) :
    (lowerInsert insert).Asks c state [.query (sqlHandle c.survey.usesDb state)] fun _ => True := by
  refine asks_silent_bind (asks_backendFor hc insert.table) fun backend hbackend => ?_
  subst hbackend
  exact asks_silent_bind (asks_renderQuery (.insert insert)) fun _ hargs =>
    asks_emitExec hc.exits hargs _

theorem asks_lowerUpdate (hc : Direct c) (update : Update) :
    (lowerUpdate update).Asks c state [.query (sqlHandle c.survey.usesDb state)] fun _ => True := by
  refine asks_silent_bind (asks_backendFor hc update.table) fun backend hbackend => ?_
  subst hbackend
  exact asks_silent_bind (asks_renderQuery (.update update)) fun _ hargs =>
    asks_emitExec hc.exits hargs _

theorem asks_lowerDelete (hc : Direct c) (delete : Delete) :
    (lowerDelete delete).Asks c state [.query (sqlHandle c.survey.usesDb state)] fun _ => True := by
  refine asks_silent_bind (asks_backendFor hc delete.table) fun backend hbackend => ?_
  subst hbackend
  exact asks_silent_bind (asks_renderQuery (.delete delete)) fun _ hargs =>
    asks_emitExec hc.exits hargs _

theorem asks_lowerExec (hc : Direct c) (exec : Exec) :
    (lowerExec exec).Asks c state [.query (sqlHandle c.survey.usesDb state)] fun _ => True := by
  refine asks_silent_bind asks_read fun context hcontext => ?_
  subst hcontext
  rw [hc.backend]
  exact asks_callDatabase hc.exits exec

theorem asks_lowerSelect (hc : Direct c) {query : Select} (h : query.source.isSome = true) :
    (lowerSelect query).Asks c state [.query (sqlHandle c.survey.usesDb state)] fun _ => True := by
  obtain ⟨table, htable⟩ := Option.isSome_iff_exists.mp h
  unfold lowerSelect
  rw [htable]
  refine asks_silent_bind (asks_backendFor hc table) fun backend hbackend => ?_
  subst hbackend
  exact asks_lowerQuery hc.exits query

/-! ## Transaction statements -/

/-- The start of a transaction is one call whose error is asked for, and one guard. -/
theorem asks_emitBegin (hexits : c.exits = []) :
    emitBegin.Asks c state [.control "db" "BeginTx" true, .guard] fun _ => True := by
  have hguard : (block (emitIf none (.chain "&&" [failed, txOpen]) do
      emit (.assign (assignTo [.name "_"] (.invoke tx "Rollback" [])))
      emitNoTransaction)).Asks c state [] fun body => isGuard body = true := by
    intro before body after hruns hstate
    simp only [emitIf, emitNoTransaction, emitAssign, runs_block, runs_bind, runs_emit] at hruns
    obtain ⟨_, ⟨_, _, ⟨_, ⟨_, _, rfl, rfl⟩, rfl, rfl⟩, rfl⟩, rfl, rfl⟩ := hruns
    exact ⟨hstate, rfl, [], (List.append_nil _).symm, rfl⟩
  refine asks_bind (asks_emitGuarded hexits rfl) fun _ _ => ?_
  refine asks_silent_bind hguard fun body hbody => ?_
  have hactions : (Go.Stmt.closure true body).actions = [.guard] := by
    simp [Stmt.actions, hbody]
  exact hactions ▸ asks_emit

/-- What is done once the knowledge about the transaction has been set. -/
theorem Asks.behind_setTransaction {next : PUnit → Lower Unit} {actions : List Action}
    (hnext : (next ⟨⟩).Asks c state actions fun _ => True)
    (h : (setTransaction state >>= next).Runs c p () after) :
    after.transaction = state ∧
      ∃ added, after.output = p.output ++ added ∧ listActions added = actions := by
  obtain ⟨_, _, hset, hrest⟩ := runs_bind.mp h
  obtain rfl := runs_modify.mp hset
  obtain ⟨hafter, -, hadded⟩ := hnext hrest rfl
  exact ⟨hafter, hadded⟩

theorem runs_straight_begin (hexits : c.exits = []) (hdb : c.survey.usesDb = true)
    {name : Option String} (h : (beginTransaction name).Runs c p () after)
    (hp : p.transaction = ⟨opened, false⟩) :
    opened = false ∧ after.transaction = ⟨true, false⟩ ∧
      ∃ added, after.output = p.output ++ added ∧
        listActions added = [.control "db" "BeginTx" true, .guard] := by
  have htail : (read >>= fun context : Context => if context.survey.usesDb = true then emitBegin
      else warnNoHandle "BEGIN TRANSACTION").Asks c ⟨true, false⟩
        [.control "db" "BeginTx" true, .guard] fun _ => True := by
    refine asks_silent_bind asks_read fun context hcontext => ?_
    rw [hcontext, if_pos hdb]
    exact asks_emitBegin hexits
  unfold beginTransaction at h
  obtain ⟨_, _, hget, hrest⟩ := runs_bind.mp h
  obtain ⟨rfl, rfl⟩ := runs_get.mp hget
  dsimp only at hrest
  cases opened with
  | true =>
    rw [hp, if_pos rfl] at hrest
    obtain ⟨_, _, hfail, -⟩ := runs_bind.mp hrest
    simp [transactionFault] at hfail
  | false =>
    rw [hp, if_neg Bool.false_ne_true] at hrest
    refine ⟨rfl, ?_⟩
    cases name with
    | none => exact htail.behind_setTransaction hrest
    | some name =>
      obtain ⟨_, _, hwarn, hrest⟩ := runs_bind.mp hrest
      have hannotated := (hasEffect_warn _ _ (by decide)).annotated hwarn
      rw [← hannotated.output]
      exact htail.behind_setTransaction hrest

theorem runs_straight_end (hexits : c.exits = []) (hdb : c.survey.usesDb = true)
    {keyword method : String} (hmethod : method ∈ controlMethods)
    (h : (endTransaction keyword method).Runs c p () after)
    (hp : p.transaction = ⟨opened, false⟩) :
    opened = true ∧ after.transaction = ⟨false, false⟩ ∧
      ∃ added, after.output = p.output ++ added ∧
        listActions added = [.control "tx" method true] := by
  have hfinish : (do
      emitGuarded (assignTo [err] (.invoke tx method []))
      emitNoTransaction : Lower Unit).Asks c {} [.control "tx" method true] fun _ => True := by
    have hcall : (assignTo [err] (.invoke tx method [])).actions
        ((assignTo [err] (.invoke tx method [])).targets.any Go.Expr.isError) =
          [.control "tx" method true] := by
      simp [Assign.actions, assignTo, exprActions, err, Go.Expr.actions, Go.Expr.invoke,
        callActions, hmethod, Go.Expr.isError, tx, Go.Expr.render]
    exact asks_bind_silent (asks_emitGuarded hexits hcall) fun _ _ => asks_emitAssign rfl
  unfold endTransaction at h
  obtain ⟨_, _, hget, hrest⟩ := runs_bind.mp h
  obtain ⟨rfl, rfl⟩ := runs_get.mp hget
  dsimp only at hrest
  rw [hp] at hrest
  cases opened with
  | false =>
    obtain ⟨_, _, hfail, -⟩ := runs_bind.mp hrest
    simp [transactionFault] at hfail
  | true =>
    refine ⟨rfl, Asks.behind_setTransaction
      (asks_silent_bind asks_read fun context hcontext => ?_) hrest⟩
    rw [hcontext, if_pos hdb, if_neg Bool.false_ne_true]
    exact hfinish

variable {rest : List Statement} {prepared result : Option Fetch} {error : Error}

/-- What is known and written behind statements, for those that run where a transaction is open or
not. -/
structure Routed (before after : Progress) (opened : Bool) (statements : List Statement) :
    Prop where
  alternates : Statement.alternates opened statements = true
  transaction : after.transaction = ⟨Statement.listBehind opened statements, false⟩
  output : ∃ added, after.output = before.output ++ added ∧
    listActions added = Statement.listRequests opened statements

theorem Routed.nil (hp : p.transaction = ⟨opened, false⟩) : Routed p p opened [] :=
  ⟨rfl, hp, [], (List.append_nil _).symm, rfl⟩

theorem Routed.append {before middle after : Progress} {front back : List Statement}
    (h : Routed before middle opened front)
    (h' : Routed middle after (Statement.listBehind opened front) back) :
    Routed before after opened (front ++ back) where
  alternates := by rw [Statement.alternates_append, h.alternates, h'.alternates]; rfl
  transaction := by rw [Statement.listBehind_append, h'.transaction]
  output := by
    obtain ⟨added, hadded, hactions⟩ := h.output
    obtain ⟨more, hmore, hactions'⟩ := h'.output
    refine ⟨added ++ more, by rw [hmore, hadded, List.append_assoc], ?_⟩
    rw [listActions_append, hactions, hactions', Statement.listRequests_append]

/-- A data statement is routed by what is known in front of it. -/
theorem routed_of_asks {statement : Statement} {step : Lower Unit} (hdb : c.survey.usesDb = true)
    (hadmits : statement.admits opened = true) (hbehind : statement.behind opened = opened)
    (hrequests : statement.requests opened = [.query (if opened then "tx" else "db")])
    (hstep : step.Asks c ⟨opened, false⟩ [.query (sqlHandle c.survey.usesDb ⟨opened, false⟩)]
      fun _ => True)
    (h : step.Runs c p () after) (hp : p.transaction = ⟨opened, false⟩) :
    Routed p after opened [statement] := by
  obtain ⟨htransaction, -, added, hadded, hactions⟩ := hstep h hp
  have hhandle : sqlHandle c.survey.usesDb ⟨opened, false⟩ = if opened then "tx" else "db" := by
    cases opened <;> simp [sqlHandle, hdb]
  refine ⟨by simp [Statement.alternates, hadmits], ?_, added, hadded, ?_⟩
  · rw [htransaction, Statement.listBehind, List.foldl_cons, List.foldl_nil, hbehind]
  · rw [hactions, hhandle, Statement.listRequests, hrequests]
    rfl

/-- A straight statement that is treated successfully stands where it may, and asks for what it
says. -/
theorem runs_straight {statement : Statement} (hc : Direct c) (hdb : c.survey.usesDb = true)
    (hstraight : statement.isStraight = true)
    (h : (lowerStatement rest prepared statement).Runs c p result after)
    (hp : p.transaction = ⟨opened, false⟩) : Routed p after opened [statement] := by
  cases statement with
  | select query =>
    simp only [lowerStatement, runs_bind, runs_pure] at h
    obtain ⟨_, _, h, -, rfl⟩ := h
    exact routed_of_asks hdb rfl rfl rfl (asks_lowerSelect hc hstraight) h hp
  | insert i =>
    simp only [lowerStatement, runs_bind, runs_pure] at h
    obtain ⟨_, _, h, -, rfl⟩ := h
    exact routed_of_asks hdb rfl rfl rfl (asks_lowerInsert hc i) h hp
  | update u =>
    simp only [lowerStatement, runs_bind, runs_pure] at h
    obtain ⟨_, _, h, -, rfl⟩ := h
    exact routed_of_asks hdb rfl rfl rfl (asks_lowerUpdate hc u) h hp
  | delete d =>
    simp only [lowerStatement, runs_bind, runs_pure] at h
    obtain ⟨_, _, h, -, rfl⟩ := h
    exact routed_of_asks hdb rfl rfl rfl (asks_lowerDelete hc d) h hp
  | exec e =>
    simp only [lowerStatement, runs_bind, runs_pure] at h
    obtain ⟨_, _, h, -, rfl⟩ := h
    exact routed_of_asks hdb rfl rfl rfl (asks_lowerExec hc e) h hp
  | beginTransaction name =>
    simp only [lowerStatement, runs_bind, runs_pure] at h
    obtain ⟨_, _, h, -, rfl⟩ := h
    obtain ⟨rfl, htransaction, hadded⟩ := runs_straight_begin hc.exits hdb h hp
    exact ⟨rfl, htransaction, hadded⟩
  | commit name | rollback name =>
    simp only [lowerStatement, runs_bind, runs_pure] at h
    obtain ⟨_, _, h, -, rfl⟩ := h
    obtain ⟨rfl, htransaction, hadded⟩ := runs_straight_end hc.exits hdb (by decide) h hp
    exact ⟨rfl, htransaction, hadded⟩
  | _ => cases hstraight

/-- A transaction statement in the wrong place is refused. -/
theorem fails_straight {statement : Statement} (hadmits : statement.admits opened = false)
    (h : (lowerStatement rest prepared statement).Fails c p error after)
    (hp : p.transaction = ⟨opened, false⟩) : error.fault = .transaction statement.refusal := by
  cases statement with
  | beginTransaction name =>
    obtain rfl : opened = true := by simpa [Statement.admits] using hadmits
    simp only [lowerStatement, beginTransaction, fails_bind, not_fails_pure, not_fails_get,
      runs_get,
      false_or, and_false, exists_false, or_false] at h
    obtain ⟨_, _, ⟨rfl, rfl⟩, h⟩ := h
    rw [hp, if_pos rfl] at h
    simp only [transactionFault, fails_bind, fails_fail, not_runs_fail, false_and, exists_false,
      or_false] at h
    rw [h.1]
    rfl
  | commit name | rollback name =>
    obtain rfl : opened = false := hadmits
    simp only [lowerStatement, commit, rollback, endTransaction, fails_bind, not_fails_pure,
      not_fails_get, runs_get, false_or, and_false, exists_false, or_false] at h
    obtain ⟨_, _, ⟨rfl, rfl⟩, h⟩ := h
    have hclosed : (!(TransactionState.mk false false).active &&
      !(TransactionState.mk false false).uncertain) = true := rfl
    rw [hp, if_pos hclosed] at h
    simp only [transactionFault, fails_bind, fails_fail, not_runs_fail, false_and, exists_false,
      or_false] at h
    rw [h.1]
    rfl
  | _ => cases hadmits

/-- What a straight statement reports has no site yet. -/
theorem site_of_fails_straight {statement : Statement} (hstraight : statement.isStraight = true)
    (h : (lowerStatement rest prepared statement).Fails c p error after) : error.site = none := by
  rcases isOwn_or_stopsWith h with hown | ⟨part, inner, hopens, -⟩
  · exact hown.site
  · cases hopens <;> cases hstraight

/-! ## Lists of statements -/

/-- All of some places hold straight statements, and there is a database if there are any. -/
def AllStraight (c : Context) (places : List (List Nat × Statement)) : Prop :=
  ∀ place ∈ places, place.2.isStraight = true ∧ c.survey.usesDb = true

theorem allStraight_append {front back : List (List Nat × Statement)} :
    AllStraight c (front ++ back) ↔ AllStraight c front ∧ AllStraight c back :=
  List.forall_mem_append

/-- A statement that is treated successfully, made of straight statements, is routed. -/
def RoutesStraight (statement : Statement) : Prop :=
  ∀ ⦃c : Context⦄ ⦃p after : Progress⦄ ⦃rest : List Statement⦄ ⦃prepared result : Option Fetch⦄
    ⦃path : List Nat⦄ ⦃opened : Bool⦄, Direct c → AllStraight c (statement.places path) →
    (lowerStatement rest prepared statement).Runs c p result after →
    p.transaction = ⟨opened, false⟩ →
    Routed p after opened ((statement.places path).map (·.2))

theorem routed_of_routesStraight {statements : List Statement}
    (ih : ∀ s ∈ statements, RoutesStraight s) {index : Nat} {path : List Nat} (hc : Direct c)
    (hstraight : AllStraight c (Statement.listPlaces path index statements))
    (h : (lowerStatements index prepared statements).Runs c p () after)
    (hp : p.transaction = ⟨opened, false⟩) :
    Routed p after opened ((Statement.listPlaces path index statements).map (·.2)) := by
  induction statements generalizing index prepared p opened with
  | nil =>
    obtain ⟨-, rfl⟩ := runs_pure.mp h
    exact .nil hp
  | cons statement rest ihrest =>
    simp only [lowerStatements, runs_bind, runs_within, runs_located] at h
    obtain ⟨prepared', middle, hfirst, hrest⟩ := h
    rw [Statement.listPlaces, allStraight_append] at hstraight
    rw [Statement.listPlaces, List.map_append]
    have hrouted := ih statement List.mem_cons_self (hc.enter index) hstraight.1 hfirst hp
    exact hrouted.append (ihrest (fun s hs => ih s (.tail _ hs)) hstraight.2 hrest
      hrouted.transaction)

/-- Every statement follows the automaton: a straight one by itself, and a block by what is in
it. -/
theorem routesStraight (statement : Statement) : RoutesStraight statement := by
  induction statement using Statement.childInduction with
  | step statement ih =>
    intro c p after rest prepared result path opened hc hstraight h hp
    by_cases hblock : ∃ body, statement = .block body
    · obtain ⟨body, rfl⟩ := hblock
      obtain ⟨hbody, -⟩ := runs_blockStatement h
      exact routed_of_routesStraight (ih body List.mem_cons_self) hc hstraight hbody hp
    · have hplaces := Statement.places_of_ne_block path fun body hbody => hblock ⟨body, hbody⟩
      rw [hplaces] at hstraight ⊢
      obtain ⟨hleaf, hdb⟩ := hstraight _ List.mem_cons_self
      exact runs_straight hc hdb hleaf h hp

/-- The generation stops at one of some places with an error that names it; the statements in front
of it alternate, and where it does not, that is what is reported. -/
structure StopsAt (c : Context) (opened : Bool) (places : List (List Nat × Statement))
    (error : Error) (front : List (List Nat × Statement)) (place : List Nat × Statement)
    (back : List (List Nat × Statement)) : Prop where
  places : places = front ++ place :: back
  site : error.site = some ⟨c.procedure.name, renderPath place.1⟩
  alternates : Statement.alternates opened (front.map (·.2)) = true
  refused : place.2.admits (Statement.listBehind opened (front.map (·.2))) = false →
    error.fault = .transaction place.2.refusal

/-- A statement that fails, made of straight statements, stops at one of them. -/
def StopsStraight (statement : Statement) : Prop :=
  ∀ ⦃c : Context⦄ ⦃p after : Progress⦄ ⦃rest : List Statement⦄ ⦃prepared : Option Fetch⦄
    ⦃error : Error⦄ ⦃opened : Bool⦄, Direct c → AllStraight c (statement.places c.path) →
    (lowerStatement rest prepared statement).Fails c p error after →
    p.transaction = ⟨opened, false⟩ →
    ∃ front place back, StopsAt c opened (statement.places c.path)
      (error.located c.procedure.name c.pathText) front place back

theorem stopsAt_of_stopsStraight {statements : List Statement}
    (ih : ∀ s ∈ statements, StopsStraight s) {index : Nat} (hc : Direct c)
    (hstraight : AllStraight c (Statement.listPlaces c.path index statements))
    (h : (lowerStatements index prepared statements).Fails c p error after)
    (hp : p.transaction = ⟨opened, false⟩) :
    ∃ front place back, StopsAt c opened (Statement.listPlaces c.path index statements) error front
      place back := by
  induction statements generalizing index prepared p opened with
  | nil => exact absurd h not_fails_pure
  | cons statement rest ihrest =>
    rw [Statement.listPlaces, allStraight_append] at hstraight
    simp only [lowerStatements, fails_bind, fails_within, fails_located, runs_within,
      runs_located] at h
    rcases h with ⟨inner, hfirst, rfl⟩ | ⟨prepared', middle, hfirst, hrest⟩
    · obtain ⟨front, place, back, hstops⟩ :=
        ih statement List.mem_cons_self (hc.enter index) hstraight.1 hfirst hp
      have hplaces : statement.places (index :: c.path) = front ++ place :: back := hstops.places
      exact ⟨front, place, back ++ Statement.listPlaces c.path (index + 1) rest, by
        rw [Statement.listPlaces, hplaces, List.append_assoc, List.cons_append],
        hstops.site, hstops.alternates, hstops.refused⟩
    · have hrouted := routesStraight statement (hc.enter index) hstraight.1 hfirst hp
      obtain ⟨front, place, back, hstops⟩ := ihrest (fun s hs => ih s (.tail _ hs)) hstraight.2
        hrest hrouted.transaction
      refine ⟨statement.places (index :: c.path) ++ front, place, back, ?_, hstops.site, ?_, ?_⟩
      · rw [Statement.listPlaces, hstops.places, List.append_assoc]
      · rw [List.map_append, Statement.alternates_append, hrouted.alternates, hstops.alternates]
        rfl
      · rw [List.map_append, Statement.listBehind_append]
        exact hstops.refused

theorem stopsStraight (statement : Statement) : StopsStraight statement := by
  induction statement using Statement.childInduction with
  | step statement ih =>
    intro c p after rest prepared error opened hc hstraight h hp
    by_cases hblock : ∃ body, statement = .block body
    · obtain ⟨body, rfl⟩ := hblock
      simp only [lowerStatement, fails_bind, not_fails_pure, and_false, exists_false,
        or_false] at h
      obtain ⟨front, place, back, hstops⟩ :=
        stopsAt_of_stopsStraight (ih body List.mem_cons_self) hc hstraight h hp
      have hlocated : error.located c.procedure.name c.pathText = error := by
        rw [Error.located, hstops.site]
      exact ⟨front, place, back, by rwa [hlocated]⟩
    · have hplaces := Statement.places_of_ne_block c.path fun body hbody => hblock ⟨body, hbody⟩
      rw [hplaces] at hstraight ⊢
      obtain ⟨hleaf, -⟩ := hstraight _ List.mem_cons_self
      refine ⟨[], _, [], rfl, ?_, rfl, fun hadmits => ?_⟩
      · rw [Error.located, site_of_fails_straight hleaf h]
        rfl
      · rw [Error.fault_located]
        exact fails_straight hadmits h hp

/-! ## Function entry -/

/-- The effect of steps that only send queries past the transaction, where none is open. -/
def pastTransaction : Effect where
  relates before after := before.transaction = {} → after.transaction = {} ∧
    ∃ added, after.output = before.output ++ added ∧ ∀ a ∈ listActions added, a = .query "db"

instance : pastTransaction.Tolerant where
  annotated h hbefore :=
    ⟨h.transaction.trans hbefore, [], by simp [h.output], by simp [listActions]⟩
  trans h h' hbefore := by
    obtain ⟨hmiddle, added, hadded, hactions⟩ := h hbefore
    obtain ⟨hafter, more, hmore, hactions'⟩ := h' hmiddle
    refine ⟨hafter, added ++ more, by rw [hmore, hadded, List.append_assoc], ?_⟩
    rw [listActions_append]
    exact List.forall_mem_append.mpr ⟨hactions, hactions'⟩
  behind _ _ := trivial
  plain _ := trivial

theorem Asks.pastTransaction {α : Type} {step : Lower α} {actions : List Action} {P : α → Prop}
    (h : step.Asks c {} actions P) (hactions : ∀ a ∈ actions, a = .query "db") :
    step.HasEffect c pastTransaction :=
  .of_runs fun hruns hbefore =>
    have ⟨hafter, _, added, hadded, heq⟩ := h hruns hbefore
    ⟨hafter, added, hadded, heq ▸ hactions⟩

/-- The queries inside expressions are sent past the transaction, where none is open. -/
theorem queries_pastTransaction (hc : Direct c) : QueriesHaveEffect c pastTransaction where
  probe query := by
    unfold hoistExists
    split
    · exact hasEffect_pure _
    next table _ =>
      refine @Asks.pastTransaction _ _ _ [.query "db"] (fun _ => True) ?_ (by simp)
      refine asks_silent_bind (asks_fresh _) fun target _ => ?_
      refine asks_silent_bind asks_emit fun _ _ => ?_
      refine asks_silent_bind (asks_backendFor hc table) fun backend hbackend => ?_
      subst hbackend
      refine asks_silent_bind (asks_renderQuery (.probe query)) fun probe hargs => ?_
      refine asks_silent_bind asks_handle fun owner howner => ?_
      subst howner
      refine asks_bind_silent (P := fun _ => True) ?_ fun _ _ => asks_pure trivial
      exact asks_emitGuarded hc.exits (actions_scan _ hargs _)
  scalar query table hint := by
    refine @Asks.pastTransaction _ _ _ [.query "db"] (fun _ => True) ?_ (by simp)
    unfold hoistScalar
    refine asks_silent_bind (asks_backendFor hc table) fun backend hbackend => ?_
    subst hbackend
    dsimp only
    rw [if_neg (not_not.mpr rfl)]
    split
    · exact asks_of_not_runs not_runs_unsupported
    · refine asks_silent_bind (asks_annotated (hasEffect_importType _)) fun _ _ => ?_
      refine asks_silent_bind (asks_fresh _) fun target _ => ?_
      refine asks_silent_bind asks_emit fun _ _ => ?_
      refine asks_silent_bind (asks_renderQuery (.select query)) fun rendered hargs => ?_
      exact asks_bind_silent (asks_emitScan hc.exits hargs _ _) fun _ _ => asks_pure trivial

/-- A value asks for nothing itself. -/
theorem actions_of_runs_lowerValue {expr : Expr} {target : GoType} {value : Go.Expr}
    (h : (lowerValue expr target).Runs c p value after) : value.actions false = [] := by
  have hdraws : (lowerValue expr target).DrawsOn .everything c True fun e =>
      e.Composed .everything false 1 := drawsOn_lowerValue Stock.own_everything expr target
  exact (hdraws.holds h).actions_eq_nil

theorem pastTransaction_assignVariable (hc : Direct c) (name : String) (value : Expr) :
    (assignVariable name value).HasEffect c pastTransaction := by
  refine hasEffect_bind (hasEffect_lookup name) fun symbol => .of_runs fun hruns => ?_
  obtain ⟨code, middle, hvalue, hassign⟩ := runs_bind.mp hruns
  have hcode : (emitAssign symbol.goName code).HasEffect c pastTransaction :=
    (asks_emitAssign (actions_of_runs_lowerValue hvalue)).pastTransaction (by simp)
  have hlowered := hasEffect_lowerValue (queries_pastTransaction hc) _ _ hvalue
  exact Effect.Composable.trans hlowered (hcode hassign)

theorem pastTransaction_emitDefaults (hc : Direct c) (params : List Parameter) :
    (emitDefaults params).HasEffect c pastTransaction := by
  induction params with
  | nil => exact hasEffect_pure _
  | cons param rest ih =>
    unfold emitDefaults
    split
    · exact hasEffect_bind (pastTransaction_assignVariable hc _ _) fun _ => ih
    · exact ih

/-- The names and values of the parameters are no query text. -/
theorem asks_inputPairs (params : List Parameter) :
    (inputPairs params).Asks c state [] fun pairs =>
      ∀ e ∈ pairs, e.actions false = [] ∧ ∀ sql, e ≠ .query sql := by
  induction params with
  | nil => exact asks_pure (by simp)
  | cons param rest ih =>
    refine asks_silent_bind (asks_annotated (hasEffect_lookup _)) fun symbol _ => ?_
    refine asks_silent_bind ih fun pairs hpairs => asks_pure ?_
    simp only [List.forall_mem_cons]
    exact ⟨⟨rfl, nofun⟩, ⟨rfl, nofun⟩, hpairs⟩

theorem asks_emitEntry : emitEntry.Asks c state [] fun _ => True := by
  refine asks_silent_bind asks_read fun context _ => ?_
  refine asks_silent_bind (asks_annotated (hasEffect_importPath _)) fun _ _ => ?_
  refine asks_silent_bind (asks_inputPairs _) fun pairs hpairs => ?_
  have hactions : (Go.Stmt.run (.invoke (.name "slog") "DebugContext"
      (ctx :: .str (context.functionName ++ ": enter") :: pairs))).actions = [] := by
    have hquery (sql : String) :
        Go.Expr.query sql ∉ ctx :: .str (context.functionName ++ ": enter") :: pairs := by
      simp only [List.mem_cons, not_or]
      exact ⟨nofun, nofun, fun hsql => (hpairs _ hsql).2 sql rfl⟩
    rw [Stmt.actions, actions_invoke (by decide) hquery]
    simpa [Go.Expr.actions, exprActions, ctx] using exprActions_eq_nil fun e he => (hpairs e he).1
  exact hactions ▸ asks_emit

/-- A line that is only written where a test holds, and what follows either way. -/
theorem asks_optional {test : Prop} [Decidable test] {step next : Lower Unit}
    {actions : List Action}
    (hstep : step.Asks c state [] fun _ => True) (hnext : next.Asks c state actions fun _ => True) :
    (if test then step >>= fun _ => next else next).Asks c state actions fun _ => True := by
  split
  · exact asks_silent_bind hstep fun _ _ => hnext
  · exact hnext

theorem asks_emitCounters : emitCounters.Asks c state [] fun _ => True := by
  refine asks_silent_bind asks_read fun context _ => ?_
  refine asks_optional asks_emit (asks_optional asks_emit ?_)
  split
  · exact asks_silent_bind (asks_annotated (hasEffect_importPath _)) fun _ _ => asks_emit
  · exact asks_pure trivial

theorem asks_emitUse (name goName : String) :
    (emitUse name goName).Asks c state [] fun _ => True := by
  refine asks_silent_bind asks_read fun context _ => ?_
  split
  · exact asks_emitAssign rfl
  · exact asks_pure trivial

theorem asks_emitHoisted (names : List String) :
    (emitHoisted names).Asks c state [] fun _ => True := by
  induction names with
  | nil => exact asks_pure trivial
  | cons name rest ih =>
    unfold emitHoisted
    refine asks_silent_bind asks_get fun progress _ => ?_
    dsimp only
    split
    · refine asks_silent_bind (asks_annotated (hasEffect_importType _)) fun _ _ => ?_
      refine asks_silent_bind asks_emit fun _ _ => ?_
      exact asks_silent_bind (asks_emitUse _ _) fun _ _ => ih
    · exact ih

/-- Without cursors there are no iterators. -/
theorem asks_hoistIterators {statements : List Statement}
    (h : ∀ s ∈ statements, ∀ name query, s ≠ .declareCursor name query) :
    (hoistIterators statements).Asks c state [] fun _ => True := by
  induction statements with
  | nil => exact asks_pure trivial
  | cons statement rest ih =>
    have hrest := ih fun s hs => h s (List.mem_cons_of_mem _ hs)
    cases statement with
    | declareCursor name query => exact absurd rfl (h _ List.mem_cons_self name query)
    | _ => exact hrest

/-- What stands in front of the statements of a procedure without cursors only sends queries past
the transaction. -/
theorem pastTransaction_lowerEntry (hc : Direct c)
    (hcursors : ∀ s ∈ c.procedure.statements, ∀ name query, s ≠ .declareCursor name query)
    (h : lowerEntry.Runs c p () after) (hp : p.transaction = {}) (houtput : p.output = []) :
    ∀ a ∈ listActions after.output, a = .query "db" := by
  obtain ⟨counted, lined, hhead, hlined, hiterators⟩ := runs_lowerEntry h
  obtain ⟨declared, moved, headed, opened, hdeclared, hmoved, hheaded, hopened, hcounted⟩ :=
    runs_lowerHead hhead
  obtain ⟨table, -, rfl⟩ := runs_declareParams hdeclared
  have hheaded : headed.transaction = {} ∧ headed.output = [] := by
    rw [hheaded.transaction, hheaded.output, eq_of_runs_declareHoisted hmoved]
    exact ⟨hp, houtput⟩
  have hopening : emitOpening.HasEffect c pastTransaction :=
    hasEffect_bind hasEffect_read fun _ =>
      hasEffect_when (asks_emitEntry.pastTransaction (by simp)) (pastTransaction_emitDefaults hc _)
  obtain ⟨hstate, added, hadded, hactions⟩ := hopening hopened hheaded.1
  obtain ⟨hstate, -, counters, hcounters, hnone⟩ := asks_emitCounters hcounted hstate
  obtain ⟨hstate, -, lines, hlines, hnone'⟩ := asks_emitHoisted _ hlined hstate
  obtain ⟨-, -, iterators, hiterators, hnone''⟩ := asks_hoistIterators hcursors hiterators hstate
  rw [hiterators, hlines, hcounters, hadded, hheaded.2]
  simpa [hnone, hnone', hnone''] using hactions

theorem asks_emitFinalReturn : emitFinalReturn.Asks c state [] fun _ => True := by
  refine asks_silent_bind (asks_resultValues rfl rfl) fun values hvalues => ?_
  refine asks_silent_bind asks_read fun context _ => ?_
  split
  · exact (show (Go.Stmt.ret values).actions = [] from hvalues) ▸ asks_emit
  · exact asks_pure trivial

end Lower

/-! ## Procedures -/

namespace Statement

variable {place : List Nat × Statement} {path : List Nat} {index : Nat} {body : List Statement}

theorem exists_of_mem_listPlaces (h : place ∈ listPlaces path index body) :
    ∃ s ∈ body, ∃ i, place ∈ s.places (i :: path) := by
  induction body generalizing index with
  | nil => cases h
  | cons statement rest ih =>
    rcases List.mem_append.mp h with h | h
    · exact ⟨statement, List.mem_cons_self, index, h⟩
    · obtain ⟨s, hs, hplace⟩ := ih h
      exact ⟨s, List.mem_cons_of_mem _ hs, hplace⟩

theorem exists_places_subset (path : List Nat) (index : Nat) {s : Statement} (h : s ∈ body) :
    ∃ i, s.places (i :: path) ⊆ listPlaces path index body := by
  induction body generalizing index with
  | nil => cases h
  | cons statement rest ih =>
    rcases List.mem_cons.mp h with rfl | h
    · exact ⟨index, List.subset_append_left _ _⟩
    · obtain ⟨i, hsubset⟩ := ih (index + 1) h
      exact ⟨i, fun _ hin => List.mem_append_right _ (hsubset hin)⟩

/-- What has a place stands inside. -/
theorem mem_nested_of_mem_places {s : Statement} (h : place ∈ s.places path) :
    place.2 ∈ s.nested := by
  induction s using childInduction generalizing path with
  | step s ih =>
    by_cases hblock : ∃ body, s = .block body
    · obtain ⟨body, rfl⟩ := hblock
      obtain ⟨t, ht, i, hplace⟩ := exists_of_mem_listPlaces h
      exact mem_nested_of_mem_children List.mem_cons_self ht
        (ih body List.mem_cons_self t ht hplace)
    · rw [places_of_ne_block path fun body hbody => hblock ⟨body, hbody⟩] at h
      obtain rfl := List.mem_singleton.mp h
      exact mem_nested_self s

/-- Whatever stands inside is a block, or straight if everything that has a place is. -/
theorem isStraight_of_mem_nested {s inner : Statement} (hinner : inner ∈ s.nested)
    (h : ∀ place ∈ s.places path, place.2.isStraight = true) :
    (∃ body, inner = .block body) ∨ inner.isStraight = true := by
  induction s using childInduction generalizing path with
  | step s ih =>
    by_cases hblock : ∃ body, s = .block body
    · obtain ⟨body, rfl⟩ := hblock
      rcases List.mem_cons.mp hinner with rfl | hinner
      · exact .inl ⟨body, rfl⟩
      · obtain ⟨t, ht, hinner⟩ := mem_nestedList.mp hinner
        obtain ⟨i, hsubset⟩ := exists_places_subset path 0 ht
        exact ih body List.mem_cons_self t ht hinner fun place hplace => h place (hsubset hplace)
    · rw [places_of_ne_block path fun body hbody => hblock ⟨body, hbody⟩] at h
      have hleaf := h _ List.mem_cons_self
      right
      cases s with
      | ifElse | «while» | block | tryCatch => cases hleaf
      | _ => exact List.mem_singleton.mp hinner ▸ hleaf

end Statement

namespace Procedure

variable {procedure : Procedure} {config : Config} {frame : Frame} {error : Error}

/-- A procedure that is made of queries over tables, other data statements, transaction statements,
and blocks of these. -/
def IsStraight (procedure : Procedure) : Prop :=
  ∀ place ∈ procedure.places, place.2.isStraight = true

/-- The generation gets as far as the statements of a procedure. -/
def Enters (procedure : Procedure) (config : Config) : Prop :=
  config.validate = .ok () ∧ ∃ frame, procedure.Begins config frame

/-- A straight statement needs the database. -/
theorem usesDb_of_mem_places (hbackend : config.backend = .sql) (hfallback : config.fallback = .sql)
    {place : List Nat × Statement} (hplace : place ∈ procedure.places)
    (hstraight : place.2.isStraight = true) :
    (Survey.ofProcedure config procedure).usesDb = true := by
  obtain ⟨s, hs, i, hmem⟩ := Statement.exists_of_mem_listPlaces hplace
  have hneeds {need : Need} (h : need ∈ place.2.ownNeeds config false false) :
      need ∈ procedure.needs config := by
    refine List.mem_append_right _ (Statement.mem_listNeeds.mpr ⟨s, hs, ?_⟩)
    exact Statement.mem_needs_of_nested (Statement.mem_nested_of_mem_places hmem)
      (List.mem_append_right _ h) false false
  have htable (table : TableRef) : table.need config = .database := by
    rw [TableRef.need_eq, Config.backendOf_sql hbackend hfallback]
    rfl
  have hcase : Need.database ∈ place.2.ownNeeds config false false ∨
      Need.transaction ∈ place.2.ownNeeds config false false := by
    obtain ⟨path, statement⟩ := place
    cases statement with
    | select query =>
      obtain ⟨table, htable'⟩ := Option.isSome_iff_exists.mp hstraight
      simp [Statement.ownNeeds, htable', htable]
    | insert | update | delete => simp [Statement.ownNeeds, htable]
    | exec => simp [Statement.ownNeeds, Statement.execNeed, hbackend]
    | beginTransaction | commit | rollback => simp [Statement.ownNeeds]
    | _ => cases hstraight
  rw [Survey.ofProcedure_eq]
  rcases hcase with h | h
  · simp [Survey.ofNeeds, hneeds h]
  · simp [Survey.ofNeeds, hneeds h, hbackend]

/-- The frame of a straight procedure is outside of `TRY` statements, with a database at hand, and
no transaction is open. -/
theorem Begins.direct (h : procedure.Begins config frame) (hbackend : config.backend = .sql)
    (hfallback : config.fallback = .sql) (hstraight : procedure.IsStraight) :
    Direct frame.context ∧ AllStraight frame.context procedure.places ∧
      frame.context.path = [] ∧ frame.context.procedure = procedure := by
  obtain ⟨functionName, verb, hcontext⟩ := Context.start_eq_ok h.1
  rw [hcontext]
  exact ⟨⟨rfl, hbackend, hfallback⟩, fun place hplace => ⟨hstraight place hplace,
    usesDb_of_mem_places hbackend hfallback hplace (hstraight place hplace)⟩, rfl, rfl⟩

/-- In front of the statements of a straight procedure, queries are only sent past the
transaction. -/
theorem Begins.entry_actions (h : procedure.Begins config frame) (hbackend : config.backend = .sql)
    (hfallback : config.fallback = .sql) (hstraight : procedure.IsStraight) :
    ∀ a ∈ listActions frame.progress.output, a = .query "db" := by
  obtain ⟨hdirect, -, -, hprocedure⟩ := h.direct hbackend hfallback hstraight
  refine pastTransaction_lowerEntry hdirect ?_ h.2.1 rfl rfl
  rw [hprocedure]
  rintro s hs name query rfl
  obtain ⟨t, ht, hinner⟩ := Statement.mem_nestedList.mp hs
  obtain ⟨i, hsubset⟩ := Statement.exists_places_subset [] 0 ht
  obtain ⟨body, hbody⟩ | hleaf := Statement.isStraight_of_mem_nested hinner
    fun place hplace => hstraight place (hsubset hplace)
  · cases hbody
  · cases hleaf

/-- Where the generation stops in the statements of a straight procedure, it stops at one of its
places. -/
theorem Begins.stopsAt (h : procedure.Begins config frame) (hbackend : config.backend = .sql)
    (hfallback : config.fallback = .sql) (hstraight : procedure.IsStraight)
    (hstops : frame.StopsWith error) :
    ∃ front place back, procedure.places = front ++ place :: back ∧
      error.site = some ⟨procedure.name, renderPath place.1⟩ ∧
      Statement.alternates false (front.map (·.2)) = true ∧
      (place.2.admits (Statement.listBehind false (front.map (·.2))) = false →
        error.fault = .transaction place.2.refusal) := by
  obtain ⟨hdirect, hall, hpath, hprocedure⟩ := h.direct hbackend hfallback hstraight
  have hstate := h.transaction_eq
  obtain ⟨-, -, hindex, -, hbody⟩ := h
  obtain ⟨after, hfails⟩ := hstops
  rw [hindex, hbody] at hfails
  have hplaces : Statement.listPlaces frame.context.path 0 procedure.body = procedure.places := by
    rw [hpath]
    rfl
  obtain ⟨front, place, back, hstops⟩ :=
    stopsAt_of_stopsStraight (fun s _ => stopsStraight s) hdirect (hplaces ▸ hall) hfails hstate
  exact ⟨front, place, back, hplaces ▸ hstops.places, hprocedure ▸ hstops.site, hstops.alternates,
    hstops.refused⟩

/-- Two places of a list are the same, unless one of them is in front of the other. -/
theorem first_eq {α : Type} {front front' back back' : List α} {a a' : α}
    (h : front ++ a :: back = front' ++ a' :: back') (hbefore : a' ∉ front)
    (hbehind : ∀ rest, front' ≠ front ++ a :: rest) : front = front' ∧ a = a' := by
  obtain ⟨middle, rfl, hrest⟩ | ⟨middle, rfl, hrest⟩ := List.append_eq_append_iff.mp h
  · cases middle with
    | nil => exact ⟨(List.append_nil _).symm, (List.cons.inj hrest).1⟩
    | cons b rest =>
      obtain rfl := (List.cons.inj hrest).1
      exact absurd rfl (hbehind rest)
  · cases middle with
    | nil => exact ⟨List.append_nil _, (List.cons.inj hrest).1.symm⟩
    | cons b rest =>
      obtain rfl := (List.cons.inj hrest).1
      exact absurd (by simp) hbefore

/-- **Straight-line procedures.** The database carries out all statements of a procedure that is
made of data statements, transaction statements and blocks.

If the procedure becomes a function, its transaction statements alternate, and behind queries for
the default values of the results, which go past the transaction, the function asks for exactly what
the statements say, in their order: a query through the transaction where one is open and past it
otherwise; for each `BEGIN` one call with its error checked, and one guard; for each `COMMIT` and
each `ROLLBACK` one call with its error checked.

If its transaction statements do not alternate, the first one in the wrong place is reported, unless
a statement in front of it stops the generation, or the statements are not reached at all. -/
theorem straightLine_transactions (hbackend : config.backend = .sql)
    (hfallback : config.fallback = .sql) (hstraight : procedure.IsStraight) :
    (∀ lowered, procedure.lower config = .ok lowered →
      Statement.alternates false (procedure.places.map (·.2)) = true ∧
      ∃ opening, (∀ a ∈ opening, a = .query "db") ∧ lowered.function.actions =
        opening ++ Statement.listRequests false (procedure.places.map (·.2))) ∧
    ∀ front place back, procedure.places = front ++ place :: back →
      Statement.alternates false (front.map (·.2)) = true →
      place.2.admits (Statement.listBehind false (front.map (·.2))) = false →
      ∃ error, procedure.lower config = .error error ∧
        (error = ⟨.transaction place.2.refusal, some ⟨procedure.name, renderPath place.1⟩⟩ ∨
          (∃ earlier ∈ front, error.site = some ⟨procedure.name, renderPath earlier.1⟩) ∨
          ¬procedure.Enters config) := by
  have hroutes {frame : Frame} {finished : Progress} (hbegins : procedure.Begins config frame)
      (hruns : (lowerStatements frame.index frame.prepared frame.statements).Runs frame.context
        frame.progress () finished) :
      Routed frame.progress finished false (procedure.places.map (·.2)) := by
    obtain ⟨hdirect, hall, -, -⟩ := hbegins.direct hbackend hfallback hstraight
    have hstate := hbegins.transaction_eq
    obtain ⟨-, -, hindex, -, hbody⟩ := hbegins
    rw [hindex, hbody] at hruns
    exact routed_of_routesStraight (fun s _ => routesStraight s) hdirect hall hruns hstate
  constructor
  · intro lowered hlower
    obtain ⟨frame, finished, final, hbegins, hruns, hfinal, hbody⟩ := exists_begins_finish hlower
    have hrouted := hroutes hbegins hruns
    obtain ⟨added, hadded, hactions⟩ := hrouted.output
    refine ⟨hrouted.alternates, listActions frame.progress.output,
      hbegins.entry_actions hbackend hfallback hstraight, ?_⟩
    obtain ⟨-, -, closing, hclosing, hnone⟩ := asks_emitFinalReturn hfinal rfl
    rw [Func.actions, hbody, hclosing, hadded, listActions_append, listActions_append, hactions,
      hnone, List.append_nil]
  · intro front place back hplaces halternates hrefused
    have hfails (h : Statement.alternates false (procedure.places.map (·.2)) = true) : False := by
      rw [hplaces, List.map_append, Statement.alternates_append, halternates, List.map_cons,
        Statement.alternates, hrefused] at h
      cases h
    cases hlower : procedure.lower config with
    | ok lowered =>
      obtain ⟨frame, finished, -, hbegins, hruns, -⟩ := exists_begins_finish hlower
      exact (hfails (hroutes hbegins hruns).alternates).elim
    | error error =>
      refine ⟨error, rfl, or_iff_not_imp_right.mpr fun hneither => ?_⟩
      obtain ⟨hearlier, hreaches⟩ := not_or.mp hneither
      obtain ⟨hvalid, frame, hbegins⟩ := not_not.mp hreaches
      rcases frame.succeeds_or_stopsWith with ⟨finished, hruns⟩ | ⟨stopped, hstopped⟩
      · exact (hfails (hroutes hbegins hruns).alternates).elim
      · obtain rfl := Except.error.inj
          (hlower.symm.trans (lower_eq_error_of_stopsWith hvalid hbegins hstopped))
        obtain ⟨front', place', back', hplaces', hsite, halternates', hrefused'⟩ :=
          hbegins.stopsAt hbackend hfallback hstraight hstopped
        have hlocated : stopped.located procedure.name "entry" = stopped := by
          rw [Error.located, hsite]
        rw [hlocated] at hearlier ⊢
        obtain ⟨rfl, rfl⟩ := first_eq (hplaces.symm.trans hplaces')
          (fun hmem => hearlier ⟨place', hmem, hsite⟩) fun rest hfront => by
            rw [hfront, List.map_append, Statement.alternates_append, halternates, List.map_cons,
              Statement.alternates, hrefused] at halternates'
            cases halternates'
        exact (Error.mk.injEq ..).mpr ⟨hrefused' hrefused, hsite⟩

open Build in
/-- A procedure that deletes rows in front of a transaction, inside of it, and behind it. The
transaction ends two blocks deep. -/
def transfer : Procedure where
  name := "usp_Transfer"
  params := []
  body := [.delete (delete "log"), .beginTransaction none,
    .block [.delete (delete "jobs"), .block [.commit none]], .delete (delete "queue")]

/-- One of the three deletions of `transfer` goes through its transaction. -/
theorem transfer_transactions : ∃ lowered opening, transfer.lower {} = .ok lowered ∧
    (∀ a ∈ opening, a = .query "db") ∧ lowered.function.actions = opening ++ [.query "db",
      .control "db" "BeginTx" true, .guard, .query "tx", .control "tx" "Commit" true,
      .query "db"] := by
  obtain ⟨lowered, hlower⟩ : ∃ lowered, transfer.lower {} = .ok lowered :=
    exists_lower_eq_ok (by decide +kernel)
  have hstraight : ∀ place ∈ transfer.places, place.2.isStraight = true := by decide
  obtain ⟨-, opening, hopening, hactions⟩ :=
    (straightLine_transactions rfl rfl hstraight).1 lowered hlower
  exact ⟨lowered, opening, hlower, hopening, hactions⟩

end Procedure

end Sproc
