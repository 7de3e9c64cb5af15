import Sproc.Proofs.Cursor.Release
import Sproc.Proofs.Lower.Contacts
import Sproc.Proofs.Lower.Fetch
import Sproc.Proofs.Lower.Imports
import Sproc.Proofs.Lower.Jumps

/-!
# Loops over the rows of a cursor

The usual way to go over the rows of a query has six statements: a cursor is declared and opened, a
first row is fetched, a loop goes on as long as fetches succeed, and the cursor is closed and
deallocated. In Go this is one loop. Its head is the only advance of the iterator, so all fetches of
the source are left out: the first one is the advance of the loop, and those inside the loop are seen
by the cursors that are being iterated, however deep they stand.

What a function does with rows is read off its events. Statements that ignore cursors have none that
are about rows, and may stand anywhere in between.

## Main definitions

* `Go.rowEvents`: what code does with the rows of cursors
* `Statement.ignoresCursors`: a statement is not about a cursor and does not ask for a fetch
* `Progress.Idles`: what has been written does nothing with rows
* `RowLoop`: the statements of a procedure that goes over the rows of one cursor
* `RowLoop.GoesOnce`: code that goes over the rows of a cursor once

## Main results

* `runs_opening`, `runs_rowLoop`: the opening and the loop
* `RowLoop.lowers_once`: the function of such a procedure
-/

namespace Sproc

open Lower Go

/-! ## Uses of rows -/

/-- Whether an event is about the rows of a cursor. -/
def Go.Event.isRow : Event → Bool
  | .stream | .iterate _ _ => true
  | .query | .request _ _ => false

/-- What code does with the rows of cursors. -/
def Go.rowEvents (code : List Stmt) : List Event :=
  (listEvents code).filter (·.isRow)

@[simp]
theorem Go.rowEvents_append (front back : List Stmt) :
    rowEvents (front ++ back) = rowEvents front ++ rowEvents back := by
  simp [rowEvents]

theorem Go.rowEvents_of_nil {code : List Stmt} (h : listEvents code = []) : rowEvents code = [] := by
  rw [rowEvents, h, List.filter_nil]

theorem Go.rowEvents_of_forall {code : List Stmt} (h : ∀ s ∈ code, s.events = []) :
    rowEvents code = [] := by
  refine rowEvents_of_nil ?_
  induction code with
  | nil => rfl
  | cons s rest ih =>
    rw [List.forall_mem_cons] at h
    rw [listEvents, h.1, ih h.2, List.append_nil]

/-- Whether an expression asks for the success of the last fetch. -/
def Expr.isFetchStatus : Expr → Bool
  | .global .fetchStatus => true
  | _ => false

namespace Statement

/-- Whether a statement is not about a cursor and does not ask for the success of a fetch. -/
def ignoresCursors (s : Statement) : Bool :=
  !s.isCursorUse && !s.ownExprs.any Expr.isFetchStatus

variable {s : Statement}

theorem isCursorUse_of_ignoresCursors (h : s.ignoresCursors = true) : s.isCursorUse = false := by
  simpa using (Bool.and_eq_true_iff.mp h).1

theorem isFetchStatus_of_ignoresCursors (h : s.ignoresCursors = true) {e : Expr}
    (he : e ∈ s.ownExprs) : e.isFetchStatus = false := by
  have hnone := (Bool.and_eq_true_iff.mp h).2
  simp only [Bool.not_eq_true', List.any_eq_false, Bool.not_eq_true] at hnone
  exact hnone e he

theorem eq_fetch_of_mem {fetch : Fetch} (h : fetch ∈ s.fetch?) : s = .fetch fetch := by
  cases s with
  | fetch f =>
    obtain rfl := Option.some.inj h
    rfl
  | _ => cases h

/-- A loop over a cursor asks for the success of the last fetch. -/
theorem isCursorLoop_of_ignoresCursors (h : s.ignoresCursors = true) : s.isCursorLoop = false := by
  cases s with
  | «while» condition body =>
    by_contra hloop
    have hcount : condition.conjuncts.countP Expr.isSentinel = 1 := by
      by_contra hcount
      simp [isCursorLoop, sentinelRest?, hcount] at hloop
    obtain ⟨part, hpart, hsentinel⟩ : ∃ part ∈ condition.conjuncts, part.isSentinel = true :=
      List.countP_pos_iff.mp (hcount ▸ Nat.one_pos)
    have hstatus : .global .fetchStatus ∈ part.walk := by
      unfold Expr.isSentinel at hsentinel
      split at hsentinel
      · simp [Expr.walk]
      · simp [Expr.walk]
      · cases hsentinel
    have hnone := isFetchStatus_of_ignoresCursors h
      (Expr.walk_subset_of_mem_conjuncts hpart hstatus)
    cases hnone
  | _ => rfl

/-- A statement that ignores cursors may stand between a fetch and its loop. -/
theorem usesCursor_of_ignoresCursors (h : ∀ inner ∈ s.nested, inner.ignoresCursors = true)
    (cursor : String) : s.usesCursor cursor = false := by
  rw [usesCursor, List.any_eq_false]
  intro inner hinner
  have hname : inner.cursorName? = none := by
    have huse := isCursorUse_of_ignoresCursors (h inner hinner)
    cases inner with
    | openCursor | closeCursor | deallocate | fetch => cases huse
    | _ => rfl
  simp only [hname, Option.any_none, Bool.false_or, List.any_eq_true, not_exists, not_and]
  intro e he
  have hstatus := isFetchStatus_of_ignoresCursors (h inner hinner) he
  split
  · cases hstatus
  · simp

end Statement

/-! ## Steps that leave rows alone -/

/-- No rows are used. -/
def Charter.idle : Charter where
  allows contact := contact.isIteration = false
  serves _ := False
  plain := id
  steps := False.elim

/-- Code has been written that does nothing with rows. -/
structure Progress.Idles (config : Config) (before after : Progress) : Prop where
  sites : Charter.idle.Sites config after.cursors
  code : ∃ added, after.output = before.output ++ added ∧ rowEvents added = []

namespace Charter

variable {config : Config} {looping : List String} {s : Statement}

theorem isRow_of_idle {contact : Contact} (h : contact.isIteration = false) :
    ∀ event ∈ contact.events config, event.isRow = false := by
  have hbackend {backend : Backend} {client : ClientRef} {messages : Nat} {event : Event}
      (hevent : event ∈ backend.events config client messages) : event.isRow = false := by
    cases backend with
    | sql =>
      obtain rfl := List.mem_singleton.mp hevent
      rfl
    | mock | rpc =>
      obtain rfl := List.eq_of_mem_replicate hevent
      rfl
  intro event hevent
  cases contact with
  | rows _ | step _ _ => cases h
  | cursor _ => cases hevent
  | data _ _ | hoisted _ =>
    rw [Contact.events, Config.tableEvents] at hevent
    exact hbackend hevent
  | call =>
    rw [Contact.events] at hevent
    exact hbackend hevent

theorem Delivered.idles {contacts : List Contact} {before after : Progress}
    (h : idle.Delivered config [] [] contacts before after) : before.Idles config after := by
  obtain ⟨hsites, made, added, houtput, hevents, -, hallows, -⟩ := h
  refine ⟨hsites, added, houtput, ?_⟩
  rw [List.append_nil, List.nil_append] at hevents
  rw [rowEvents, hevents, List.filter_eq_nil_iff]
  intro event hevent
  obtain ⟨contact, hcontact, hevent⟩ := List.mem_flatMap.mp hevent
  simp [isRow_of_idle (hallows contact hcontact) event hevent]

theorem admits_idle (h : s.ignoresCursors = true) : idle.Admits looping s where
  declares := by
    rintro _ _ _ rfl
    cases h
  opens := by
    rintro _ rfl
    cases h
  fetches := by
    rintro _ rfl
    cases h
  loops hloop := by
    rw [Statement.isCursorLoop_of_ignoresCursors h] at hloop
    cases hloop

end Charter

namespace Lower

variable {c : Context} {p middle after : Progress} {index : Nat} {prepared result : Option Fetch}
  {rest : List Statement} {s : Statement}

theorem Delivers.idles {step : Lower Unit} {contacts : List Contact}
    (h : step.Delivers .idle c [] contacts) (hsites : Charter.idle.Sites c.config p.cursors)
    (hruns : step.Runs c p () after) : p.Idles c.config after := by
  obtain ⟨_, rfl, hdelivered⟩ := h hruns hsites
  exact hdelivered.idles

end Lower

theorem Progress.Idles.refl {config : Config} {p : Progress}
    (h : Charter.idle.Sites config p.cursors) : p.Idles config p :=
  ⟨h, [], (List.append_nil _).symm, rfl⟩

theorem Progress.Idles.trans {config : Config} {before middle after : Progress}
    (h : before.Idles config middle) (h' : middle.Idles config after) :
    before.Idles config after := by
  obtain ⟨-, added, houtput, hevents⟩ := h
  obtain ⟨hsites, more, hmore, hlater⟩ := h'
  refine ⟨hsites, added ++ more, by rw [hmore, houtput, List.append_assoc], ?_⟩
  rw [rowEvents_append, hevents, hlater, List.append_nil]

/-- The cursors that are known, as an invariant. -/
def Invariant.known (cursors : CursorTable) : Invariant where
  holds _ table := table = cursors
  declares _ := id

/-- Cursors are known by their names in small letters. -/
theorem CursorTable.get?_put {table : CursorTable} {name other : String} {cursor : Cursor}
    (h : Text.toLower other = Text.toLower name) :
    (table.put name cursor).get? other = some cursor := by
  rw [get?, put, h, List.lookup_cons_self]

namespace Lower

variable {c : Context} {p middle after : Progress} {index : Nat} {prepared result : Option Fetch}
  {rest : List Statement} {s : Statement}

theorem runs_cons (h : (lowerStatements index prepared (s :: rest)).Runs c p () after) :
    ∃ next middle, (lowerStatement rest prepared s).Runs (c.enter index) p next middle ∧
      (lowerStatements (index + 1) next rest).Runs c middle () after := by
  rw [lowerStatements] at h
  obtain ⟨next, middle, hfirst, hrest⟩ := runs_bind.mp h
  exact ⟨next, middle, runs_located.mp (runs_within.mp hfirst), hrest⟩

/-- A statement that ignores cursors, wherever it stands. -/
theorem runs_ignoring (hs : ∀ inner ∈ s.nested, inner.ignoresCursors = true)
    (hsites : Charter.idle.Sites c.config p.cursors)
    (h : (lowerStatement rest prepared s).Runs c p result after) :
    p.Idles c.config after ∧ after.cursors = p.cursors ∧ result = prepared := by
  have hself := hs s s.mem_nested_self
  have hobeys : s.Obeys .idle [] := s.obeys fun inner hinner =>
    Charter.admits_idle (hs inner hinner)
  have hknown : ∀ inner ∈ s.nested, (Invariant.known p.cursors).Outlasts inner :=
    fun inner hinner huse => by
      rw [Statement.isCursorUse_of_ignoresCursors (hs inner hinner)] at huse
      cases huse
  obtain ⟨_, rfl, hdelivered⟩ := hobeys.statement (List.nil_subset _) rest prepared h hsites
  refine ⟨hdelivered.idles, keepsInvariant_lowerStatement s hknown c rest prepared h rfl, ?_⟩
  rw [prepared_of_runs (Statement.isCursorLoop_of_ignoresCursors hself) h]
  cases s with
  | fetch => cases hself
  | _ => rfl

/-- Statements that ignore cursors, in front of others. -/
theorem runs_front {front back : List Statement}
    (hfront : ∀ s ∈ front, ∀ inner ∈ s.nested, inner.ignoresCursors = true)
    (hsites : Charter.idle.Sites c.config p.cursors)
    (h : (lowerStatements index prepared (front ++ back)).Runs c p () after) :
    ∃ middle, p.Idles c.config middle ∧ middle.cursors = p.cursors ∧
      (lowerStatements (index + front.length) prepared back).Runs c middle () after := by
  induction front generalizing index p with
  | nil => exact ⟨p, .refl hsites, rfl, h⟩
  | cons s rest ih =>
    rw [List.forall_mem_cons] at hfront
    rw [List.cons_append] at h
    obtain ⟨next, middle, hfirst, hrest⟩ := runs_cons h
    obtain ⟨hidles, hcursors, rfl⟩ := runs_ignoring hfront.1 (c := c.enter index) hsites hfirst
    obtain ⟨last, hlast, hsame, hback⟩ := ih hfront.2 hidles.sites hrest
    refine ⟨last, hidles.trans hlast, hsame.trans hcursors, ?_⟩
    rwa [List.length_cons, Nat.add_comm rest.length 1, ← Nat.add_assoc]

/-! ## The opening -/

/-- An opening outside of handlers, of a cursor that is not released at function entry: the stream
is started by one call, and released by one deferred call. -/
theorem runs_opening {name : String} {cursor : Cursor} (hscope : c.exitScope ≠ .catchHalf)
    (hrelease : c.survey.releasesAtEntry name = false)
    (hcursor : p.cursors.get? name = some cursor) (hsql : cursor.backend = .sql)
    (hsites : Charter.idle.Sites c.config p.cursors) (h : (openCursor name).Runs c p () after) :
    ∃ front define call failure,
      after.output = p.output ++ (front ++
        (opening cursor.iterator define call failure ++ [release cursor.iterator])) ∧
      call.events = [.stream, .query] ∧
      rowEvents (front ++
        (opening cursor.iterator define call failure ++ [release cursor.iterator])) =
          [.stream, .iterate cursor.iterator "Close"] ∧
      after.cursors = p.cursors.put name { cursor with state := .opened } ∧
      Charter.idle.Sites c.config after.cursors := by
  obtain ⟨opened, hopened, -, -, hcursors⟩ := settled_openCursor h
  obtain rfl := Option.some.inj (hcursor.symm.trans hopened)
  obtain ⟨opened, call, called, type, typed, define, bound, checked, hget, -, hcall, htype, hbind,
    hcheck, rfl⟩ := runs_openCursor h
  obtain rfl := Option.some.inj (hcursor.symm.trans hget)
  have hsited := hsites _ (CursorTable.mem_of_get? hcursor)
  obtain ⟨-, -, ⟨table, htable, -, hevents⟩, -⟩ := sends_rowsCall hsited hcall
  obtain ⟨front, hfront, hdeclares⟩ := output_bindLocal hbind
  rw [((hasEffect_iteratorType _).annotated htype).output,
    ((hasEffect_rowsCall cursor).annotated hcall).output] at hfront
  rw [if_neg (by simp [hrelease])] at hcheck
  have hdefer : (emit (.deferCall (.invoke (.name cursor.iterator) "Close" []))).Sends c
      [.iterate cursor.iterator "Close"] fun _ => True := sends_emit rfl
  obtain ⟨-, -, -, added, hadded, hclose⟩ := sends_emitChecked hdefer hcheck
  obtain ⟨failure, hfailure⟩ := runs_emitChecked_emit hscope hcheck
  obtain rfl := List.append_cancel_left (hadded.symm.trans hfailure)
  have hstarts : call.events = [.stream, .query] := by
    rw [hevents, Contact.events, Config.tableEvents, ← htable, hsql]
    rfl
  have hquiet : rowEvents front = [] := by
    refine rowEvents_of_forall fun s hs => ?_
    obtain ⟨type, rfl⟩ := hdeclares s hs
    rfl
  refine ⟨front, define, call, failure, ?_, hstarts, ?_, hcursors, ?_⟩
  · dsimp only
    rw [hadded, Progress.wrote, hfront]
    simp [opening, release]
  · have hassign : rowEvents [.assign ⟨[.name cursor.iterator, err], define, call⟩] = [.stream] := by
      simp [rowEvents, err, hstarts, Event.isRow]
    have hchecked : rowEvents [.branch (.mk none failed failure) [] none,
        release cursor.iterator] = [.iterate cursor.iterator "Close"] := by
      rw [rowEvents, release, hclose]
      rfl
    have hsplit : opening cursor.iterator define call failure ++ [release cursor.iterator] =
        [Stmt.assign ⟨[.name cursor.iterator, err], define, call⟩] ++
          [Stmt.branch (.mk none failed failure) [] none, release cursor.iterator] := rfl
    rw [hsplit, rowEvents_append, rowEvents_append, hquiet, hassign, hchecked]
    rfl
  · rw [hcursors]
    exact CursorTable.forall_mem_put hsites ⟨hsited.source, hsited.remote⟩

end Lower

/-! ## The loop -/

namespace Procedure

/-- Somewhere in a procedure, a step yields a value and writes code in front of it. -/
def Produces (procedure : Procedure) (config : Config) {α : Type} (step : Lower α) (value : α)
    (code : List Stmt) : Prop :=
  ∃ c before after, c.procedure = procedure ∧ c.config = config ∧
    step.Runs c before value after ∧ after.output = before.output ++ code

/-- The early break of a loop over a cursor: if something is required beyond the success of a fetch,
there is one guard, whose test may need queries in front of it, and which leaves the loop. -/
inductive EarlyBreak (procedure : Procedure) (config : Config) (fetch : Fetch) :
    Option Expr → List Stmt → Prop
  | none : EarlyBreak procedure config fetch none []
  | some {condition : Expr} {test : Go.Expr} {queries : List Stmt} :
    procedure.Produces config (within (inCursorLoop fetch) (lowerCondition condition)) test
      queries → (∀ s ∈ queries, s.Confined false) →
    EarlyBreak procedure config fetch (some condition)
      (queries ++ [.branch (.mk none (.unary .not (.paren test)) [.breakLoop]) [] none])

end Procedure

namespace Lower

variable {c : Context} {p after : Progress} {fetch : Fetch}

/-- What a condition needs in front of it has no jumps of its own. -/
theorem confined_lowerCondition {condition : Expr} {test : Go.Expr}
    (h : (lowerCondition condition).Runs c p test after) :
    ∃ queries, after.output = p.output ++ queries ∧ ∀ s ∈ queries, s.Confined false := by
  have hregular : (Scheme.confining.discipline { c with loops := 0 }).Regular c :=
    Scheme.leaving_confining.regular
  obtain ⟨-, queries, hqueries, hconfined, -⟩ := hasEffect_lowerCondition hregular.forms condition h trivial
  exact ⟨queries, hqueries, hconfined⟩

/-- The guard at the start of each round. -/
theorem runs_emitLoopTest {condition : Expr} (h : (emitLoopTest condition).Runs c p () after) :
    ∃ test tested, (lowerCondition condition).Runs c p test tested ∧ after.output =
      tested.output ++ [Stmt.branch (.mk none (.unary .not (.paren test)) [.breakLoop]) [] none] := by
  simp only [emitLoopTest, emitIf, runs_bind, runs_block, runs_emit] at h
  obtain ⟨test, tested, htest, body, _, ⟨_, rfl, rfl, rfl⟩, rfl⟩ := h
  exact ⟨test, tested, htest, rfl⟩

/-- Each round starts by reading the row, and ends early if what else is required does not hold. -/
theorem runs_emitRound {iterator : String} {targets : List String} {more : Option Expr}
    (hsites : Charter.idle.Sites c.config p.cursors)
    (h : (emitRound (.name iterator) targets more).Runs (inCursorLoop fetch c) p () after) :
    ∃ failure guard, c.procedure.EarlyBreak c.config fetch more guard ∧
      after.output = p.output ++ (scanRow iterator targets failure :: guard) ∧
      (scanRow iterator targets failure).events = [.iterate iterator "Scan"] ∧
      rowEvents guard = [] ∧ Charter.idle.Sites c.config after.cursors := by
  obtain ⟨_, scanned, hrow, htest⟩ := runs_bind.mp h
  obtain ⟨hcursors, -, -, added, hadded, hscan⟩ := sends_emitRow iterator targets hrow
  obtain ⟨failure, hfailure⟩ := runs_emitGuarded hrow
  obtain rfl := List.append_cancel_left (hadded.symm.trans hfailure)
  rw [← hcursors] at hsites
  rw [listEvents, listEvents, List.append_nil] at hscan
  cases more with
  | none =>
    obtain ⟨-, rfl⟩ := runs_pure.mp htest
    exact ⟨failure, [], .none, hadded, hscan, rfl, hsites⟩
  | some condition =>
    obtain ⟨test, tested, hcondition, hleft⟩ := runs_emitLoopTest htest
    obtain ⟨queries, hqueries, hconfined⟩ := confined_lowerCondition hcondition
    obtain ⟨hsites, guard, hguard, hevents⟩ :=
      (delivers_emitLoopTest (c := inCursorLoop fetch c) condition).idles hsites htest
    rw [hqueries, List.append_assoc] at hleft
    obtain rfl := List.append_cancel_left (hguard.symm.trans hleft)
    refine ⟨failure, _, .some ⟨c, scanned, tested, rfl, rfl, runs_within.mpr hcondition, hqueries⟩
      hconfined, ?_, hscan, hevents, hsites⟩
    rw [hleft, hadded]
    simp [scanRow]

/-- A loop over a cursor without other uses of cursors in its body. -/
theorem runs_rowLoop {more : Option Expr} {body : List Statement}
    (hbody : ∀ s ∈ Statement.nestedList body, s.ignoresCursors = true ∨
      ∃ inner ∈ s.fetch?, Text.toLower inner.cursor = Text.toLower fetch.cursor)
    (hsites : Charter.idle.Sites c.config p.cursors)
    (h : (lowerCursorLoop fetch more (lowerStatements 0 none body)).Runs c p () after) :
    ∃ cursor targets failure guard code problem, p.cursors.get? fetch.cursor = some cursor ∧
      after.output = p.output ++
        advanceLoop cursor.iterator targets failure (guard ++ code) problem ∧
      c.procedure.EarlyBreak c.config fetch more guard ∧
      c.procedure.Produces c.config (within (inCursorLoop fetch) (lowerStatements 0 none body)) ()
        code ∧
      rowEvents (advanceLoop cursor.iterator targets failure (guard ++ code) problem) =
        ["Next", "Scan", "Err"].map (.iterate cursor.iterator) ∧
      Charter.idle.Sites c.config after.cursors := by
  obtain ⟨iterator, targets, found, named, started, inner, hiterator, htargets, hround, hinner,
    hcheck⟩ := runs_lowerCursorLoop h
  obtain ⟨rfl, cursor, hcursor, -, rfl⟩ := runs_fetchIterator hiterator
  obtain ⟨rfl, -⟩ := runs_goNames htargets
  obtain ⟨failure, guard, hbreak, hstarted, hscan, hguard, hsites⟩ :=
    runs_emitRound (by exact hsites) hround
  have hadmits : ∀ s ∈ Statement.nestedList body,
      Charter.idle.Admits [Text.toLower fetch.cursor] s := by
    intro s hs
    rcases hbody s hs with hignores | ⟨inner, hinner, hname⟩
    · exact Charter.admits_idle hignores
    · obtain rfl := Statement.eq_fetch_of_mem hinner
      refine ⟨nofun, nofun, ?_, nofun⟩
      rintro _ ⟨⟩
      exact .inr (List.mem_singleton.mpr hname)
  have hlooping : [Text.toLower fetch.cursor] ⊆ (inCursorLoop fetch c).looping :=
    List.cons_subset_cons _ (List.nil_subset _)
  obtain ⟨hsites, code, hcode, hidle⟩ :=
    (delivers_lowerStatements hlooping hadmits 0 none).idles hsites hinner
  have hsends : (emitGuarded (assignTo [err] (.invoke (.name cursor.iterator) "Err" []))).Sends c
      [.iterate cursor.iterator "Err"] fun _ => True := sends_emitGuarded rfl
  obtain ⟨hcursors, -, -, added, hadded, herr⟩ := hsends hcheck
  obtain ⟨problem, hproblem⟩ := runs_emitGuarded hcheck
  obtain rfl := List.append_cancel_left (hadded.symm.trans hproblem)
  refine ⟨cursor, targets, failure, guard, code, problem, CursorTable.get_eq_ok_iff.mp hcursor, ?_,
    hbreak, ⟨c, started, inner, rfl, rfl, runs_within.mpr hinner, hcode⟩, ?_, ?_⟩
  · rw [hadded]
    simp [Progress.wrote, Progress.closed, Progress.opened, advanceLoop, hcode, hstarted]
  · rw [listEvents, listEvents, List.append_nil] at herr
    have hnext : (Expr.invoke (.name cursor.iterator) "Next" []).events =
        [.iterate cursor.iterator "Next"] := rfl
    have hround : (listEvents (scanRow cursor.iterator targets failure :: (guard ++ code))).filter
        (·.isRow) = [.iterate cursor.iterator "Scan"] := by
      rw [listEvents, hscan, listEvents_append, List.filter_append, List.filter_append]
      rw [rowEvents] at hguard hidle
      rw [hguard, hidle]
      rfl
    rw [rowEvents, advanceLoop, listEvents, listEvents, listEvents, herr, Stmt.events,
      List.filter_append, List.filter_append, hround, optionEvents_some, hnext]
    rfl
  · rwa [hcursors]

/-! ## The statements around the loop -/

/-- A fetch in front of a loop over a cursor is the advance of the loop, or else there is an error. -/
theorem primesLoop_ne_false {between rest : List Statement} {loop : Statement} {rowUsed : Bool}
    (hbetween : ∀ s ∈ between, ∀ inner ∈ s.nested, inner.ignoresCursors = true)
    (hloop : loop.isCursorLoop = true) :
    primesLoop fetch rowUsed (between ++ loop :: rest) ≠ .ok false := by
  induction between generalizing rowUsed with
  | nil =>
    rw [List.nil_append, primesLoop, if_pos hloop]
    cases rowUsed <;> simp
  | cons s between ih =>
    rw [List.forall_mem_cons] at hbetween
    have hself := Statement.isCursorLoop_of_ignoresCursors (hbetween.1 s s.mem_nested_self)
    have huse := Statement.usesCursor_of_ignoresCursors hbetween.1 fetch.cursor
    rw [List.cons_append, primesLoop, if_neg (by simp [hself]), if_neg (by simp [huse])]
    exact ih hbetween.2

/-- From some statements to the opening of the cursor that is declared among them. -/
theorem runs_toOpening {front toOpen rest : List Statement} {name : String} {query : Select}
    {index : Nat} {prepared : Option Fetch}
    (hfront : ∀ s ∈ front, ∀ inner ∈ s.nested, inner.ignoresCursors = true)
    (htoOpen : ∀ s ∈ toOpen, ∀ inner ∈ s.nested, inner.ignoresCursors = true)
    (hsql : (c.config.backendOf query.source).1 = .sql)
    (hsites : Charter.idle.Sites c.config p.cursors)
    (h : (lowerStatements index prepared
      (front ++ .declareCursor name query :: (toOpen ++ rest))).Runs c p () after) :
    ∃ middle index cursor, p.Idles c.config middle ∧ middle.cursors.get? name = some cursor ∧
      cursor.backend = .sql ∧ (lowerStatements index prepared rest).Runs c middle () after := by
  obtain ⟨first, hfirst, -, hrest⟩ := runs_front hfront hsites h
  obtain ⟨_, declared, hstatement, hbehind⟩ := runs_cons hrest
  rw [lowerStatement] at hstatement
  obtain ⟨_, _, hdeclare, hpure⟩ := runs_bind.mp hstatement
  obtain ⟨rfl, rfl⟩ := runs_pure.mp hpure
  have hdeclared : first.Idles c.config declared :=
    (delivers_declareCursor (c := c.enter _) fun _ _ => False.elim).idles hfirst.sites hdeclare
  obtain ⟨cursor, hquery, -, -, hcursors⟩ := runs_declareCursor hdeclare
  have hget : declared.cursors.get? name = some cursor := by
    rw [hcursors]
    exact CursorTable.get?_put rfl
  obtain ⟨middle, hmiddle, hsame, hthere⟩ := runs_front htoOpen hdeclared.sites hbehind
  refine ⟨middle, _, cursor, (hfirst.trans hdeclared).trans hmiddle, hsame ▸ hget, ?_, hthere⟩
  obtain ⟨table, hsource, hbackend, -⟩ :=
    (hdeclared.sites _ (CursorTable.mem_of_get? hget)).source
  rw [hbackend, ← hsource, hquery, hsql]

/-- From the opening of a cursor to the loop that goes over its rows. -/
theorem runs_toLoop {toFetch toLoop rest body : List Statement} {condition : Expr}
    {more : Option Expr} {index : Nat} {prepared : Option Fetch}
    (htoFetch : ∀ s ∈ toFetch, ∀ inner ∈ s.nested, inner.ignoresCursors = true)
    (htoLoop : ∀ s ∈ toLoop, ∀ inner ∈ s.nested, inner.ignoresCursors = true)
    (hcondition : sentinelRest? condition = some more)
    (hsites : Charter.idle.Sites c.config p.cursors)
    (h : (lowerStatements index prepared
      (toFetch ++ .fetch fetch :: (toLoop ++ .while condition body :: rest))).Runs c p () after) :
    ∃ middle last index, p.Idles c.config middle ∧ middle.cursors = p.cursors ∧
      (lowerCursorLoop fetch more (lowerStatements 0 none body)).Runs ((c.enter index).enter 0)
        middle () last ∧ (lowerStatements (index + 1) none rest).Runs c last () after := by
  obtain ⟨first, hfirst, hsame, hrest⟩ := runs_front htoFetch hsites h
  obtain ⟨next, fetched, hfetch, hbehind⟩ := runs_cons hrest
  obtain ⟨rfl, rfl⟩ : next = some fetch ∧ fetched = first := by
    rw [lowerStatement] at hfetch
    obtain ⟨primes, _, hlook, hfetch⟩ := runs_bind.mp hfetch
    obtain ⟨hprimes, rfl⟩ := runs_ofExcept.mp hlook
    cases primes with
    | false =>
      refine absurd hprimes (primesLoop_ne_false htoLoop ?_)
      rw [Statement.isCursorLoop, hcondition]
      rfl
    | true => exact runs_pure.mp hfetch
  obtain ⟨middle, hmiddle, hsame', hthere⟩ := runs_front htoLoop hfirst.sites hbehind
  obtain ⟨next, last, hloop, hlast⟩ := runs_cons hthere
  obtain ⟨rfl, other, hother, hloop⟩ := runs_cursorLoop hcondition hloop
  obtain rfl := Option.some.inj hother
  exact ⟨middle, last, _, hfirst.trans hmiddle, hsame'.trans hsame, hloop, hlast⟩

end Lower

/-! ## Procedures -/

/-- A statement stands in the body of a procedure itself, or it is inside of one that does, with all
that is inside of it. -/
theorem Procedure.Holds.body_or_inside {procedure : Procedure} {scope : ExitScope} {s : Statement}
    (h : procedure.Holds scope s) : (scope = .body ∧ s ∈ procedure.body) ∨
      ∃ outer ∈ procedure.body, ∃ part ∈ outer.children, ∀ inner ∈ s.nested,
        inner ∈ Statement.nestedList part := by
  induction h with
  | body hmem => exact .inl ⟨rfl, hmem⟩
  | part _ hpart hmem ih =>
    have hchild := Statement.mem_children_of_part? hpart
    rcases ih with ⟨-, houter⟩ | ⟨top, htop, part, hinside, hnested⟩
    · exact .inr ⟨_, houter, _, hchild,
        fun inner hinner => Statement.mem_nestedList.mpr ⟨_, hmem, hinner⟩⟩
    · exact .inr ⟨top, htop, part, hinside, fun inner hinner =>
        hnested inner (Statement.mem_nested_of_mem_children hchild hmem hinner)⟩

/-- The statements of a procedure that goes over the rows of one cursor: the uses of the cursor, and
other statements around them and between them. Inside the loop there may be further fetches. -/
structure RowLoop where
  name : String
  query : Select
  opened : String
  fetch : Fetch
  condition : Expr
  /-- What the loop requires beyond the success of the last fetch. -/
  rest : Option Expr
  body : List Statement
  closed : String
  freed : String
  front : List Statement
  toOpen : List Statement
  toFetch : List Statement
  toLoop : List Statement
  toClose : List Statement
  toFree : List Statement
  back : List Statement
  names : ∀ other ∈ [opened, fetch.cursor, closed, freed], Text.toLower other = Text.toLower name
  sentinel : sentinelRest? condition = some rest
  ignores : ∀ s ∈ front ++ toOpen ++ toFetch ++ toLoop ++ toClose ++ toFree ++ back,
    ∀ inner ∈ s.nested, inner.ignoresCursors = true
  fetches : ∀ s ∈ Statement.nestedList body, s.ignoresCursors = true ∨
    ∃ inner ∈ s.fetch?, Text.toLower inner.cursor = Text.toLower name

namespace RowLoop

variable {loop : RowLoop} {procedure : Procedure} {config : Config} {lowered : LoweredProcedure}

/-- The statements behind the loop. -/
def remainder (loop : RowLoop) : List Statement :=
  loop.toClose ++ .closeCursor loop.closed :: (loop.toFree ++ .deallocate loop.freed :: loop.back)

/-- All statements, in their order. -/
def statements (loop : RowLoop) : List Statement :=
  loop.front ++ .declareCursor loop.name loop.query :: (loop.toOpen ++ .openCursor loop.opened ::
    (loop.toFetch ++ .fetch loop.fetch :: (loop.toLoop ++ .while loop.condition loop.body ::
      loop.remainder)))

/-- Besides the uses of the cursor, there are only statements that ignore cursors. -/
theorem cases_of_mem {s : Statement} (hs : s ∈ loop.statements) :
    (∀ inner ∈ s.nested, inner.ignoresCursors = true) ∨ s.children = [] ∨
      s = .while loop.condition loop.body := by
  have hignores := loop.ignores s
  simp only [List.mem_append] at hignores
  simp only [statements, remainder, List.mem_append, List.mem_cons] at hs
  rcases hs with hs | rfl | hs | rfl | hs | rfl | hs | rfl | hs | rfl | hs | rfl | hs
  all_goals first
    | exact .inr (.inl rfl)
    | exact .inr (.inr rfl)
    | exact .inl (hignores (by simp [hs]))

/-- The cursor is opened in the body of the procedure itself. -/
theorem not_opensInTry (hbody : procedure.body = loop.statements) (cursor : String) :
    ¬procedure.OpensInTry cursor := by
  rintro ⟨scope, name, hholds, hscope, -⟩
  rcases hholds.body_or_inside with ⟨hscope', -⟩ | ⟨outer, houter, part, hpart, hinside⟩
  · exact hscope hscope'
  have hopen := hinside _ (Statement.mem_nested_self _)
  obtain ⟨s, hs, hnested⟩ := Statement.mem_nestedList.mp hopen
  rcases cases_of_mem (hbody ▸ houter) with hignores | hnone | rfl
  · cases hignores _ (Statement.mem_nested_of_mem_children hpart hs hnested)
  · rw [hnone] at hpart
    cases hpart
  · obtain rfl := List.mem_singleton.mp hpart
    rcases loop.fetches _ hopen with hignores | ⟨inner, hinner, -⟩
    · cases hignores
    · cases hinner

/-- Behind the loop, nothing is done with rows. -/
theorem admits_remainder : ∀ s ∈ Statement.nestedList loop.remainder, Charter.idle.Admits [] s := by
  intro s hs
  obtain ⟨top, htop, hs⟩ := Statement.mem_nestedList.mp hs
  have hignores := loop.ignores top
  simp only [List.mem_append] at hignores
  have hinside (hgap : top ∈ loop.toClose ∨ top ∈ loop.toFree ∨ top ∈ loop.back) :
      Charter.idle.Admits [] s := by
    refine Charter.admits_idle (hignores ?_ s hs)
    tauto
  simp only [remainder, List.mem_append, List.mem_cons] at htop
  rcases htop with htop | rfl | htop | rfl | htop
  · exact hinside (.inl htop)
  · obtain rfl := List.mem_singleton.mp hs
    constructor <;> intros <;> contradiction
  · exact hinside (.inr (.inl htop))
  · obtain rfl := List.mem_singleton.mp hs
    constructor <;> intros <;> contradiction
  · exact hinside (.inr (.inr htop))

/-- Code that goes over the rows of a cursor once: one call starts the stream, one deferred call
releases it, and one loop takes its rows. Each round reads the row, may break early, and goes on
with the code of the body; behind the loop the iterator is asked for an error. Nothing else in the
code is done with rows. -/
structure GoesOnce (loop : RowLoop) (procedure : Procedure) (config : Config) (iterator : String)
    (code : List Stmt) : Prop where
  shape : ∃ front define call failure between targets problem guard round trouble back,
    code = front ++ (opening iterator define call failure ++ (release iterator :: (between ++
      (advanceLoop iterator targets problem (guard ++ round) trouble ++ back)))) ∧
    call.events = [.stream, .query] ∧ procedure.EarlyBreak config loop.fetch loop.rest guard ∧
    procedure.Produces config (within (inCursorLoop loop.fetch) (lowerStatements 0 none loop.body))
      () round
  events : rowEvents code = .stream :: ["Close", "Next", "Scan", "Err"].map (.iterate iterator)

/-- Code that does nothing with rows may stand around it. -/
theorem GoesOnce.around {iterator : String} {code front back : List Stmt}
    (h : loop.GoesOnce procedure config iterator code) (hfront : rowEvents front = [])
    (hback : rowEvents back = []) :
    loop.GoesOnce procedure config iterator (front ++ (code ++ back)) := by
  obtain ⟨⟨first, define, call, failure, between, targets, problem, guard, round, trouble, last, rfl,
    hcall, hbreak, hround⟩, hevents⟩ := h
  refine ⟨⟨front ++ first, define, call, failure, between, targets, problem, guard, round, trouble,
    last ++ back, ?_, hcall, hbreak, hround⟩, ?_⟩
  · simp
  · rw [rowEvents_append, rowEvents_append, hfront, hback, hevents, List.nil_append,
      List.append_nil]

/-- The code of the statements. -/
theorem goesOnce_of_runs {c : Context} {p after : Progress} (hscope : c.exitScope ≠ .catchHalf)
    (hrelease : c.survey.releasesAtEntry loop.opened = false)
    (hsql : (c.config.backendOf loop.query.source).1 = .sql)
    (hsites : Charter.idle.Sites c.config p.cursors)
    (h : (lowerStatements 0 none loop.statements).Runs c p () after) :
    ∃ iterator code, loop.GoesOnce c.procedure c.config iterator code ∧
      after.output = p.output ++ code := by
  have hnames := loop.names
  have hgaps := loop.ignores
  simp only [List.forall_mem_cons] at hnames
  simp only [List.forall_mem_append] at hgaps
  obtain ⟨hopened, hfetched, -⟩ := hnames
  obtain ⟨⟨⟨⟨⟨⟨hfront, htoOpen⟩, htoFetch⟩, htoLoop⟩, -⟩, -⟩, -⟩ := hgaps
  -- Up to the opening of the cursor.
  obtain ⟨declared, i, cursor, ⟨hsites, first, hfirst, hidle⟩, hcursor, hbackend, hrest⟩ :=
    runs_toOpening hfront htoOpen hsql hsites h
  obtain ⟨_, started, hopening, hrest⟩ := runs_cons hrest
  rw [lowerStatement] at hopening
  obtain ⟨_, _, hopening, hpure⟩ := runs_bind.mp hopening
  obtain ⟨rfl, rfl⟩ := runs_pure.mp hpure
  rw [CursorTable.get?, ← hopened] at hcursor
  obtain ⟨front, define, call, failure, hstarted, hcall, hstream, hcursors, hsites⟩ :=
    runs_opening (c := c.enter i) hscope hrelease hcursor hbackend hsites hopening
  -- Up to the loop, and the loop itself.
  obtain ⟨reached, left, j, ⟨hsites, between, hbetween, hquiet⟩, hsame, hloop, hrest⟩ :=
    runs_toLoop (c := c) htoFetch htoLoop loop.sentinel hsites hrest
  have hfetches : ∀ s ∈ Statement.nestedList loop.body, s.ignoresCursors = true ∨
      ∃ inner ∈ s.fetch?, Text.toLower inner.cursor = Text.toLower loop.fetch.cursor :=
    fun s hs => (loop.fetches s hs).imp_right (Exists.imp fun _ hinner =>
      ⟨hinner.1, hinner.2.trans hfetched.symm⟩)
  obtain ⟨looped, targets, problem, guard, round, trouble, hlooped, hleft, hbreak, hround, hrows,
    hsites⟩ := runs_rowLoop (c := (c.enter j).enter 0) hfetches hsites hloop
  rw [hsame, hcursors, CursorTable.get?_put (hfetched.trans hopened.symm)] at hlooped
  obtain rfl := Option.some.inj hlooped
  -- Behind the loop.
  obtain ⟨-, back, hback, hdone⟩ := (delivers_lowerStatements (c := c) (List.nil_subset _)
    admits_remainder _ none).idles hsites hrest
  have honce : loop.GoesOnce c.procedure c.config cursor.iterator
      (front ++ (opening cursor.iterator define call failure ++ [release cursor.iterator]) ++
        (between ++ advanceLoop cursor.iterator targets problem (guard ++ round) trouble)) := by
    refine ⟨⟨front, define, call, failure, between, targets, problem, guard, round, trouble, [], ?_,
      hcall, hbreak, hround⟩, ?_⟩
    · simp
    · rw [rowEvents_append, rowEvents_append between, hstream, hquiet, hrows]
      rfl
  refine ⟨_, _, honce.around hidle hdone, ?_⟩
  rw [hback, hleft, hbetween, hstarted, hfirst]
  simp

/-- **One loop for a cursor.** Take a procedure that declares a cursor over a table in the database,
opens it, fetches a row, goes on as long as fetches succeed, and closes and deallocates the cursor,
with fetches of further rows anywhere inside the loop and no other uses of cursors. Its function has
one call that starts the stream, one deferred call that releases it, and one loop over its rows that
reads each row once, and asks for an error behind the loop. What the loop requires beyond the
success of a fetch is one guard, between the reading of the row and the code of the body. -/
theorem lowers_once (hbody : procedure.body = loop.statements)
    (hsql : (config.backendOf loop.query.source).1 = .sql)
    (h : procedure.lower config = .ok lowered) :
    ∃ iterator, loop.GoesOnce procedure config iterator lowered.function.body := by
  obtain ⟨c, headed, entered, finished, after, hstart, hcursors, hnone, -, hentered, hfinished,
    hfinal, hlines, -⟩ := Procedure.exists_lines h
  obtain ⟨rfl, rfl, hsurvey, hscope⟩ : c.config = config ∧ c.procedure = procedure ∧
      c.survey = .ofProcedure config procedure ∧ c.exitScope = .body := by
    obtain ⟨functionName, verb, rfl⟩ := Context.start_eq_ok hstart
    exact ⟨rfl, rfl, rfl, rfl⟩
  have hreleases (name : String) : c.survey.releasesAtEntry name = false := by
    rw [hsurvey]
    exact Bool.eq_false_iff.mpr fun hname =>
      not_opensInTry hbody name (Procedure.releasesAtEntry_iff.mp hname)
  have hsites : Charter.idle.Sites c.config headed.cursors := by
    rw [hcursors]
    exact List.forall_mem_nil _
  obtain ⟨hsites, lines, hwritten, hquiet⟩ := (delivers_emitPrologue fun name hname =>
    absurd hname (by simp [hreleases])).idles hsites hentered
  rw [hbody] at hfinished
  obtain ⟨iterator, code, honce, hcode⟩ :=
    goesOnce_of_runs (by simp [hscope]) (hreleases _) hsql hsites hfinished
  obtain ⟨-, -, -, back, hback, hlast⟩ := sends_emitFinalReturn hfinal
  refine ⟨iterator, ?_⟩
  have hall : lowered.function.body = lines ++ (code ++ back) := by
    rw [hlines, hback, hcode, hwritten, hnone]
    simp
  rw [hall]
  exact honce.around hquiet (rowEvents_of_nil hlast)

open Build in
/-- A loop over at most ten orders, with two fetches in its body, one of them in a `TRY` half. -/
def orders : RowLoop where
  name := "orders"
  query := (select [col "id"]).readFrom ⟨"Orders", none⟩
  opened := "Orders"
  fetch := ⟨"orders", .next, ["@id"]⟩
  condition := and (eq fetchStatus (int 0)) (lt (var "n") (int 10))
  rest := some (lt (var "n") (int 10))
  body := [.set "@n" (add (var "n") (int 1)), .tryCatch [fetchNext "orders" ["id"]] [],
    fetchNext "ORDERS" ["id"]]
  closed := "orders"
  freed := "orders"
  front := [declare "id" "INT", declare "n" "INT"]
  toOpen := []
  toFetch := []
  toLoop := [.set "@n" (int 0)]
  toClose := []
  toFree := []
  back := []
  names := by decide
  sentinel := rfl
  ignores := by decide
  fetches := by decide

/-- The procedure with the statements of `orders`. -/
def listing : Procedure where
  name := "usp_Listing"
  body := orders.statements

/-- The function of `listing` goes over the rows of its cursor once. -/
theorem listing_lowers_once : ∃ lowered iterator, listing.lower {} = .ok lowered ∧
    listing.body = orders.statements ∧
    (Config.backendOf {} orders.query.source).1 = .sql ∧
    orders.GoesOnce listing {} iterator lowered.function.body := by
  obtain ⟨lowered, hlower⟩ : ∃ lowered, listing.lower {} = .ok lowered :=
    Procedure.exists_lower_eq_ok (by decide +kernel)
  have hbody : listing.body = orders.statements := rfl
  have hsql : (Config.backendOf {} orders.query.source).1 = .sql := rfl
  obtain ⟨iterator, honce⟩ := lowers_once hbody hsql hlower
  exact ⟨lowered, iterator, hlower, hbody, hsql, honce⟩

end RowLoop

end Sproc
