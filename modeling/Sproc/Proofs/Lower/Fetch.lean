import Sproc.Ast.Build
import Sproc.Proofs.Lower.Frame
import Sproc.Proofs.Lower.Scheme
import Mathlib.Data.List.Forall2

/-!
# Fetches and the loops they drive

A fetch outside of the loops over its cursor either advances the iterator of the cursor where it
stands, or is the advance of the next loop over a cursor in its list. There is one place for a fetch
that has prepared a loop, so a fetch is lost exactly when another one prepares the same loop behind
it: nothing is written for the first, and the loop goes over the rows of the second.

## Main definitions

* `guardedAdvance`, `scanRow`: how a single row is read
* `Frame.NextLoop`: the moment at which the next loop over a cursor is treated
* `Fetch.AdvancesAt`, `Fetch.DrivesAfter`: what becomes of a fetch
* `lastPriming?`, `Fetch.Superseded`: a later fetch prepares the same loop

## Main results

* `Frame.NextLoop.prepared_eq`: the next loop gets the last fetch that prepares it
* `Procedure.superseded_fetch_lost`: a superseded fetch writes nothing, and the loop behind it goes
  over another cursor
* `Procedure.fetch_served_iff`: a fetch is served exactly when it is not superseded
-/

namespace Sproc

open Lower

/-- The statement that reads the current row of an iterator into variables. -/
def scanRow (iterator : String) (targets : List String) (failure : List Go.Stmt) : Go.Stmt :=
  .branch (.mk (some (assignTo [err] (.invoke (.name iterator) "Scan" (addresses targets)))) failed
    failure) [] none

/-- The statement that advances an iterator once and, if there is a row, reads it. -/
def guardedAdvance (iterator : String) (targets : List String) (failure : List Go.Stmt) : Go.Stmt :=
  .branch (.mk none (.invoke (.name iterator) "Next" []) [scanRow iterator targets failure]) [] none

/-- The statements that go over the rows of an iterator: each round starts by reading the row, and
behind the loop the iterator is asked for an error. -/
def advanceLoop (iterator : String) (targets : List String) (failure round problem : List Go.Stmt) :
    List Go.Stmt :=
  [.loop (some (.invoke (.name iterator) "Next" [])) (scanRow iterator targets failure :: round),
    .branch (.mk (some (assignTo [err] (.invoke (.name iterator) "Err" []))) failed problem) [] none]

/-- At some moment, a fetch is about an open cursor with a certain iterator, and the variables it
fetches into have certain Go names. -/
def Fetch.Reads (fetch : Fetch) (p : Progress) (iterator : String) (targets : List String) : Prop :=
  (∃ cursor, p.cursors.get fetch.cursor = .ok cursor ∧ cursor.state = .opened ∧
    cursor.iterator = iterator) ∧
  List.Forall₂ (fun name target => ∃ symbol, p.symbols.get? name = some symbol ∧
    symbol.goName = target) fetch.into targets

namespace Lower

variable {c : Context} {p after : Progress}

/-- A fetch can only advance the iterator of a cursor that is open. -/
theorem runs_fetchIterator {fetch : Fetch} {iterator : Go.Expr}
    (h : (fetchIterator fetch).Runs c p iterator after) :
    after = p ∧ ∃ cursor, p.cursors.get fetch.cursor = .ok cursor ∧ cursor.state = .opened ∧
      iterator = .name cursor.iterator := by
  unfold fetchIterator at h
  dsimp only at h
  split at h
  · simp [runs_bind] at h
  · simp only [getCursor, runs_bind, runs_get, runs_ofExcept] at h
    obtain ⟨cursor, _, ⟨_, _, ⟨rfl, rfl⟩, hcursor, rfl⟩, h⟩ := h
    split at h
    · obtain ⟨_, _, hfail, -⟩ := runs_bind.mp h
      simp [cursorFault] at hfail
    next hopened =>
      obtain ⟨rfl, rfl⟩ := runs_pure.mp h
      exact ⟨rfl, cursor, hcursor, not_not.mp hopened, rfl⟩

/-- What stands in the first of two lists that are related one by one is related to something in the
second. -/
theorem exists_of_forall₂ {α β : Type} {R : α → β → Prop} {first : List α} {second : List β}
    (h : List.Forall₂ R first second) {a : α} (ha : a ∈ first) : ∃ b ∈ second, R a b := by
  induction h with
  | nil => cases ha
  | cons hhead _ ih =>
    rcases List.mem_cons.mp ha with rfl | ha
    · exact ⟨_, List.mem_cons_self, hhead⟩
    · obtain ⟨b, hb, hrelated⟩ := ih ha
      exact ⟨b, List.mem_cons_of_mem _ hb, hrelated⟩

/-- Go names are looked up one by one. -/
theorem runs_goNames {names targets : List String}
    (h : (goNames names).Runs c p targets after) :
    after = p ∧ List.Forall₂ (fun name target => ∃ symbol, p.symbols.get? name = some symbol ∧
      symbol.goName = target) names targets := by
  induction names generalizing targets with
  | nil =>
    obtain ⟨rfl, rfl⟩ := runs_pure.mp h
    exact ⟨rfl, .nil⟩
  | cons name rest ih =>
    simp only [goNames, lookup, runs_bind, runs_get, runs_ofExcept, runs_pure] at h
    obtain ⟨symbol, _, ⟨_, _, ⟨rfl, rfl⟩, hsymbol, rfl⟩, others, _, hothers, rfl, rfl⟩ := h
    obtain ⟨rfl, hrest⟩ := ih hothers
    exact ⟨rfl, .cons ⟨symbol, SymbolTable.lookup_eq_ok_iff.mp hsymbol, rfl⟩ hrest⟩

/-- The iterator and the targets of a fetch that are found are those it reads. -/
theorem reads_of_runs {fetch : Fetch} {iterator : Go.Expr} {targets : List String}
    {found : Progress} (hiterator : (fetchIterator fetch).Runs c p iterator found)
    (htargets : (goNames fetch.into).Runs c found targets after) :
    after = p ∧ ∃ name, iterator = .name name ∧ fetch.Reads p name targets := by
  obtain ⟨rfl, cursor, hcursor, hopened, rfl⟩ := runs_fetchIterator hiterator
  obtain ⟨rfl, hnames⟩ := runs_goNames htargets
  exact ⟨rfl, cursor.iterator, rfl, ⟨cursor, hcursor, hopened, rfl⟩, hnames⟩

/-- A guarded call is one conditional. -/
theorem runs_emitGuarded {init : Go.Assign} (h : (emitGuarded init).Runs c p () after) :
    ∃ failure,
      after.output = p.output ++ [Go.Stmt.branch (.mk (some init) failed failure) [] none] := by
  simp only [emitGuarded, emitIf, runs_bind, runs_block, runs_emit] at h
  obtain ⟨_, _, ⟨inner, -, rfl, rfl⟩, rfl⟩ := h
  exact ⟨inner.output, rfl⟩

/-- A fetch outside of the loops over its cursor writes one guarded advance. -/
theorem runs_fetchRow {fetch : Fetch} (hlooping : Text.toLower fetch.cursor ∉ c.looping)
    (h : (fetchRow fetch).Runs c p () after) :
    ∃ iterator targets failure, fetch.Reads p iterator targets ∧
      after.output = p.output ++ [guardedAdvance iterator targets failure] := by
  simp only [fetchRow, runs_bind, runs_read] at h
  obtain ⟨iterator, found, hiterator, _, _, ⟨rfl, rfl⟩, hadvance⟩ := h
  rw [if_neg (by simpa using hlooping)] at hadvance
  simp only [emitIf, runs_bind, runs_block, runs_emit] at hadvance
  obtain ⟨targets, named, htargets, _, _, ⟨inner, hrow, rfl, rfl⟩, rfl⟩ := hadvance
  obtain ⟨rfl, name, rfl, hreads⟩ := reads_of_runs hiterator htargets
  obtain ⟨failure, hinner⟩ := runs_emitGuarded hrow
  refine ⟨name, targets, failure, hreads, ?_⟩
  simp [Progress.wrote, Progress.closed, guardedAdvance, scanRow, hinner, Progress.opened]

/-- Steps that respect the scheme that asks for nothing only add statements. -/
theorem output_append {step : Lower Unit}
    (hstep : step.HasEffect c (Scheme.free.discipline c).effect) (h : step.Runs c p () after) :
    ∃ added, after.output = p.output ++ added := by
  obtain ⟨-, added, hadded, -⟩ := hstep h trivial
  exact ⟨added, hadded⟩

/-- A loop over a cursor advances the iterator of its cursor and starts each round by reading the
row. -/
theorem output_lowerCursorLoop {fetch : Fetch} {more : Option Expr} {body : List Statement}
    (h : (lowerCursorLoop fetch more (lowerStatements 0 none body)).Runs c p () after) :
    ∃ iterator targets failure round problem, fetch.Reads p iterator targets ∧
      after.output = p.output ++ advanceLoop iterator targets failure round problem := by
  obtain ⟨iterator, targets, found, named, started, inner, hiterator, htargets, hround, hbody,
    hcheck⟩ := runs_lowerCursorLoop h
  obtain ⟨rfl, name, rfl, hreads⟩ := reads_of_runs hiterator htargets
  obtain ⟨_, scanned, hrow, htest⟩ := runs_bind.mp hround
  obtain ⟨failure, hscanned⟩ := runs_emitGuarded hrow
  have hregular : (Scheme.free.discipline (inCursorLoop fetch c)).Regular (inCursorLoop fetch c) :=
    (Scheme.permissive_free _).regular
  obtain ⟨tests, htests⟩ : ∃ tests, started.output = scanned.output ++ tests := by
    cases more with
    | none =>
      obtain ⟨-, rfl⟩ := runs_pure.mp htest
      exact ⟨[], by simp⟩
    | some condition =>
      exact output_append
        (hasEffect_emitLoopTest hregular.forms condition (hasEffect_emitBreak trivial)) htest
  obtain ⟨statements, hstatements⟩ := output_append
    (hasEffect_lowerStatements Scheme.closed_free (fun _ => trivial) trivial 0 none body) hbody
  obtain ⟨problem, hafter⟩ := runs_emitGuarded hcheck
  refine ⟨name, targets, failure, tests ++ statements, problem, hreads, ?_⟩
  simp [hafter, hstatements, htests, hscanned, Progress.wrote, Progress.closed, Progress.opened,
    advanceLoop, scanRow]

end Lower

/-! ## The fetch that a loop gets -/

/-- Whether a fetch prepares the next loop over a cursor among the statements behind it. -/
def Fetch.primes (fetch : Fetch) (rest : List Statement) : Bool :=
  (primesLoop fetch false rest).toOption.getD false

theorem primesLoop_of_primes {fetch : Fetch} {rest : List Statement}
    (h : fetch.primes rest = true) : primesLoop fetch false rest = .ok true := by
  unfold Fetch.primes at h
  cases hprimes : primesLoop fetch false rest with
  | error fault => simp [hprimes, Except.toOption] at h
  | ok primes => simpa [hprimes, Except.toOption] using h

/-- The last fetch in front of the next loop over a cursor that prepares this loop. -/
def lastPriming? : List Statement → Option Fetch
  | [] => none
  | statement :: rest =>
    if statement.isCursorLoop then none
    else (lastPriming? rest).or (statement.fetch?.filter (·.primes rest))

/-- A fetch has prepared a loop, but a later fetch prepares it again. -/
def Fetch.Superseded (fetch : Fetch) (rest : List Statement) : Prop :=
  fetch.primes rest = true ∧ (lastPriming? rest).isSome = true
  deriving Decidable

namespace Frame

/-- The moment at which the next loop over a cursor in the list of a frame is treated. -/
inductive NextLoop : Frame → Frame → Prop
  | here {frame : Frame} {statement : Statement} {rest : List Statement} :
    frame.statements = statement :: rest → statement.isCursorLoop = true → NextLoop frame frame
  | behind {frame next loop : Frame} {statement : Statement} {rest : List Statement} :
    frame.statements = statement :: rest → statement.isCursorLoop = false → frame.Step next →
    NextLoop next loop → NextLoop frame loop

/-- There is at most one next loop. -/
theorem NextLoop.unique {frame loop loop' : Frame} (h : frame.NextLoop loop)
    (h' : frame.NextLoop loop') : loop = loop' := by
  induction h with
  | here hstatements hloop =>
    cases h' with
    | here => rfl
    | behind hstatements' hloop' =>
      obtain ⟨rfl, -⟩ := List.cons.inj (hstatements.symm.trans hstatements')
      simp [hloop] at hloop'
  | behind hstatements hloop hstep _ ih =>
    cases h' with
    | here hstatements' hloop' =>
      obtain ⟨rfl, -⟩ := List.cons.inj (hstatements.symm.trans hstatements')
      simp [hloop] at hloop'
    | behind _ _ hstep' hnext =>
      obtain rfl := hstep.unique hstep'
      exact ih hnext

end Frame

namespace Lower

variable {c : Context} {p after : Progress} {rest : List Statement} {prepared result : Option Fetch}

/-- A fetch among the statements of a list either prepares a loop, and then does nothing else, or
advances its cursor. -/
theorem runs_fetch {fetch : Fetch}
    (h : (lowerStatement rest prepared (.fetch fetch)).Runs c p result after) :
    (fetch.primes rest = true ∧ result = some fetch ∧ after = p) ∨
    (fetch.primes rest = false ∧ result = prepared ∧ (fetchRow fetch).Runs c p () after) := by
  simp only [lowerStatement, runs_bind, runs_ofExcept] at h
  obtain ⟨primes, _, ⟨hprimes, rfl⟩, h⟩ := h
  have hvalue : fetch.primes rest = primes := by simp [Fetch.primes, hprimes, Except.toOption]
  cases primes with
  | true =>
    obtain ⟨rfl, rfl⟩ := runs_pure.mp h
    exact .inl ⟨hvalue, rfl, rfl⟩
  | false =>
    simp only [Bool.false_eq_true, if_false, runs_bind, runs_pure] at h
    obtain ⟨_, _, hrow, rfl, rfl⟩ := h
    exact .inr ⟨hvalue, rfl, hrow⟩

/-- Only fetches prepare loops, and only loops over a cursor use up what is prepared. -/
theorem prepared_of_runs {statement : Statement} (hloop : statement.isCursorLoop = false)
    (h : (lowerStatement rest prepared statement).Runs c p result after) :
    result = (statement.fetch?.filter (·.primes rest)).or prepared := by
  cases statement with
  | fetch f =>
    rcases runs_fetch h with ⟨hprimes, rfl, -⟩ | ⟨hprimes, rfl, -⟩ <;>
      simp [Statement.fetch?, Option.filter, hprimes]
  | «while» condition body =>
    have hcursor : sentinelRest? condition = none := by
      simpa [Statement.isCursorLoop] using hloop
    exact (runs_while hcursor h).2
  | execDynamic => simp [lowerStatement] at h
  | _ =>
    simp only [lowerStatement, runs_bind, runs_pure] at h
    grind [Statement.fetch?]

end Lower

/-- Between a fetch and the loop it prepares there is no other fetch from the same cursor. -/
theorem primesLoop_ne_cursor {fetch other : Fetch} {rowUsed : Bool} {rest : List Statement}
    (h : primesLoop fetch rowUsed rest = .ok true) (hother : lastPriming? rest = some other) :
    Text.sameIgnoringCase other.cursor fetch.cursor = false := by
  induction rest generalizing rowUsed with
  | nil => cases hother
  | cons statement rest ih =>
    cases hloop : statement.isCursorLoop with
    | true => simp [lastPriming?, hloop] at hother
    | false =>
      simp only [primesLoop, hloop, Bool.false_eq_true, if_false] at h
      split at h
      · cases h
      next huse =>
        simp only [lastPriming?, hloop, Bool.false_eq_true, if_false, Option.or_eq_some_iff] at hother
        rcases hother with hother | ⟨-, hother⟩
        · exact ih h hother
        · obtain ⟨hfetch, -⟩ := Option.filter_eq_some_iff.mp hother
          cases statement with
          | fetch f =>
            obtain rfl := Option.some.inj hfetch
            simp_all [Statement.usesCursor, Statement.nested, Statement.cursorName?]
          | _ => cases hfetch

namespace Frame

/-- The next loop gets the last fetch in front of it that prepares it, or else what was prepared
before. -/
theorem NextLoop.prepared_eq {frame loop : Frame} (h : frame.NextLoop loop) :
    loop.prepared = (lastPriming? frame.statements).or frame.prepared := by
  induction h with
  | here hstatements hloop => simp [hstatements, lastPriming?, hloop]
  | @behind frame next loop statement rest hstatements hloop hstep _ ih =>
    cases hstep with
    | mk hruns =>
      obtain ⟨rfl, rfl⟩ := List.cons.inj hstatements
      rw [ih, prepared_of_runs hloop hruns]
      simp [lastPriming?, hloop, Option.or_assoc]

/-- The loop that a fetch prepares is reached. -/
theorem exists_nextLoop {frame : Frame} (hframe : frame.Succeeds) {fetch : Fetch} {rowUsed : Bool}
    (h : primesLoop fetch rowUsed frame.statements = .ok true) :
    ∃ loop, frame.NextLoop loop ∧ loop.Succeeds := by
  obtain ⟨c, index, prepared, statements, p⟩ := frame
  induction statements generalizing index prepared p rowUsed with
  | nil => cases h
  | cons statement rest ih =>
    cases hloop : statement.isCursorLoop with
    | true => exact ⟨_, .here rfl hloop, hframe⟩
    | false =>
      simp only [primesLoop, hloop, Bool.false_eq_true, if_false] at h
      split at h
      · cases h
      obtain ⟨prepared', middle, hruns, hsucceeds⟩ := succeeds_cons.mp hframe
      obtain ⟨loop, hnext, hloopSucceeds⟩ := ih _ _ _ hsucceeds h
      exact ⟨loop, .behind rfl hloop (.mk hruns) hnext, hloopSucceeds⟩

/-- The frame that a next loop is about has a loop over a cursor in front. -/
theorem NextLoop.statements_eq {frame loop : Frame} (h : frame.NextLoop loop) :
    ∃ condition more body rest, sentinelRest? condition = some more ∧
      loop.statements = .while condition body :: rest := by
  induction h with
  | @here frame statement rest hstatements hloop =>
    cases statement with
    | «while» condition body =>
      obtain ⟨more, hmore⟩ := Option.isSome_iff_exists.mp hloop
      exact ⟨condition, more, body, rest, hmore, hstatements⟩
    | _ => cases hloop
  | behind _ _ _ _ ih => exact ih

end Frame

/-! ## What becomes of a fetch -/

/-- The code of a fetch, which is the first statement of a frame, is one guarded advance of the
iterator of its cursor. -/
def Fetch.AdvancesAt (fetch : Fetch) (frame : Frame) : Prop :=
  ∃ next iterator targets failure, frame.Step next ∧ fetch.Reads frame.progress iterator targets ∧
    next.progress.output = frame.progress.output ++ [guardedAdvance iterator targets failure]

/-- A fetch has prepared a loop over a cursor, which is the first statement of a frame, and the code
of the loop goes over the rows of its cursor and reads each into its variables. -/
def Fetch.Drives (fetch : Fetch) (loop : Frame) : Prop :=
  loop.prepared = some fetch ∧ ∃ next iterator targets failure round problem, loop.Step next ∧
    fetch.Reads loop.progress iterator targets ∧
    next.progress.output = loop.progress.output ++ advanceLoop iterator targets failure round problem

/-- A fetch drives the next loop over a cursor in its list. -/
def Fetch.DrivesAfter (fetch : Fetch) (frame : Frame) : Prop :=
  ∃ loop, frame.NextLoop loop ∧ fetch.Drives loop

/-- The fetch that is prepared where a loop over a cursor is treated drives it. -/
theorem Frame.NextLoop.drives {frame loop : Frame} {fetch : Fetch} (h : frame.NextLoop loop)
    (hloop : loop.Succeeds) (hprepared : loop.prepared = some fetch) : fetch.Drives loop := by
  obtain ⟨condition, more, body, rest, hmore, hstatements⟩ := h.statements_eq
  obtain ⟨c, index, prepared, statements, p⟩ := loop
  obtain rfl : prepared = some fetch := hprepared
  obtain rfl : statements = .while condition body :: rest := hstatements
  obtain ⟨prepared', middle, hruns, -⟩ := Frame.succeeds_cons.mp hloop
  obtain ⟨-, driver, hdriver, hcursor⟩ := runs_cursorLoop hmore hruns
  obtain rfl : fetch = driver := Option.some.inj hdriver
  obtain ⟨iterator, targets, failure, round, problem, hreads, houtput⟩ :=
    output_lowerCursorLoop hcursor
  exact ⟨rfl, _, iterator, targets, failure, round, problem, .mk hruns, hreads, houtput⟩

/-- Nothing is written for a fetch that is superseded, and the loop behind it goes over the rows of
another cursor. -/
theorem Procedure.superseded_fetch_lost {procedure : Procedure} {config : Config}
    {lowered : LoweredProcedure} (h : procedure.lower config = .ok lowered) {frame : Frame}
    (hvisits : procedure.Visits config frame) {fetch : Fetch} {rest : List Statement}
    (hstatements : frame.statements = .fetch fetch :: rest) (hsuperseded : fetch.Superseded rest) :
    (∃ next, frame.Step next ∧ next.progress = frame.progress) ∧
    ∃ loop, ∃ other : Fetch, frame.NextLoop loop ∧ other.Drives loop ∧
      Text.sameIgnoringCase other.cursor fetch.cursor = false := by
  have hframe := hvisits.succeeds h
  obtain ⟨c, index, prepared, statements, p⟩ := frame
  obtain rfl : statements = .fetch fetch :: rest := hstatements
  obtain ⟨prepared', middle, hruns, hsucceeds⟩ := Frame.succeeds_cons.mp hframe
  obtain ⟨hprimes, hagain⟩ := hsuperseded
  obtain ⟨other, hother⟩ := Option.isSome_iff_exists.mp hagain
  rcases runs_fetch hruns with ⟨-, rfl, rfl⟩ | ⟨hprimes', -⟩
  · obtain ⟨loop, hnext, hloop⟩ := Frame.exists_nextLoop hsucceeds (primesLoop_of_primes hprimes)
    have hprepared : loop.prepared = some other := by simp [hnext.prepared_eq, hother]
    exact ⟨⟨_, .mk hruns, rfl⟩, loop, other, .behind rfl rfl (.mk hruns) hnext,
      hnext.drives hloop hprepared, primesLoop_ne_cursor (primesLoop_of_primes hprimes) hother⟩
  · simp [hprimes] at hprimes'

/-- A fetch outside of the loops over its cursor is served, by an advance where it stands or by the
next loop over a cursor in its list, exactly when no later fetch prepares the loop that it has
prepared. -/
theorem Procedure.fetch_served_iff {procedure : Procedure} {config : Config}
    {lowered : LoweredProcedure} (h : procedure.lower config = .ok lowered) {frame : Frame}
    (hvisits : procedure.Visits config frame) {fetch : Fetch} {rest : List Statement}
    (hstatements : frame.statements = .fetch fetch :: rest)
    (hlooping : Text.toLower fetch.cursor ∉ frame.context.looping) :
    fetch.AdvancesAt frame ∨ fetch.DrivesAfter frame ↔ ¬ fetch.Superseded rest := by
  constructor
  · intro hserved hsuperseded
    obtain ⟨⟨next, hstep, hprogress⟩, loop, other, hnext, hdrives, hcursor⟩ :=
      Procedure.superseded_fetch_lost h hvisits hstatements hsuperseded
    obtain ⟨next', iterator, targets, failure, hstep', -, houtput⟩ | ⟨loop', hnext', hdrives'⟩ :=
      hserved
    · obtain rfl := hstep.unique hstep'
      simp [hprogress] at houtput
    · obtain rfl := hnext.unique hnext'
      obtain rfl : other = fetch := Option.some.inj (hdrives.1.symm.trans hdrives'.1)
      simp [Text.sameIgnoringCase] at hcursor
  · intro hsuperseded
    have hframe := hvisits.succeeds h
    obtain ⟨c, index, prepared, statements, p⟩ := frame
    obtain rfl : statements = .fetch fetch :: rest := hstatements
    obtain ⟨prepared', middle, hruns, hsucceeds⟩ := Frame.succeeds_cons.mp hframe
    rcases runs_fetch hruns with ⟨hprimes, rfl, rfl⟩ | ⟨-, rfl, hrow⟩
    · -- Nothing supersedes the fetch, so that the loop still finds it prepared.
      obtain ⟨loop, hnext, hloop⟩ := Frame.exists_nextLoop hsucceeds (primesLoop_of_primes hprimes)
      have hlast : lastPriming? rest = none := by simpa [Fetch.Superseded, hprimes] using hsuperseded
      have hprepared : loop.prepared = some fetch := by simp [hnext.prepared_eq, hlast]
      exact .inr ⟨loop, .behind rfl rfl (.mk hruns) hnext, hnext.drives hloop hprepared⟩
    · obtain ⟨iterator, targets, failure, hreads, houtput⟩ := runs_fetchRow (c := c.enter index) hlooping hrow
      exact .inl ⟨_, iterator, targets, failure, .mk hruns, hreads, houtput⟩

/-- Each statement of the body of a procedure itself is treated outside of all loops. -/
theorem Procedure.exists_visits_split {procedure : Procedure} {config : Config}
    {lowered : LoweredProcedure} (h : procedure.lower config = .ok lowered)
    {front rest : List Statement} (hbody : procedure.body = front ++ rest) :
    ∃ frame, procedure.Visits config frame ∧ frame.statements = rest ∧
      frame.context.looping = [] := by
  obtain ⟨first, hfirst, hsucceeds⟩ := Procedure.exists_begins h
  obtain ⟨functionName, verb, hcontext⟩ := Context.start_eq_ok hfirst.1
  obtain ⟨frame, hpath, hstatements, hsame, -⟩ :=
    Frame.exists_reflTransGen_step hsucceeds (hfirst.2.2.2.2.trans hbody)
  refine ⟨frame, ⟨first, hfirst, Frame.reflTransGen_next_of_step hpath⟩, hstatements, ?_⟩
  rw [hsame, hcontext]

/-- A procedure that fetches from two cursors in front of a loop, which is about the second. -/
def Procedure.twoCursors : Procedure where
  name := "usp_Two"
  params := []
  body := [Build.declare "x" "INT", Build.declare "y" "INT",
    .declareCursor "a" ((Build.select [Build.col "id"]).readFrom ⟨"t", none⟩),
    .declareCursor "b" ((Build.select [Build.col "id"]).readFrom ⟨"u", none⟩),
    .openCursor "a", .openCursor "b", .fetch ⟨"a", .next, ["@x"]⟩, .fetch ⟨"b", .next, ["@y"]⟩,
    .while (Build.eq Build.fetchStatus (Build.int 0))
      [.print (Build.var "y"), Build.fetchNext "b" ["y"]]]

/-- The second fetch of `Procedure.twoCursors` supersedes the first, which is not served. -/
theorem Procedure.twoCursors_first_fetch_lost :
    (Procedure.twoCursors.lower {}).isOk = true ∧
      ∃ frame, Procedure.twoCursors.Visits {} frame ∧
        frame.statements = .fetch ⟨"a", .next, ["@x"]⟩ :: Procedure.twoCursors.body.drop 7 ∧
        ¬ (Fetch.AdvancesAt ⟨"a", .next, ["@x"]⟩ frame ∨
          Fetch.DrivesAfter ⟨"a", .next, ["@x"]⟩ frame) := by
  have hok : (Procedure.twoCursors.lower {}).isOk = true := by decide +kernel
  refine ⟨hok, ?_⟩
  obtain ⟨lowered, hlower⟩ := Procedure.exists_lower_eq_ok hok
  obtain ⟨frame, hvisits, hstatements, hlooping⟩ :=
    Procedure.exists_visits_split hlower (List.take_append_drop 6 _).symm
  refine ⟨frame, hvisits, hstatements, ?_⟩
  rw [Procedure.fetch_served_iff hlower hvisits hstatements (by simp [hlooping])]
  decide +kernel

end Sproc
