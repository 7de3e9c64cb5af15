import Sproc.Proofs.Lower.Frame
import Sproc.Proofs.Lower.Entry

/-!
# Where a generation stops

A list of statements is treated successfully, or the generation stops in one of them: by the
statement's own doing, or inside one of its parts. What a statement reports by itself has no site
yet, and is about a cursor only if the statement is.

## Main definitions

* `Frame.StopsWith`: the generation stops in the statements of a frame
* `Error.IsOwn`: what a statement reports by itself
* `Statement.concernsCursors`: statements that name a cursor, or loop over one

## Main results

* `fails_lowerChain`, `fails_lowerElse`, `fails_lowerWhile`, `fails_lowerCursorLoop`,
  `fails_lowerTryCatch`: failing statements opened
* `Frame.stopsWith_cons`: a list stops in its first statement or behind it
* `Opens.fails`: a statement stops wherever one of its parts does
* `isOwn_or_stopsWith`: a statement stops by itself or inside one of its parts
-/

namespace Sproc

/-- The generation stops in the statements of a frame. -/
def Frame.StopsWith (frame : Frame) (error : Error) : Prop :=
  ∃ after, (Lower.lowerStatements frame.index frame.prepared frame.statements).Fails frame.context
    frame.progress error after

theorem Frame.succeeds_or_stopsWith (frame : Frame) :
    frame.Succeeds ∨ ∃ error, frame.StopsWith error := by
  obtain ⟨⟨⟩, after, hruns⟩ | ⟨error, after, hfails⟩ := Lower.runs_or_fails
    (Lower.lowerStatements frame.index frame.prepared frame.statements) frame.context frame.progress
  · exact .inl ⟨after, hruns⟩
  · exact .inr ⟨error, after, hfails⟩

/-- Whether a statement names a cursor or loops over one. -/
def Statement.concernsCursors (statement : Statement) : Bool :=
  statement.isCursorUse || statement.isCursorLoop

/-- An error that has no site yet, and is about a cursor only under a condition. -/
structure Error.IsOwn (error : Error) (cursors : Prop) : Prop where
  site : error.site = none
  cursor : error.fault.concernsCursor = true → cursors

/-! ## Steps that report errors of their own -/

/-- The discipline of steps that report errors of their own, and may do whatever they like besides.
Errors about cursors are admitted under a condition. -/
def Discipline.reporting (cursors : Prop) : Discipline where
  keeps _ := True
  writes _ := True
  stable _ _ _ _ _ _ := trivial
  admits error := error.IsOwn cursors
  plain h := ⟨rfl, fun hcursor => by simp [h] at hcursor⟩

namespace Discipline

variable (cursors : Prop) (c : Context)

theorem permissive_reporting : (reporting cursors).Permissive :=
  fun _ => trivial

theorem regular_reporting : (reporting cursors).Regular c :=
  (permissive_reporting cursors).regular

theorem lasting_reporting : (reporting cursors).Lasting :=
  fun _ _ _ _ _ _ _ _ => trivial

theorem ignoresTransaction_reporting : (reporting cursors).IgnoresTransaction :=
  fun _ _ _ => trivial

theorem ignoresCursors_reporting {cursors : Prop} (h : cursors) :
    (reporting cursors).IgnoresCursors where
  outlasts _ _ := trivial
  admits _ _ := ⟨rfl, fun _ => h⟩

end Discipline

open Discipline

namespace Lower

variable {α : Type} {c : Context} {p after : Progress} {rest : List Statement}
  {prepared : Option Fetch} {error : Error}

theorem HasEffect.isOwn {cursors : Prop} {step : Lower α}
    (h : step.HasEffect c (reporting cursors).effect) (hfails : step.Fails c p error after) :
    error.IsOwn cursors :=
  h.fails hfails trivial

theorem isOwn_lowerCondition {cursors : Prop} {condition : Expr}
    (h : (lowerCondition condition).Fails c p error after) : error.IsOwn cursors :=
  (hasEffect_lowerCondition (regular_reporting cursors c).forms condition).isOwn h

theorem isOwn_emitLoopTest {cursors : Prop} {condition : Expr}
    (h : (emitLoopTest condition).Fails c p error after) : error.IsOwn cursors :=
  (hasEffect_emitLoopTest (regular_reporting cursors c).forms condition (hasEffect_emitBreak trivial)).isOwn h

theorem isOwn_emitGuarded {cursors : Prop} {init : Go.Assign}
    (h : (emitGuarded init).Fails c p error after) : error.IsOwn cursors :=
  (hasEffect_emitGuarded (regular_reporting cursors c).forms init).isOwn h

/-! ## Failing statements -/

/-- A chain of conditionals fails in its condition, in its first branch, or in the alternative. -/
theorem fails_lowerChain {condition : Expr} {thenBranch : List Statement}
    {elseBranch : Option (List Statement)} :
    (lowerChain condition thenBranch elseBranch).Fails c p error after ↔
      (lowerCondition condition).Fails c p error after ∨
      ∃ test tested, (lowerCondition condition).Runs c p test tested ∧
        ((lowerStatements 0 none thenBranch).Fails (c.enter 0) tested.opened error after ∨
        ∃ body passed,
          (block (within (Context.enter 0) (lowerStatements 0 none thenBranch))).Runs c tested body
            passed ∧ (lowerElse elseBranch).Fails c passed error after) := by
  simp [lowerChain, fails_bind, fails_block]

theorem fails_ifElse {condition : Expr} {thenBranch : List Statement}
    {elseBranch : Option (List Statement)} :
    (lowerStatement rest prepared (.ifElse condition thenBranch elseBranch)).Fails c p error after ↔
      (lowerChain condition thenBranch elseBranch).Fails c p error after := by
  simp [lowerStatement_ifElse, fails_bind]

/-- An alternative fails where its statements do. -/
theorem fails_lowerElse {elseBranch : List Statement} :
    (lowerElse (some elseBranch)).Fails c p error after ↔
      (lowerStatements 0 none elseBranch).Fails (c.enter 1) (elseStart elseBranch p) error
        after := by
  cases hchain : Statement.continuesChain elseBranch with
  | false => simp [lowerElse_of_not_continuesChain hchain, elseStart, hchain, fails_block]
  | true =>
    obtain ⟨condition, thenBranch, otherwise, rfl, hhoist⟩ :=
      Statement.continuesChain_iff.mp hchain
    simp [lowerElse_of_continuesChain hhoist, elseStart, hchain, lowerStatements, fails_located,
      fails_ifElse, Context.enter, Context.pathText]

theorem fails_while {condition : Expr} {body : List Statement}
    (hcursor : sentinelRest? condition = none) :
    (lowerStatement rest prepared (.while condition body)).Fails c p error after ↔
      (lowerWhile condition (within (Context.enter 0) (lowerStatements 0 none body))).Fails c p
        error after := by
  simp [lowerStatement, hcursor]

/-- A loop fails in its condition or in its body. -/
theorem fails_lowerWhile {condition : Expr} {body : Lower Unit} :
    (lowerWhile condition body).Fails c p error after ↔
      (condition.needsHoist = true ∧
        ((emitLoopTest condition).Fails c.enterLoop p.opened error after ∨
        ∃ tested, (emitLoopTest condition).Runs c.enterLoop p.opened () tested ∧
          body.Fails c.enterLoop tested error after)) ∨
      (condition.needsHoist = false ∧
        ((lowerCondition condition).Fails c p error after ∨
        ∃ test tested, (lowerCondition condition).Runs c p test tested ∧
          body.Fails c.enterLoop tested.opened error after)) := by
  unfold lowerWhile
  cases condition.needsHoist <;> simp [fails_bind, fails_block, Unique.exists_iff]

/-- A loop over a cursor fails without a cursor, or as the loop over its cursor does. -/
theorem fails_cursorLoop {condition : Expr} {body : List Statement} {more : Option Expr}
    (hcursor : sentinelRest? condition = some more) :
    (lowerStatement rest prepared (.while condition body)).Fails c p error after ↔
      (lowerFetchLoop prepared more body (lowerStatements 0 none body)).Fails c p error after := by
  simp [lowerStatement, hcursor]

theorem fails_lowerFetchLoop {more : Option Expr} {statements : List Statement} {body : Lower Unit}
    {fetch : Fetch} (hfetch : prepared.or (Statement.firstFetch? statements) = some fetch) :
    (lowerFetchLoop prepared more statements body).Fails c p error after ↔
      (lowerCursorLoop fetch more body).Fails (c.enter 0) p error after := by
  simp [lowerFetchLoop, hfetch]

/-- A loop over a cursor fails in its fetch, in the start of a round, in its body, or behind it. -/
theorem fails_lowerCursorLoop {fetch : Fetch} {more : Option Expr} {body : Lower Unit} :
    (lowerCursorLoop fetch more body).Fails c p error after ↔
      (fetchIterator fetch).Fails c p error after ∨
      ∃ iterator found, (fetchIterator fetch).Runs c p iterator found ∧
        ((goNames fetch.into).Fails c found error after ∨
        ∃ targets named, (goNames fetch.into).Runs c found targets named ∧
          ((emitRound iterator targets more).Fails (inCursorLoop fetch c) named.opened error after ∨
          ∃ started, (emitRound iterator targets more).Runs (inCursorLoop fetch c) named.opened ()
              started ∧
            (body.Fails (inCursorLoop fetch c) started error after ∨
            ∃ inner, body.Runs (inCursorLoop fetch c) started () inner ∧
              (emitGuarded (assignTo [err] (.invoke iterator "Err" []))).Fails c
                ((named.closed inner).wrote (.loop (some (.invoke iterator "Next" []))
                  inner.output)) error after))) := by
  simp only [lowerCursorLoop, fails_bind, fails_within, fails_block, runs_bind, runs_within,
    runs_block, runs_emit, not_fails_emit, false_or]
  grind

/-- A handler fails at its start or in its statements. -/
theorem fails_emitRecover {catchBody : List Statement} {handler : Lower Unit} :
    (emitRecover catchBody handler).Fails c p error after ↔
      (emitHandlerStart catchBody).Fails c p.opened.opened error after ∨
      ∃ started, (emitHandlerStart catchBody).Runs c p.opened.opened () started ∧
        handler.Fails (inHandler c) started error after := by
  simp [emitRecover, emitIf, fails_bind, fails_block, Unique.exists_iff]

theorem fails_tryCatch {tryBody catchBody : List Statement} :
    (lowerStatement rest prepared (.tryCatch tryBody catchBody)).Fails c p error after ↔
      (lowerTryCatch tryBody catchBody (lowerStatements 0 none tryBody)
        (lowerStatements 0 none catchBody)).Fails c p error after := by
  simp [lowerStatement]

/-- A `TRY` statement fails in its handler, in its protected statements, or around them. -/
theorem fails_lowerTryCatch {tryBody catchBody : List Statement} {attempt handler : Lower Unit} :
    (lowerTryCatch tryBody catchBody attempt handler).Fails c p error after ↔
      (returnFlag? tryBody).Fails c p error after ∨
      ∃ flag flagged, (returnFlag? tryBody).Runs c p flag flagged ∧
        ((emitRecover catchBody handler).Fails c
          { flagged with transaction := handlerTransaction tryBody p.transaction }.opened error
            after ∨
        ∃ handled, (emitRecover catchBody handler).Runs c
            { flagged with transaction := handlerTransaction tryBody p.transaction }.opened ()
            handled ∧
          (attempt.Fails (inTry flag c) { handled with transaction := p.transaction } error after ∨
          ∃ inner, attempt.Runs (inTry flag c) { handled with transaction := p.transaction } ()
              inner ∧
            (emitWayOut flag catchBody).Fails c
              ((flagged.closed { inner with
                transaction := inner.transaction.join handled.transaction }).wrote
                (.closure false inner.output)) error after)) := by
  simp only [lowerTryCatch, setTransaction, fails_bind, fails_within, fails_block, runs_bind,
    runs_get, runs_within, runs_block, runs_emit, runs_modify, not_fails_emit, not_fails_get,
    not_fails_modify, false_or, and_assoc, exists_and_left, exists_eq_left, Unique.exists_iff,
    and_false, exists_false, or_false, existsAndEq, true_and, and_or_left, exists_or, or_assoc]
  rfl

end Lower

/-! ## Lists of statements -/

open Lower

/-- The generation stops in the first statement of a list, whose errors get its site, or behind
it. -/
theorem Frame.stopsWith_cons {c : Context} {index : Nat} {prepared : Option Fetch}
    {statement : Statement} {rest : List Statement} {p : Progress} {error : Error} :
    StopsWith ⟨c, index, prepared, statement :: rest, p⟩ error ↔
      (∃ inner after, (lowerStatement rest prepared statement).Fails (c.enter index) p inner after ∧
        error = inner.located c.procedure.name (c.enter index).pathText) ∨
      ∃ next, Step ⟨c, index, prepared, statement :: rest, p⟩ next ∧ next.StopsWith error := by
  simp only [StopsWith, lowerStatements, fails_bind, fails_within, fails_located, runs_within,
    runs_located]
  constructor
  · rintro ⟨after, ⟨inner, hfails, rfl⟩ | ⟨prepared', middle, hruns, hrest⟩⟩
    · exact .inl ⟨inner, after, hfails, rfl⟩
    · exact .inr ⟨_, .mk hruns, after, hrest⟩
  · rintro (⟨inner, after, hfails, rfl⟩ | ⟨_, ⟨hruns⟩, after, hrest⟩)
    · exact ⟨after, .inl ⟨inner, hfails, rfl⟩⟩
    · exact ⟨after, .inr ⟨_, _, hruns, hrest⟩⟩

theorem Frame.not_stopsWith_nil {c : Context} {index : Nat} {prepared : Option Fetch} {p : Progress}
    {error : Error} : ¬StopsWith ⟨c, index, prepared, [], p⟩ error := by
  rintro ⟨after, hfails⟩
  exact not_fails_pure hfails

/-! ## Statements that stop -/

/-- A statement stops wherever one of its parts does, with the same error. -/
theorem Opens.fails {c : Context} {p : Progress} {rest : List Statement} {prepared : Option Fetch}
    {statement : Statement} {part : Part} {frame : Frame} {error : Error}
    (h : Opens c prepared p statement part frame) (hstops : frame.StopsWith error) :
    ∃ after, (lowerStatement rest prepared statement).Fails c p error after := by
  obtain ⟨after, hstops⟩ := hstops
  refine ⟨after, ?_⟩
  cases h with
  | thenBranch htest =>
    exact fails_ifElse.mpr (fails_lowerChain.mpr (.inr ⟨_, _, htest, .inl hstops⟩))
  | elseBranch htest hthen =>
    exact fails_ifElse.mpr (fails_lowerChain.mpr
      (.inr ⟨_, _, htest, .inr ⟨_, _, hthen, fails_lowerElse.mpr hstops⟩⟩))
  | loop hcursor hhoist htest =>
    exact (fails_while hcursor).mpr (fails_lowerWhile.mpr
      (.inr ⟨hhoist, .inr ⟨_, _, htest, hstops⟩⟩))
  | testedLoop hcursor hhoist htest =>
    exact (fails_while hcursor).mpr (fails_lowerWhile.mpr
      (.inl ⟨hhoist, .inr ⟨_, htest, hstops⟩⟩))
  | cursorLoop hcursor hfetch hiterator htargets hround =>
    refine (fails_cursorLoop hcursor).mpr ((fails_lowerFetchLoop hfetch).mpr ?_)
    exact fails_lowerCursorLoop.mpr (.inr ⟨_, _, hiterator,
      .inr ⟨_, _, htargets, .inr ⟨_, hround, .inl hstops⟩⟩⟩)
  | block => simpa [lowerStatement, fails_bind] using hstops
  | catchHalf hflag hstart =>
    refine fails_tryCatch.mpr (fails_lowerTryCatch.mpr (.inr ⟨_, _, hflag, .inl ?_⟩))
    exact fails_emitRecover.mpr (.inr ⟨_, hstart, hstops⟩)
  | tryHalf hflag hrecover =>
    exact fails_tryCatch.mpr (fails_lowerTryCatch.mpr
      (.inr ⟨_, _, hflag, .inr ⟨_, hrecover, .inl hstops⟩⟩))

section Inversion

variable {c : Context} {p after : Progress} {rest : List Statement} {prepared : Option Fetch}
  {error : Error}

theorem isOwn_or_stopsWith_ifElse {condition : Expr} {thenBranch : List Statement}
    {elseBranch : Option (List Statement)} {cursors : Prop}
    (h : (lowerStatement rest prepared (.ifElse condition thenBranch elseBranch)).Fails c p error
      after) :
    error.IsOwn cursors ∨ ∃ part inner,
      Opens c prepared p (.ifElse condition thenBranch elseBranch) part inner ∧
        inner.StopsWith error := by
  obtain hcondition | ⟨test, tested, htest, hthen | ⟨body, passed, hthen, helse⟩⟩ :=
    fails_lowerChain.mp (fails_ifElse.mp h)
  · exact .inl (isOwn_lowerCondition hcondition)
  · exact .inr ⟨_, _, .thenBranch htest, after, hthen⟩
  · cases elseBranch with
    | none => exact absurd helse not_fails_pure
    | some elseBranch =>
      exact .inr ⟨_, _, .elseBranch htest hthen, after, fails_lowerElse.mp helse⟩

theorem isOwn_or_stopsWith_while {condition : Expr} {body : List Statement}
    (h : (lowerStatement rest prepared (.while condition body)).Fails c p error after) :
    error.IsOwn ((sentinelRest? condition).isSome = true) ∨ ∃ part inner,
      Opens c prepared p (.while condition body) part inner ∧ inner.StopsWith error := by
  cases hcursor : sentinelRest? condition with
  | none =>
    obtain ⟨hhoist, htest | ⟨tested, htest, hbody⟩⟩ |
      ⟨hhoist, htest | ⟨test, tested, htest, hbody⟩⟩ :=
      fails_lowerWhile.mp ((fails_while hcursor).mp h)
    · exact .inl (isOwn_emitLoopTest htest)
    · exact .inr ⟨_, _, .testedLoop hcursor hhoist htest, after, hbody⟩
    · exact .inl (isOwn_lowerCondition htest)
    · exact .inr ⟨_, _, .loop hcursor hhoist htest, after, hbody⟩
  | some more =>
    have hloop := (fails_cursorLoop hcursor).mp h
    have hregular (c : Context) := regular_reporting ((some more).isSome = true) c
    have hcursors : (reporting ((some more).isSome = true)).IgnoresCursors :=
      ignoresCursors_reporting rfl
    cases hfetch : prepared.or (Statement.firstFetch? body) with
    | none =>
      rw [lowerFetchLoop, hfetch] at hloop
      exact .inl ((hasEffect_unsupported _ _).isOwn hloop)
    | some fetch =>
      obtain hiterator | ⟨iterator, found, hiterator, htargets | ⟨targets, named, htargets, hround |
        ⟨started, hround, hbody | ⟨inner, hbody, hcheck⟩⟩⟩⟩ :=
        fails_lowerCursorLoop.mp ((fails_lowerFetchLoop hfetch).mp hloop)
      · exact .inl ((hasEffect_fetchIterator hcursors.admitsCursors fetch).isOwn hiterator)
      · exact .inl ((hasEffect_goNames fetch.into).isOwn htargets)
      · exact .inl ((hasEffect_emitRound (hregular _).forms iterator targets more
          (hasEffect_emitBreak trivial)).isOwn hround)
      · exact .inr ⟨_, _, .cursorLoop hcursor hfetch hiterator htargets hround, after, hbody⟩
      · exact .inl (isOwn_emitGuarded hcheck)

theorem isOwn_or_stopsWith_tryCatch {tryBody catchBody : List Statement} {cursors : Prop}
    (h : (lowerStatement rest prepared (.tryCatch tryBody catchBody)).Fails c p error after) :
    error.IsOwn cursors ∨ ∃ part inner,
      Opens c prepared p (.tryCatch tryBody catchBody) part inner ∧ inner.StopsWith error := by
  have hregular := regular_reporting cursors c
  obtain hflag | ⟨flag, flagged, hflag, hrecover | ⟨handled, hrecover, hattempt |
    ⟨inner, hattempt, hout⟩⟩⟩ := fails_lowerTryCatch.mp (fails_tryCatch.mp h)
  · exact .inl ((hasEffect_returnFlag? hregular.forms tryBody).isOwn hflag)
  · obtain hstart | ⟨started, hstart, hhandler⟩ := fails_emitRecover.mp hrecover
    · exact .inl ((hasEffect_emitHandlerStart hregular.toBasic id catchBody).isOwn hstart)
    · exact .inr ⟨_, _, .catchHalf hflag hstart, after, hhandler⟩
  · exact .inr ⟨_, _, .tryHalf hflag hrecover, after, hattempt⟩
  · exact .inl (((permissive_reporting cursors).emitWayOut flag catchBody).isOwn hout)

/-- A statement that fails does so by itself, or inside one of its parts. -/
theorem isOwn_or_stopsWith {statement : Statement}
    (h : (lowerStatement rest prepared statement).Fails c p error after) :
    error.IsOwn (statement.concernsCursors = true) ∨ ∃ part inner,
      Opens c prepared p statement part inner ∧ inner.StopsWith error := by
  have hpermissive := permissive_reporting (statement.concernsCursors = true)
  cases statement with
  | ifElse condition thenBranch elseBranch => exact isOwn_or_stopsWith_ifElse h
  | «while» condition body => exact isOwn_or_stopsWith_while h
  | block body =>
    refine .inr ⟨_, _, .block, after, ?_⟩
    simpa [lowerStatement, fails_bind] using h
  | tryCatch tryBody catchBody => exact isOwn_or_stopsWith_tryCatch h
  | _ =>
    refine .inl ((hpermissive.lowerLeaf (lasting_reporting _) rest prepared (fun hcursor => ?_)
      (fun _ => ignoresTransaction_reporting _) rfl).isOwn h)
    exact ignoresCursors_reporting (by simp [Statement.concernsCursors, hcursor])

end Inversion

end Sproc
