import Sproc.Proofs.Lower.Run
import Mathlib.Logic.Relation

/-!
# Frames

A frame is a moment of a generation at which a list of statements is about to be turned into Go. The
statements are treated in order, and a statement opens further frames for its branches, bodies and
halves. The frames that can be reached from the one of a procedure's body are exactly the moments at
which the generation of the procedure treats its statements, with all the knowledge that it has
there.

## Main definitions

* `Frame`, `Frame.Succeeds`
* `Part`, `Statement.part?`: the lists of statements of a statement
* `Opens`: a statement, treated at some moment, opens a frame for one of its parts
* `Frame.Next`, `Procedure.Visits`: the frames of a procedure

## Main results

* `Opens.unique`: there is at most one frame for a part
* `exists_opens`: a statement that is treated successfully opens a frame for each of its parts, and
  its statements are treated successfully as well
* `Procedure.exists_visits`: a procedure has a frame for each of its statements
* `Procedure.Visits.succeeds`: the statements of every frame of a procedure are treated successfully
-/

namespace Sproc

/-- A list of statements that is about to be turned into Go: where it stands, the index of its first
statement, the fetch that has prepared a later loop, and what has been produced so far. -/
structure Frame where
  context : Context
  index : Nat
  prepared : Option Fetch
  statements : List Statement
  progress : Progress

/-- The parts of a statement that hold statements. -/
inductive Part where
  | thenBranch
  | elseBranch
  | body
  | tryHalf
  | catchHalf
  deriving DecidableEq, Repr

/-- The statements of a part, if a statement has it. -/
def Statement.part? : Statement → Part → Option (List Statement)
  | .ifElse _ thenBranch _, .thenBranch => some thenBranch
  | .ifElse _ _ elseBranch, .elseBranch => elseBranch
  | .while _ body, .body => some body
  | .block body, .body => some body
  | .tryCatch tryBody _, .tryHalf => some tryBody
  | .tryCatch _ catchBody, .catchHalf => some catchBody
  | _, _ => none

namespace Frame

/-- The context of the first statement. -/
def here (frame : Frame) : Context :=
  frame.context.enter frame.index

/-- All statements of the frame are turned into Go. -/
def Succeeds (frame : Frame) : Prop :=
  ∃ after, (Lower.lowerStatements frame.index frame.prepared frame.statements).Runs frame.context
    frame.progress () after

end Frame

/-- The progress at which an alternative starts: one that continues a chain of conditionals has no Go
block of its own. -/
def elseStart (elseBranch : List Statement) (p : Progress) : Progress :=
  if Statement.continuesChain elseBranch then p else p.opened

open Lower in
/-- A statement that is treated in a context, with a fetch that has prepared a later loop and with
some progress, opens a frame for one of its parts. Each rule runs what the generation does in front
of the part. -/
inductive Opens (c : Context) (prepared : Option Fetch) (p : Progress) :
    Statement → Part → Frame → Prop
  | thenBranch {condition : Expr} {thenBranch : List Statement}
    {elseBranch : Option (List Statement)} {test : Go.Expr} {tested : Progress} :
    (lowerCondition condition).Runs c p test tested →
    Opens c prepared p (.ifElse condition thenBranch elseBranch) .thenBranch
      ⟨c.enter 0, 0, none, thenBranch, tested.opened⟩
  | elseBranch {condition : Expr} {thenBranch elseBranch : List Statement} {test : Go.Expr}
    {body : List Go.Stmt} {tested passed : Progress} :
    (lowerCondition condition).Runs c p test tested →
    (block (within (Context.enter 0) (lowerStatements 0 none thenBranch))).Runs c tested body
      passed →
    Opens c prepared p (.ifElse condition thenBranch (some elseBranch)) .elseBranch
      ⟨c.enter 1, 0, none, elseBranch, elseStart elseBranch passed⟩
  | loop {condition : Expr} {body : List Statement} {test : Go.Expr} {tested : Progress} :
    sentinelRest? condition = none → condition.needsHoist = false →
    (lowerCondition condition).Runs c p test tested →
    Opens c prepared p (.while condition body) .body
      ⟨c.enterLoop.enter 0, 0, none, body, tested.opened⟩
  /-- A condition that depends on a query is tested inside the loop. -/
  | testedLoop {condition : Expr} {body : List Statement} {tested : Progress} :
    sentinelRest? condition = none → condition.needsHoist = true →
    (emitLoopTest condition).Runs c.enterLoop p.opened () tested →
    Opens c prepared p (.while condition body) .body
      ⟨c.enterLoop.enter 0, 0, none, body, tested⟩
  | cursorLoop {condition : Expr} {body : List Statement} {more : Option Expr} {fetch : Fetch}
    {iterator : Go.Expr} {targets : List String} {found named started : Progress} :
    sentinelRest? condition = some more →
    prepared.or (Statement.firstFetch? body) = some fetch →
    (fetchIterator fetch).Runs (c.enter 0) p iterator found →
    (goNames fetch.into).Runs (c.enter 0) found targets named →
    (emitRound iterator targets more).Runs (inCursorLoop fetch (c.enter 0)) named.opened ()
      started →
    Opens c prepared p (.while condition body) .body
      ⟨inCursorLoop fetch (c.enter 0), 0, none, body, started⟩
  | block {body : List Statement} :
    Opens c prepared p (.block body) .body ⟨c, 0, none, body, p⟩
  | catchHalf {tryBody catchBody : List Statement} {flag : Option String}
    {flagged started : Progress} :
    (returnFlag? tryBody).Runs c p flag flagged →
    (emitHandlerStart catchBody).Runs c
      { flagged with
        transaction := handlerTransaction tryBody p.transaction }.opened.opened.opened () started →
    Opens c prepared p (.tryCatch tryBody catchBody) .catchHalf
      ⟨inHandler c, 0, none, catchBody, started⟩
  | tryHalf {tryBody catchBody : List Statement} {flag : Option String}
    {flagged handled : Progress} :
    (returnFlag? tryBody).Runs c p flag flagged →
    (emitRecover catchBody (lowerStatements 0 none catchBody)).Runs c
      { flagged with transaction := handlerTransaction tryBody p.transaction }.opened () handled →
    Opens c prepared p (.tryCatch tryBody catchBody) .tryHalf
      ⟨inTry flag c, 0, none, tryBody, { handled with transaction := p.transaction }⟩

namespace Opens

variable {c : Context} {prepared : Option Fetch} {p : Progress} {statement : Statement}
  {part : Part} {frame frame' : Frame}

/-- A frame that a statement opens is about the statements of one of its parts. -/
theorem part?_eq (h : Opens c prepared p statement part frame) :
    statement.part? part = some frame.statements := by
  cases h <;> rfl

/-- A statement opens at most one frame for each of its parts. -/
theorem unique (h : Opens c prepared p statement part frame)
    (h' : Opens c prepared p statement part frame') : frame = frame' := by
  cases h with
  | thenBranch htest =>
    cases h' with
    | thenBranch htest' =>
      obtain ⟨-, rfl⟩ := htest.unique htest'
      rfl
  | elseBranch htest hthen =>
    cases h' with
    | elseBranch htest' hthen' =>
      obtain ⟨-, rfl⟩ := htest.unique htest'
      obtain ⟨-, rfl⟩ := hthen.unique hthen'
      rfl
  | loop hrest hhoist htest =>
    cases h' with
    | loop _ _ htest' =>
      obtain ⟨-, rfl⟩ := htest.unique htest'
      rfl
    | testedLoop _ hhoist' _ => simp [hhoist] at hhoist'
    | cursorLoop hrest' => simp [hrest] at hrest'
  | testedLoop hrest hhoist htest =>
    cases h' with
    | loop _ hhoist' _ => simp [hhoist] at hhoist'
    | testedLoop _ _ htest' =>
      obtain ⟨-, rfl⟩ := htest.unique htest'
      rfl
    | cursorLoop hrest' => simp [hrest] at hrest'
  | cursorLoop hrest hfetch hiterator htargets hround =>
    cases h' with
    | loop hrest' => simp [hrest] at hrest'
    | testedLoop hrest' => simp [hrest] at hrest'
    | cursorLoop hrest' hfetch' hiterator' htargets' hround' =>
      obtain rfl := Option.some.inj (hrest.symm.trans hrest')
      obtain rfl := Option.some.inj (hfetch.symm.trans hfetch')
      obtain ⟨rfl, rfl⟩ := hiterator.unique hiterator'
      obtain ⟨rfl, rfl⟩ := htargets.unique htargets'
      obtain ⟨-, rfl⟩ := hround.unique hround'
      rfl
  | block =>
    cases h' with
    | block => rfl
  | catchHalf hflag hstart =>
    cases h' with
    | catchHalf hflag' hstart' =>
      obtain ⟨rfl, rfl⟩ := hflag.unique hflag'
      obtain ⟨-, rfl⟩ := hstart.unique hstart'
      rfl
  | tryHalf hflag hrecover =>
    cases h' with
    | tryHalf hflag' hrecover' =>
      obtain ⟨rfl, rfl⟩ := hflag.unique hflag'
      obtain ⟨-, rfl⟩ := hrecover.unique hrecover'
      rfl

end Opens

/-! ## What successful statements do -/

namespace Lower

variable {c : Context} {p after : Progress} {rest : List Statement} {prepared result : Option Fetch}

/-- A chain of conditionals tests its condition, treats its first branch in a block, and goes on
with the alternative. -/
theorem runs_lowerChain {condition : Expr} {thenBranch : List Statement}
    {elseBranch : Option (List Statement)} {chain : Go.Arm × List Go.Arm × Option (List Go.Stmt)}
    (h : (lowerChain condition thenBranch elseBranch).Runs c p chain after) :
    ∃ test tested inner, (lowerCondition condition).Runs c p test tested ∧
      (lowerStatements 0 none thenBranch).Runs (c.enter 0) tested.opened () inner ∧
      (lowerElse elseBranch).Runs c (tested.closed inner) chain.2 after ∧
      chain.1 = .mk none test inner.output := by
  simp only [lowerChain, runs_bind, runs_block, runs_within, runs_pure] at h
  obtain ⟨test, tested, htest, _, _, ⟨inner, hinner, rfl, rfl⟩, _, _, helse, rfl, rfl⟩ := h
  exact ⟨test, tested, inner, htest, hinner, helse, rfl⟩

theorem runs_ifElse {condition : Expr} {thenBranch : List Statement}
    {elseBranch : Option (List Statement)}
    (h : (lowerStatement rest prepared (.ifElse condition thenBranch elseBranch)).Runs c p result
      after) :
    ∃ chain passed, (lowerChain condition thenBranch elseBranch).Runs c p chain passed ∧
      after = passed.wrote (.branch chain.1 chain.2.1 chain.2.2) ∧ result = prepared := by
  rw [lowerStatement_ifElse] at h
  simp only [runs_bind, runs_emit, runs_pure] at h
  obtain ⟨chain, passed, hchain, _, _, rfl, rfl, rfl⟩ := h
  exact ⟨chain, passed, hchain, rfl, rfl⟩

/-- An alternative is treated like any list of statements, and leaves what is known about the
transaction and the cursors as its statements leave it, and records no warnings beside theirs. -/
theorem runs_lowerElse {elseBranch : List Statement}
    {arms : List Go.Arm × Option (List Go.Stmt)}
    (h : (lowerElse (some elseBranch)).Runs c p arms after) :
    ∃ inner, (lowerStatements 0 none elseBranch).Runs (c.enter 1) (elseStart elseBranch p) ()
      inner ∧ after.transaction = inner.transaction ∧ after.cursors = inner.cursors ∧
      after.warnings = inner.warnings := by
  cases hchain : Statement.continuesChain elseBranch with
  | false =>
    rw [lowerElse_of_not_continuesChain hchain] at h
    simp only [runs_bind, runs_block, runs_within, runs_pure] at h
    obtain ⟨_, _, ⟨inner, hinner, -, rfl⟩, -, rfl⟩ := h
    refine ⟨inner, ?_, rfl, rfl, rfl⟩
    simpa [elseStart, hchain] using hinner
  | true =>
    obtain ⟨condition, thenBranch, otherwise, rfl, hhoist⟩ :=
      Statement.continuesChain_iff.mp hchain
    rw [lowerElse_of_continuesChain hhoist] at h
    simp only [runs_within, runs_located, runs_bind, runs_pure] at h
    obtain ⟨⟨first, others, last⟩, _, hruns, -, rfl⟩ := h
    refine ⟨after.wrote (.branch first others last), ?_, rfl, rfl, rfl⟩
    simp only [lowerStatements, lowerStatement_ifElse, runs_bind, runs_within, runs_located,
      runs_emit, runs_pure, elseStart, hchain, if_true]
    exact ⟨none, _, ⟨_, _, hruns, (), _, rfl, rfl, rfl⟩, trivial, rfl⟩

theorem runs_while {condition : Expr} {body : List Statement}
    (hcursor : sentinelRest? condition = none)
    (h : (lowerStatement rest prepared (.while condition body)).Runs c p result after) :
    (lowerWhile condition (within (Context.enter 0) (lowerStatements 0 none body))).Runs c p ()
      after ∧ result = prepared := by
  rw [lowerStatement, hcursor] at h
  simp only [runs_bind, runs_pure] at h
  obtain ⟨_, _, hruns, rfl, rfl⟩ := h
  exact ⟨hruns, rfl⟩

/-- A loop tests its condition in front of the loop or at the start of each round. -/
theorem runs_lowerWhile {condition : Expr} {body : Lower Unit}
    (h : (lowerWhile condition body).Runs c p () after) :
    (condition.needsHoist = true ∧ ∃ tested inner,
      (emitLoopTest condition).Runs c.enterLoop p.opened () tested ∧
      body.Runs c.enterLoop tested () inner ∧
      after = (p.closed inner).wrote (.loop none inner.output)) ∨
    (condition.needsHoist = false ∧ ∃ test tested inner,
      (lowerCondition condition).Runs c p test tested ∧
      body.Runs c.enterLoop tested.opened () inner ∧
      after = (tested.closed inner).wrote (.loop (some test) inner.output)) := by
  unfold lowerWhile at h
  cases hhoist : condition.needsHoist with
  | true =>
    simp only [hhoist, if_true, runs_bind, runs_within, runs_block, runs_emit] at h
    obtain ⟨_, _, ⟨inner, ⟨_, tested, htest, hbody⟩, rfl, rfl⟩, rfl⟩ := h
    exact .inl ⟨rfl, tested, inner, htest, hbody, rfl⟩
  | false =>
    simp only [hhoist, Bool.false_eq_true, if_false, runs_bind, runs_within, runs_block,
      runs_emit] at h
    obtain ⟨test, tested, htest, _, _, ⟨inner, hbody, rfl, rfl⟩, rfl⟩ := h
    exact .inr ⟨rfl, test, tested, inner, htest, hbody, rfl⟩

/-- A loop over a cursor is driven by the fetch that has prepared it, or else by the first fetch
inside it. -/
theorem runs_cursorLoop {condition : Expr} {body : List Statement} {more : Option Expr}
    (hcursor : sentinelRest? condition = some more)
    (h : (lowerStatement rest prepared (.while condition body)).Runs c p result after) :
    result = none ∧ ∃ fetch, prepared.or (Statement.firstFetch? body) = some fetch ∧
      (lowerCursorLoop fetch more (lowerStatements 0 none body)).Runs (c.enter 0) p () after := by
  rw [lowerStatement, hcursor] at h
  simp only [runs_bind, runs_pure, lowerFetchLoop] at h
  obtain ⟨_, _, hruns, rfl, rfl⟩ := h
  refine ⟨rfl, ?_⟩
  cases hfetch : prepared.or (Statement.firstFetch? body) with
  | none => simp [hfetch] at hruns
  | some fetch =>
    rw [hfetch] at hruns
    exact ⟨fetch, rfl, hruns⟩

theorem runs_lowerCursorLoop {fetch : Fetch} {more : Option Expr} {body : Lower Unit}
    (h : (lowerCursorLoop fetch more body).Runs c p () after) :
    ∃ iterator targets found named started inner,
      (fetchIterator fetch).Runs c p iterator found ∧
      (goNames fetch.into).Runs c found targets named ∧
      (emitRound iterator targets more).Runs (inCursorLoop fetch c) named.opened () started ∧
      body.Runs (inCursorLoop fetch c) started () inner ∧
      (emitGuarded (assignTo [err] (.invoke iterator "Err" []))).Runs c
        ((named.closed inner).wrote (.loop (some (.invoke iterator "Next" [])) inner.output)) ()
        after := by
  simp only [lowerCursorLoop, runs_bind, runs_within, runs_block, runs_emit] at h
  obtain ⟨iterator, found, hiterator, targets, named, htargets, _, _,
    ⟨inner, ⟨_, started, hround, hbody⟩, rfl, rfl⟩, _, _, rfl, hcheck⟩ := h
  exact ⟨iterator, targets, found, named, started, inner, hiterator, htargets, hround, hbody,
    hcheck⟩

theorem runs_blockStatement {body : List Statement}
    (h : (lowerStatement rest prepared (.block body)).Runs c p result after) :
    (lowerStatements 0 none body).Runs c p () after ∧ result = prepared := by
  rw [lowerStatement] at h
  simp only [runs_bind, runs_pure] at h
  obtain ⟨_, _, hruns, rfl, rfl⟩ := h
  exact ⟨hruns, rfl⟩

/-- A handler is treated in three nested blocks: the literal, the deferred literal inside it, and
the branch for a failure. -/
theorem runs_emitRecover {catchBody : List Statement} {handler : Lower Unit}
    (h : (emitRecover catchBody handler).Runs c p () after) :
    ∃ started caught, (emitHandlerStart catchBody).Runs c p.opened.opened () started ∧
      handler.Runs (inHandler c) started () caught ∧ after.transaction = caught.transaction ∧
      after.output = p.output ++ [Go.Stmt.closure true [.branch (.mk
        (some ⟨[.name "r"], true, .call (.name "recover") []⟩) (.binary "!=" (.name "r") .nil)
          caught.output) [] none]] ∧ after.warnings = caught.warnings := by
  simp only [emitRecover, emitIf, runs_bind, runs_block, runs_within, runs_emit] at h
  obtain ⟨_, _, ⟨_, ⟨_, _, ⟨caught, ⟨_, started, hstart, hhandler⟩, rfl, rfl⟩, rfl⟩, rfl, rfl⟩,
    rfl⟩ := h
  exact ⟨started, caught, hstart, hhandler, rfl, rfl, rfl⟩

theorem runs_tryCatch {tryBody catchBody : List Statement}
    (h : (lowerStatement rest prepared (.tryCatch tryBody catchBody)).Runs c p result after) :
    result = prepared ∧ (lowerTryCatch tryBody catchBody (lowerStatements 0 none tryBody)
      (lowerStatements 0 none catchBody)).Runs c p () after := by
  rw [lowerStatement] at h
  simp only [runs_bind, runs_pure] at h
  obtain ⟨_, _, hruns, rfl, rfl⟩ := h
  exact ⟨rfl, hruns⟩

/-- In a `TRY` statement the handler is treated first, from what is known where it may start; then
the protected statements, from what is known in front of the statement. -/
theorem runs_lowerTryCatch {tryBody catchBody : List Statement} {attempt handler : Lower Unit}
    (h : (lowerTryCatch tryBody catchBody attempt handler).Runs c p () after) :
    ∃ flag flagged handled inner, (returnFlag? tryBody).Runs c p flag flagged ∧
      (emitRecover catchBody handler).Runs c
        { flagged with transaction := handlerTransaction tryBody p.transaction }.opened ()
        handled ∧
      attempt.Runs (inTry flag c) { handled with transaction := p.transaction } () inner ∧
      ∃ literal, (emitWayOut flag catchBody).Runs c literal () after ∧
        literal.transaction = inner.transaction.join handled.transaction ∧
        literal.output = flagged.output ++ [Go.Stmt.closure false inner.output] ∧
        literal.symbols = inner.symbols ∧ literal.cursors = inner.cursors ∧
        literal.warnings = inner.warnings ∧
        literal = (flagged.closed { inner with
          transaction := inner.transaction.join handled.transaction }).wrote
            (.closure false inner.output) := by
  simp only [lowerTryCatch, setTransaction, runs_bind, runs_get, runs_modify, runs_within,
    runs_block, runs_emit] at h
  obtain ⟨_, _, ⟨rfl, rfl⟩, flag, flagged, hflag, _, _, rfl, _, _, ⟨_, ⟨_, handled, hrecover, _, _,
    ⟨rfl, rfl⟩, _, _, rfl, _, inner, hattempt, _, _, ⟨rfl, rfl⟩, rfl⟩, rfl, rfl⟩, _, _, rfl,
    hout⟩ := h
  exact ⟨flag, flagged, _, _, hflag, hrecover, hattempt, _, hout, rfl, rfl, rfl, rfl, rfl, rfl⟩

end Lower

/-! ## The frames of a procedure -/

open Lower

/-- A statement that is treated successfully opens a frame for each of its parts, and the statements
of the part are treated successfully as well. -/
theorem exists_opens {c : Context} {p after : Progress} {rest : List Statement}
    {prepared result : Option Fetch} {statement : Statement} {part : Part}
    {statements : List Statement}
    (h : (lowerStatement rest prepared statement).Runs c p result after)
    (hpart : statement.part? part = some statements) :
    ∃ frame, Opens c prepared p statement part frame ∧ frame.statements = statements ∧
      frame.Succeeds := by
  unfold Statement.part? at hpart
  split at hpart
  case h_1 condition thenBranch elseBranch =>
    obtain rfl := Option.some.inj hpart
    obtain ⟨chain, passed, hchain, -⟩ := runs_ifElse h
    obtain ⟨test, tested, inner, htest, hthen, -⟩ := runs_lowerChain hchain
    exact ⟨_, .thenBranch htest, rfl, inner, hthen⟩
  case h_2 condition thenBranch elseBranch =>
    subst hpart
    obtain ⟨chain, passed, hchain, -⟩ := runs_ifElse h
    obtain ⟨test, tested, inner, htest, hthen, helse, -⟩ := runs_lowerChain hchain
    obtain ⟨inner', helse, -⟩ := runs_lowerElse helse
    have hblock := runs_block.mpr ⟨inner, runs_within.mpr hthen, rfl, rfl⟩
    exact ⟨_, .elseBranch htest hblock, rfl, inner', helse⟩
  case h_3 condition body =>
    obtain rfl := Option.some.inj hpart
    cases hcursor : sentinelRest? condition with
    | none =>
      obtain ⟨hwhile, -⟩ := runs_while hcursor h
      obtain ⟨hhoist, tested, inner, htest, hbody, -⟩ | ⟨hhoist, test, tested, inner, htest, hbody,
        -⟩ := runs_lowerWhile hwhile
      · exact ⟨_, .testedLoop hcursor hhoist htest, rfl, inner, hbody⟩
      · exact ⟨_, .loop hcursor hhoist htest, rfl, inner, hbody⟩
    | some more =>
      obtain ⟨-, fetch, hfetch, hloop⟩ := runs_cursorLoop hcursor h
      obtain ⟨iterator, targets, found, named, started, inner, hiterator, htargets, hround, hbody,
        -⟩ := runs_lowerCursorLoop hloop
      exact ⟨_, .cursorLoop hcursor hfetch hiterator htargets hround, rfl, inner, hbody⟩
  case h_4 body =>
    obtain rfl := Option.some.inj hpart
    exact ⟨_, .block, rfl, after, (runs_blockStatement h).1⟩
  case h_5 tryBody catchBody =>
    obtain rfl := Option.some.inj hpart
    obtain ⟨flag, flagged, handled, inner, hflag, hrecover, hattempt, -⟩ :=
      runs_lowerTryCatch (runs_tryCatch h).2
    exact ⟨_, .tryHalf hflag hrecover, rfl, inner, hattempt⟩
  case h_6 tryBody catchBody =>
    obtain rfl := Option.some.inj hpart
    obtain ⟨flag, flagged, handled, inner, hflag, hrecover, -⟩ :=
      runs_lowerTryCatch (runs_tryCatch h).2
    obtain ⟨started, caught, hstart, hhandler, -⟩ := runs_emitRecover hrecover
    exact ⟨_, .catchHalf hflag hstart, rfl, caught, hhandler⟩
  case h_7 => cases hpart

namespace Frame

/-- The generation treats the first statement of a frame and goes on behind it. -/
inductive Step : Frame → Frame → Prop
  | mk {c : Context} {index : Nat} {prepared prepared' : Option Fetch} {statement : Statement}
    {rest : List Statement} {p after : Progress} :
    (lowerStatement rest prepared statement).Runs (c.enter index) p prepared' after →
    Step ⟨c, index, prepared, statement :: rest, p⟩ ⟨c, index + 1, prepared', rest, after⟩

/-- From a frame the generation goes on behind its first statement, or into a part of it. -/
inductive Next : Frame → Frame → Prop
  | behind {frame frame' : Frame} : frame.Step frame' → Next frame frame'
  | into {frame inner : Frame} {statement : Statement} {rest : List Statement} {part : Part} :
    frame.statements = statement :: rest →
    Opens frame.here frame.prepared frame.progress statement part inner → Next frame inner

theorem Step.unique {frame frame' frame'' : Frame} (h : frame.Step frame')
    (h' : frame.Step frame'') : frame' = frame'' := by
  cases h with
  | mk hruns =>
    cases h' with
    | mk hruns' =>
      obtain ⟨rfl, rfl⟩ := hruns.unique hruns'
      rfl

/-- The first statement of a frame that succeeds is treated successfully, and so are the others. -/
theorem succeeds_cons {c : Context} {index : Nat} {prepared : Option Fetch} {statement : Statement}
    {rest : List Statement} {p : Progress} :
    Succeeds ⟨c, index, prepared, statement :: rest, p⟩ ↔
      ∃ prepared' middle,
        (lowerStatement rest prepared statement).Runs (c.enter index) p prepared' middle ∧
        Succeeds ⟨c, index + 1, prepared', rest, middle⟩ := by
  simp only [Succeeds, lowerStatements, runs_bind, runs_within, runs_located]
  constructor
  · rintro ⟨after, prepared', middle, hfirst, hrest⟩
    exact ⟨prepared', middle, hfirst, after, hrest⟩
  · rintro ⟨prepared', middle, hfirst, after, hrest⟩
    exact ⟨after, prepared', middle, hfirst, hrest⟩

theorem Step.statements_eq {frame frame' : Frame} (h : frame.Step frame') {statement : Statement}
    {rest : List Statement} (hstatements : frame.statements = statement :: rest) :
    frame'.statements = rest := by
  cases h with
  | mk => exact (List.cons.inj hstatements).2

theorem Step.context_eq {frame frame' : Frame} (h : frame.Step frame') :
    frame'.context = frame.context := by
  cases h with
  | mk => rfl

/-- The generation goes on behind the first statement of a frame that succeeds. -/
theorem Succeeds.exists_step {frame : Frame} (hframe : frame.Succeeds) {statement : Statement}
    {rest : List Statement} (hstatements : frame.statements = statement :: rest) :
    ∃ next, frame.Step next ∧ next.Succeeds := by
  obtain ⟨c, index, prepared, _, p⟩ := frame
  obtain rfl := hstatements
  obtain ⟨prepared', middle, hfirst, hrest⟩ := succeeds_cons.mp hframe
  exact ⟨_, .mk hfirst, hrest⟩

/-- The generation goes on into each part of the first statement of a frame that succeeds. -/
theorem Succeeds.exists_opens {frame : Frame} (hframe : frame.Succeeds) {statement : Statement}
    {rest : List Statement} (hstatements : frame.statements = statement :: rest) {part : Part}
    {body : List Statement} (hpart : statement.part? part = some body) :
    ∃ inner, Opens frame.here frame.prepared frame.progress statement part inner ∧
      inner.statements = body ∧ inner.Succeeds := by
  obtain ⟨c, index, prepared, _, p⟩ := frame
  obtain rfl := hstatements
  obtain ⟨prepared', middle, hfirst, -⟩ := succeeds_cons.mp hframe
  exact Sproc.exists_opens hfirst hpart

theorem Step.succeeds {frame frame' : Frame} (h : frame.Step frame') (hframe : frame.Succeeds) :
    frame'.Succeeds := by
  cases h with
  | mk hruns =>
    obtain ⟨next, hstep, hnext⟩ := hframe.exists_step rfl
    rwa [Step.unique (.mk hruns) hstep]

theorem Next.succeeds {frame frame' : Frame} (h : frame.Next frame') (hframe : frame.Succeeds) :
    frame'.Succeeds := by
  cases h with
  | behind hstep => exact hstep.succeeds hframe
  | into hstatements hopens =>
    obtain ⟨inner, hinner, -, hsucceeds⟩ := hframe.exists_opens hstatements hopens.part?_eq
    rwa [hopens.unique hinner]

/-- Every statement of a list is treated at some moment, in the context of the list. -/
theorem exists_reflTransGen_step {frame : Frame} (hframe : frame.Succeeds)
    {front rest : List Statement} (h : frame.statements = front ++ rest) :
    ∃ frame', Relation.ReflTransGen Step frame frame' ∧ frame'.statements = rest ∧
      frame'.context = frame.context ∧ frame'.Succeeds := by
  induction front generalizing frame with
  | nil => exact ⟨frame, .refl, h, rfl, hframe⟩
  | cons statement front ih =>
    obtain ⟨next, hstep, hnext⟩ := hframe.exists_step h
    obtain ⟨frame', hpath, hrest, hcontext, hsucceeds⟩ := ih hnext (hstep.statements_eq h)
    exact ⟨frame', .head hstep hpath, hrest, hcontext.trans hstep.context_eq, hsucceeds⟩

theorem reflTransGen_next_of_step {frame frame' : Frame}
    (h : Relation.ReflTransGen Step frame frame') : Relation.ReflTransGen Next frame frame' :=
  Relation.ReflTransGen.mono (fun _ _ => .behind) _ _ h

end Frame

theorem Statement.mem_children_of_part? {statement : Statement} {part : Part}
    {statements : List Statement} (h : statement.part? part = some statements) :
    statements ∈ statement.children := by
  unfold part? at h
  split at h <;> simp_all [children]

/-- What is nested in a statement is the statement itself or is nested in one of its parts. -/
theorem Statement.mem_nested {statement inner : Statement} (h : inner ∈ statement.nested) :
    inner = statement ∨ ∃ part statements, statement.part? part = some statements ∧
      ∃ s ∈ statements, inner ∈ s.nested := by
  cases statement with
  | ifElse condition thenBranch elseBranch =>
    cases elseBranch with
    | none =>
      simp only [nested, nestedElse, List.append_nil, List.mem_cons, mem_nestedList] at h
      exact h.imp_right fun h => ⟨.thenBranch, thenBranch, rfl, h⟩
    | some elseBranch =>
      simp only [nested, nestedElse, List.mem_cons, List.mem_append, mem_nestedList] at h
      rcases h with h | h | h
      · exact .inl h
      · exact .inr ⟨.thenBranch, thenBranch, rfl, h⟩
      · exact .inr ⟨.elseBranch, elseBranch, rfl, h⟩
  | «while» condition body =>
    simp only [nested, List.mem_cons, mem_nestedList] at h
    exact h.imp_right fun h => ⟨.body, body, rfl, h⟩
  | block body =>
    simp only [nested, List.mem_cons, mem_nestedList] at h
    exact h.imp_right fun h => ⟨.body, body, rfl, h⟩
  | tryCatch tryBody catchBody =>
    simp only [nested, List.mem_cons, List.mem_append, mem_nestedList] at h
    rcases h with h | h | h
    · exact .inl h
    · exact .inr ⟨.tryHalf, tryBody, rfl, h⟩
    · exact .inr ⟨.catchHalf, catchBody, rfl, h⟩
  | _ => exact .inl (List.mem_singleton.mp h)

namespace Frame

/-- Every statement that is nested in the statements of a frame is treated at some moment. -/
theorem exists_reflTransGen_next {statement inner : Statement} (hinner : inner ∈ statement.nested)
    {frame : Frame} (hframe : frame.Succeeds) {front rest : List Statement}
    (h : frame.statements = front ++ statement :: rest) :
    ∃ frame' rest', Relation.ReflTransGen Next frame frame' ∧
      frame'.statements = inner :: rest' := by
  induction statement using Statement.childInduction generalizing frame front rest with
  | step statement ih =>
    obtain ⟨first, hpath, hfirst, -, hsucceeds⟩ := exists_reflTransGen_step hframe h
    rcases Statement.mem_nested hinner with rfl | ⟨part, statements, hpart, s, hs, hnested⟩
    · exact ⟨first, rest, reflTransGen_next_of_step hpath, hfirst⟩
    · obtain ⟨opened, hopens, rfl, hopened⟩ := hsucceeds.exists_opens hfirst hpart
      obtain ⟨front', rest', hsplit⟩ := List.append_of_mem hs
      obtain ⟨frame', rest'', hinside, hhead⟩ :=
        ih _ (Statement.mem_children_of_part? hpart) s hs hnested hopened hsplit
      refine ⟨frame', rest'', ?_, hhead⟩
      exact (reflTransGen_next_of_step hpath).trans (.head (.into hfirst hopens) hinside)

end Frame

/-- Everything that stands in front of the statements of a procedure. -/
def Lower.lowerEntry : Lower Unit := do
  let context ← read
  declareParams context.procedure.params
  declareHoisted context.procedure.statements context.survey.hoisted
  let _ ← functionParams
  let _ ← functionResults
  emitPrologue

/-- The frame of the body of a procedure. -/
def Procedure.Begins (procedure : Procedure) (config : Config) (frame : Frame) : Prop :=
  Context.start config (.ofProcedure config procedure) procedure = .ok frame.context ∧
    lowerEntry.Runs frame.context (Progress.start config (.ofProcedure config procedure)) ()
      frame.progress ∧
    frame.index = 0 ∧ frame.prepared = none ∧ frame.statements = procedure.body

/-- The frames that the generation of a procedure goes through. -/
def Procedure.Visits (procedure : Procedure) (config : Config) (frame : Frame) : Prop :=
  ∃ first, procedure.Begins config first ∧ Relation.ReflTransGen Frame.Next first frame

/-- A procedure that is turned into a function has a frame for its body. Its statements are treated
successfully, and with the return at the end everything is written. -/
theorem Procedure.exists_begins_of_runs {procedure : Procedure} {config : Config} {c : Context}
    {function : Go.Func} {after : Progress}
    (hstart : Context.start config (.ofProcedure config procedure) procedure = .ok c)
    (h : lowerProcedure.Runs c (Progress.start config (.ofProcedure config procedure)) function
      after) :
    ∃ frame finished, procedure.Begins config frame ∧
      (lowerStatements frame.index frame.prepared frame.statements).Runs frame.context
        frame.progress () finished ∧
      emitFinalReturn.Runs frame.context finished () after ∧ function.body = after.output := by
  obtain ⟨functionName, verb, rfl⟩ := Context.start_eq_ok hstart
  obtain ⟨declared, hoisted, hdeclared, hhoisted, middle, headed, hparams, hresults, entered,
    finished, hentered, hfinished, hfinal, hbody, -⟩ := Lower.runs_lowerProcedure h
  refine ⟨⟨_, 0, none, procedure.body, entered⟩, finished, ⟨hstart, ?_, rfl, rfl, rfl⟩,
    hfinished, hfinal, hbody⟩
  simp only [lowerEntry, runs_bind, runs_read]
  exact ⟨_, _, ⟨rfl, rfl⟩, (), declared, hdeclared, (), hoisted, hhoisted, _, middle, hparams, _,
    headed, hresults, hentered⟩

theorem Procedure.exists_begins_finish {procedure : Procedure} {config : Config}
    {lowered : LoweredProcedure} (h : procedure.lower config = .ok lowered) :
    ∃ frame finished final, procedure.Begins config frame ∧
      (lowerStatements frame.index frame.prepared frame.statements).Runs frame.context
        frame.progress () finished ∧
      emitFinalReturn.Runs frame.context finished () final ∧
      lowered.function.body = final.output := by
  obtain ⟨c, final, hstart, hruns⟩ := Procedure.lower_eq_ok h
  obtain ⟨frame, finished, hfinish⟩ := Procedure.exists_begins_of_runs hstart hruns
  exact ⟨frame, finished, final, hfinish⟩

theorem Procedure.exists_begins {procedure : Procedure} {config : Config}
    {lowered : LoweredProcedure} (h : procedure.lower config = .ok lowered) :
    ∃ frame, procedure.Begins config frame ∧ frame.Succeeds := by
  obtain ⟨frame, finished, -, hbegins, hruns, -⟩ := Procedure.exists_begins_finish h
  exact ⟨frame, hbegins, finished, hruns⟩

/-- A procedure has one frame for its body. -/
theorem Procedure.Begins.unique {procedure : Procedure} {config : Config} {frame frame' : Frame}
    (h : procedure.Begins config frame) (h' : procedure.Begins config frame') : frame = frame' := by
  obtain ⟨c, index, prepared, statements, p⟩ := frame
  obtain ⟨c', index', prepared', statements', p'⟩ := frame'
  obtain ⟨hstart, hentry, rfl, rfl, rfl⟩ := h
  obtain ⟨hstart', hentry', rfl, rfl, rfl⟩ := h'
  obtain rfl : c = c' := Except.ok.inj (hstart.symm.trans hstart')
  obtain ⟨-, rfl⟩ := hentry.unique hentry'
  rfl

/-- The generation of a procedure goes through a frame for each of its statements. -/
theorem Procedure.exists_visits {procedure : Procedure} {config : Config}
    {lowered : LoweredProcedure} (h : procedure.lower config = .ok lowered) {statement : Statement}
    (hstatement : statement ∈ procedure.statements) :
    ∃ frame rest, procedure.Visits config frame ∧ frame.statements = statement :: rest := by
  obtain ⟨first, hfirst, hsucceeds⟩ := Procedure.exists_begins h
  obtain ⟨s, hs, hnested⟩ := Statement.mem_nestedList.mp hstatement
  obtain ⟨front, rest, hsplit⟩ := List.append_of_mem hs
  have hbody : first.statements = front ++ s :: rest := hfirst.2.2.2.2.trans hsplit
  obtain ⟨frame, rest', hpath, hhead⟩ := Frame.exists_reflTransGen_next hnested hsucceeds hbody
  exact ⟨frame, rest', ⟨first, hfirst, hpath⟩, hhead⟩

/-- The statements of every frame of a procedure are treated successfully. -/
theorem Procedure.Visits.succeeds {procedure : Procedure} {config : Config}
    {lowered : LoweredProcedure} {frame : Frame} (hvisits : procedure.Visits config frame)
    (h : procedure.lower config = .ok lowered) : frame.Succeeds := by
  obtain ⟨first, hfirst, hpath⟩ := hvisits
  obtain ⟨begun, hbegun, hsucceeds⟩ := Procedure.exists_begins h
  obtain rfl := hbegun.unique hfirst
  induction hpath with
  | refl => exact hsucceeds
  | tail _ hnext ih => exact hnext.succeeds ih

/-! ## Frames by computation -/

/-- The frame behind the first statement of a frame, where the statement is treated successfully. -/
def Frame.behind? (frame : Frame) : Option Frame :=
  match frame.statements with
  | [] => none
  | statement :: rest =>
    match (lowerStatement rest frame.prepared statement).execute frame.here frame.progress with
    | (.ok prepared, after) => some ⟨frame.context, frame.index + 1, prepared, rest, after⟩
    | (.error _, _) => none

theorem Frame.step_of_behind? {frame next : Frame} (h : frame.behind? = some next) :
    frame.Step next := by
  obtain ⟨c, index, prepared, statements, p⟩ := frame
  cases statements with
  | nil => cases h
  | cons statement rest =>
    rw [behind?] at h
    dsimp only at h
    split at h
    next hruns =>
      obtain rfl := Option.some.inj h
      exact .mk hruns
    next => cases h

/-- The frame of the body of a procedure, where everything in front of the body succeeds. -/
def Procedure.begin? (procedure : Procedure) (config : Config) : Option Frame :=
  match Context.start config (.ofProcedure config procedure) procedure with
  | .error _ => none
  | .ok c =>
    match lowerEntry.execute c (Progress.start config (.ofProcedure config procedure)) with
    | (.ok _, entered) => some ⟨c, 0, none, procedure.body, entered⟩
    | (.error _, _) => none

theorem Procedure.begins_of_begin? {procedure : Procedure} {config : Config} {frame : Frame}
    (h : procedure.begin? config = some frame) : procedure.Begins config frame := by
  unfold begin? at h
  cases hstart : Context.start config (.ofProcedure config procedure) procedure with
  | error fault => simp [hstart] at h
  | ok c =>
    simp only [hstart] at h
    rcases hruns : lowerEntry.execute c
      (Progress.start config (.ofProcedure config procedure)) with ⟨_ | _, entered⟩
    · simp [hruns] at h
    · simp only [hruns, Option.some.injEq] at h
      subst h
      exact ⟨hstart, hruns, rfl, rfl, rfl⟩

end Sproc
