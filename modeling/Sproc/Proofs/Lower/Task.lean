import Sproc.Proofs.Lower.Stacks

/-!
# Tasks of a generation

A generation with stacks comes to a list of statements by pushing what encloses the list. However
much is pushed and popped on the way, the stacks hold exactly what encloses the list, since the
statements that are behind the generation have left all of them as they were.

## Main definitions

* `Task`: a list of statements, or the branches behind a block that is open
* `Procedure.Attains`: the states in which a task of a procedure is about to be treated

## Main results

* `Procedure.Attains.stacks_eq`: the stacks hold what encloses the task
-/

namespace Sproc

open Generate

/-- What is about to be treated. -/
inductive Task where
  /-- A list of statements, the first of which has the given index, with the fetch that has prepared
  a later loop. -/
  | list (index : Nat) (prepared : Option Fetch) (statements : List Statement)
  /-- The branches of a conditional with the given index behind the branch whose block is open. -/
  | branches (index : Nat) (elseBranch : Option (List Statement))

/-- The stacks in front of a task inside a nest of enclosures. -/
def Task.place (nest : List (Nat × Enclosure)) : Task → Stacks
  | .list _ _ _ => .within nest
  | .branches index _ => ((Stacks.within nest).enter index).openBlocks 1

theorem Task.sound_place (nest : List (Nat × Enclosure)) (task : Task) :
    (task.place nest).Sound := by
  cases task with
  | list => exact Stacks.sound_within nest
  | branches index => exact ((Stacks.sound_within nest).enter index).openBlocks 1

/-- What opens a block of generated names also indents, and nothing else does. -/
theorem Task.depth_place (nest : List (Nat × Enclosure)) (task : Task) :
    (task.place nest).depth + 1 = (task.place nest).indent := by
  cases task with
  | list => exact Stacks.depth_within nest
  | branches => exact congrArg (· + 1) (Stacks.depth_within nest)

/-- The generation of a procedure before its first step. -/
def Generator.start (config : Config) (procedure : Procedure) : Generator where
  progress := Progress.start config (.ofProcedure config procedure)

/-- The states of the generation of a procedure in which a task is about to be treated, each with
what encloses the task. -/
inductive Procedure.Attains (procedure : Procedure) (config : Config) (fixed : Context) :
    List (Nat × Enclosure) → Task → Generator → Prop
  | body {function : Go.Func} {g : Generator} :
    openProcedure.Runs fixed (.start config procedure) function g →
    Attains procedure config fixed [] (.list 0 none procedure.body) g
  | behind {nest : List (Nat × Enclosure)} {index : Nat} {prepared prepared' : Option Fetch}
    {statement : Statement} {rest : List Statement} {g g' : Generator} :
    Attains procedure config fixed nest (.list index prepared (statement :: rest)) g →
    (branch index (located (lowerStatement rest prepared statement))).Runs fixed g prepared' g' →
    Attains procedure config fixed nest (.list (index + 1) prepared' rest) g'
  | thenBranch {nest : List (Nat × Enclosure)} {index : Nat} {prepared : Option Fetch}
    {condition : Expr} {thenBranch : List Statement} {elseBranch : Option (List Statement)}
    {rest : List Statement} {g g' : Generator} :
    Attains procedure config fixed nest
      (.list index prepared (.ifElse condition thenBranch elseBranch :: rest)) g →
    (do
      enter index
      let test ← perform (Lower.lowerCondition condition)
      openBlock (Go.ifHead none test)
      enter 0).Runs fixed g () g' →
    Attains procedure config fixed ((index, .branch 0) :: nest) (.list 0 none thenBranch) g'
  | branches {nest : List (Nat × Enclosure)} {index : Nat} {prepared : Option Fetch}
    {condition : Expr} {thenBranch : List Statement} {elseBranch : Option (List Statement)}
    {rest : List Statement} {g g' : Generator} :
    Attains procedure config fixed nest
      (.list index prepared (.ifElse condition thenBranch elseBranch :: rest)) g →
    (do
      enter index
      let test ← perform (Lower.lowerCondition condition)
      openBlock (Go.ifHead none test)
      branch 0 (lowerStatements 0 none thenBranch)).Runs fixed g () g' →
    Attains procedure config fixed nest (.branches index elseBranch) g'
  | elseBranch {nest : List (Nat × Enclosure)} {index : Nat} {body : List Statement}
    {g g' : Generator} : Statement.continuesChain body = false →
    Attains procedure config fixed nest (.branches index (some body)) g →
    (do
      let _ ← reopenBlock Go.elseHead
      enter 1).Runs fixed g () g' →
    Attains procedure config fixed ((index, .branch 1) :: nest) (.list 0 none body) g'
  /-- An alternative that continues the chain shares the block of the conditional. -/
  | nextBranch {nest : List (Nat × Enclosure)} {index : Nat} {condition : Expr}
    {thenBranch : List Statement} {elseBranch : Option (List Statement)} {g g' : Generator} :
    condition.needsHoist = false →
    Attains procedure config fixed nest
      (.branches index (some [.ifElse condition thenBranch elseBranch])) g →
    (do
      enter 1
      enter 0
      let test ← perform (Lower.lowerCondition condition)
      let _ ← reopenBlock (Go.elseIfHead none test)
      enter 0).Runs fixed g () g' →
    Attains procedure config fixed ((0, .branch 0) :: (index, .elseIf) :: nest)
      (.list 0 none thenBranch) g'
  | nextBranches {nest : List (Nat × Enclosure)} {index : Nat} {condition : Expr}
    {thenBranch : List Statement} {elseBranch : Option (List Statement)} {g g' : Generator} :
    condition.needsHoist = false →
    Attains procedure config fixed nest
      (.branches index (some [.ifElse condition thenBranch elseBranch])) g →
    (do
      enter 1
      enter 0
      let test ← perform (Lower.lowerCondition condition)
      let _ ← reopenBlock (Go.elseIfHead none test)
      branch 0 (lowerStatements 0 none thenBranch)).Runs fixed g () g' →
    Attains procedure config fixed ((index, .elseIf) :: nest) (.branches 0 elseBranch) g'
  | loop {nest : List (Nat × Enclosure)} {index : Nat} {prepared : Option Fetch}
    {condition : Expr} {body rest : List Statement} {g g' : Generator} :
    sentinelRest? condition = none → condition.needsHoist = false →
    Attains procedure config fixed nest (.list index prepared (.while condition body :: rest)) g →
    (do
      enter index
      let test ← perform (Lower.lowerCondition condition)
      openBlock (Go.loopHead (some test))
      enterLoop
      enter 0).Runs fixed g () g' →
    Attains procedure config fixed ((index, .loop) :: nest) (.list 0 none body) g'
  | testedLoop {nest : List (Nat × Enclosure)} {index : Nat} {prepared : Option Fetch}
    {condition : Expr} {body rest : List Statement} {g g' : Generator} :
    sentinelRest? condition = none → condition.needsHoist = true →
    Attains procedure config fixed nest (.list index prepared (.while condition body :: rest)) g →
    (do
      enter index
      openBlock (Go.loopHead none)
      enterLoop
      emitLoopTest condition
      enter 0).Runs fixed g () g' →
    Attains procedure config fixed ((index, .loop) :: nest) (.list 0 none body) g'
  | cursorLoop {nest : List (Nat × Enclosure)} {index : Nat} {prepared : Option Fetch}
    {condition : Expr} {more : Option Expr} {fetch : Fetch} {body rest : List Statement}
    {g g' : Generator} : sentinelRest? condition = some more →
    prepared.or (Statement.firstFetch? body) = some fetch →
    Attains procedure config fixed nest (.list index prepared (.while condition body :: rest)) g →
    (do
      enter index
      enter 0
      let iterator ← perform (Lower.fetchIterator fetch)
      let targets ← perform (Lower.goNames fetch.into)
      pushLooping (Text.toLower fetch.cursor)
      openBlock (Go.loopHead (some (.invoke iterator "Next" [])))
      enterLoop
      emitRound iterator targets more).Runs fixed g () g' →
    Attains procedure config fixed ((index, .cursorLoop (Text.toLower fetch.cursor)) :: nest)
      (.list 0 none body) g'
  | block {nest : List (Nat × Enclosure)} {index : Nat} {prepared : Option Fetch}
    {body rest : List Statement} {g g' : Generator} :
    Attains procedure config fixed nest (.list index prepared (.block body :: rest)) g →
    (enter index).Runs fixed g () g' →
    Attains procedure config fixed ((index, .block) :: nest) (.list 0 none body) g'
  | catchHalf {nest : List (Nat × Enclosure)} {index : Nat} {prepared : Option Fetch}
    {tryBody catchBody rest : List Statement} {g g' : Generator} :
    Attains procedure config fixed nest
      (.list index prepared (.tryCatch tryBody catchBody :: rest)) g →
    (do
      enter index
      let _ ← perform (Lower.returnFlag? tryBody)
      openBlock (Go.closureHead false)
      openBlock (Go.closureHead true)
      openBlock (Go.ifHead (some recovered) (.binary "!=" (.name "r") .nil))
      emitHandlerStart catchBody
      setTransaction (Lower.handlerTransaction tryBody g.progress.transaction)
      pushExit .catchHalf
      enterClosure
      enter 1).Runs fixed g () g' →
    Attains procedure config fixed ((index, .catchHalf) :: nest) (.list 0 none catchBody) g'
  | tryHalf {nest : List (Nat × Enclosure)} {index : Nat} {prepared : Option Fetch}
    {tryBody catchBody rest : List Statement} {flag : Option String} {g flagged g' : Generator} :
    Attains procedure config fixed nest
      (.list index prepared (.tryCatch tryBody catchBody :: rest)) g →
    (do
      enter index
      perform (Lower.returnFlag? tryBody)).Runs fixed g flag flagged →
    (do
      openBlock (Go.closureHead false)
      let _ ← emitRecover tryBody catchBody g.progress.transaction
        (lowerStatements 0 none catchBody)
      setTransaction g.progress.transaction
      pushFlag flag
      pushExit .tryHalf
      enterClosure
      enter 0).Runs fixed flagged () g' →
    Attains procedure config fixed ((index, .tryHalf flag) :: nest) (.list 0 none tryBody) g'

namespace Generate

variable {fixed : Context} {before : Stacks}

theorem moves_lowerCondition (condition : Expr) (hfixed : fixed.fixed = fixed)
    (hsound : before.Sound) :
    (perform (Lower.lowerCondition condition)).Moves fixed before before :=
  moves_perform
    (fun c => Lower.hasEffect_lowerCondition (Discipline.regular_adding c).forms condition) hfixed hsound

/-- A statement of a list moves no stack. -/
theorem moves_statement (index : Nat) (rest : List Statement) (prepared : Option Fetch)
    (statement : Statement) (hfixed : fixed.fixed = fixed) (hsound : before.Sound) :
    (branch index (located (lowerStatement rest prepared statement))).Moves fixed before before := by
  refine Follows.moves (fun c => follows_branch index <| follows_located <|
    (mirrors statement).whole (c.enter index) rest prepared) (fun hruns => ?_) hfixed hsound
  obtain ⟨_, -, hextends⟩ :=
    Lower.extends_lowerStatement (Lower.runs_located.mp (Lower.runs_within.mp hruns))
  exact hextends.grows.names.depth_eq

theorem moves_branch (index : Nat) (statements : List Statement) (hfixed : fixed.fixed = fixed)
    (hsound : before.Sound) :
    (branch index (lowerStatements 0 none statements)).Moves fixed before before := by
  refine Follows.moves (fun c => follows_branch index <|
    follows_lowerStatements (c.enter index) 0 none statements) (fun hruns => ?_) hfixed hsound
  obtain ⟨_, -, hextends⟩ := Lower.extends_lowerStatements (Lower.runs_within.mp hruns)
  exact hextends.grows.names.depth_eq

theorem moves_emitLoopTest (condition : Expr) (hfixed : fixed.fixed = fixed)
    (hsound : before.Sound) : (emitLoopTest condition).Moves fixed before before :=
  Follows.moves (fun _ => follows_emitLoopTest condition)
    (fun {c} _ _ _ hruns => (Lower.hasEffect_emitLoopTest (Discipline.regular_adding c).forms
      condition (Lower.hasEffect_emitBreak trivial)).depth_eq hruns trivial) hfixed hsound

theorem moves_emitRound (iterator : Go.Expr) (targets : List String) (more : Option Expr)
    (hfixed : fixed.fixed = fixed) (hsound : before.Sound) :
    (emitRound iterator targets more).Moves fixed before before :=
  Follows.moves (fun _ => follows_emitRound iterator targets more)
    (fun {c} _ _ _ hruns => (Lower.hasEffect_emitRound (Discipline.regular_adding c).forms iterator
      targets more (Lower.hasEffect_emitBreak trivial)).depth_eq hruns trivial) hfixed hsound

theorem moves_returnFlag? (tryBody : List Statement) (hfixed : fixed.fixed = fixed)
    (hsound : before.Sound) :
    (perform (Lower.returnFlag? tryBody)).Moves fixed before before :=
  moves_perform
    (fun c => Lower.hasEffect_returnFlag? (Discipline.regular_adding c).forms tryBody) hfixed hsound

theorem moves_setTransaction (transaction : TransactionState) (hfixed : fixed.fixed = fixed)
    (hsound : before.Sound) : (setTransaction transaction).Moves fixed before before :=
  moves_perform (fun _ => Lower.hasEffect_setTransaction Lower.ignoresTransaction_discipline
    transaction) hfixed hsound

theorem moves_emitHandlerStart (catchBody : List Statement) (hfixed : fixed.fixed = fixed)
    (hsound : before.Sound) : (emitHandlerStart catchBody).Moves fixed before before :=
  Follows.moves (fun _ => follows_emitHandlerStart catchBody)
    (fun {c} _ _ _ hruns => (Lower.hasEffect_emitHandlerStart
      (Discipline.regular_adding c).toBasic (fun hcounts => hcounts.1) catchBody).depth_eq hruns
        trivial) hfixed hsound

theorem moves_fetchIterator (fetch : Fetch) (hfixed : fixed.fixed = fixed) (hsound : before.Sound) :
    (perform (Lower.fetchIterator fetch)).Moves fixed before before :=
  moves_perform (fun _ => Lower.hasEffect_fetchIterator
    Lower.ignoresCursors_discipline.admitsCursors fetch) hfixed hsound

theorem moves_goNames (names : List String) (hfixed : fixed.fixed = fixed)
    (hsound : before.Sound) : (perform (Lower.goNames names)).Moves fixed before before :=
  moves_perform (fun _ => Lower.hasEffect_goNames names) hfixed hsound

/-- What recovers a failure has closed all of its blocks. -/
theorem moves_emitRecover (tryBody catchBody : List Statement) (transaction : TransactionState)
    (hfixed : fixed.fixed = fixed) (hsound : before.Sound) :
    (emitRecover tryBody catchBody transaction (lowerStatements 0 none catchBody)).Moves fixed
      before before := by
  have hinside : ((before.openBlocks 1).openBlocks 1).Sound := (hsound.openBlocks 1).openBlocks 1
  have hhandler : (runScoped .catchHalf 1 (lowerStatements 0 none catchBody)).Moves fixed
      ((before.openBlocks 1).openBlocks 1) ((before.openBlocks 1).openBlocks 1) := by
    refine Follows.moves (fun c => follows_runScoped .catchHalf 1 <|
      follows_lowerStatements _ 0 none catchBody) (fun hruns => ?_) hfixed hinside
    obtain ⟨_, -, hextends⟩ := Lower.extends_lowerStatements (Lower.runs_within.mp hruns)
    exact hextends.grows.names.depth_eq
  refine moves_bind (moves_openBlock _) fun _ => moves_bind (moves_openBlock _) fun _ => ?_
  refine moves_bind (moves_emitHandlerStart catchBody hfixed hinside) fun _ => ?_
  refine moves_bind (moves_setTransaction _ hfixed hinside) fun _ => ?_
  refine moves_bind hhandler fun _ => moves_bind moves_get fun _ => ?_
  refine moves_bind (moves_closeBlock _) fun _ => moves_bind (moves_record _) fun _ => ?_
  refine moves_bind (moves_closeBlock _) fun _ => moves_bind (moves_record _) fun _ => ?_
  exact moves_pure _

theorem moves_writeLines (lines : List String) : (writeLines lines).Moves fixed before before := by
  induction lines with
  | nil => exact moves_pure _
  | cons s rest ih => exact moves_bind (moves_modify fun _ h => h) fun _ => ih

/-- The head of a function opens the block of its body. -/
theorem moves_openProcedure (hfixed : fixed.fixed = fixed) :
    openProcedure.Moves fixed { Stacks.start with indent := 0 } Stacks.start := by
  have hbegun : Stacks.Sound { Stacks.start with indent := 0 } := ⟨rfl, List.cons_ne_nil _ _⟩
  have hdeclare (c : Context) (name type : String) (kind : SymbolKind) :
      (Lower.declare name type kind).HasEffect c (Discipline.adding c).effect :=
    Lower.hasEffect_declare (Scheme.lasting_keeping (fun _ _ => trivial) c) name type kind
  have hpermissive (c : Context) := Scheme.permissive_keeping (fun _ => True) c
  have hprologue : emitPrologue.Moves fixed Stacks.start Stacks.start :=
    Follows.moves (fun _ => follows_emitPrologue)
      (fun {c} _ _ _ hruns => (Lower.hasEffect_emitPrologue
        ((hpermissive c).regular.opening (hpermissive c).releasing fun hcounts => hcounts.1)).depth_eq hruns trivial)
      hfixed ⟨rfl, List.cons_ne_nil _ _⟩
  refine moves_bind moves_read fun _ => ?_
  refine moves_bind (moves_perform (fun c => Lower.hasEffect_declareParams (hdeclare c) _) hfixed
    hbegun) fun _ => ?_
  refine moves_bind (moves_perform (fun c => Lower.hasEffect_declareHoisted (hdeclare c) _ _) hfixed
    hbegun) fun _ => ?_
  refine moves_bind moves_get fun _ => moves_bind (moves_writeLines _) fun _ => ?_
  refine moves_bind (moves_perform (fun _ => Lower.hasEffect_functionParams) hfixed hbegun)
    fun _ => ?_
  refine moves_bind (moves_perform (fun _ => Lower.hasEffect_functionResults) hfixed hbegun)
    fun _ => ?_
  refine moves_bind (moves_modify fun _ h => congrArg (fun s => { s with indent := s.indent + 1 }) h)
    fun _ => ?_
  exact moves_bind hprologue fun _ => moves_pure _

/-- A generation that is complete has closed the block of the function. -/
theorem moves_lowerProcedure (hfixed : fixed.fixed = fixed) :
    lowerProcedure.Moves fixed { Stacks.start with indent := 0 }
      { Stacks.start with indent := 0 } := by
  have hsound : Stacks.start.Sound := ⟨rfl, List.cons_ne_nil _ _⟩
  have hbody (statements : List Statement) :
      (lowerStatements 0 none statements).Moves fixed Stacks.start Stacks.start := by
    refine Follows.moves (fun c => follows_lowerStatements c 0 none statements) (fun hruns => ?_)
      hfixed hsound
    obtain ⟨_, -, hextends⟩ := Lower.extends_lowerStatements hruns
    exact hextends.grows.names.depth_eq
  refine moves_located <| moves_bind (moves_openProcedure hfixed) fun _ => ?_
  refine moves_bind moves_read fun _ => moves_bind (hbody _) fun _ => ?_
  refine moves_bind (moves_perform (fun c => (Scheme.permissive_keeping _ c).emitFinalReturn) hfixed
    hsound) fun _ => ?_
  refine moves_bind (moves_modify fun _ h => congrArg (fun s => { s with indent := s.indent - 1 }) h)
    fun _ => ?_
  exact moves_bind moves_get fun _ => moves_pure _

end Generate

namespace Procedure.Attains

variable {procedure : Procedure} {config : Config} {fixed : Context}
  {nest : List (Nat × Enclosure)} {task : Task} {g : Generator}

/-- The stacks hold what encloses the task, whatever has been treated before. -/
theorem stacks_eq (h : procedure.Attains config fixed nest task g)
    (hstart : Context.start config (.ofProcedure config procedure) procedure = .ok fixed) :
    g.stacks = task.place nest := by
  obtain ⟨hfixed, -⟩ := Context.start_eq_of hstart {}
  induction h with
  | body hopen => exact moves_openProcedure hfixed rfl hopen
  | @behind nest index _ _ _ _ _ _ _ hstep ih =>
    exact moves_statement index _ _ _ hfixed (Stacks.sound_within nest) ih hstep
  | @thenBranch nest index _ _ _ _ _ _ _ _ hsteps ih =>
    have hsound := (Stacks.sound_within nest).enter index
    refine moves_bind (moves_enter index) (fun _ => ?_) ih hsteps
    refine moves_bind (moves_lowerCondition _ hfixed hsound) fun _ => ?_
    exact moves_bind (moves_openBlock _) fun _ => moves_enter 0
  | @branches nest index _ _ _ _ _ _ _ _ hsteps ih =>
    have hsound := (Stacks.sound_within nest).enter index
    refine moves_bind (moves_enter index) (fun _ => ?_) ih hsteps
    refine moves_bind (moves_lowerCondition _ hfixed hsound) fun _ => ?_
    exact moves_bind (moves_openBlock _) fun _ => moves_branch 0 _ hfixed (hsound.openBlocks 1)
  | @elseBranch nest index _ _ _ _ _ hsteps ih =>
    exact moves_bind (moves_reopenBlock _) (fun _ => moves_enter 1) ih hsteps
  | @nextBranch nest index _ _ _ _ _ _ _ hsteps ih =>
    let place := (((Stacks.within nest).enter index).enter 1).enter 0
    have hsound : place.Sound := (((Stacks.sound_within nest).enter index).enter 1).enter 0
    refine moves_bind (moves_enter 1) (fun _ => ?_) ih hsteps
    refine moves_bind (moves_enter 0) fun _ => ?_
    refine moves_bind (moves_lowerCondition _ hfixed (hsound.openBlocks 1)) fun _ => ?_
    exact moves_bind (@moves_reopenBlock fixed place _) fun _ => moves_enter 0
  | @nextBranches nest index _ _ _ _ _ _ _ hsteps ih =>
    let place := (((Stacks.within nest).enter index).enter 1).enter 0
    have hsound : place.Sound := (((Stacks.sound_within nest).enter index).enter 1).enter 0
    refine moves_bind (moves_enter 1) (fun _ => ?_) ih hsteps
    refine moves_bind (moves_enter 0) fun _ => ?_
    refine moves_bind (moves_lowerCondition _ hfixed (hsound.openBlocks 1)) fun _ => ?_
    refine moves_bind (@moves_reopenBlock fixed place _) fun _ => ?_
    exact moves_branch 0 _ hfixed (hsound.openBlocks 1)
  | @loop nest index _ _ _ _ _ _ _ _ _ hsteps ih =>
    have hsound := (Stacks.sound_within nest).enter index
    refine moves_bind (moves_enter index) (fun _ => ?_) ih hsteps
    refine moves_bind (moves_lowerCondition _ hfixed hsound) fun _ => ?_
    refine moves_bind (moves_openBlock _) fun _ => ?_
    exact moves_bind moves_enterLoop fun _ => moves_enter 0
  | @testedLoop nest index _ _ _ _ _ _ _ _ _ hsteps ih =>
    have hsound := (Stacks.sound_within nest).enter index
    refine moves_bind (moves_enter index) (fun _ => ?_) ih hsteps
    refine moves_bind (moves_openBlock _) fun _ => moves_bind moves_enterLoop fun _ => ?_
    refine moves_bind (moves_emitLoopTest _ hfixed (hsound.openBlocks 1).enterLoop) fun _ => ?_
    exact moves_enter 0
  | @cursorLoop nest index _ _ _ fetch _ _ _ _ _ _ _ hsteps ih =>
    have hsound := ((Stacks.sound_within nest).enter index).enter 0
    refine moves_bind (moves_enter index) (fun _ => ?_) ih hsteps
    refine moves_bind (moves_enter 0) fun _ => ?_
    refine moves_bind (moves_fetchIterator fetch hfixed hsound) fun iterator => ?_
    refine moves_bind (moves_goNames fetch.into hfixed hsound) fun targets => ?_
    refine moves_bind (moves_pushLooping _) fun _ => moves_bind (moves_openBlock _) fun _ => ?_
    refine moves_bind moves_enterLoop fun _ => ?_
    exact moves_emitRound _ _ _ hfixed ((hsound.looping _).openBlocks 1).enterLoop
  | @block nest index _ _ _ _ _ _ hstep ih => exact moves_enter index ih hstep
  | @catchHalf nest index _ _ _ _ g _ _ hsteps ih =>
    have hsound := (Stacks.sound_within nest).enter index
    have hinside := ((hsound.openBlocks 1).openBlocks 1).openBlocks 1
    refine moves_bind (moves_enter index) (fun _ => ?_) ih hsteps
    refine moves_bind (moves_returnFlag? _ hfixed hsound) fun _ => ?_
    refine moves_bind (moves_openBlock _) fun _ => moves_bind (moves_openBlock _) fun _ => ?_
    refine moves_bind (moves_openBlock _) fun _ => ?_
    refine moves_bind (moves_emitHandlerStart _ hfixed hinside) fun _ => ?_
    refine moves_bind (moves_setTransaction _ hfixed hinside) fun _ => ?_
    refine moves_bind (moves_pushExit _) fun _ => moves_bind moves_enterClosure fun _ => ?_
    exact moves_enter 1
  | @tryHalf nest index _ _ _ _ flag g _ _ _ hflag hsteps ih =>
    have hsound := (Stacks.sound_within nest).enter index
    have hflagged := moves_bind (moves_enter index) (fun _ => moves_returnFlag? _ hfixed hsound) ih hflag
    refine moves_bind (moves_openBlock _) (fun _ => ?_) hflagged hsteps
    refine moves_bind (moves_emitRecover _ _ _ hfixed (hsound.openBlocks 1)) fun _ => ?_
    refine moves_bind (moves_setTransaction _ hfixed (hsound.openBlocks 1)) fun _ => ?_
    refine moves_bind (moves_pushFlag flag) fun _ => moves_bind (moves_pushExit _) fun _ => ?_
    exact moves_bind moves_enterClosure fun _ => moves_enter 0

end Procedure.Attains

end Sproc
