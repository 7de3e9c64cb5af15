import Sproc.Ast.Build
import Sproc.Proofs.Lower.Task

/-!
# Balanced blocks

A list of statements leaves all stacks of a generation as they were. The generation comes to stand
wherever a frame has its place, with the context of the frame on its stacks, and where it is complete
it has written the text of the function and closed all blocks.

## Main definitions

* `Procedure.Arrives`: where a generation with stacks stands when a frame has its place

## Main results

* `Generate.restores_lowerStatements`: a list of statements leaves all stacks as they were
* `Procedure.Places.arrives`: the generation comes to all places
* `Procedure.blocks_are_balanced`
-/

namespace Sproc

open Generate

/-! ## Places -/

namespace Generate

variable {fixed c : Context} {p tested : Progress} {writer : Go.Writer}
  {blocks : List (List Go.Stmt)}

/-- A condition that is treated in its context is treated with stacks. -/
theorem runs_condition {condition : Expr} {test : Go.Expr} {hoists : List Go.Stmt}
    (htest : (Lower.lowerCondition condition).Runs c p test tested)
    (hhoists : tested.output = p.output ++ hoists) :
    (perform (Lower.lowerCondition condition)).Runs c.fixed (.of c p writer blocks) test
      (.of c tested (Go.writeList writer hoists) blocks) :=
  runs_perform htest hhoists

/-- The first branch of a conditional, whose block stays open. -/
theorem runs_openBranch {thenBranch : List Statement} {body : List Go.Stmt} {passed : Progress}
    (hthen : (Lower.block (Lower.within (Context.enter 0)
      (Lower.lowerStatements 0 none thenBranch))).Runs c p body passed) :
    ∃ inner, body = inner.output ∧ passed = p.closed inner ∧
      ∀ writer blocks, (branch 0 (lowerStatements 0 none thenBranch)).Runs c.fixed
        (.of c p.opened writer blocks) () (.of c inner (Go.writeList writer body) blocks) := by
  obtain ⟨inner, hinner, rfl, rfl⟩ := Lower.runs_block.mp hthen
  exact ⟨inner, rfl, rfl, fun writer blocks =>
    (follows_branch 0 (follows_lowerStatements _ 0 none thenBranch)).runs_inside hinner rfl writer
      blocks⟩

end Generate

namespace Procedure

variable {procedure : Procedure} {config : Config} {nest : List (Nat × Enclosure)}
  {arms arms' : List Go.Arm} {frame inner : Frame} {writer writer' : Go.Writer}

/-- Where a generation with stacks stands when a frame has its place. For a frame that continues a
chain this is behind the block of the last arm, which is open. -/
def Arrives (procedure : Procedure) (config : Config) (nest : List (Nat × Enclosure))
    (arms : List Go.Arm) (frame : Frame) (writer : Go.Writer) : Prop :=
  if arms.isEmpty then
    ∃ blocks, procedure.Attains config frame.context.fixed nest
      (.list frame.index frame.prepared frame.statements)
      (.of frame.context frame.progress writer blocks)
  else
    ∃ (outer : List (Nat × Enclosure)) (index : Nat) (c : Context) (p inner : Progress)
      (blocks : List (List Go.Stmt)), nest = (index, .elseIf) :: outer ∧
      frame = ⟨c.enter 1, 0, none, frame.statements, p.closed inner⟩ ∧
      procedure.Attains config c.fixed outer (.branches index (some frame.statements))
        (.of c inner (Go.writeChain writer arms) (p.output :: blocks))

/-- From a list of statements the generation comes to every part of its first statement. -/
theorem Attains.arrives_of_enters {c : Context} {p : Progress} {index : Nat}
    {prepared : Option Fetch} {statement : Statement} {rest : List Statement}
    {enclosure : Enclosure} {blocks : List (List Go.Stmt)}
    (h : procedure.Attains config c.fixed nest (.list index prepared (statement :: rest))
      (.of c p writer blocks))
    (henters : Enters (c.enter index) prepared p writer [] statement enclosure arms' inner
      writer') : procedure.Arrives config ((index, enclosure) :: nest) arms' inner writer' := by
  have henter : (enter index).Runs c.fixed (.of c p writer blocks) ()
      (.of (c.enter index) p writer blocks) := runs_enter index
  cases henters with
  | thenBranch htest hhoists =>
    exact ⟨_, h.thenBranch <| henter.bind <| (runs_condition htest hhoists).bind <|
      (runs_openBlock _).bind (runs_enter 0)⟩
  | elseBranch htest hhoists hthen hchain =>
    obtain ⟨inner, rfl, rfl, hbranch⟩ := runs_openBranch hthen
    have hopen := h.branches <| henter.bind <| (runs_condition htest hhoists).bind <|
      (runs_openBlock _).bind (hbranch _ _)
    exact ⟨_, .elseBranch hchain hopen <| (runs_reopenBlock _).bind (runs_enter 1)⟩
  | elseIf htest hhoists hthen hchain =>
    obtain ⟨inner, rfl, rfl, hbranch⟩ := runs_openBranch hthen
    have hopen := h.branches <| henter.bind <| (runs_condition htest hhoists).bind <|
      (runs_openBlock _).bind (hbranch _ _)
    exact ⟨nest, index, c.enter index, _, inner, _, rfl, rfl, hopen⟩
  | loop hrest hhoist htest hhoists =>
    exact ⟨_, .loop hrest hhoist h <| henter.bind <| (runs_condition htest hhoists).bind <|
      (runs_openBlock _).bind <| runs_enterLoop.bind (runs_enter 0)⟩
  | testedLoop hrest hhoist htest =>
    have htested := (follows_emitLoopTest _).runs_inside htest rfl
      (writer.openBlock (Go.loopHead none)) (p.output :: blocks)
    exact ⟨_, .testedLoop hrest hhoist h <| henter.bind <| (runs_openBlock _).bind <|
      runs_enterLoop.bind <| htested.bind (runs_enter 0)⟩
  | @cursorLoop _ _ _ fetch iterator _ _ _ started hrest hfetch hiterator htargets hround =>
    obtain ⟨rfl, -⟩ := Lower.runs_fetchIterator hiterator
    obtain ⟨rfl, -⟩ := Lower.runs_goNames htargets
    have hbegun := (follows_emitRound _ _ _).runs_inside hround rfl
    exact ⟨_, .cursorLoop hrest hfetch h <| henter.bind <| (runs_enter 0).bind <|
      (runs_perform_silent hiterator rfl).bind <| (runs_perform_silent htargets rfl).bind <|
      (runs_pushLooping _).bind <| (runs_openBlock _).bind <| runs_enterLoop.bind (hbegun _ _)⟩
  | block => exact ⟨_, h.block henter⟩
  | @catchHalf tryBody catchBody flag flagged started hflag hstart =>
    obtain ⟨hflags, -⟩ := Lower.runs_returnFlag? hflag
    obtain ⟨fresh, hfresh, hstart'⟩ := Lower.execute_emitHandlerStart catchBody (c.enter index)
      flagged.opened.opened.opened (Lower.handlerTransaction tryBody p.transaction)
    obtain ⟨-, rfl⟩ := hstart.unique hstart'
    have hbegun := (follows_emitHandlerStart catchBody).runs_inside hfresh rfl
    exact ⟨_, .catchHalf h <| henter.bind <| (runs_perform hflag hflags).bind <|
      (runs_openBlock _).bind <| (runs_openBlock _).bind <| (runs_openBlock _).bind <|
      (hbegun _ _).bind <| (runs_setTransaction _).bind <| (runs_pushExit _).bind <|
      runs_enterClosure.bind (runs_enter 1)⟩
  | @tryHalf tryBody catchBody flag flagged handled hflag hrecover =>
    obtain ⟨hflags, -⟩ := Lower.runs_returnFlag? hflag
    have hhandler := follows_lowerStatements (Lower.inHandler (c.enter index)) 0 none catchBody
    obtain ⟨code, hcode, hhandled⟩ := runs_emitRecover (p := flagged.opened) hhandler hrecover
      ((Go.writeList writer (flagLines flag)).openBlock (Go.closureHead false))
      (flagged.output :: blocks)
    obtain rfl : handled.output = code := hcode
    have hflagged : (perform (Lower.returnFlag? tryBody)).Runs c.fixed
        (.of (c.enter index) p writer blocks) flag
        (.of (c.enter index) flagged (Go.writeList writer (flagLines flag)) blocks) :=
      runs_perform (c := c.enter index) hflag hflags
    exact ⟨_, .tryHalf h (henter.bind hflagged) <| (runs_openBlock _).bind <| hhandled.bind <|
      (runs_setTransaction _).bind <| (runs_pushFlag flag).bind <| (runs_pushExit _).bind <|
      runs_enterClosure.bind (runs_enter 0)⟩

/-- From an open block the generation comes to every part of the conditional that continues its
chain. -/
theorem Attains.arrives_of_enters_chain {c : Context} {p outer : Progress} {index : Nat}
    {condition : Expr} {thenBranch : List Statement} {elseBranch : Option (List Statement)}
    {enclosure : Enclosure} {blocks : List (List Go.Stmt)} (harms : arms ≠ [])
    (hhoist : condition.needsHoist = false)
    (h : procedure.Attains config c.fixed nest
      (.branches index (some [.ifElse condition thenBranch elseBranch]))
      (.of c outer (Go.writeChain writer arms) (p.output :: blocks)))
    (henters : Enters ((c.enter 1).enter 0) none (p.closed outer) writer arms
      (.ifElse condition thenBranch elseBranch) enclosure arms' inner writer') :
    procedure.Arrives config ((0, enclosure) :: (index, .elseIf) :: nest) arms' inner writer' := by
  have hchain (test : Go.Expr) : Go.openArm writer arms none test =
      (Go.writeChain writer arms).reopenBlock (Go.elseIfHead none test) :=
    if_neg (by simpa using harms)
  -- The condition is treated while the block of the last arm is still open.
  have hready {test : Go.Expr} {tested : Progress}
      (htest : (Lower.lowerCondition condition).Runs ((c.enter 1).enter 0) (p.closed outer) test
        tested) := runs_condition_inside hhoist htest (Go.writeChain writer arms)
          (p.output :: blocks)
  have hnone {tested : Progress} {test : Go.Expr} {hoists : List Go.Stmt}
      (htest : (Lower.lowerCondition condition).Runs ((c.enter 1).enter 0) (p.closed outer) test
        tested) (hhoists : tested.output = (p.closed outer).output ++ hoists) : hoists = [] := by
    have hsame := (Lower.annotated_lowerCondition hhoist htest).output
    simpa [hsame] using hhoists
  have hbehind (test : Go.Expr) (body : List Go.Stmt) :
      Go.writeChain writer (arms ++ [.mk none test body]) =
        Go.writeList ((Go.writeChain writer arms).reopenBlock (Go.elseIfHead none test)) body := by
    rw [Go.writeChain_append, hchain]
    rfl
  cases henters with
  | thenBranch htest hhoists =>
    obtain rfl := hnone htest hhoists
    obtain ⟨ready, hcondition, -, rfl⟩ := hready htest
    rw [Go.writeList, hchain]
    exact ⟨_, .nextBranch hhoist h <| (runs_enter 1).bind <| (runs_enter 0).bind <|
      hcondition.bind <| (runs_reopenBlock _).bind (runs_enter 0)⟩
  | elseBranch htest hhoists hthen hcontinues =>
    obtain rfl := hnone htest hhoists
    obtain ⟨ready, hcondition, -, rfl⟩ := hready htest
    obtain ⟨inner, rfl, rfl, hbranch⟩ := runs_openBranch hthen
    rw [Go.writeList, Go.openElse, hbehind]
    have hopen := Attains.nextBranches hhoist h <| (runs_enter 1).bind <| (runs_enter 0).bind <|
      hcondition.bind <| (runs_reopenBlock _).bind (hbranch _ _)
    exact ⟨_, .elseBranch hcontinues hopen <| (runs_reopenBlock _).bind (runs_enter 1)⟩
  | elseIf htest hhoists hthen hcontinues =>
    obtain rfl := hnone htest hhoists
    obtain ⟨ready, hcondition, -, rfl⟩ := hready htest
    obtain ⟨inner, rfl, rfl, hbranch⟩ := runs_openBranch hthen
    have hopen := Attains.nextBranches hhoist h <| (runs_enter 1).bind <| (runs_enter 0).bind <|
      hcondition.bind <| (runs_reopenBlock _).bind (hbranch _ _)
    rw [Arrives, if_neg (by simp)]
    refine ⟨_, 0, (c.enter 1).enter 0, p.closed ready, inner, blocks, rfl, rfl, ?_⟩
    rw [Go.writeList, hbehind]
    exact hopen

/-- Wherever a frame has its place, the generation with stacks comes to stand there: its stacks lead
to the context of the frame, and it has written what stands in front of the frame. -/
theorem Places.arrives (h : procedure.Places config nest arms frame writer) :
    procedure.Arrives config nest arms frame writer := by
  induction h with
  | body hheads =>
    cases hheads with
    | @mk c _ _ _ _ _ _ _ hstart hdeclared hhoisted hparams hresults hentered =>
      obtain ⟨functionName, verb, rfl⟩ := Context.start_eq_ok hstart
      exact ⟨_, .body (runs_openProcedure hdeclared hhoisted hparams hresults hentered rfl)⟩
  | @behind nest frame next writer written hplaces hstep hwritten ih =>
    obtain ⟨blocks, hattains⟩ := ih
    cases hstep with
    | @mk c index prepared result statement rest p after hruns =>
      obtain ⟨code, hcode, hstatement⟩ := (follows_branch index <| follows_located <|
        (mirrors statement).whole (c.enter index) rest prepared).runs
          (Lower.runs_within.mpr (Lower.runs_located.mpr hruns)) writer blocks
      obtain rfl := List.append_cancel_left (hcode.symm.trans hwritten)
      exact ⟨_, hattains.behind hstatement⟩
  | @into nest arms arms' frame inner writer writer' statement rest enclosure hplaces hstatements
      henters ih =>
    obtain ⟨c, index, prepared, statements, p⟩ := frame
    obtain rfl : statements = statement :: rest := hstatements
    by_cases harms : arms = []
    · subst harms
      obtain ⟨blocks, hattains⟩ := ih
      exact hattains.arrives_of_enters henters
    · obtain ⟨condition, thenBranch, elseBranch, hsingle, hhoist⟩ := hplaces.eq_singleton harms
      cases hsingle
      rw [Arrives, if_neg (by simpa using harms)] at ih
      obtain ⟨outer, conditional, c', p', open', blocks, rfl, hframe, hattains⟩ := ih
      cases hframe
      exact hattains.arrives_of_enters_chain harms hhoist henters

/-- All places of a procedure agree in what does not depend on the statement. -/
theorem Places.fixed_context {fixed : Context} (h : procedure.Places config nest arms frame writer)
    (hstart : Context.start config (.ofProcedure config procedure) procedure = .ok fixed) :
    frame.context.fixed = fixed := by
  induction h with
  | body hheads =>
    cases hheads with
    | mk hstart' =>
      obtain rfl := Except.ok.inj (hstart'.symm.trans hstart)
      exact (Context.start_eq_of hstart {}).1
  | behind _ hstep _ ih => rw [hstep.context_eq, ih]
  | into _ _ henters ih =>
    rw [← ih]
    cases henters <;> rfl

/-- A generation that is complete has written the text of its function. -/
theorem eq_of_runs_lowerProcedure {fixed : Context} {function : Go.Func} {g : Generator}
    (hstart : Context.start config (.ofProcedure config procedure) procedure = .ok fixed)
    (hruns : lowerProcedure.Runs fixed (.start config procedure) function g) :
    ∃ after, g = .of fixed after function.written [] := by
  obtain ⟨hfixed, hbegin⟩ := Context.start_eq_of hstart
    (Progress.start config (.ofProcedure config procedure))
  have hempty := Progress.output_start config (.ofProcedure config procedure)
  obtain ⟨result, after, hlower⟩ | ⟨error, after, hlower⟩ := Lower.runs_or_fails
    Lower.lowerProcedure fixed (Progress.start config (.ofProcedure config procedure))
  · have hgenerates := runs_lowerProcedure hlower hempty
    rw [hfixed, ← hbegin] at hgenerates
    obtain ⟨rfl, rfl⟩ := hruns.unique hgenerates
    exact ⟨after, rfl⟩
  · obtain ⟨g', hgenerates⟩ := Generate.fails_lowerProcedure hlower hempty
    rw [hfixed, ← hbegin] at hgenerates
    cases hruns.symm.trans hgenerates

end Procedure

/-! ## Lists of statements -/

namespace Generate

variable {fixed : Context} {g g' : Generator} {index : Nat} {prepared : Option Fetch}
  {statements : List Statement}

/-- A list of statements leaves all stacks as they were. What it has written is the text of the
statements that it has added. -/
theorem restores_lowerStatements (hfixed : fixed.fixed = fixed) (hsound : g.stacks.Sound)
    (hruns : (lowerStatements index prepared statements).Runs fixed g () g') :
    g'.stacks = g.stacks ∧ g'.blocks = g.blocks ∧
      ∃ code, g'.progress.output = g.progress.output ++ code ∧
        g'.writer = Go.writeList g.writer code ∧
        ∀ line ∈ Go.listAssigns g.writer code, line.2.bindsError = true →
          line.1.indent = g.writer.indent ∧ g.progress.names.depth = 0 := by
  obtain ⟨after, code, hlower, hcode, rfl⟩ :=
    (follows_lowerStatements _ index prepared statements).restores hfixed hsound hruns
  obtain ⟨code', hcode', hextends⟩ := Lower.extends_lowerStatements hlower
  obtain rfl := List.append_cancel_left (hcode.symm.trans hcode')
  refine ⟨?_, rfl, code, hcode, rfl, fun line hline hbinds => ⟨?_, ?_⟩⟩
  · simp only [Generator.stacks, hextends.grows.names.depth_eq, (Go.settles_writeList _ _).indent]
  · exact Go.indent_eq_of_mem_listAssigns
      (fun s hs hbinds => (hextends.shallow s hs hbinds).2) hline hbinds
  · by_contra hdepth
    have houter : g.progress.names.outer ≠ [] := fun hnil => hdepth (congrArg List.length hnil)
    have hnone := Go.listBindsError_eq_false.mpr (hextends.bindsError_eq_false houter)
    simp [Go.bindsError_of_mem_listAssigns hbinds code hline] at hnone

/-- A variable is introduced only in the outermost block of generated names. -/
theorem depth_eq_zero_of_bindLocal {name : String} {type : Go.TypeExpr}
    (hfixed : fixed.fixed = fixed) (hsound : g.stacks.Sound)
    (hruns : (bindLocal name type).Runs fixed g true g') : g.progress.names.depth = 0 := by
  obtain ⟨_, _, hlower, -⟩ := (follows_bindLocal name type).restores hfixed hsound hruns
  obtain ⟨hfalse, -⟩ | ⟨-, -, houter, -⟩ | ⟨hfalse, -⟩ := Lower.runs_bindLocal hlower
  · cases hfalse
  · exact congrArg List.length houter
  · cases hfalse

end Generate

/-- The blocks of a procedure are balanced. From any stacks, a list of statements that is treated
successfully leaves every stack as it was. Whenever a list of statements, or the branches behind an
open block, are about to be treated, the stacks hold exactly what encloses them, however they have
been moved before, and there is one block of generated names for each tab but the first; all places
of statements are such states. A variable is introduced together with `err` only where the writer
stands at indentation 1. A generation that is complete has written the text of its function, and
its stacks hold nothing but what they held at the start. -/
theorem Procedure.blocks_are_balanced {procedure : Procedure} {config : Config} {fixed : Context}
    (hstart : Context.start config (.ofProcedure config procedure) procedure = .ok fixed) :
    procedure.generate config =
        ((procedure.lower config).map fun lowered => ⟨lowered, lowered.source⟩) ∧
    (∀ g g' index prepared statements, g.stacks.Sound →
      (lowerStatements index prepared statements).Runs fixed g () g' →
        g'.stacks = g.stacks ∧ g'.blocks = g.blocks) ∧
    (∀ nest task g, procedure.Attains config fixed nest task g →
      g.stacks = task.place nest ∧ g.stacks.Sound ∧
      g.progress.names.depth + 1 = g.writer.indent ∧
      ∀ index prepared statements g', (lowerStatements index prepared statements).Runs fixed g () g' →
        ∃ code, g'.progress.output = g.progress.output ++ code ∧
          g'.writer = Go.writeList g.writer code ∧
          ∀ line ∈ Go.listAssigns g.writer code, line.2.bindsError = true → line.1.indent = 1) ∧
    (∀ nest frame writer, procedure.Places config nest [] frame writer →
      ∃ blocks, procedure.Attains config fixed nest
        (.list frame.index frame.prepared frame.statements)
        (.of frame.context frame.progress writer blocks)) ∧
    (∀ g g' name type, g.stacks.Sound → g.progress.names.depth + 1 = g.writer.indent →
      (bindLocal name type).Runs fixed g true g' → g.writer.indent = 1) ∧
    (∀ lowered, procedure.lower config = .ok lowered →
      ∀ line ∈ Go.listAssigns lowered.function.head lowered.function.body,
        line.2.bindsError = true → line.1.indent = 1) ∧
    ∀ function g', lowerProcedure.Runs fixed (.start config procedure) function g' →
      g'.stacks = { Stacks.start with indent := 0 } ∧ g'.blocks = [] ∧
      g'.writer.text = function.render := by
  obtain ⟨hfixed, -⟩ := Context.start_eq_of hstart {}
  refine ⟨procedure.generate_eq config, ?restores, ?attains, ?places, ?binds, ?lines, ?completes⟩
  case restores =>
    intro g g' index prepared statements hsound hruns
    obtain ⟨hstacks, hblocks, -⟩ := restores_lowerStatements hfixed hsound hruns
    exact ⟨hstacks, hblocks⟩
  case attains =>
    intro nest task g hattains
    have hstacks := hattains.stacks_eq hstart
    have hsound : g.stacks.Sound := hstacks ▸ task.sound_place nest
    have hdepth : g.stacks.depth + 1 = g.stacks.indent := by
      rw [hstacks]
      exact task.depth_place nest
    refine ⟨hstacks, hsound, hdepth, fun index prepared statements g' hruns => ?_⟩
    obtain ⟨-, -, code, hcode, hwriter, hlines⟩ := restores_lowerStatements hfixed hsound hruns
    refine ⟨code, hcode, hwriter, fun line hline hbinds => ?_⟩
    obtain ⟨hindent, hzero⟩ := hlines line hline hbinds
    rw [hindent]
    exact hdepth.symm.trans (congrArg (· + 1) hzero)
  case places =>
    intro nest frame writer hplaces
    obtain ⟨blocks, hattains⟩ := hplaces.arrives
    exact ⟨blocks, hplaces.fixed_context hstart ▸ hattains⟩
  case binds =>
    intro g g' name type hsound hdepth hruns
    rw [← hdepth, depth_eq_zero_of_bindLocal hfixed hsound hruns]
  case lines =>
    intro lowered hlower line hline hbinds
    rw [Go.indent_eq_of_mem_listAssigns (shallow_body hlower) hline hbinds, Go.Func.indent_head]
  case completes =>
    intro function g' hruns
    refine ⟨moves_lowerProcedure hfixed rfl hruns, ?_⟩
    obtain ⟨after, rfl⟩ := eq_of_runs_lowerProcedure hstart hruns
    exact ⟨rfl, (Go.Func.render_eq function).symm⟩

open Build in
/-- A procedure that catches failures in a loop of a branch. -/
def Procedure.ward : Procedure where
  name := "usp_Ward"
  params := [output "n" "INT" none]
  body := [.ifElse (lt (var "n") (int 3))
    [.while (lt (var "n") (int 3)) [.tryCatch [.delete (delete "jobs")] []]] none]

/-- The protected statement of `Procedure.ward` stands in the fourth block of its function, and in
that block its statement leaves the stacks. -/
theorem Procedure.ward_blocks_are_balanced :
    ∃ fixed nest g g', Context.start {} (.ofProcedure {} ward) ward = .ok fixed ∧
      ward.Attains {} fixed nest (.list 0 none [.delete (Build.delete "jobs")]) g ∧
      g.stacks = ⟨4, 3, [.tryHalf, .body], [0, 1], [0, 0, 0, 0, 0, 0], [none], []⟩ ∧
      (lowerStatements 0 none [.delete (Build.delete "jobs")]).Runs fixed g () g' ∧
      g'.stacks = g.stacks := by
  have hlowers : (Procedure.ward.lower {}).isOk = true := by decide +kernel
  obtain ⟨lowered, hlower⟩ := Procedure.exists_lower_eq_ok hlowers
  obtain ⟨body, hbegins, hbody⟩ := Procedure.exists_begins hlower
  obtain ⟨head, hhead⟩ := hbegins.exists_heads
  obtain ⟨hstart, -, hindex, -, hlist⟩ := hbegins
  obtain ⟨_, _, branch, _, henters, -, hbranch, hplaces⟩ :=
    (Procedure.Places.body hhead).exists_part hbody hlist
      (show Statement.part? _ .thenBranch = some _ from rfl)
  cases henters with
  | thenBranch =>
    obtain ⟨_, _, round, _, henters, -, hround, hplaces⟩ :=
      hplaces.exists_part hbranch rfl (show Statement.part? _ .body = some _ from rfl)
    cases henters with
    | testedLoop _ hhoist => cases hhoist
    | cursorLoop hcursor => cases hcursor
    | loop =>
      obtain ⟨_, _, attempt, _, henters, hattempt, hprotected, hplaces⟩ :=
        hplaces.exists_part hround rfl (show Statement.part? _ .tryHalf = some _ from rfl)
      cases henters with
      | catchHalf => cases hattempt
      | tryHalf hflag =>
        obtain ⟨-, -, hflag⟩ := Lower.runs_returnFlag? hflag
        rw [if_neg fun h => by cases h.2] at hflag
        obtain ⟨-, hrestores, hreached, hplaced, -⟩ := Procedure.blocks_are_balanced hstart
        obtain ⟨blocks, hattains⟩ := hplaced _ _ _ hplaces
        obtain ⟨hstacks, hsound, -⟩ := hreached _ _ _ hattains
        obtain ⟨after, hafter⟩ := hprotected
        obtain ⟨code, -, hruns⟩ := (follows_lowerStatements _ _ _ _).runs hafter _ blocks
        rw [hplaces.fixed_context hstart] at hruns
        refine ⟨_, _, _, _, hstart, hattains, ?_, hruns, (hrestores _ _ _ _ _ hsound hruns).1⟩
        rw [hstacks, Task.place, hindex, hflag]
        rfl

end Sproc
