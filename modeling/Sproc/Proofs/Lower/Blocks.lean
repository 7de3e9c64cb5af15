import Sproc.Proofs.Lower.Scope

/-!
# Open blocks

A frame stands in the blocks of the parts around it, behind what has been written into them. A
writer that has written all of this is at hand for each frame, and with it the place of the code of
the frame in the text of the function.

## Main definitions

* `Enclosure`: how a part of a statement encloses what stands in it
* `Enters`: a part of a statement with the writer that stands in front of it
* `Procedure.Places`: the frames of a procedure, with the parts around them and the writer

## Main results

* `Procedure.Visits.exists_places`: every frame that has statements has a place
-/

namespace Sproc

open Lower

/-- How a part of a statement encloses what stands in it. -/
inductive Enclosure where
  | branch (index : Nat)
  /-- An alternative that continues a chain of conditionals has no Go block of its own. -/
  | elseIf
  | loop
  | cursorLoop (cursor : String)
  /-- Neither have statements between `BEGIN` and `END`. -/
  | block
  | tryHalf (flag : Option String)
  | catchHalf
  deriving DecidableEq, Repr

/-! ## Frames with writers -/

/-- A statement that is treated in a context, with a fetch that has prepared a later loop, some
progress, a writer, and the arms of the chain that the statement continues, if it does, encloses a
frame. Its writer stands behind the line that opens the innermost block around the frame, and behind
what the frame has in front of it in that block. -/
inductive Enters (c : Context) (prepared : Option Fetch) (p : Progress) (writer : Go.Writer)
    (arms : List Go.Arm) : Statement → Enclosure → List Go.Arm → Frame → Go.Writer → Prop
  | thenBranch {condition : Expr} {thenBranch : List Statement}
    {elseBranch : Option (List Statement)} {test : Go.Expr} {tested : Progress}
    {hoists : List Go.Stmt} :
    (lowerCondition condition).Runs c p test tested → tested.output = p.output ++ hoists →
    Enters c prepared p writer arms (.ifElse condition thenBranch elseBranch) (.branch 0) []
      ⟨c.enter 0, 0, none, thenBranch, tested.opened⟩
      (Go.openArm (Go.writeList writer hoists) arms none test)
  | elseBranch {condition : Expr} {thenBranch elseBranch : List Statement} {test : Go.Expr}
    {body : List Go.Stmt} {tested passed : Progress} {hoists : List Go.Stmt} :
    (lowerCondition condition).Runs c p test tested → tested.output = p.output ++ hoists →
    (block (within (Context.enter 0) (lowerStatements 0 none thenBranch))).Runs c tested body
      passed → Statement.continuesChain elseBranch = false →
    Enters c prepared p writer arms (.ifElse condition thenBranch (some elseBranch)) (.branch 1) []
      ⟨c.enter 1, 0, none, elseBranch, passed.opened⟩
      (Go.openElse (Go.writeList writer hoists) (arms ++ [.mk none test body]))
  /-- In front of the whole chain nothing has been written of it. -/
  | elseIf {condition : Expr} {thenBranch elseBranch : List Statement} {test : Go.Expr}
    {body : List Go.Stmt} {tested passed : Progress} {hoists : List Go.Stmt} :
    (lowerCondition condition).Runs c p test tested → tested.output = p.output ++ hoists →
    (block (within (Context.enter 0) (lowerStatements 0 none thenBranch))).Runs c tested body
      passed → Statement.continuesChain elseBranch = true →
    Enters c prepared p writer arms (.ifElse condition thenBranch (some elseBranch)) .elseIf
      (arms ++ [.mk none test body]) ⟨c.enter 1, 0, none, elseBranch, passed⟩
      (Go.writeList writer hoists)
  | loop {condition : Expr} {body : List Statement} {test : Go.Expr} {tested : Progress}
    {hoists : List Go.Stmt} :
    sentinelRest? condition = none → condition.needsHoist = false →
    (lowerCondition condition).Runs c p test tested → tested.output = p.output ++ hoists →
    Enters c prepared p writer arms (.while condition body) .loop []
      ⟨c.enterLoop.enter 0, 0, none, body, tested.opened⟩
      (Go.openLoop (Go.writeList writer hoists) (some test))
  | testedLoop {condition : Expr} {body : List Statement} {tested : Progress} :
    sentinelRest? condition = none → condition.needsHoist = true →
    (emitLoopTest condition).Runs c.enterLoop p.opened () tested →
    Enters c prepared p writer arms (.while condition body) .loop []
      ⟨c.enterLoop.enter 0, 0, none, body, tested⟩
      (Go.writeList (Go.openLoop writer none) tested.output)
  | cursorLoop {condition : Expr} {body : List Statement} {more : Option Expr} {fetch : Fetch}
    {iterator : Go.Expr} {targets : List String} {found named started : Progress} :
    sentinelRest? condition = some more →
    prepared.or (Statement.firstFetch? body) = some fetch →
    (fetchIterator fetch).Runs (c.enter 0) p iterator found →
    (goNames fetch.into).Runs (c.enter 0) found targets named →
    (emitRound iterator targets more).Runs (inCursorLoop fetch (c.enter 0)) named.opened ()
      started →
    Enters c prepared p writer arms (.while condition body)
      (.cursorLoop (Text.toLower fetch.cursor)) []
      ⟨inCursorLoop fetch (c.enter 0), 0, none, body, started⟩
      (Go.writeList (Go.openLoop writer (some (.invoke iterator "Next" []))) started.output)
  | block {body : List Statement} :
    Enters c prepared p writer arms (.block body) .block [] ⟨c, 0, none, body, p⟩ writer
  | catchHalf {tryBody catchBody : List Statement} {flag : Option String}
    {flagged started : Progress} :
    (returnFlag? tryBody).Runs c p flag flagged →
    (emitHandlerStart catchBody).Runs c
      { flagged with
        transaction := handlerTransaction tryBody p.transaction }.opened.opened.opened () started →
    Enters c prepared p writer arms (.tryCatch tryBody catchBody) .catchHalf []
      ⟨inHandler c, 0, none, catchBody, started⟩
      (Go.writeList (Go.openArm (Go.openLiteral (Go.openLiteral
        (Go.writeList writer (flagLines flag)) false) true) [] (some Idiom.recovered)
        (.binary "!=" (.name "r") .nil)) started.output)
  | tryHalf {tryBody catchBody : List Statement} {flag : Option String}
    {flagged handled : Progress} :
    (returnFlag? tryBody).Runs c p flag flagged →
    (emitRecover catchBody (lowerStatements 0 none catchBody)).Runs c
      { flagged with transaction := handlerTransaction tryBody p.transaction }.opened () handled →
    Enters c prepared p writer arms (.tryCatch tryBody catchBody) (.tryHalf flag) []
      ⟨inTry flag c, 0, none, tryBody, { handled with transaction := p.transaction }⟩
      (Go.writeList (Go.openLiteral (Go.writeList writer (flagLines flag)) false) handled.output)

/-- The frame of the body of a procedure, with the writer behind the head of the function. -/
inductive Procedure.Heads (procedure : Procedure) (config : Config) : Frame → Go.Writer → Prop
  | mk {c : Context} {params results : List (String × Go.TypeExpr)}
    {declared hoisted middle headed entered : Progress} :
    Context.start config (.ofProcedure config procedure) procedure = .ok c →
    (declareParams procedure.params).Runs c
      (Progress.start config (.ofProcedure config procedure)) () declared →
    (declareHoisted procedure.statements c.survey.hoisted).Runs c declared () hoisted →
    functionParams.Runs c hoisted params middle → functionResults.Runs c middle results headed →
    emitPrologue.Runs c headed () entered →
    Heads procedure config ⟨c, 0, none, procedure.body, entered⟩
      (Go.Func.head ⟨commentLines c.functionName procedure hoisted.symbols, c.functionName, params,
        results, []⟩)

/-- The frames that the generation of a procedure goes through, each with the parts that enclose it,
with the arms of the chain that it continues, if it does, and with the writer that has written
everything in front of it. -/
inductive Procedure.Places (procedure : Procedure) (config : Config) :
    List (Nat × Enclosure) → List Go.Arm → Frame → Go.Writer → Prop
  | body {frame : Frame} {head : Go.Writer} : procedure.Heads config frame head →
    Places procedure config [] [] frame (Go.writeList head frame.progress.output)
  | behind {nest : List (Nat × Enclosure)} {frame next : Frame} {writer : Go.Writer}
    {written : List Go.Stmt} : Places procedure config nest [] frame writer → frame.Step next →
    next.progress.output = frame.progress.output ++ written →
    Places procedure config nest [] next (Go.writeList writer written)
  | into {nest : List (Nat × Enclosure)} {arms arms' : List Go.Arm} {frame inner : Frame}
    {writer writer' : Go.Writer} {statement : Statement} {rest : List Statement}
    {enclosure : Enclosure} : Places procedure config nest arms frame writer →
    frame.statements = statement :: rest →
    Enters frame.here frame.prepared frame.progress writer arms statement enclosure arms' inner
      writer' →
    Places procedure config ((frame.index, enclosure) :: nest) arms' inner writer'

/-! ## All frames have places -/

section Parts

variable {c : Context} {prepared : Option Fetch} {p : Progress} {writer writer' : Go.Writer}
  {arms arms' : List Go.Arm} {statement : Statement} {enclosure : Enclosure} {inner : Frame}

theorem Enters.exists_opens
    (h : Enters c prepared p writer arms statement enclosure arms' inner writer') :
    ∃ part, Opens c prepared p statement part inner := by
  cases h with
  | thenBranch htest _ => exact ⟨_, .thenBranch htest⟩
  | @elseBranch _ _ elseBranch _ _ _ passed _ htest _ hthen hchain =>
    have hstart : passed.opened = elseStart elseBranch passed := by simp [elseStart, hchain]
    rw [hstart]
    exact ⟨_, .elseBranch htest hthen⟩
  | @elseIf _ _ elseBranch _ _ _ passed _ htest _ hthen hchain =>
    have hstart : passed = elseStart elseBranch passed := by simp [elseStart, hchain]
    rw [hstart]
    exact ⟨_, .elseBranch htest hthen⟩
  | loop hrest hhoist htest _ => exact ⟨_, .loop hrest hhoist htest⟩
  | testedLoop hrest hhoist htest => exact ⟨_, .testedLoop hrest hhoist htest⟩
  | cursorLoop hrest hfetch hiterator htargets hround =>
    exact ⟨_, .cursorLoop hrest hfetch hiterator htargets hround⟩
  | block => exact ⟨_, .block⟩
  | catchHalf hflag hstart => exact ⟨_, .catchHalf hflag hstart⟩
  | tryHalf hflag hrecover => exact ⟨_, .tryHalf hflag hrecover⟩

/-- Each part that is opened has a writer. -/
theorem Opens.exists_enters {part : Part} (h : Opens c prepared p statement part inner)
    (writer : Go.Writer) (arms : List Go.Arm) : ∃ enclosure arms' writer',
      Enters c prepared p writer arms statement enclosure arms' inner writer' := by
  cases h with
  | thenBranch htest =>
    obtain ⟨hoists, hhoists, -⟩ := extends_lowerCondition htest
    exact ⟨_, _, _, .thenBranch htest hhoists⟩
  | @elseBranch _ _ elseBranch _ _ _ _ htest hthen =>
    obtain ⟨hoists, hhoists, -⟩ := extends_lowerCondition htest
    cases hchain : Statement.continuesChain elseBranch with
    | false =>
      simp only [elseStart, hchain, Bool.false_eq_true, if_false]
      exact ⟨_, _, _, .elseBranch htest hhoists hthen hchain⟩
    | true =>
      simp only [elseStart, hchain, if_true]
      exact ⟨_, _, _, .elseIf htest hhoists hthen hchain⟩
  | loop hrest hhoist htest =>
    obtain ⟨hoists, hhoists, -⟩ := extends_lowerCondition htest
    exact ⟨_, _, _, .loop hrest hhoist htest hhoists⟩
  | testedLoop hrest hhoist htest => exact ⟨_, _, _, .testedLoop hrest hhoist htest⟩
  | cursorLoop hrest hfetch hiterator htargets hround =>
    exact ⟨_, _, _, .cursorLoop hrest hfetch hiterator htargets hround⟩
  | block => exact ⟨_, _, _, .block⟩
  | catchHalf hflag hstart => exact ⟨_, _, _, .catchHalf hflag hstart⟩
  | tryHalf hflag hrecover => exact ⟨_, _, _, .tryHalf hflag hrecover⟩

end Parts

namespace Procedure

variable {procedure : Procedure} {config : Config} {lowered : LoweredProcedure}
  {nest : List (Nat × Enclosure)} {arms : List Go.Arm} {frame : Frame} {writer : Go.Writer}

theorem Heads.begins (h : procedure.Heads config frame writer) : procedure.Begins config frame := by
  cases h with
  | @mk c _ _ _ _ _ _ _ hstart hdeclared hhoisted hparams hresults hentered =>
    refine ⟨hstart, ?_, rfl, rfl, rfl⟩
    obtain ⟨functionName, verb, rfl⟩ := Context.start_eq_ok hstart
    simp only [lowerEntry, runs_bind, runs_read]
    exact ⟨_, _, ⟨rfl, rfl⟩, (), _, hdeclared, (), _, hhoisted, _, _, hparams, _, _, hresults,
      hentered⟩

/-- The body of a procedure has a writer. -/
theorem Begins.exists_heads (h : procedure.Begins config frame) :
    ∃ head, procedure.Heads config frame head := by
  obtain ⟨c, index, prepared, statements, p⟩ := frame
  obtain ⟨hstart, hentry, rfl, rfl, rfl⟩ := h
  obtain ⟨functionName, verb, rfl⟩ := Context.start_eq_ok hstart
  simp only [lowerEntry, runs_bind, runs_read] at hentry
  obtain ⟨_, _, ⟨rfl, rfl⟩, _, declared, hdeclared, _, hoisted, hhoisted, params, middle, hparams,
    results, headed, hresults, hentered⟩ := hentry
  exact ⟨_, .mk hstart hdeclared hhoisted hparams hresults hentered⟩

theorem Heads.indent_eq (h : procedure.Heads config frame writer) : writer.indent = 1 := by
  cases h with
  | mk => exact Go.Func.indent_head _

/-- What stands in front of the statements of a procedure is written into the outermost block. -/
theorem Begins.shallow (h : procedure.Begins config frame) : frame.progress.names.outer = [] ∧
    ∀ s ∈ frame.progress.output, s.bindsError = true → ∃ a, s = .assign a := by
  have hpermissive := Scheme.permissive_keeping (fun _ => True) frame.context
  have hentry := hasEffect_lowerEntry (c := frame.context) hpermissive.regular
    hpermissive.releasing (fun h => h.1)
    (Scheme.lasting_keeping (fun _ _ => trivial) frame.context)
  obtain ⟨-, added, hadded, -, hextends⟩ := hentry h.2.1 trivial
  obtain rfl : frame.progress.output = added := hadded
  exact ⟨hextends.grows.names.outer, fun s hs hbinds => (hextends.shallow s hs hbinds).2⟩

/-- Only a chain of conditionals is continued. -/
theorem Places.eq_singleton (h : procedure.Places config nest arms frame writer)
    (harms : arms ≠ []) : ∃ condition thenBranch elseBranch,
      frame.statements = [.ifElse condition thenBranch elseBranch] ∧
        condition.needsHoist = false := by
  cases h with
  | body | behind => exact absurd rfl harms
  | into _ _ henters =>
    cases henters with
    | elseIf _ _ _ hchain => exact Statement.continuesChain_iff.mp hchain
    | _ => exact absurd rfl harms

theorem Places.visits (h : procedure.Places config nest arms frame writer) :
    procedure.Visits config frame := by
  induction h with
  | body hheads => exact ⟨_, hheads.begins, .refl⟩
  | behind _ hstep _ ih =>
    obtain ⟨first, hfirst, hpath⟩ := ih
    exact ⟨first, hfirst, hpath.tail (.behind hstep)⟩
  | into _ hstatements henters ih =>
    obtain ⟨first, hfirst, hpath⟩ := ih
    obtain ⟨part, hopens⟩ := henters.exists_opens
    exact ⟨first, hfirst, hpath.tail (.into hstatements hopens)⟩

/-- Every frame that has statements has a place. -/
theorem Visits.exists_places (h : procedure.Visits config frame)
    (hstatements : frame.statements ≠ []) :
    ∃ nest arms writer, procedure.Places config nest arms frame writer := by
  obtain ⟨first, hfirst, hpath⟩ := h
  induction hpath with
  | refl =>
    obtain ⟨head, hhead⟩ := hfirst.exists_heads
    exact ⟨_, _, _, .body hhead⟩
  | @tail frame next _ hnext ih =>
    cases hnext with
    | behind hstep =>
      have hlist : frame.statements ≠ [] := by
        cases hstep with
        | mk => exact List.cons_ne_nil _ _
      obtain ⟨nest, arms, writer, hplaces⟩ := ih hlist
      have harms : arms = [] := by
        by_contra harms
        obtain ⟨_, _, _, hsingle, -⟩ := hplaces.eq_singleton harms
        exact hstatements (hstep.statements_eq hsingle)
      subst harms
      obtain ⟨written, hwritten, -⟩ := hstep.exists_extends
      exact ⟨_, _, _, hplaces.behind hstep hwritten⟩
    | into hlist hopens =>
      obtain ⟨nest, arms, writer, hplaces⟩ := ih (hlist ▸ List.cons_ne_nil _ _)
      obtain ⟨enclosure, arms', writer', henters⟩ := hopens.exists_enters writer arms
      exact ⟨_, _, _, hplaces.into hlist henters⟩

/-- The parts of a statement have places if their frame has one. -/
theorem Places.exists_part (h : procedure.Places config nest arms frame writer)
    (hframe : frame.Succeeds) {statement : Statement} {rest body : List Statement}
    (hstatements : frame.statements = statement :: rest) {part : Part}
    (hpart : statement.part? part = some body) : ∃ enclosure arms' inner writer',
      Enters frame.here frame.prepared frame.progress writer arms statement enclosure arms' inner
        writer' ∧ inner.statements = body ∧ inner.Succeeds ∧
      procedure.Places config ((frame.index, enclosure) :: nest) arms' inner writer' := by
  obtain ⟨inner, hopens, hbody, hinner⟩ := hframe.exists_opens hstatements hpart
  obtain ⟨enclosure, arms', writer', henters⟩ := hopens.exists_enters writer arms
  exact ⟨enclosure, arms', inner, writer', henters, hbody, hinner, h.into hstatements henters⟩

/-- The return at the end of a function and everything in front of it is written into the outermost
block, where alone `err` is introduced. -/
theorem shallow_body (h : procedure.lower config = .ok lowered) :
    ∀ s ∈ lowered.function.body, s.bindsError = true → ∃ a, s = .assign a := by
  obtain ⟨first, finished, final, hbegins, hruns, hfinal, hbody⟩ := exists_begins_finish h
  obtain ⟨-, hentry⟩ := hbegins.shallow
  obtain ⟨added, hadded, hextends⟩ := extends_body hruns hfinal
  intro s hs hbinds
  rw [hbody, hadded] at hs
  rcases List.mem_append.mp hs with hs | hs
  · exact hentry s hs hbinds
  · exact (hextends.shallow s hs hbinds).2

end Procedure

end Sproc
