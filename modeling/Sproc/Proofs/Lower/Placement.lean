import Sproc.Proofs.Go.Spot
import Sproc.Proofs.Lower.Fetch
import Sproc.Proofs.Lower.Routing

/-!
# Where statements are written

Every frame of a procedure has a spot in the body of the generated function, which the code of its
statements fills. The layers of the spot are those of the branches, loops and function literals that
the statements around it have become, so what is said about a statement and its surroundings can be
read off the text of the function.

## Main definitions

* `Frame.Writes`: the code of the statements of a frame
* `Encloses`: the spot of a part in the code of its statement
* `Procedure.Stands`: the spot of a frame in the function of its procedure

## Main results

* `exists_encloses`: the code of a part has its spot in the code of the statement
* `Procedure.Stands.fill_eq`: the code of a frame fills its spot
* `Procedure.Under.exists_stands`: every statement has a frame with a spot
-/

namespace Sproc

open Lower

/-! ## The code of a frame -/

namespace Frame

variable {frame next : Frame}

/-- The statements of a frame are turned into some code. -/
def Writes (frame : Frame) (code : List Go.Stmt) : Prop :=
  ∃ after, (lowerStatements frame.index frame.prepared frame.statements).Runs frame.context
    frame.progress () after ∧ after.output = frame.progress.output ++ code

theorem Succeeds.exists_writes (h : frame.Succeeds) : ∃ code, frame.Writes code := by
  obtain ⟨after, hruns⟩ := h
  obtain ⟨code, hcode, -⟩ := extends_lowerStatements hruns
  exact ⟨code, after, hruns, hcode⟩

theorem Writes.unique {code code' : List Go.Stmt} (h : frame.Writes code)
    (h' : frame.Writes code') : code = code' := by
  obtain ⟨after, hruns, hcode⟩ := h
  obtain ⟨after', hruns', hcode'⟩ := h'
  obtain ⟨-, rfl⟩ := hruns.unique hruns'
  exact List.append_cancel_left (hcode.symm.trans hcode')

/-- The first statement of a frame adds to what is written. -/
theorem Step.exists_extends (h : frame.Step next) :
    ∃ written, next.progress.output = frame.progress.output ++ written ∧
      frame.progress.Extends (frame.context.exits = []) next.progress written := by
  cases h with
  | mk hruns =>
    obtain ⟨written, hwritten, hextends⟩ := extends_lowerStatement hruns
    exact ⟨written, hwritten, hextends⟩

/-- The code of a frame is that of its first statement and that of the others. -/
theorem Step.writes (h : frame.Step next) {written code : List Go.Stmt}
    (hwritten : next.progress.output = frame.progress.output ++ written) (hcode : next.Writes code) :
    frame.Writes (written ++ code) := by
  cases h with
  | mk hruns =>
    obtain ⟨after, hrest, houtput⟩ := hcode
    refine ⟨after, ?_, by rw [houtput, hwritten, List.append_assoc]⟩
    simp only [lowerStatements, runs_bind, runs_within, runs_located]
    exact ⟨_, _, hruns, hrest⟩

end Frame

/-! ## Spots of parts -/

/-- The declaration of the flag of a `TRY` statement, if it has one. -/
def flagLines : Option String → List Go.Stmt
  | none => []
  | some flag => [.declare flag (.value .bool) none]

/-- The check of the flag of a `TRY` statement, if it has one, and what is done when it is set. -/
def flagCheck : Option String → List Go.Stmt → List Go.Stmt
  | none, _ => []
  | some flag, body => [.branch (.mk none (.name flag) body) [] none]

/-- The assignment of what a handler recovers, and the test for it. -/
def recovery : Go.Shell :=
  .arm (some ⟨[.name "r"], true, .call (.name "recover") []⟩) (.binary "!=" (.name "r") .nil) [] none

/-- The spot of a part in the code of its statement. What follows the literal of a `TRY` statement is
written where all variables that were declared in front of the statement are known. -/
inductive Encloses (c : Context) (p : Progress) : Statement → Part → Frame → Go.Spot → Prop
  | thenBranch {condition : Expr} {thenBranch : List Statement}
    {elseBranch : Option (List Statement)} {inner : Frame} {front : List Go.Stmt} {test : Go.Expr}
    {others : List Go.Arm} {otherwise : Option (List Go.Stmt)} :
    Encloses c p (.ifElse condition thenBranch elseBranch) .thenBranch inner
      ⟨[], [], [⟨front, .arm none test others otherwise, []⟩]⟩
  | elseBranch {condition : Expr} {thenBranch elseBranch : List Statement} {inner : Frame}
    {front : List Go.Stmt} {first : Go.Arm} :
    Encloses c p (.ifElse condition thenBranch (some elseBranch)) .elseBranch inner
      ⟨[], [], [⟨front, .alternative first, []⟩]⟩
  /-- An alternative that continues the chain of conditionals. -/
  | elseIf {condition : Expr} {thenBranch elseBranch : List Statement} {inner : Frame}
    {front : List Go.Stmt} {first : Go.Arm} :
    Encloses c p (.ifElse condition thenBranch (some elseBranch)) .elseBranch inner
      ⟨[], [], [⟨front, .chained first, []⟩]⟩
  | loop {condition : Expr} {body : List Statement} {inner : Frame}
    {start front back : List Go.Stmt} {test : Option Go.Expr} :
    Encloses c p (.while condition body) .body inner ⟨start, [], [⟨front, .loop test, back⟩]⟩
  | block {body : List Statement} {inner : Frame} :
    Encloses c p (.block body) .body inner ⟨[], [], []⟩
  | tryHalf {tryBody catchBody : List Statement} {inner : Frame} {flag : Option String}
    {handler back : List Go.Stmt} {literal after : Progress} :
    inner.context = inTry flag c → p.symbols.symbols <+: literal.symbols.symbols →
    (emitWayOut flag catchBody).Runs c literal () after → after.output = literal.output ++ back →
    Encloses c p (.tryCatch tryBody catchBody) .tryHalf inner
      ⟨[.closure true handler], [], [⟨flagLines flag, .literal false, back⟩]⟩
  | catchHalf {tryBody catchBody : List Statement} {inner : Frame} {flag : Option String}
    {start attempt back : List Go.Stmt} {literal after : Progress} :
    p.symbols.symbols <+: literal.symbols.symbols →
    (emitWayOut flag catchBody).Runs c literal () after → after.output = literal.output ++ back →
    Encloses c p (.tryCatch tryBody catchBody) .catchHalf inner
      ⟨start, [], [⟨[], recovery, []⟩, ⟨[], .literal true, attempt⟩,
        ⟨flagLines flag, .literal false, back⟩]⟩

/-! ## Code of statements -/

namespace Lower

variable {c : Context} {p after : Progress}

/-- The return at the end stands behind everything else. -/
theorem exists_emitFinalReturn (h : emitFinalReturn.Runs c p () after) :
    ∃ back, after.output = p.output ++ back := by
  obtain ⟨back, hback, -⟩ := (Scheme.permissive_free c).emitFinalReturn.exists_extends h
  exact ⟨back, hback⟩

theorem extends_lowerCondition {condition : Expr} {test : Go.Expr}
    (h : (lowerCondition condition).Runs c p test after) :
    ∃ hoists, after.output = p.output ++ hoists ∧ p.Extends (c.exits = []) after hoists :=
  (hasEffect_lowerCondition (Scheme.permissive_free c).regular.forms condition).exists_extends h

theorem extends_emitRecover {catchBody : List Statement} (flag : Option String)
    (h : (emitRecover catchBody (lowerStatements 0 none catchBody)).Runs c p () after) :
    ∃ written, after.output = p.output ++ written ∧
      p.Extends ((inTry flag c).exits = []) after written :=
  (hasEffect_emitRecover Scheme.closed_free catchBody
    (hasEffect_lowerStatements Scheme.closed_free (fun _ => trivial) trivial 0 none
      catchBody)).exists_extends h

/-- The alternative of a conditional is not written before the conditional is. -/
theorem output_lowerElse {c : Context} {p after : Progress}
    {elseBranch : Option (List Statement)} {arms : List Go.Arm × Option (List Go.Stmt)}
    (h : (lowerElse elseBranch).Runs c p arms after) : after.output = p.output := by
  match elseBranch, h with
  | none, h =>
    obtain ⟨-, rfl⟩ := runs_pure.mp h
    rfl
  | some body, h =>
    cases hchain : Statement.continuesChain body with
    | false =>
      rw [lowerElse_of_not_continuesChain hchain] at h
      simp only [runs_bind, runs_block, runs_within, runs_pure] at h
      obtain ⟨_, _, ⟨inner, -, -, rfl⟩, -, rfl⟩ := h
      rfl
    | true =>
      obtain ⟨condition, thenBranch, otherwise, heq, hhoist⟩ :=
        Statement.continuesChain_iff.mp hchain
      rw [heq, lowerElse_of_continuesChain hhoist] at h
      simp only [runs_within, runs_located, runs_bind, runs_pure] at h
      obtain ⟨chain, _, hruns, -, rfl⟩ := h
      obtain ⟨test, tested, inner, htest, -, helse, -⟩ := runs_lowerChain hruns
      have hsize : sizeOf otherwise < sizeOf (some body) := by
        simp only [heq, Option.some.sizeOf_spec, List.cons.sizeOf_spec,
          Statement.ifElse.sizeOf_spec]
        omega
      exact (output_lowerElse helse).trans (annotated_lowerCondition hhoist htest).output
termination_by sizeOf elseBranch

/-- A conditional that continues a chain, as a statement of its own. -/
theorem runs_chained {condition : Expr} {thenBranch : List Statement}
    {elseBranch : Option (List Statement)} {arms : List Go.Arm × Option (List Go.Stmt)}
    (hhoist : condition.needsHoist = false)
    (h : (lowerElse (some [.ifElse condition thenBranch elseBranch])).Runs c p arms after) :
    ∃ first others otherwise, arms = (first :: others, otherwise) ∧
      (lowerStatements 0 none [.ifElse condition thenBranch elseBranch]).Runs (c.enter 1) p ()
        (after.wrote (.branch first others otherwise)) := by
  rw [lowerElse_of_continuesChain hhoist] at h
  simp only [runs_within, runs_located, runs_bind, runs_pure] at h
  obtain ⟨⟨first, others, otherwise⟩, _, hruns, rfl, rfl⟩ := h
  refine ⟨first, others, otherwise, rfl, ?_⟩
  simp only [lowerStatements, lowerStatement_ifElse, runs_bind, runs_within, runs_located,
    runs_emit, runs_pure]
  exact ⟨none, _, ⟨_, _, hruns, (), _, rfl, rfl, rfl⟩, trivial, rfl⟩

/-- The protected half of a `TRY` statement has a flag exactly when a `RETURN` can leave it. -/
theorem runs_returnFlag? {body : List Statement} {flag : Option String}
    (h : (returnFlag? body).Runs c p flag after) :
    after.output = p.output ++ flagLines flag ∧ p.symbols = after.symbols ∧
      if c.exitScope ≠ .catchHalf ∧ Statement.anyProtected Statement.isReturn body = true then
        ∃ n, p.names.counter "returned" < n ∧ after.names.counter "returned" = n ∧
          flag = some (NameScope.numberedName "returned" n)
      else flag = none := by
  simp only [returnFlag?, runs_bind, runs_read] at h
  obtain ⟨_, _, ⟨rfl, rfl⟩, h⟩ := h
  split at h
  next htest =>
    simp only [runs_bind, runs_emit, runs_pure] at h
    obtain ⟨numbered, _, hfresh, _, _, rfl, rfl, rfl⟩ := h
    obtain ⟨n, hlt, rfl, rfl⟩ := runs_fresh hfresh
    refine ⟨rfl, rfl, ?_⟩
    rw [if_pos (by simpa using htest)]
    exact ⟨n, hlt, NameScope.counter_setCounter_self _ _ _, rfl⟩
  next htest =>
    obtain ⟨rfl, rfl⟩ := runs_pure.mp h
    refine ⟨(List.append_nil _).symm, rfl, ?_⟩
    rw [if_neg (by simpa using htest)]

/-- Behind the literal of a `TRY` statement its flag is checked, if it has one. -/
theorem runs_flagCheck {flag : Option String} {catchBody : List Statement}
    (h : (emitWayOut flag catchBody).Runs c p () after) :
    ∃ resumed checked : Progress, (flag.isSome = true →
        (if c.exitScope = .body then emitReturn (.name "returnCode") .nil
          else propagateReturn).Runs c p.opened () resumed) ∧
      checked.output = p.output ++ flagCheck flag resumed.output ∧
      p.symbols.symbols <+: checked.symbols.symbols ∧
      (emitWayOut none catchBody).Runs c checked () after := by
  cases flag with
  | none => exact ⟨p, p, nofun, (List.append_nil _).symm, List.prefix_refl _, h⟩
  | some flag =>
    simp only [emitWayOut, emitIf, runs_bind, runs_read, runs_block, runs_emit] at h ⊢
    obtain ⟨c, _, ⟨rfl, rfl⟩, _, _, ⟨_, _, ⟨resumed, hresumed, rfl, rfl⟩, rfl⟩, hreport⟩ := h
    obtain ⟨_, -, hextends⟩ := (Scheme.permissive_free c).leaving.resume.exists_extends hresumed
    refine ⟨resumed, (Progress.closed _ resumed).wrote (.branch (.mk none (.name flag)
      resumed.output) [] none), fun _ => hresumed, rfl, hextends.grows.symbols, ?_⟩
    exact ⟨_, _, ⟨rfl, rfl⟩, hreport⟩

/-- Behind that check the error is reported that the handler may have raised. -/
theorem runs_report {catchBody : List Statement} (h : (emitWayOut none catchBody).Runs c p () after)
    (hneeds : c.survey.needsErr = true)
    (hraises : Statement.anyHandler Statement.raises catchBody = true) :
    ∃ reported : Progress, (if c.exitScope = .catchHalf then emit (.ret [])
        else errorExit).Runs c p.opened () reported ∧
      after.output = p.output ++ [Go.Stmt.branch (.mk none failed reported.output) [] none] := by
  simp only [emitWayOut, runs_bind, runs_read] at h
  obtain ⟨_, _, ⟨rfl, rfl⟩, hreport⟩ := h
  simp only [hneeds, hraises, Bool.and_self, if_true, emitIf, runs_bind, runs_block,
    runs_emit] at hreport
  obtain ⟨_, _, ⟨reported, hreported, rfl, rfl⟩, rfl⟩ := hreport
  exact ⟨reported, hreported, rfl⟩

end Lower

/-! ## The spot of a part -/

section Parts

variable {c : Context} {p after : Progress} {rest : List Statement}
  {prepared result : Option Fetch} {inner : Frame} {code : List Go.Stmt}

/-- The branches of a conditional are its arms, or it continues the chain. -/
theorem encloses_ifElse {condition : Expr} {thenBranch : List Statement}
    {elseBranch : Option (List Statement)} {part : Part}
    (h : (lowerStatement rest prepared (.ifElse condition thenBranch elseBranch)).Runs c p result
      after)
    (hopens : Opens c prepared p (.ifElse condition thenBranch elseBranch) part inner)
    (hcode : inner.Writes code) :
    ∃ spot, Encloses c p (.ifElse condition thenBranch elseBranch) part inner spot ∧
      after.output = p.output ++ spot.fill code := by
  obtain ⟨⟨first, others, otherwise⟩, passed, hchain, rfl, -⟩ := runs_ifElse h
  obtain ⟨test, tested, branch, htest, hbranch, helse, rfl⟩ := runs_lowerChain hchain
  obtain ⟨hoists, hhoists, -⟩ := extends_lowerCondition htest
  have hpassed : passed.output = p.output ++ hoists := (output_lowerElse helse).trans hhoists
  obtain ⟨final, hfinal, houtput⟩ := hcode
  cases hopens with
  | thenBranch htest' =>
    obtain ⟨rfl, rfl⟩ := htest.unique htest'
    obtain ⟨-, rfl⟩ := hbranch.unique hfinal
    refine ⟨⟨[], [], [⟨hoists, .arm none test others otherwise, []⟩]⟩, .thenBranch, ?_⟩
    simp [Progress.wrote, hpassed, houtput, Progress.opened, Go.Spot.fill, Go.Layer.fill,
      Go.Shell.fill]
  | @elseBranch _ _ elseBranch _ body _ _ htest' hbranch' =>
    obtain ⟨rfl, rfl⟩ := htest.unique htest'
    obtain ⟨_, hruns, -, rfl⟩ := runs_block.mp hbranch'
    obtain ⟨-, rfl⟩ := hbranch.unique (runs_within.mp hruns)
    cases hcontinues : Statement.continuesChain elseBranch with
    | false =>
      rw [lowerElse_of_not_continuesChain hcontinues] at helse
      simp only [runs_bind, runs_block, runs_within, runs_pure] at helse
      obtain ⟨_, _, ⟨final', hfinal', rfl, -⟩, harms, -⟩ := helse
      obtain ⟨rfl, rfl⟩ := Prod.mk.inj harms
      simp only [elseStart, hcontinues, Bool.false_eq_true, if_false] at hfinal houtput
      obtain ⟨-, rfl⟩ := hfinal.unique hfinal'
      refine ⟨⟨[], [], [⟨hoists, .alternative (.mk none test branch.output), []⟩]⟩, .elseBranch, ?_⟩
      simp [Progress.wrote, hpassed, houtput, Progress.opened, Go.Spot.fill, Go.Layer.fill,
        Go.Shell.fill]
    | true =>
      obtain ⟨condition', thenBranch', otherwise', rfl, hhoist⟩ :=
        Statement.continuesChain_iff.mp hcontinues
      obtain ⟨next, others, otherwise, harms, hfinal'⟩ := runs_chained hhoist helse
      obtain ⟨rfl, rfl⟩ := Prod.mk.inj harms
      simp only [elseStart, hcontinues, if_true] at hfinal houtput
      obtain ⟨-, rfl⟩ := hfinal.unique hfinal'
      -- The conditional would be all that the alternative writes, and joins the chain instead.
      have hcode : code = [.branch next others otherwise] := by
        rw [Progress.wrote, hpassed, Progress.closed, hhoists] at houtput
        exact (List.append_cancel_left houtput).symm
      subst hcode
      refine ⟨⟨[], [], [⟨hoists, .chained (.mk none test branch.output), []⟩]⟩, .elseIf, ?_⟩
      simp [Progress.wrote, hpassed, Go.Spot.fill, Go.Layer.fill, Go.Shell.fill]

/-- The body of a loop stands behind what each round starts with. -/
theorem encloses_while {condition : Expr} {body : List Statement} {part : Part}
    (h : (lowerStatement rest prepared (.while condition body)).Runs c p result after)
    (hopens : Opens c prepared p (.while condition body) part inner) (hcode : inner.Writes code) :
    ∃ spot, Encloses c p (.while condition body) part inner spot ∧
      after.output = p.output ++ spot.fill code := by
  obtain ⟨final, hfinal, houtput⟩ := hcode
  cases hopens with
  | @loop _ _ test tested hcursor hhoist htest =>
    obtain ⟨hwhile, -⟩ := runs_while hcursor h
    obtain ⟨hhoist', -⟩ | ⟨-, test', tested', final', htest', hbody, rfl⟩ := runs_lowerWhile hwhile
    · simp [hhoist] at hhoist'
    · obtain ⟨rfl, rfl⟩ := htest.unique htest'
      obtain ⟨-, rfl⟩ := hfinal.unique (runs_within.mp hbody)
      obtain ⟨hoists, hhoists, -⟩ := extends_lowerCondition htest
      refine ⟨⟨[], [], [⟨hoists, .loop (some test), []⟩]⟩, .loop, ?_⟩
      simp [Progress.wrote, Progress.closed, hhoists, houtput, Progress.opened, Go.Spot.fill,
        Go.Layer.fill, Go.Shell.fill]
  | @testedLoop _ _ tested hcursor hhoist htest =>
    obtain ⟨hwhile, -⟩ := runs_while hcursor h
    obtain ⟨-, tested', final', htest', hbody, rfl⟩ | ⟨hhoist', -⟩ := runs_lowerWhile hwhile
    · obtain ⟨-, rfl⟩ := htest.unique htest'
      obtain ⟨-, rfl⟩ := hfinal.unique (runs_within.mp hbody)
      refine ⟨⟨tested.output, [], [⟨[], .loop none, []⟩]⟩, .loop, ?_⟩
      simp [Progress.wrote, Progress.closed, houtput, Go.Spot.fill, Go.Layer.fill, Go.Shell.fill]
    · simp [hhoist] at hhoist'
  | @cursorLoop _ _ more fetch iterator targets found named started hcursor hfetch hiterator
      htargets hround =>
    obtain ⟨-, fetch', hfetch', hloop⟩ := runs_cursorLoop hcursor h
    obtain rfl := Option.some.inj (hfetch.symm.trans hfetch')
    obtain ⟨iterator', targets', found', named', started', final', hiterator', htargets', hround',
      hbody, hcheck⟩ := runs_lowerCursorLoop hloop
    obtain ⟨rfl, rfl⟩ := hiterator.unique hiterator'
    obtain ⟨rfl, rfl⟩ := htargets.unique htargets'
    obtain ⟨-, rfl⟩ := hround.unique hround'
    obtain ⟨-, rfl⟩ := hfinal.unique hbody
    obtain ⟨rfl, -⟩ := reads_of_runs hiterator htargets
    obtain ⟨failure, hafter⟩ := runs_emitGuarded hcheck
    refine ⟨⟨started.output, [], [⟨[], .loop (some (.invoke iterator "Next" [])),
      [.branch (.mk (some (assignTo [err] (.invoke iterator "Err" []))) failed failure) [] none]⟩]⟩,
      .loop, ?_⟩
    rw [hafter]
    simp [Progress.wrote, Progress.closed, houtput, Go.Spot.fill, Go.Layer.fill, Go.Shell.fill]

/-- The literal of a `TRY` statement holds the handler in a deferred literal, and then the protected
statements. -/
theorem encloses_tryCatch {tryBody catchBody : List Statement} {part : Part}
    (h : (lowerStatement rest prepared (.tryCatch tryBody catchBody)).Runs c p result after)
    (hopens : Opens c prepared p (.tryCatch tryBody catchBody) part inner)
    (hcode : inner.Writes code) :
    ∃ spot, Encloses c p (.tryCatch tryBody catchBody) part inner spot ∧
      after.output = p.output ++ spot.fill code := by
  obtain ⟨flag, flagged, handled, attempted, hflag, hrecover, hattempt, literal, hout, -, hliteral,
    hsymbols, -⟩ := runs_lowerTryCatch (runs_tryCatch h).2
  obtain ⟨started, caught, hstart, hhandler, -, hhandled, -⟩ := runs_emitRecover hrecover
  obtain ⟨hflagged, hsame, -⟩ := runs_returnFlag? hflag
  obtain ⟨back, hback, -⟩ :=
    ((Scheme.permissive_free c).emitWayOut flag catchBody).exists_extends hout
  obtain ⟨attempt, hattempted, hgrows⟩ := extends_lowerStatements hattempt
  obtain ⟨_, -, hgrows'⟩ := extends_emitRecover flag hrecover
  have hgrown : p.symbols.symbols <+: literal.symbols.symbols := by
    rw [hsymbols, hsame]
    exact hgrows'.grows.symbols.trans hgrows.grows.symbols
  have hafter : after.output =
      p.output ++ (flagLines flag ++ .closure false attempted.output :: back) := by
    rw [hback, hliteral, hflagged]
    simp
  have hhandled : handled.output = [.closure true [recovery.fill caught.output]] := hhandled
  obtain ⟨final, hfinal, houtput⟩ := hcode
  cases hopens with
  | tryHalf hflag' hrecover' =>
    obtain ⟨rfl, rfl⟩ := hflag.unique hflag'
    obtain ⟨-, rfl⟩ := hrecover.unique hrecover'
    obtain ⟨-, rfl⟩ := hattempt.unique hfinal
    refine ⟨⟨[.closure true [recovery.fill caught.output]], [],
      [⟨flagLines flag, .literal false, back⟩]⟩, .tryHalf rfl hgrown hout hback, ?_⟩
    dsimp only at houtput
    rw [hafter, houtput, hhandled]
    simp [Go.Spot.fill, Go.Layer.fill, Go.Shell.fill]
  | catchHalf hflag' hstart' =>
    obtain ⟨rfl, rfl⟩ := hflag.unique hflag'
    obtain ⟨-, rfl⟩ := hstart.unique hstart'
    obtain ⟨-, rfl⟩ := hhandler.unique hfinal
    refine ⟨⟨started.output, [], [⟨[], recovery, []⟩, ⟨[], .literal true, attempt⟩,
      ⟨flagLines flag, .literal false, back⟩]⟩, .catchHalf hgrown hout hback, ?_⟩
    dsimp only at houtput hattempted
    rw [hafter, hattempted, hhandled, houtput]
    simp [Go.Spot.fill, Go.Layer.fill, Go.Shell.fill]

/-- The code of a part has its spot in the code of the statement. -/
theorem exists_encloses {statement : Statement} {part : Part}
    (h : (lowerStatement rest prepared statement).Runs c p result after)
    (hopens : Opens c prepared p statement part inner) (hcode : inner.Writes code) :
    ∃ spot, Encloses c p statement part inner spot ∧
      after.output = p.output ++ spot.fill code := by
  cases statement with
  | ifElse => exact encloses_ifElse h hopens hcode
  | «while» => exact encloses_while h hopens hcode
  | tryCatch => exact encloses_tryCatch h hopens hcode
  | block body =>
    cases hopens with
    | block =>
      obtain ⟨final, hfinal, houtput⟩ := hcode
      obtain ⟨-, rfl⟩ := (runs_blockStatement h).1.unique hfinal
      refine ⟨⟨[], [], []⟩, .block, ?_⟩
      simpa [Go.Spot.fill] using houtput
  | _ => cases hopens

end Parts

/-- Where a part starts, all is known that is known in front of its statement. -/
theorem Opens.follows {c : Context} {prepared : Option Fetch} {p : Progress} {statement : Statement}
    {part : Part} {inner : Frame} (h : Opens c prepared p statement part inner) :
    p.Follows inner.progress := by
  have hcondition {c : Context} {p tested : Progress} {condition : Expr} {test : Go.Expr}
      (h : (lowerCondition condition).Runs c p test tested) : p.Follows tested := by
    obtain ⟨_, -, hextends⟩ := extends_lowerCondition h
    exact hextends.grows.follows
  have hregular (c : Context) : (Scheme.free.discipline c).Regular c :=
    (Scheme.permissive_free c).regular
  cases h with
  | thenBranch htest => exact (hcondition htest).trans (Progress.follows_opened _)
  | @elseBranch _ _ elseBranch _ _ _ passed htest hthen =>
    obtain ⟨final, hbranch, -, rfl⟩ := runs_block.mp hthen
    obtain ⟨_, -, hextends⟩ := extends_lowerStatements (runs_within.mp hbranch)
    have hpassed := (hcondition htest).trans hextends.grows.closed.follows
    dsimp only [elseStart]
    split
    · exact hpassed
    · exact hpassed.trans (Progress.follows_opened _)
  | loop _ _ htest => exact (hcondition htest).trans (Progress.follows_opened _)
  | testedLoop _ _ htest =>
    obtain ⟨_, -, hextends⟩ :=
      (hasEffect_emitLoopTest (hregular c.enterLoop).forms _ (hasEffect_emitBreak trivial)).exists_extends htest
    exact (Progress.follows_opened p).trans hextends.grows.follows
  | cursorLoop _ _ hiterator htargets hround =>
    obtain ⟨rfl, -⟩ := reads_of_runs hiterator htargets
    obtain ⟨_, -, hextends⟩ :=
      (hasEffect_emitRound (hregular _).forms _ _ _ (hasEffect_emitBreak trivial)).exists_extends hround
    exact (Progress.follows_opened _).trans hextends.grows.follows
  | block => exact (Progress.Grows.refl p).follows
  | @catchHalf _ catchBody _ _ _ hflag hstart =>
    obtain ⟨_, -, hflagged⟩ := (hasEffect_returnFlag? (hregular c).forms _).exists_extends hflag
    have hstarts : (emitHandlerStart catchBody).HasEffect c
        (Scheme.free.discipline (inHandler c)).effect :=
      hasEffect_emitHandlerStart (Scheme.permissive_free _).basic (fun hcounts => by cases hcounts.2) _
    obtain ⟨_, -, hextends⟩ := hstarts.exists_extends hstart
    exact hflagged.grows.follows.trans ⟨hextends.grows.names.counter, hextends.grows.symbols⟩
  | @tryHalf _ _ flag _ _ hflag hrecover =>
    obtain ⟨_, -, hflagged⟩ := (hasEffect_returnFlag? (hregular c).forms _).exists_extends hflag
    obtain ⟨_, -, hextends⟩ := extends_emitRecover flag hrecover
    exact hflagged.grows.follows.trans ⟨hextends.grows.names.counter, hextends.grows.symbols⟩

/-! ## Spots in a function -/

/-- The spot of a frame in the body of the function of its procedure. -/
inductive Procedure.Stands (procedure : Procedure) (config : Config) : Frame → Go.Spot → Prop
  | body {first : Frame} {after final : Progress} {back : List Go.Stmt} :
    procedure.Begins config first →
    (lowerStatements first.index first.prepared first.statements).Runs first.context first.progress
      () after →
    emitFinalReturn.Runs first.context after () final → final.output = after.output ++ back →
    Stands procedure config first ⟨first.progress.output, back, []⟩
  | behind {frame next : Frame} {spot : Go.Spot} {written : List Go.Stmt} :
    Stands procedure config frame spot → frame.Step next →
    next.progress.output = frame.progress.output ++ written →
    Stands procedure config next (spot.behind written)
  | into {frame next inner : Frame} {spot place : Go.Spot} {statement : Statement}
    {rest : List Statement} {part : Part} {code others : List Go.Stmt} :
    Stands procedure config frame spot → frame.statements = statement :: rest →
    Opens frame.here frame.prepared frame.progress statement part inner →
    Encloses frame.here frame.progress statement part inner place → inner.Writes code →
    frame.Step next → next.progress.output = frame.progress.output ++ place.fill code →
    next.Writes others → Stands procedure config inner (place.inside (spot.before others))

/-- The halves of `TRY` statements that a part of a statement stands in, for a statement that stands
in the given ones. -/
def Part.halves (outer : List ExitScope) : Part → List ExitScope
  | .tryHalf => .tryHalf :: outer
  | .catchHalf => .catchHalf :: outer
  | .thenBranch | .elseBranch | .body => outer

/-- A statement stands in a procedure, and these are the halves of `TRY` statements that enclose it,
innermost first. -/
inductive Procedure.Under (procedure : Procedure) : List ExitScope → Statement → Prop
  | body {statement : Statement} : statement ∈ procedure.body → Under procedure [] statement
  | part {halves : List ExitScope} {outer inner : Statement} {part : Part}
    {statements : List Statement} : Under procedure halves outer →
    outer.part? part = some statements → inner ∈ statements →
    Under procedure (part.halves halves) inner

theorem Opens.exits_eq {c : Context} {prepared : Option Fetch} {p : Progress}
    {statement : Statement} {part : Part} {inner : Frame}
    (h : Opens c prepared p statement part inner) :
    inner.context.exits = part.halves c.exits := by
  cases h <;> rfl

namespace Procedure

variable {procedure : Procedure} {config : Config} {lowered : LoweredProcedure} {frame : Frame}
  {spot : Go.Spot}

/-- The spot of the body, which the code of the statements fills. -/
theorem exists_stands_body (hlower : procedure.lower config = .ok lowered) :
    ∃ first spot, procedure.Begins config first ∧ procedure.Stands config first spot ∧
      first.Succeeds := by
  obtain ⟨first, finished, final, hbegins, hruns, hfinal, -⟩ :=
    Procedure.exists_begins_finish hlower
  obtain ⟨back, hback⟩ := exists_emitFinalReturn hfinal
  exact ⟨first, _, hbegins, .body hbegins hruns hfinal hback, finished, hruns⟩

namespace Stands

theorem visitsIn (h : procedure.Stands config frame spot) :
    procedure.VisitsIn config frame.context.exitScope frame := by
  have hvisits : ∃ scope, procedure.VisitsIn config scope frame := by
    induction h with
    | body hbegins => exact ⟨_, .body hbegins⟩
    | behind _ hstep _ ih => exact ⟨_, ih.choose_spec.behind hstep⟩
    | into _ hstatements hopens _ _ _ _ _ ih =>
      exact ⟨_, ih.choose_spec.into hstatements hopens⟩
  obtain ⟨scope, hscope⟩ := hvisits
  rwa [hscope.exitScope_eq]

theorem succeeds (h : procedure.Stands config frame spot)
    (hlower : procedure.lower config = .ok lowered) : frame.Succeeds :=
  h.visitsIn.succeeds hlower

/-- The code of a frame fills its spot. -/
theorem fill_eq (h : procedure.Stands config frame spot)
    (hlower : procedure.lower config = .ok lowered) {code : List Go.Stmt}
    (hcode : frame.Writes code) : lowered.function.body = spot.fill code := by
  induction h generalizing code with
  | @body first after final back hbegins hruns hfinal hback =>
    obtain ⟨first', after', final', hbegins', hruns', hfinal', hbody⟩ :=
      Procedure.exists_begins_finish hlower
    obtain rfl := hbegins.unique hbegins'
    obtain ⟨-, rfl⟩ := hruns.unique hruns'
    obtain ⟨-, rfl⟩ := hfinal.unique hfinal'
    obtain ⟨after', hruns', houtput⟩ := hcode
    obtain ⟨-, rfl⟩ := hruns.unique hruns'
    simp [hbody, hback, houtput, Go.Spot.fill]
  | behind _ hstep hwritten ih =>
    rw [Go.Spot.fill_behind]
    exact ih (hstep.writes hwritten hcode)
  | into _ _ _ _ hinner hstep hwritten hothers ih =>
    obtain rfl := hinner.unique hcode
    rw [Go.Spot.fill_inside, Go.Spot.fill_before]
    exact ih (hstep.writes hwritten hothers)

theorem steps {frame' : Frame} (h : procedure.Stands config frame spot)
    (hsteps : Relation.ReflTransGen Frame.Step frame frame') :
    ∃ spot', procedure.Stands config frame' spot' := by
  -- Each statement moves the spot behind what it has written.
  induction hsteps with
  | refl => exact ⟨spot, h⟩
  | tail _ hstep ih =>
    obtain ⟨spot', hspot⟩ := ih
    obtain ⟨written, hwritten, -⟩ := hstep.exists_extends
    exact ⟨_, hspot.behind hstep hwritten⟩

/-- Each part of a statement has a spot, which stands inside that of the statement. -/
theorem opens (h : procedure.Stands config frame spot) (hframe : frame.Succeeds)
    {statement : Statement} {rest : List Statement}
    (hstatements : frame.statements = statement :: rest) {part : Part} {inner : Frame}
    (hopens : Opens frame.here frame.prepared frame.progress statement part inner) :
    ∃ place others, Encloses frame.here frame.progress statement part inner place ∧
      procedure.Stands config inner (place.inside (spot.before others)) := by
  obtain ⟨code, hcode⟩ := ((Frame.Next.into hstatements hopens).succeeds hframe).exists_writes
  obtain ⟨next, hstep, hnext⟩ := hframe.exists_step hstatements
  obtain ⟨others, hothers⟩ := hnext.exists_writes
  have hencloses : ∃ place, Encloses frame.here frame.progress statement part inner place ∧
      next.progress.output = frame.progress.output ++ place.fill code := by
    cases hstep with
    | mk hruns =>
      obtain ⟨rfl, rfl⟩ := List.cons.inj hstatements
      exact exists_encloses hruns hopens hcode
  obtain ⟨place, hplace, hwritten⟩ := hencloses
  exact ⟨place, others, hplace, h.into hstatements hopens hplace hcode hstep hwritten hothers⟩

end Stands

/-- Every statement has a frame with a spot, in the context of the halves that enclose it. -/
theorem Under.exists_stands {halves : List ExitScope} {statement : Statement}
    (h : procedure.Under halves statement) (hlower : procedure.lower config = .ok lowered) :
    ∃ frame rest spot, procedure.Stands config frame spot ∧
      frame.statements = statement :: rest ∧ frame.context.exits = halves := by
  have hreach {frame : Frame} {spot : Go.Spot} {statement : Statement}
      (hstands : procedure.Stands config frame spot) (hmem : statement ∈ frame.statements) :
      ∃ frame' rest spot', procedure.Stands config frame' spot' ∧
        frame'.statements = statement :: rest ∧ frame'.context.exits = frame.context.exits := by
    obtain ⟨front, rest, hsplit⟩ := List.append_of_mem hmem
    obtain ⟨frame', hsteps, hrest, hcontext, -⟩ :=
      Frame.exists_reflTransGen_step (hstands.succeeds hlower) hsplit
    obtain ⟨spot', hstands'⟩ := hstands.steps hsteps
    exact ⟨frame', rest, spot', hstands', hrest, by rw [hcontext]⟩
  induction h with
  | body hmem =>
    obtain ⟨first, spot, hfirst, hstands, -⟩ := exists_stands_body hlower
    obtain ⟨functionName, verb, hcontext⟩ := Context.start_eq_ok hfirst.1
    obtain ⟨frame, rest, spot', hframe, hrest, hexits⟩ := hreach hstands (hfirst.2.2.2.2 ▸ hmem)
    exact ⟨frame, rest, spot', hframe, hrest, by rw [hexits, hcontext]⟩
  | part _ hpart hmem ih =>
    obtain ⟨outer, rest, spot, hstands, hstatements, rfl⟩ := ih
    have houter := hstands.succeeds hlower
    obtain ⟨inner, hopens, rfl, -⟩ := houter.exists_opens hstatements hpart
    obtain ⟨place, others, -, hinner⟩ := hstands.opens houter hstatements hopens
    obtain ⟨frame, rest', spot', hframe, hrest, hexits⟩ := hreach hinner hmem
    exact ⟨frame, rest', spot', hframe, hrest, hexits.trans hopens.exits_eq⟩

end Procedure

end Sproc
