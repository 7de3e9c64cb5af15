import Sproc.Proofs.Lower.Blame
import Sproc.Proofs.Lower.Nesting

/-!
# Jumps and their loops

`BREAK` and `CONTINUE` act on the innermost loop around them, and a function literal ends the reach
of the loops outside of it. The generation counts loops for each function literal, so a jump is
refused exactly where the source has no loop between it and the nearest half of a `TRY` statement.
What is written agrees: every `break` and `continue` of the generated code, also those that leave a
loop whose condition is tested inside it, stands in a loop of its own function literal.

The two halves of this are proved apart. In the source, the counters of a frame are those of the
statements around its path, by induction on the way to the frame. In the code, the scheme that
confines jumps asks for the counter of the context, and is closed since only the body of a loop is
written with a higher one.

## Main definitions

* `Statement.around`: the statements around the one at a path
* `Statement.InLoop`: a loop stands between a statement and the nearest half of a `TRY` statement
* `Procedure.GetsTo`: the generation gets as far as the statement at a path
* `Go.Stmt.Confined`: the jumps in a statement stay in their function literals

## Main results

* `Procedure.Visits.exists_encloses`: the counters of a frame are those of the statements around it
* `Procedure.refuses_jump_iff`: a jump is refused exactly where it stands in no loop
* `Procedure.confined_body`: the jumps of a function stay in their function literals
* `Procedure.jumps_stay_in_loops`: both
-/

namespace Sproc

open Lower

/-! ## Loops around a statement -/

namespace Statement

/-- The keyword of a jump. -/
def jump? : Statement → Option String
  | .breakLoop => some "BREAK"
  | .continueLoop => some "CONTINUE"
  | _ => none

def isWhile : Statement → Bool
  | .while _ _ => true
  | _ => false

/-- The statements around the one at a path, from the inside out. -/
def around : List Nat → List Statement → List Statement
  | index :: branch :: path, body =>
    match body[index]? with
    | some (.block inner) => around (branch :: path) inner ++ [.block inner]
    | some statement => (statement.branch? branch).elim [] (around path) ++ [statement]
    | none => []
  | _, _ => []

/-- Among the statements around one, from the inside out, a loop comes before any `TRY` statement. -/
def InLoop (outer : List Statement) : Prop :=
  ∃ nearer loop farther, outer = nearer ++ loop :: farther ∧ loop.isWhile = true ∧
    ∀ statement ∈ nearer, statement.isTry = false

/-- What is wrong with a jump that stands in no loop. -/
def jumpProblem (outer : List Statement) : String :=
  if outer.any isWhile then "cannot leave a loop across a TRY/CATCH boundary"
  else "outside of a WHILE loop"

/-- The number of loops in the innermost function literal, and those of the literals around it. -/
def loopCounts : List Statement → Nat × List Nat
  | [] => (0, [])
  | .while _ _ :: outer => ((loopCounts outer).1 + 1, (loopCounts outer).2)
  | .tryCatch _ _ :: outer => (0, (loopCounts outer).1 :: (loopCounts outer).2)
  | _ :: outer => loopCounts outer

@[simp]
theorem not_inLoop_nil : ¬InLoop [] := by
  rintro ⟨nearer, loop, farther, h, -⟩
  simp at h

theorem inLoop_cons {statement : Statement} {outer : List Statement} :
    InLoop (statement :: outer) ↔
      statement.isWhile = true ∨ statement.isTry = false ∧ InLoop outer := by
  constructor
  · rintro ⟨nearer, loop, farther, h, hloop, hnearer⟩
    cases nearer with
    | nil =>
      obtain ⟨rfl, -⟩ := List.cons.inj h
      exact .inl hloop
    | cons first nearer =>
      obtain ⟨rfl, rfl⟩ := List.cons.inj h
      rw [List.forall_mem_cons] at hnearer
      exact .inr ⟨hnearer.1, nearer, loop, farther, rfl, hloop, hnearer.2⟩
  · rintro (hloop | ⟨htry, nearer, loop, farther, rfl, hloop, hnearer⟩)
    · exact ⟨[], statement, outer, rfl, hloop, nofun⟩
    · exact ⟨statement :: nearer, loop, farther, rfl, hloop,
        List.forall_mem_cons.mpr ⟨htry, hnearer⟩⟩

/-- The innermost function literal has a loop exactly if one comes before any `TRY` statement. -/
theorem loopCounts_fst_pos {outer : List Statement} :
    0 < (loopCounts outer).1 ↔ InLoop outer := by
  induction outer with
  | nil => simp [loopCounts]
  | cons statement outer ih =>
    rw [inLoop_cons]
    cases statement <;> simp [loopCounts, isWhile, isTry, ih]

/-- Some function literal has a loop exactly if there is a loop at all. -/
theorem any_loopCounts {outer : List Statement} :
    (0 < (loopCounts outer).1 ∨ (loopCounts outer).2.any (· > 0) = true) ↔
      outer.any isWhile = true := by
  induction outer with
  | nil => simp [loopCounts]
  | cons statement outer ih =>
    rw [List.any_cons, Bool.or_eq_true, ← ih]
    cases statement <;> simp [loopCounts, isWhile]

theorem around_block {index branch : Nat} {path : List Nat} {body inner : List Statement}
    (h : body[index]? = some (.block inner)) :
    around (index :: branch :: path) body = around (branch :: path) inner ++ [Statement.block inner] := by
  rw [around, h]

theorem around_branch {index branch : Nat} {path : List Nat} {body inner : List Statement}
    {statement : Statement} (h : body[index]? = some statement)
    (hbranch : statement.branch? branch = some inner) :
    around (index :: branch :: path) body = around path inner ++ [statement] := by
  rw [around, h]
  cases statement <;> simp_all [branch?]

/-- Behind the first statement of a list the indices go on. -/
theorem around_tail {index : Nat} {path : List Nat} {statement : Statement}
    {rest : List Statement} :
    around ((index + 1) :: path) (statement :: rest) = around (index :: path) rest := by
  cases path <;> rfl

end Statement

/-! ## The counters of a frame -/

/-- The statements of a frame stand in the parts of some statements, from the inside out, in a body:
the counters of the frame are those of the statements, and its path leads through them. -/
structure Frame.Encloses (frame : Frame) (body outer : List Statement) : Prop where
  counts : (frame.context.loops, frame.context.outerLoops) = Statement.loopCounts outer
  around {index : Nat} {path : List Nat} {statement : Statement} :
    Statement.at? (index :: path) frame.statements = some statement →
    Statement.around (frame.context.path.reverse ++ (frame.index + index) :: path) body =
      Statement.around (index :: path) frame.statements ++ outer

/-- A part of a statement is counted as the statement asks. -/
theorem Opens.counts_eq {c : Context} {prepared : Option Fetch} {p : Progress}
    {statement : Statement} {part : Part} {frame : Frame} {outer : List Statement}
    (h : Opens c prepared p statement part frame)
    (hcounts : (c.loops, c.outerLoops) = Statement.loopCounts outer) :
    (frame.context.loops, frame.context.outerLoops) =
      Statement.loopCounts (statement :: outer) := by
  cases h <;> simp [Statement.loopCounts, ← hcounts, Context.enter, Context.enterLoop,
    Context.enterHalf, inCursorLoop, inHandler, inTry, inHalf]

namespace Frame

variable {body outer : List Statement} {frame next : Frame}

theorem Encloses.step (h : frame.Encloses body outer) (hstep : frame.Step next) :
    next.Encloses body outer := by
  cases hstep with
  | mk hruns =>
    refine ⟨h.counts, fun {index path statement} hstatement => ?_⟩
    have hbehind := h.around (Statement.at?_tail.trans hstatement)
    rwa [Nat.add_comm index 1, ← Nat.add_assoc, Nat.add_comm 1 index, Statement.around_tail]
      at hbehind

theorem Encloses.opens {statement : Statement} {rest : List Statement} {part : Part}
    (h : frame.Encloses body outer) (hstatements : frame.statements = statement :: rest)
    (hopens : Opens frame.here frame.prepared frame.progress statement part next) :
    next.Encloses body (statement :: outer) := by
  refine ⟨hopens.counts_eq h.counts, fun {index path inner} hinner => ?_⟩
  have hfirst : frame.statements[0]? = some statement := by rw [hstatements]; rfl
  obtain ⟨hindex, ⟨branch, hpath, hbranch⟩ | ⟨hpath, rfl⟩⟩ := hopens.branch?_eq
  · have hinside := h.around ((Statement.at?_branch hfirst hbranch).trans hinner)
    rw [Statement.around_branch hfirst hbranch] at hinside
    simpa [hindex, hpath, here, Context.enter] using hinside
  · have hinside := h.around ((Statement.at?_block hfirst).trans hinner)
    rw [Statement.around_block hfirst] at hinside
    simpa [hindex, hpath, here, Context.enter] using hinside

end Frame

namespace Procedure

variable {procedure : Procedure} {config : Config} {frame : Frame}

/-- Every frame of a procedure stands in the parts of some statements. -/
theorem Visits.exists_encloses (h : procedure.Visits config frame) :
    ∃ outer, frame.Encloses procedure.body outer := by
  obtain ⟨first, ⟨hstart, -, hindex, -, hbody⟩, hpath⟩ := h
  induction hpath with
  | refl =>
    obtain ⟨functionName, verb, hcontext⟩ := Context.start_eq_ok hstart
    refine ⟨[], by rw [hcontext]; rfl, fun _ => ?_⟩
    simp [hcontext, hindex, hbody]
  | tail _ hnext ih =>
    obtain ⟨outer, hencloses⟩ := ih
    cases hnext with
    | behind hstep => exact ⟨outer, hencloses.step hstep⟩
    | into hstatements hopens => exact ⟨_, hencloses.opens hstatements hopens⟩

/-- The counters at a statement are those of the statements around its path. -/
theorem Visits.counts_eq (h : procedure.Visits config frame) {statement : Statement}
    {rest : List Statement} (hstatements : frame.statements = statement :: rest) :
    (frame.context.loops, frame.context.outerLoops) =
      Statement.loopCounts (Statement.around frame.here.path.reverse procedure.body) := by
  obtain ⟨outer, hencloses⟩ := h.exists_encloses
  have hfirst : Statement.at? [0] frame.statements = some statement := by rw [hstatements]; rfl
  have haround := hencloses.around hfirst
  rw [show Statement.around [0] frame.statements = [] from rfl, List.nil_append, Nat.add_zero]
    at haround
  rw [hencloses.counts, ← haround]
  simp [Frame.here, Context.enter]

/-! ## Refused jumps -/

/-- The generation gets as far as the statement at a path: nothing in front of it fails. -/
def GetsTo (procedure : Procedure) (config : Config) (path : List Nat) : Prop :=
  config.validate = .ok () ∧ ∃ frame, procedure.Visits config frame ∧ frame.statements ≠ [] ∧
    frame.here.path.reverse = path

/-- A jump runs where it stands in a loop, and is refused elsewhere. -/
theorem Visits.fails_jump_iff (h : procedure.Visits config frame) {jump : Statement}
    {keyword : String} {rest : List Statement} (hstatements : frame.statements = jump :: rest)
    (hjump : jump.jump? = some keyword) {error : Error} {after : Progress} :
    (lowerStatement rest frame.prepared jump).Fails frame.here frame.progress error after ↔
      ¬Statement.InLoop (Statement.around frame.here.path.reverse procedure.body) ∧
        after = frame.progress ∧ error = ⟨.unsupported keyword (Statement.jumpProblem
          (Statement.around frame.here.path.reverse procedure.body)), none⟩ := by
  have hcounts := h.counts_eq hstatements
  have hloops : frame.here.loops = _ := congrArg Prod.fst hcounts
  have houter : frame.here.outerLoops = _ := congrArg Prod.snd hcounts
  have hstep : (lowerStatement rest frame.prepared jump).Fails frame.here frame.progress error
      after ↔ (checkJump keyword).Fails frame.here frame.progress error after := by
    cases jump with
    | breakLoop | continueLoop =>
      obtain rfl := Option.some.inj hjump
      rw [lowerStatement]
      simp [fails_bind]
    | _ => cases hjump
  rw [hstep, fails_checkJump, ← Statement.loopCounts_fst_pos, hloops, houter, Nat.pos_iff_ne_zero,
    not_not]
  refine and_congr_right fun hnone => ?_
  have hany := @Statement.any_loopCounts (Statement.around frame.here.path.reverse procedure.body)
  simp only [hnone, Nat.lt_irrefl, false_or] at hany
  simp only [Statement.jumpProblem, hany]

/-- A jump that the generation gets to is refused where it stands in no loop, for the reason that the
statements around it give. -/
theorem lower_eq_error_of_jump {path : List Nat} {jump : Statement} {keyword : String}
    (hgets : procedure.GetsTo config path)
    (hat : Statement.at? path procedure.body = some jump) (hjump : jump.jump? = some keyword)
    (hnone : ¬Statement.InLoop (Statement.around path procedure.body)) :
    procedure.lower config = .error ⟨.unsupported keyword
      (Statement.jumpProblem (Statement.around path procedure.body)),
      some ⟨procedure.name, dotted path⟩⟩ := by
  obtain ⟨hvalid, frame, hvisits, hsome, rfl⟩ := hgets
  obtain ⟨first, rest, hstatements⟩ := List.exists_cons_of_ne_nil hsome
  obtain rfl : first = jump := Option.some.inj ((hvisits.at?_eq hstatements).symm.trans hat)
  have hfails := (hvisits.fails_jump_iff hstatements hjump).mpr ⟨hnone, rfl, rfl⟩
  have hblames : frame.Blames first (.unsupported keyword (Statement.jumpProblem
      (Statement.around frame.here.path.reverse procedure.body))) := by
    refine ⟨⟨rest, _, hstatements, hfails⟩, fun hopens => ?_⟩
    cases hopens <;> cases hjump
  obtain ⟨begun, hbegins, hpath⟩ := hvisits
  have hstops := Visits.stopsWith ⟨begun, hbegins, hpath⟩ hbegins hblames
  exact lower_eq_error_of_stopsWith hvalid hbegins hstops

/-- A jump that the generation gets to is refused exactly where it stands in no loop. -/
theorem refuses_jump_iff {path : List Nat} {jump : Statement} {keyword : String}
    (hgets : procedure.GetsTo config path)
    (hat : Statement.at? path procedure.body = some jump) (hjump : jump.jump? = some keyword) :
    (∃ detail, procedure.lower config =
        .error ⟨.unsupported keyword detail, some ⟨procedure.name, dotted path⟩⟩) ↔
      ¬Statement.InLoop (Statement.around path procedure.body) := by
  refine ⟨?_, fun hnone => ⟨_, lower_eq_error_of_jump hgets hat hjump hnone⟩⟩
  rintro ⟨detail, hlower⟩
  obtain ⟨hvalid, frame, ⟨begun, hbegins, -⟩, -⟩ := hgets
  obtain ⟨hentry, -⟩ | ⟨path', statement, blamed, hat', hsite, hvisits, hpath, hblames, -⟩ :=
    lower_error_site hvalid hlower (by simp)
  · exact absurd ⟨begun, hbegins⟩ hentry
  · obtain rfl : path = path' := dotted_injective (Site.mk.inj (Option.some.inj hsite)).2
    obtain rfl : jump = statement := Option.some.inj (hat.symm.trans hat')
    obtain ⟨rest, after, hstatements, hfails⟩ := hblames.fails
    have hnone := ((hvisits.fails_jump_iff hstatements hjump).mp hfails).1
    rwa [hpath, List.reverse_reverse] at hnone

/-- The jumps of a procedure that is turned into a function all stand in loops. -/
theorem inLoop_of_lower_eq_ok {lowered : LoweredProcedure}
    (hlower : procedure.lower config = .ok lowered) {path : List Nat} {jump : Statement}
    {keyword : String} (hat : Statement.at? path procedure.body = some jump)
    (hjump : jump.jump? = some keyword) :
    Statement.InLoop (Statement.around path procedure.body) := by
  obtain ⟨frame, rest, hvisits, hstatements, rfl⟩ := exists_visits_at hlower hat
  by_contra hnone
  have hfails := (hvisits.fails_jump_iff hstatements hjump).mpr ⟨hnone, rfl, rfl⟩
  obtain ⟨next, hstep, -⟩ := (hvisits.succeeds hlower).exists_step hstatements
  obtain ⟨c, index, prepared, statements, p⟩ := frame
  obtain rfl := hstatements
  cases hstep with
  | mk hruns => exact hfails.not_runs hruns

end Procedure

/-! ## Jumps in the code -/

namespace Go

/-- The jumps in a statement stay in their function literals: each stands in a loop, and no literal
stands between them. The statement itself may stand in a loop of its literal. -/
inductive Stmt.Confined : Stmt → Bool → Prop
  | plain {s : Stmt} {inLoop : Bool} : s.isPlain = true → Confined s inLoop
  | ret {values : List Expr} {inLoop : Bool} : Confined (.ret values) inLoop
  | panic {value : Expr} {inLoop : Bool} : Confined (.panic value) inLoop
  | breakLoop : Confined .breakLoop true
  | continueLoop : Confined .continueLoop true
  | branch {first : Arm} {others : List Arm} {otherwise : Option (List Stmt)} {inLoop : Bool} :
    (∀ arm ∈ first :: others, ∀ s ∈ arm.body, s.Confined inLoop) →
    (∀ body ∈ otherwise, ∀ s ∈ body, s.Confined inLoop) →
    Confined (.branch first others otherwise) inLoop
  | loop {test : Option Expr} {body : List Stmt} {inLoop : Bool} :
    (∀ s ∈ body, s.Confined true) → Confined (.loop test body) inLoop
  | closure {deferred : Bool} {body : List Stmt} {inLoop : Bool} :
    (∀ s ∈ body, s.Confined false) → Confined (.closure deferred body) inLoop

theorem Stmt.Quiet.confined {s : Stmt} (h : s.Quiet) (inLoop : Bool) : s.Confined inLoop := by
  induction h with
  | plain hplain => exact .plain hplain
  | branch _ _ harms hother => exact .branch harms hother

end Go

/-- Jumps stay in their function literals, where the loops of the innermost one are counted. -/
def Scheme.confining : Scheme where
  covers _ := True
  keeps _ := True
  writes c s := s.Confined (decide (0 < c.loops))

namespace Scheme

variable {c : Context}

theorem leaving_confining : (confining.discipline c).Leaving where
  plain hplain _ := .plain hplain
  branch := .branch
  opens _ hplain := .plain hplain
  ret _ := .ret
  panic _ := .panic

theorem releasing_confining : (confining.discipline c).Releasing :=
  fun _ hbody => .closure fun s hs => (hbody s hs).confined false

theorem lasting_confining : (confining.discipline c).Lasting :=
  fun _ _ _ _ _ _ _ _ => trivial

/-- Only the body of a loop is written with a loop in the innermost function literal, and function
literals are written without one. -/
theorem closed_confining : confining.Closed where
  covers_of _ _ _ := trivial
  declares _ _ := hasEffect_lowerDeclares leaving_confining.regular lasting_confining _
  basic _ := leaving_confining.toBasic
  opens _ := leaving_confining.opens
  same hwrites _ _ hloops := by
    simp only [confining, hloops] at hwrites
    exact hwrites
  breakLoop hinside := by simpa [confining, hinside] using .breakLoop
  continueLoop hinside := by simpa [confining, hinside] using .continueLoop
  loop hbody _ _ hloops := by
    simp only [confining, hloops, Nat.zero_lt_succ, decide_true] at hbody
    exact .loop hbody
  releasing _ := releasing_confining
  handler hbody := .closure hbody
  literal hbody := .closure hbody
  exit _ := leaving_confining.errorExit
  raise error _ := leaving_confining.raise error
  leave status _ := leaving_confining.lowerReturn status
  resume _ := leaving_confining.resume
  report _ := leaving_confining.report

end Scheme

namespace Procedure

variable {procedure : Procedure} {config : Config}

/-- The jumps of a generated function stay in their function literals. -/
theorem confined_body {lowered : LoweredProcedure}
    (hlower : procedure.lower config = .ok lowered) :
    ∀ s ∈ lowered.function.body, s.Confined false := by
  obtain ⟨first, finished, final, hbegins, hruns, hfinal, hbody⟩ := exists_begins_finish hlower
  obtain ⟨functionName, verb, hcontext⟩ := Context.start_eq_ok hbegins.1
  have leaving : (Scheme.confining.discipline first.context).Leaving := Scheme.leaving_confining
  have hentry := hasEffect_lowerEntry (leaving.regular (c := first.context))
    Scheme.releasing_confining (fun hcounts => hcounts.1) Scheme.lasting_confining
  have hstatements := hasEffect_lowerStatements Scheme.closed_confining (fun _ => trivial) trivial
    first.index first.prepared first.statements (c := first.context)
  have hwhole := hasEffect_bind hentry fun _ => hasEffect_bind hstatements fun _ =>
    leaving.emitFinalReturn
  obtain ⟨-, added, hadded, hwrites, -⟩ := hwhole
    (runs_bind.mpr ⟨_, _, hbegins.2.1, runs_bind.mpr ⟨_, _, hruns, hfinal⟩⟩) trivial
  have hcode : lowered.function.body = added := by
    rw [hbody, hadded]
    rfl
  have hloops : decide (0 < first.context.loops) = false := by rw [hcontext]; rfl
  intro s hs
  exact hloops ▸ hwrites s (hcode ▸ hs)

/-- A `BREAK` or `CONTINUE` that the generation gets to is refused as unsupported, at its own path,
exactly where no loop stands between it and the nearest half of a `TRY` statement around it. In a
procedure that is turned into a function all of them stand in loops, and so does each `break` and
`continue` of the function: no function literal stands between it and its loop. -/
theorem jumps_stay_in_loops (procedure : Procedure) (config : Config) :
    (∀ path jump keyword, procedure.GetsTo config path →
      Statement.at? path procedure.body = some jump → jump.jump? = some keyword →
      ((∃ detail, procedure.lower config =
          .error ⟨.unsupported keyword detail, some ⟨procedure.name, dotted path⟩⟩) ↔
        ¬Statement.InLoop (Statement.around path procedure.body))) ∧
    ∀ lowered, procedure.lower config = .ok lowered →
      (∀ path jump keyword, Statement.at? path procedure.body = some jump →
        jump.jump? = some keyword → Statement.InLoop (Statement.around path procedure.body)) ∧
      ∀ s ∈ lowered.function.body, s.Confined false :=
  ⟨fun _ _ _ hgets hat hjump => refuses_jump_iff hgets hat hjump,
    fun _ hlower => ⟨fun _ _ _ hat hjump => inLoop_of_lower_eq_ok hlower hat hjump,
      confined_body hlower⟩⟩

open Build in
/-- A procedure with a loop that is left from inside a `TRY` statement, behind a loop that is left
without one. -/
def leap : Procedure where
  name := "usp_Leap"
  params := [input "n" "INT" none]
  body := [
    .while (lt (var "n") (int 3)) [ifElse (eq (var "n") (int 1)) [.continueLoop] [.breakLoop]],
    .while (lt (var "n") (int 5)) [.tryCatch [.breakLoop] [.print (text "caught")]]]

/-- The jumps in the first loop of `leap` stand in it, and the one in the second loop is refused. -/
theorem leap_refused :
    Statement.InLoop (Statement.around [0, 0, 0, 0, 0] leap.body) ∧
      leap.GetsTo {} [1, 0, 0, 0, 0] ∧
      ∃ detail, leap.lower {} =
        .error ⟨.unsupported "BREAK" detail, some ⟨"usp_Leap", dotted [1, 0, 0, 0, 0]⟩⟩ := by
  have herror : (match leap.lower {} with
      | .error error => some error
      | .ok _ => none) = some ⟨.unsupported "BREAK"
        "cannot leave a loop across a TRY/CATCH boundary", some ⟨"usp_Leap", "1.0.0.0.0"⟩⟩ := by
    decide +kernel
  have hgets : leap.GetsTo {} [1, 0, 0, 0, 0] := by
    cases hlower : leap.lower {} with
    | ok lowered => simp [hlower] at herror
    | error error =>
      rw [hlower] at herror
      obtain rfl := Option.some.inj herror
      obtain ⟨-, hentry⟩ | ⟨path, statement, frame, -, hsite, hvisits, hpath, hblames, -⟩ :=
        lower_error_site rfl hlower (by simp)
      · simp at hentry
      · have hdotted : dotted [1, 0, 0, 0, 0] = dotted path :=
          (Site.mk.inj (Option.some.inj hsite)).2
        obtain rfl := dotted_injective hdotted
        obtain ⟨rest, _, hstatements, -⟩ := hblames.fails
        refine ⟨rfl, frame, hvisits, by simp [hstatements], ?_⟩
        rw [hpath, List.reverse_reverse]
  have hnone : ¬Statement.InLoop (Statement.around [1, 0, 0, 0, 0] leap.body) := by
    rw [← Statement.loopCounts_fst_pos]
    decide
  refine ⟨Statement.loopCounts_fst_pos.mp (by decide), hgets, ?_⟩
  exact ((jumps_stay_in_loops leap {}).1 _ _ _ hgets rfl rfl).mpr hnone

end Procedure

end Sproc
