import Sproc.Proofs.Lower.Blocks

/-!
# Text in front of a frame

The writer of a frame stands where the code of the frame begins in the text of the function: the
text goes on from what the writer has written, first with the code of the frame.

## Main results

* `Enters.exists_precedes`: the code of a part is written as a piece of its statement
* `Procedure.Places.exists_precedes`: the code of a frame is written from where its writer stands
-/

namespace Sproc

open Lower

theorem Frame.writes_nil {c : Context} {index : Nat} {prepared : Option Fetch} {p : Progress}
    {code : List Go.Stmt} : Frame.Writes ⟨c, index, prepared, [], p⟩ code ↔ code = [] := by
  have hnil : Frame.Writes ⟨c, index, prepared, [], p⟩ [] := by
    refine ⟨p, ?_, (List.append_nil _).symm⟩
    rw [lowerStatements]
    exact runs_pure.mpr ⟨rfl, rfl⟩
  exact ⟨fun h => h.unique hnil, fun h => h ▸ hnil⟩

section Parts

variable {c : Context} {prepared result : Option Fetch} {p after : Progress}
  {writer writer' : Go.Writer} {arms arms' : List Go.Arm} {rest : List Statement}
  {enclosure : Enclosure} {inner : Frame} {code : List Go.Stmt}

/-- The branches of a conditional are written one behind the other, in the chain that the
conditional continues, if it does. -/
theorem Enters.exists_precedes_ifElse {condition : Expr} {thenBranch : List Statement}
    {elseBranch : Option (List Statement)}
    (h : Enters c prepared p writer arms (.ifElse condition thenBranch elseBranch) enclosure arms'
      inner writer')
    (hruns : (lowerStatement rest prepared (.ifElse condition thenBranch elseBranch)).Runs c p
      result after)
    (harms : arms ≠ [] → condition.needsHoist = false) (hcode : inner.Writes code) :
    ∃ written, after.output = p.output ++ written ∧ ∀ back, ∃ back',
      (Go.writeList writer' (Go.chained arms' code ++ back')).Precedes
        (Go.writeList writer (Go.chained arms written ++ back)) := by
  obtain ⟨⟨first, others, otherwise⟩, passed, hchain, rfl, -⟩ := runs_ifElse hruns
  obtain ⟨test, tested, branch, htest, hbranch, helse, rfl⟩ := runs_lowerChain hchain
  obtain ⟨hoists, hhoists, -⟩ := extends_lowerCondition htest
  have hsame {hoists' : List Go.Stmt} (h : tested.output = p.output ++ hoists') :
      hoists' = hoists := List.append_cancel_left (h.symm.trans hhoists)
  have hpassed : passed.output = p.output ++ hoists := (output_lowerElse helse).trans hhoists
  refine ⟨hoists ++ [Go.Stmt.branch (.mk none test branch.output) others otherwise], ?_, fun back => ?_⟩
  · simp [Progress.wrote, hpassed]
  -- A conditional that continues a chain has no statements in front of its test.
  have hchained : Go.chained arms
      (hoists ++ [Go.Stmt.branch (.mk none test branch.output) others otherwise]) =
        hoists ++ Go.chain (arms ++ .mk none test branch.output :: others) otherwise := by
    cases arms with
    | nil => rfl
    | cons arm arms =>
      have hnone : hoists = [] := by
        refine (hsame ?_).symm
        simpa using (annotated_lowerCondition (harms (List.cons_ne_nil _ _)) htest).output
      subst hnone
      exact Go.chained_branch _ _ _ _
  rw [hchained, Go.writeList_append, Go.writeList_append]
  have hback := (Go.settles_writeList (Go.writeList (Go.writeList writer hoists)
    (Go.chain (arms ++ .mk none test branch.output :: others) otherwise)) back).precedes
  obtain ⟨final, hfinal, houtput⟩ := hcode
  cases h with
  | thenBranch htest' hhoists' =>
    obtain ⟨rfl, rfl⟩ := htest.unique htest'
    obtain rfl := hsame hhoists'
    obtain ⟨-, rfl⟩ := hbranch.unique hfinal
    obtain rfl : branch.output = code := houtput
    refine ⟨[], ?_⟩
    rw [List.append_nil, Go.chained_nil]
    exact (Go.precedes_openArm _ arms others none test _ otherwise).trans hback
  | @elseBranch _ _ elseBranch _ body _ _ _ htest' hhoists' hbranch' hcontinues =>
    obtain ⟨rfl, rfl⟩ := htest.unique htest'
    obtain rfl := hsame hhoists'
    obtain ⟨_, hruns', rfl, rfl⟩ := runs_block.mp hbranch'
    obtain ⟨-, rfl⟩ := hbranch.unique (runs_within.mp hruns')
    rw [lowerElse_of_not_continuesChain hcontinues] at helse
    simp only [runs_bind, runs_block, runs_within, runs_pure] at helse
    obtain ⟨_, _, ⟨final', hfinal', rfl, -⟩, hlast, -⟩ := helse
    obtain ⟨rfl, rfl⟩ := Prod.mk.inj hlast
    obtain ⟨-, rfl⟩ := hfinal.unique hfinal'
    obtain rfl : final.output = code := houtput
    refine ⟨[], ?_⟩
    rw [List.append_nil, Go.chained_nil]
    exact (Go.precedes_openElse _ (List.append_ne_nil_of_right_ne_nil _ (List.cons_ne_nil _ _))
      _).trans hback
  | @elseIf _ _ elseBranch _ body _ _ _ htest' hhoists' hbranch' hcontinues =>
    obtain ⟨rfl, rfl⟩ := htest.unique htest'
    obtain rfl := hsame hhoists'
    obtain ⟨_, hruns', rfl, rfl⟩ := runs_block.mp hbranch'
    obtain ⟨-, rfl⟩ := hbranch.unique (runs_within.mp hruns')
    obtain ⟨condition', thenBranch', otherwise', rfl, hhoist⟩ :=
      Statement.continuesChain_iff.mp hcontinues
    obtain ⟨next, more, last, hlast, hfinal'⟩ := runs_chained hhoist helse
    obtain ⟨rfl, rfl⟩ := Prod.mk.inj hlast
    obtain ⟨-, rfl⟩ := hfinal.unique hfinal'
    have hcode : code = [.branch next more otherwise] := by
      rw [Progress.wrote, hpassed, Progress.closed, hhoists] at houtput
      exact (List.append_cancel_left houtput).symm
    subst hcode
    refine ⟨back, ?_⟩
    rw [Go.chained_branch, Go.writeList_append, List.append_assoc]
    exact .refl _

/-- The body of a loop is written into the block of the loop. -/
theorem Enters.exists_precedes_while {condition : Expr} {body : List Statement}
    (h : Enters c prepared p writer [] (.while condition body) enclosure arms' inner writer')
    (hruns : (lowerStatement rest prepared (.while condition body)).Runs c p result after)
    (hcode : inner.Writes code) : ∃ written, after.output = p.output ++ written ∧
      (Go.writeList writer' (Go.chained arms' code)).Precedes (Go.writeList writer written) := by
  obtain ⟨final, hfinal, houtput⟩ := hcode
  cases h with
  | @loop _ _ test tested hoists hcursor hhoist htest hhoists =>
    obtain ⟨hwhile, -⟩ := runs_while hcursor hruns
    obtain ⟨hhoist', -⟩ | ⟨-, test', tested', final', htest', hbody, rfl⟩ := runs_lowerWhile hwhile
    · simp [hhoist] at hhoist'
    · obtain ⟨rfl, rfl⟩ := htest.unique htest'
      obtain ⟨-, rfl⟩ := hfinal.unique (runs_within.mp hbody)
      obtain rfl : final.output = code := houtput
      refine ⟨hoists ++ [Go.Stmt.loop (some test) final.output], ?_, ?_⟩
      · simp [Progress.wrote, Progress.closed, hhoists]
      · rw [Go.chained_nil, Go.writeList_append]
        exact Go.precedes_openLoop _ _ _
  | @testedLoop _ _ tested hcursor hhoist htest =>
    obtain ⟨hwhile, -⟩ := runs_while hcursor hruns
    obtain ⟨-, tested', final', htest', hbody, rfl⟩ | ⟨hhoist', -⟩ := runs_lowerWhile hwhile
    · obtain ⟨-, rfl⟩ := htest.unique htest'
      obtain ⟨-, rfl⟩ := hfinal.unique (runs_within.mp hbody)
      refine ⟨[.loop none final.output], rfl, ?_⟩
      rw [Go.chained_nil, ← Go.writeList_append, ← houtput]
      exact Go.precedes_openLoop _ _ _
    · simp [hhoist] at hhoist'
  | @cursorLoop _ _ more fetch iterator targets found named started hcursor hfetch hiterator
      htargets hround =>
    obtain ⟨-, fetch', hfetch', hloop⟩ := runs_cursorLoop hcursor hruns
    obtain rfl := Option.some.inj (hfetch.symm.trans hfetch')
    obtain ⟨iterator', targets', found', named', started', final', hiterator', htargets', hround',
      hbody, hcheck⟩ := runs_lowerCursorLoop hloop
    obtain ⟨rfl, rfl⟩ := hiterator.unique hiterator'
    obtain ⟨rfl, rfl⟩ := htargets.unique htargets'
    obtain ⟨-, rfl⟩ := hround.unique hround'
    obtain ⟨-, rfl⟩ := hfinal.unique hbody
    obtain ⟨rfl, -⟩ := reads_of_runs hiterator htargets
    obtain ⟨failure, hafter⟩ := runs_emitGuarded hcheck
    refine ⟨[.loop (some (.invoke iterator "Next" [])) final.output, .branch (.mk
      (some (assignTo [err] (.invoke iterator "Err" []))) failed failure) [] none], ?_, ?_⟩
    · rw [hafter, Progress.wrote, Progress.closed, List.append_assoc]
      rfl
    · rw [Go.chained_nil, ← Go.writeList_append, ← houtput]
      exact (Go.precedes_openLoop _ _ _).trans (Go.settles_writeList _ [_]).precedes

/-- The halves of a `TRY` statement are written into its literal, the handler first. -/
theorem Enters.exists_precedes_tryCatch {tryBody catchBody : List Statement}
    (h : Enters c prepared p writer [] (.tryCatch tryBody catchBody) enclosure arms' inner writer')
    (hruns : (lowerStatement rest prepared (.tryCatch tryBody catchBody)).Runs c p result after)
    (hcode : inner.Writes code) : ∃ written, after.output = p.output ++ written ∧
      (Go.writeList writer' (Go.chained arms' code)).Precedes (Go.writeList writer written) := by
  obtain ⟨flag, flagged, handled, attempted, hflag, hrecover, hattempt, literal, hout, -, hliteral,
    -⟩ := runs_lowerTryCatch (runs_tryCatch hruns).2
  obtain ⟨started, caught, hstart, hhandler, -, hhandled, -⟩ := runs_emitRecover hrecover
  obtain ⟨hflagged, -⟩ := runs_returnFlag? hflag
  obtain ⟨back, hback, -⟩ :=
    ((Scheme.permissive_free c).emitWayOut flag catchBody).exists_extends hout
  obtain ⟨attempt, hattempted, -⟩ := extends_lowerStatements hattempt
  refine ⟨flagLines flag ++ .closure false attempted.output :: back, ?_, ?_⟩
  · rw [hback, hliteral, hflagged]
    simp
  rw [Go.writeList_append]
  have hend : ((Go.Stmt.closure false attempted.output).write
      (Go.writeList writer (flagLines flag))).Precedes
        (Go.writeList (Go.writeList writer (flagLines flag))
          (.closure false attempted.output :: back)) := (Go.settles_writeList _ back).precedes
  have hliteral := (Go.precedes_openLiteral (Go.writeList writer (flagLines flag)) false
    attempted.output).trans hend
  obtain ⟨final, hfinal, houtput⟩ := hcode
  cases h with
  | tryHalf hflag' hrecover' =>
    obtain ⟨rfl, rfl⟩ := hflag.unique hflag'
    obtain ⟨-, rfl⟩ := hrecover.unique hrecover'
    obtain ⟨-, rfl⟩ := hattempt.unique hfinal
    rw [Go.chained_nil, ← Go.writeList_append, ← houtput]
    exact hliteral
  | catchHalf hflag' hstart' =>
    obtain ⟨rfl, rfl⟩ := hflag.unique hflag'
    obtain ⟨-, rfl⟩ := hstart.unique hstart'
    obtain ⟨-, rfl⟩ := hhandler.unique hfinal
    rw [Go.chained_nil, ← Go.writeList_append, ← houtput]
    refine Go.Writer.Precedes.trans ?_ hliteral
    rw [hattempted, hhandled, Go.writeList_append]
    refine Go.Writer.Precedes.trans ?_ (Go.settles_writeList _ attempt).precedes
    exact (Go.precedes_openArm _ [] [] _ _ _ none).trans (Go.precedes_openLiteral _ true _)

/-- The code of a part is written as a piece of its statement. -/
theorem Enters.exists_precedes {statement : Statement}
    (h : Enters c prepared p writer arms statement enclosure arms' inner writer')
    (hruns : (lowerStatement rest prepared statement).Runs c p result after)
    (harms : arms ≠ [] → ∃ condition thenBranch elseBranch,
      statement = .ifElse condition thenBranch elseBranch ∧ condition.needsHoist = false)
    (hcode : inner.Writes code) :
    ∃ written, after.output = p.output ++ written ∧ ∀ back, ∃ back',
      (Go.writeList writer' (Go.chained arms' code ++ back')).Precedes
        (Go.writeList writer (Go.chained arms written ++ back)) := by
  -- Only a conditional continues a chain, and only code that does so goes on behind a part.
  have hwhole (harms : arms = []) (h : ∃ written, after.output = p.output ++ written ∧
      (Go.writeList writer' (Go.chained arms' code)).Precedes (Go.writeList writer written)) :
      ∃ written, after.output = p.output ++ written ∧ ∀ back, ∃ back',
        (Go.writeList writer' (Go.chained arms' code ++ back')).Precedes
          (Go.writeList writer (Go.chained arms written ++ back)) := by
    obtain ⟨written, hwritten, hprecedes⟩ := h
    refine ⟨written, hwritten, fun back => ⟨[], ?_⟩⟩
    rw [List.append_nil, harms, Go.chained_nil, Go.writeList_append writer]
    exact hprecedes.trans (Go.settles_writeList _ back).precedes
  have hnil (hother : ∀ condition thenBranch elseBranch,
      statement ≠ .ifElse condition thenBranch elseBranch) : arms = [] := by
    by_contra hsome
    obtain ⟨condition, thenBranch, elseBranch, heq, -⟩ := harms hsome
    exact hother condition thenBranch elseBranch heq
  cases statement with
  | ifElse condition thenBranch elseBranch =>
    refine h.exists_precedes_ifElse hruns (fun hsome => ?_) hcode
    obtain ⟨_, _, _, heq, hhoist⟩ := harms hsome
    cases heq
    exact hhoist
  | «while» condition body =>
    obtain rfl := hnil (fun _ _ _ => Statement.noConfusion)
    exact hwhole rfl (h.exists_precedes_while hruns hcode)
  | tryCatch tryBody catchBody =>
    obtain rfl := hnil (fun _ _ _ => Statement.noConfusion)
    exact hwhole rfl (h.exists_precedes_tryCatch hruns hcode)
  | block body =>
    obtain rfl := hnil (fun _ _ _ => Statement.noConfusion)
    cases h with
    | block =>
      obtain ⟨final, hfinal, houtput⟩ := hcode
      obtain ⟨-, rfl⟩ := hfinal.unique (runs_blockStatement hruns).1
      exact hwhole rfl ⟨code, houtput, .refl _⟩
  | _ => cases h

end Parts

namespace Procedure

variable {procedure : Procedure} {config : Config} {lowered : LoweredProcedure}
  {nest : List (Nat × Enclosure)} {arms : List Go.Arm} {frame : Frame} {writer : Go.Writer}

/-- A procedure has one frame for its body, and one head. -/
theorem Heads.unique {first first' : Frame} {head head' : Go.Writer}
    (h : procedure.Heads config first head) (h' : procedure.Heads config first' head') :
    first = first' ∧ head = head' := by
  cases h with
  | mk hstart hdeclared hhoisted hparams hresults hentered =>
    cases h' with
    | mk hstart' hdeclared' hhoisted' hparams' hresults' hentered' =>
      cases hstart.symm.trans hstart'
      obtain ⟨-, rfl⟩ := hdeclared.unique hdeclared'
      obtain ⟨-, rfl⟩ := hhoisted.unique hhoisted'
      obtain ⟨rfl, rfl⟩ := hparams.unique hparams'
      obtain ⟨rfl, rfl⟩ := hresults.unique hresults'
      obtain ⟨-, rfl⟩ := hentered.unique hentered'
      exact ⟨rfl, rfl⟩

/-- The head of a function stands in front of the body of its procedure. -/
theorem exists_heads_finish (h : procedure.lower config = .ok lowered) :
    ∃ frame finished final, procedure.Heads config frame lowered.function.head ∧
      (lowerStatements frame.index frame.prepared frame.statements).Runs frame.context
        frame.progress () finished ∧
      emitFinalReturn.Runs frame.context finished () final ∧
      lowered.function.body = final.output := by
  obtain ⟨c, final, hstart, hruns⟩ := Procedure.lower_eq_ok h
  obtain ⟨functionName, verb, rfl⟩ := Context.start_eq_ok hstart
  simp only [lowerProcedure, runs_located, runs_bind, runs_read, runs_get, runs_pure] at hruns
  obtain ⟨_, _, ⟨rfl, rfl⟩, _, _, hdeclared, _, hoisted, hhoisted, _, _, ⟨rfl, rfl⟩, params, _,
    hparams, results, _, hresults, _, _, hentered, _, finished, hfinished, _, _, hfinal, _, _,
    ⟨rfl, rfl⟩, hfunction, rfl⟩ := hruns
  rw [hfunction]
  exact ⟨_, _, _, .mk hstart hdeclared hhoisted hparams hresults hentered, hfinished, hfinal, rfl⟩

/-- The code of a frame is written from where the writer of the frame stands. -/
theorem Places.exists_precedes (h : procedure.Places config nest arms frame writer)
    (hlower : procedure.lower config = .ok lowered) {code : List Go.Stmt}
    (hcode : frame.Writes code) :
    ∃ back, (Go.writeList writer (Go.chained arms code ++ back)).Precedes
      lowered.function.written := by
  induction h generalizing code with
  | @body frame head hheads =>
    obtain ⟨_, finished, final, hheads', hfinished, hfinal, hbody⟩ := exists_heads_finish hlower
    obtain ⟨rfl, rfl⟩ := hheads.unique hheads'
    obtain ⟨after, hruns, houtput⟩ := hcode
    obtain ⟨-, rfl⟩ := hruns.unique hfinished
    obtain ⟨last, hlast, -⟩ := HasEffect.exists_extends
      (Scheme.permissive_free frame.context).emitFinalReturn hfinal
    refine ⟨last, ?_⟩
    rw [Go.chained_nil, ← Go.writeList_append, ← List.append_assoc, ← houtput, ← hlast, ← hbody]
    exact Go.Writer.precedes_closeBlock _ _
  | @behind nest frame next writer written hplaces hstep hwritten ih =>
    obtain ⟨back, hprecedes⟩ := ih (hstep.writes hwritten hcode)
    refine ⟨back, ?_⟩
    rwa [Go.chained_nil, List.append_assoc, Go.writeList_append] at hprecedes
  | @into nest arms arms' frame inner writer writer' statement rest enclosure hplaces hstatements
      henters ih =>
    obtain ⟨next, hstep, hnext⟩ := (hplaces.visits.succeeds hlower).exists_step hstatements
    obtain ⟨more, hmore⟩ := hnext.exists_writes
    cases hstep with
    | mk hruns =>
      obtain rfl := (List.cons.inj hstatements).1
      obtain rfl := (List.cons.inj hstatements).2
      have hchain (hsome : arms ≠ []) := hplaces.eq_singleton hsome
      obtain ⟨written, hwritten, hpart⟩ := henters.exists_precedes hruns (fun hsome => by
        obtain ⟨condition, thenBranch, elseBranch, hsingle, hhoist⟩ := hchain hsome
        exact ⟨condition, thenBranch, elseBranch, (List.cons.inj hsingle).1, hhoist⟩) hcode
      obtain ⟨back, hprecedes⟩ := ih (Frame.Step.writes (.mk hruns) hwritten hmore)
      obtain ⟨back', hprecedes'⟩ := hpart (more ++ back)
      refine ⟨back', hprecedes'.trans ?_⟩
      -- Nothing stands behind a conditional that continues a chain.
      have hchained : Go.chained arms (written ++ more) = Go.chained arms written ++ more := by
        cases arms with
        | nil => rfl
        | cons arm arms =>
          obtain ⟨_, _, _, hsingle, -⟩ := hchain (List.cons_ne_nil _ _)
          obtain rfl := (List.cons.inj hsingle).2
          obtain rfl := Frame.writes_nil.mp hmore
          rw [List.append_nil, List.append_nil]
      rwa [hchained, List.append_assoc] at hprecedes

end Procedure

end Sproc
