import Sproc.Proofs.Lower.Discipline

/-!
# Schemes

What a statement of the generated code must look like depends on where in the procedure it was
written: outside of all `TRY` statements, in a protected half, or in a handler. A scheme gives a
discipline for each context, and the conditions of a closed scheme say how the disciplines of nested
contexts fit together. Every list of statements then respects the discipline of its context, by
induction on the statements of the procedure.

## Main definitions

* `Scheme`, `Scheme.discipline`, `Scheme.Closed`

## Main results

* `hasEffect_lowerStatements`: lists of statements respect closed schemes
* `extends_lowerStatements`: lists of statements add to what is written, and enter the names that
  they introduce
-/

namespace Sproc

/-- A condition on the variables, and one on the statements written in each context. -/
structure Scheme where
  /-- The contexts that the scheme is about. -/
  covers : Context → Prop
  keeps : SymbolTable → Prop
  writes : Context → Go.Stmt → Prop
  /-- Whether what is introduced into the outermost block has to be entered. -/
  counts : Prop := False
  /-- The declarations of variables that may be met. -/
  admits : VarDecl → Prop := fun _ => True

namespace Scheme

/-- The discipline of a scheme in a context. -/
def discipline (S : Scheme) (context : Context) : Discipline where
  keeps p := S.keeps p.symbols
  writes := S.writes context
  -- Function literals are never the outermost block.
  counts := S.counts ∧ context.exits = []
  stable _ _ hsymbols _ _ hkeeps := hsymbols ▸ hkeeps

open Lower in
/-- The disciplines of a scheme fit together along the statements of a procedure. -/
structure Closed (S : Scheme) : Prop where
  covers_of {c c' : Context} :
    c'.procedure = c.procedure → c'.survey = c.survey → S.covers c → S.covers c'
  declares {c : Context} {vars : List VarDecl} : S.covers c → (∀ var ∈ vars, S.admits var) →
    (lowerDeclares vars).HasEffect c (S.discipline c).effect
  basic (c : Context) : (S.discipline c).Basic
  opens (c : Context) : (S.discipline c).AdmitsPlain
  /-- Of the context, only the enclosing halves of `TRY` statements and the loops in the innermost one
  matter. -/
  same {c c' : Context} {s : Go.Stmt} : S.writes c' s → c'.exits = c.exits →
    c'.returnFlags = c.returnFlags → c'.loops = c.loops → S.writes c s
  breakLoop {c : Context} : 0 < c.loops → S.writes c .breakLoop
  continueLoop {c : Context} : 0 < c.loops → S.writes c .continueLoop
  loop {c c' : Context} {test : Option Go.Expr} {body : List Go.Stmt} :
    (∀ s ∈ body, S.writes c' s) → c'.exits = c.exits → c'.returnFlags = c.returnFlags →
    c'.loops = c.loops + 1 → S.writes c (.loop test body)
  releasing (c : Context) : (S.discipline c).Releasing
  handler {c : Context} {flag : Option String} {body : List Go.Stmt} :
    (∀ s ∈ body, S.writes (inHandler c) s) → S.writes (inTry flag c) (.closure true body)
  literal {c : Context} {flag : Option String} {body : List Go.Stmt} :
    (∀ s ∈ body, S.writes (inTry flag c) s) → S.writes c (.closure false body)
  exit {c : Context} : S.covers c → errorExit.HasEffect c (S.discipline c).effect
  raise {c : Context} (error : Go.Expr) :
    S.covers c → (raise error).HasEffect c (S.discipline c).effect
  leave {c : Context} (status : Option Go.Expr) :
    S.covers c → (lowerReturn status).HasEffect c (S.discipline c).effect
  /-- The way on for a `RETURN` that has left a `TRY` statement. -/
  resume {c : Context} : S.covers c →
    (if c.exitScope = .body then emitReturn (.name "returnCode") .nil
      else propagateReturn).HasEffect c (S.discipline c).effect
  /-- The way on for an error that a handler has raised. -/
  report {c : Context} : S.covers c →
    (if c.exitScope = .catchHalf then emit (.ret []) else errorExit).HasEffect c (S.discipline c).effect

namespace Closed

variable {S : Scheme} (closed : S.Closed) {c : Context}

include closed

theorem regular (hc : S.covers c) : (S.discipline c).Regular c where
  toBasic := closed.basic c
  exit := closed.exit hc

theorem jumping (hc : S.covers c) : (S.discipline c).Jumping c where
  toRegular := closed.regular hc
  opens := closed.opens c
  breakLoop := closed.breakLoop
  continueLoop := closed.continueLoop
  raise error := closed.raise error hc
  leave status := closed.leave status hc

theorem covers_inTry (flag : Option String) (hc : S.covers c) : S.covers (Lower.inTry flag c) :=
  closed.covers_of (c := c) rfl rfl hc

theorem covers_inHandler (hc : S.covers c) : S.covers (Lower.inHandler c) :=
  closed.covers_of (c := c) rfl rfl hc

end Closed

end Scheme

namespace Lower

open Scheme

variable {α : Type} {S : Scheme} {c : Context}

/-- A scheme says nothing about the transaction. -/
theorem ignoresTransaction_discipline : (S.discipline c).IgnoresTransaction :=
  fun _ _ hkeeps => hkeeps

/-- A scheme says nothing about cursors. -/
theorem ignoresCursors_discipline : (S.discipline c).IgnoresCursors where
  outlasts _ hkeeps := hkeeps

section Forms

variable (closed : S.Closed)

include closed

theorem effect_same {c' : Context} {before after : Progress}
    (h : (S.discipline c').effect before after) (hexits : c'.exits = c.exits)
    (hflags : c'.returnFlags = c.returnFlags) (hloops : c'.loops = c.loops) :
    (S.discipline c).effect before after := by
  intro hkeeps
  obtain ⟨hafter, added, hadded, hwrites, hextends⟩ := h hkeeps
  refine ⟨hafter, added, hadded, fun s hs => closed.same (hwrites s hs) hexits hflags hloops, ?_⟩
  simpa only [discipline, hexits] using hextends

/-- A part of a statement that stands at an index. -/
theorem hasEffect_within_enter (index : Nat) {step : Lower α}
    (h : step.HasEffect (c.enter index) (S.discipline (c.enter index)).effect) :
    (within (Context.enter index) step).HasEffect c (S.discipline c).effect :=
  hasEffect_within
    (h.mono (fun heffect => effect_same closed heffect rfl rfl rfl) fun _ _ => trivial)

variable (hc : S.covers c)

include hc

/-! ## Loops -/

omit hc in
/-- A loop whose body was written in a context with one loop more and the same enclosing halves of
`TRY` statements. -/
theorem hasEffect_emit_loop {c' : Context} {body : List Go.Stmt} (test : Option Go.Expr)
    (hbody : ∀ s ∈ body, S.writes c' s ∧ s.bindsError = false) (hexits : c'.exits = c.exits)
    (hflags : c'.returnFlags = c.returnFlags) (hloops : c'.loops = c.loops + 1) :
    (emit (.loop test body)).HasEffect c ((S.discipline c).behind body).effect :=
  hasEffect_emit (closed.loop (fun s hs => (hbody s hs).1) hexits hflags hloops) rfl
    (fun hkeeps => hkeeps.2.loop) (Go.listBindsError_eq_false.mpr fun s hs => (hbody s hs).2)

theorem hasEffect_lowerWhile (condition : Expr) {body : Lower Unit}
    (hbody : body.HasEffect c.enterLoop (S.discipline c.enterLoop).effect) :
    (lowerWhile condition body).HasEffect c (S.discipline c).effect := by
  have hloop : S.covers c.enterLoop := closed.covers_of (c := c) rfl rfl hc
  have hinside : 0 < c.enterLoop.loops := Nat.succ_pos _
  unfold lowerWhile
  split
  · have hround := hasEffect_bind
      (hasEffect_emitLoopTest (closed.regular hloop).forms condition
        (hasEffect_emitBreak (closed.breakLoop hinside)))
      fun _ => hbody
    refine hasEffect_within_block_bind Context.enterLoop hround rfl rfl fun statements hwrites => ?_
    exact hasEffect_emit_loop closed none hwrites rfl rfl rfl
  · refine hasEffect_bind (hasEffect_lowerCondition (closed.regular hc).forms condition) fun test => ?_
    refine hasEffect_within_block_bind Context.enterLoop hbody rfl rfl fun statements hwrites => ?_
    exact hasEffect_emit_loop closed (some test) hwrites rfl rfl rfl

theorem hasEffect_lowerCursorLoop (fetch : Fetch) (rest : Option Expr) {body : Lower Unit}
    (hbody : body.HasEffect (inCursorLoop fetch c) (S.discipline (inCursorLoop fetch c)).effect) :
    (lowerCursorLoop fetch rest body).HasEffect c (S.discipline c).effect := by
  have hloop : S.covers (inCursorLoop fetch c) := closed.covers_of (c := c) rfl rfl hc
  have hinside : 0 < (inCursorLoop fetch c).loops := Nat.succ_pos _
  refine hasEffect_bind
    (hasEffect_fetchIterator ignoresCursors_discipline.admitsCursors fetch) fun iterator => ?_
  refine hasEffect_bind (hasEffect_goNames _) fun targets => ?_
  have hround := hasEffect_bind
    (hasEffect_emitRound (closed.regular hloop).forms iterator targets rest
      (hasEffect_emitBreak (closed.breakLoop hinside)))
    fun _ => hbody
  refine hasEffect_within_block_bind (inCursorLoop fetch) hround rfl rfl fun statements hwrites => ?_
  refine hasEffect_bind (hasEffect_emit_loop closed _ hwrites rfl rfl rfl) fun _ => ?_
  exact (hasEffect_emitGuarded (closed.regular hc).forms _).behind statements

theorem hasEffect_lowerFetchLoop (prepared : Option Fetch) (rest : Option Expr)
    (statements : List Statement) {body : Lower Unit}
    (hbody : ∀ fetch, body.HasEffect (inCursorLoop fetch (c.enter 0))
      (S.discipline (inCursorLoop fetch (c.enter 0))).effect) :
    (lowerFetchLoop prepared rest statements body).HasEffect c (S.discipline c).effect := by
  unfold lowerFetchLoop
  split
  · exact hasEffect_unsupported _ _
  · have henter : S.covers (c.enter 0) := closed.covers_of (c := c) rfl rfl hc
    exact hasEffect_within_enter closed 0
      (hasEffect_lowerCursorLoop closed henter _ rest (hbody _))

/-! ## Handlers -/

omit hc in
theorem hasEffect_emitRecover {flag : Option String} (catchBody : List Statement)
    {handler : Lower Unit}
    (hhandler : handler.HasEffect (inHandler c) (S.discipline (inHandler c)).effect) :
    (emitRecover catchBody handler).HasEffect c (S.discipline (inTry flag c)).effect := by
  have hbasic := closed.basic (inHandler c)
  have hstart : (emitHandlerStart catchBody).HasEffect c (S.discipline (inHandler c)).effect :=
    hasEffect_emitHandlerStart hbasic (fun hcounts => by cases hcounts.2) catchBody
  have hrun := hasEffect_bind hstart fun _ => hasEffect_within hhandler
  refine hasEffect_block_bind (hasEffect_emitIf hbasic _ _ hrun) rfl rfl fun body hbody => ?_
  exact hasEffect_emit (closed.handler fun s hs => (hbody s hs).1) rfl
    (fun hkeeps => hkeeps.2.closure) (Go.listBindsError_eq_false.mpr fun s hs => (hbody s hs).2)

/-- A `TRY` statement respects a closed scheme if its halves do. -/
theorem hasEffect_lowerTryCatch (tryBody catchBody : List Statement) {attempt handler : Lower Unit}
    (hattempt : ∀ flag, attempt.HasEffect (inTry flag c) (S.discipline (inTry flag c)).effect)
    (hhandler : handler.HasEffect (inHandler c) (S.discipline (inHandler c)).effect) :
    (lowerTryCatch tryBody catchBody attempt handler).HasEffect c (S.discipline c).effect := by
  have regular := closed.regular hc
  refine hasEffect_bind hasEffect_get fun p => ?_
  refine hasEffect_bind (hasEffect_returnFlag? regular.forms _) fun flag => ?_
  refine hasEffect_bind (hasEffect_setTransaction ignoresTransaction_discipline _) fun _ => ?_
  have hliteral : (do
      emitRecover catchBody handler
      let afterCatch := (← get).transaction
      setTransaction p.transaction
      within (inTry flag) attempt
      setTransaction ((← get).transaction.join afterCatch) : Lower Unit).HasEffect c
        (S.discipline (inTry flag c)).effect := by
    refine hasEffect_bind (hasEffect_emitRecover closed catchBody hhandler) fun _ => ?_
    refine hasEffect_bind hasEffect_get fun _ => ?_
    refine hasEffect_bind (hasEffect_setTransaction ignoresTransaction_discipline _) fun _ => ?_
    refine hasEffect_bind (hasEffect_within (hattempt flag)) fun _ => ?_
    exact hasEffect_bind hasEffect_get fun _ => hasEffect_setTransaction ignoresTransaction_discipline _
  refine hasEffect_block_bind hliteral rfl rfl fun literal hwrites => ?_
  have hemit : (emit (.closure false literal)).HasEffect c ((S.discipline c).behind literal).effect :=
    hasEffect_emit (closed.literal fun s hs => (hwrites s hs).1) rfl (fun hkeeps => hkeeps.2.closure)
      (Go.listBindsError_eq_false.mpr fun s hs => (hwrites s hs).2)
  have hwayOut := hasEffect_emitWayOut regular.forms flag catchBody (closed.resume hc) (closed.report hc)
  exact hasEffect_bind hemit fun _ => hwayOut.behind literal

end Forms

/-! ## Lists of statements -/

/-- The arms of a chain, and its alternative, are made of statements that may be written in an inner
block, and only assign what can be seen. -/
structure ArmsWritten (S : Scheme) (c : Context) (p : Progress) (arms : List Go.Arm)
    (otherwise : Option (List Go.Stmt)) : Prop where
  settled : (∀ arm ∈ arms, p.Settles arm.body) ∧ ∀ body ∈ otherwise, p.Settles body
  arms : ∀ arm ∈ arms, ∀ s ∈ arm.body, S.writes c s ∧ s.bindsError = false
  otherwise : ∀ body ∈ otherwise, ∀ s ∈ body, S.writes c s ∧ s.bindsError = false

/-- A statement respects a scheme wherever it stands. The arms of a conditional may be written only
as a part of another one. -/
structure Respects (S : Scheme) (source : Statement) : Prop where
  whole {c : Context} (rest : List Statement) (prepared : Option Fetch) : S.covers c →
    (lowerStatement rest prepared source).HasEffect c (S.discipline c).effect
  chain {c : Context} {condition : Expr} {thenBranch : List Statement}
    {elseBranch : Option (List Statement)} {before after : Progress} {first : Go.Arm}
    {others : List Go.Arm} {otherwise : Option (List Go.Stmt)} : S.covers c →
    source = .ifElse condition thenBranch elseBranch →
    (lowerChain condition thenBranch elseBranch).Runs c before (first, others, otherwise) after →
    S.keeps before.symbols →
      (S.discipline c).effect before after ∧ ArmsWritten S c after (first :: others) otherwise

section Lists

variable (closed : S.Closed)

include closed

/-- A list of statements respects a scheme if its members do. -/
theorem hasEffect_lowerStatements_of {statements : List Statement}
    (h : ∀ s ∈ statements, Respects S s) (hc : S.covers c) (index : Nat)
    (prepared : Option Fetch) :
    (lowerStatements index prepared statements).HasEffect c (S.discipline c).effect := by
  induction statements generalizing index prepared with
  | nil => exact hasEffect_pure _
  | cons statement rest ih =>
    rw [lowerStatements]
    have henter : S.covers (c.enter index) := closed.covers_of (c := c) rfl rfl hc
    have hfirst := (h statement List.mem_cons_self).whole rest prepared henter
    have hlocated := hasEffect_located hfirst fun _ _ => trivial
    refine hasEffect_bind (hasEffect_within_enter closed index hlocated) fun prepared => ?_
    exact ih (fun s hs => h s (List.mem_cons_of_mem _ hs)) (index + 1) prepared

/-- A branch or body at an index respects a scheme if its statements do. -/
theorem hasEffect_branch {statements : List Statement} (h : ∀ s ∈ statements, Respects S s)
    (hc : S.covers c) (index : Nat) :
    (within (Context.enter index) (lowerStatements 0 none statements)).HasEffect c
      (S.discipline c).effect := by
  have henter : S.covers (c.enter index) := closed.covers_of (c := c) rfl rfl hc
  exact hasEffect_within_enter closed index (hasEffect_lowerStatements_of closed h henter 0 none)

theorem lowerElse_respects {elseBranch : Option (List Statement)}
    (h : ∀ body ∈ elseBranch, ∀ s ∈ body, Respects S s) (hc : S.covers c) {before after : Progress}
    {others : List Go.Arm} {otherwise : Option (List Go.Stmt)}
    (hruns : (lowerElse elseBranch).Runs c before (others, otherwise) after)
    (hkeeps : S.keeps before.symbols) :
    (S.discipline c).effect before after ∧ ArmsWritten S c after others otherwise := by
  cases elseBranch with
  | none =>
    obtain ⟨heq, rfl⟩ := runs_pure.mp hruns
    cases heq
    exact ⟨Effect.Composable.refl _, by simp, by simp, by simp⟩
  | some body =>
    have hbody := h body rfl
    cases hchain : Statement.continuesChain body with
    | false =>
      rw [lowerElse_of_not_continuesChain hchain] at hruns
      obtain ⟨written, middle, hblock, hpure⟩ := runs_bind.mp hruns
      obtain ⟨heq, rfl⟩ := runs_pure.mp hpure
      cases heq
      obtain ⟨hafter, houtput, hsteady, hsettles, hwrites⟩ :=
        (hasEffect_branch closed hbody hc 1).block hblock hkeeps
      refine ⟨Discipline.effect_of_steady _ (fun _ => hafter) houtput hsteady,
        by simpa using hsettles, by simp, ?_⟩
      rintro _ ⟨⟩
      exact hwrites
    | true =>
      obtain ⟨condition, thenBranch, elseBranch, rfl, hhoist⟩ :=
        Statement.continuesChain_iff.mp hchain
      rw [lowerElse_of_continuesChain hhoist] at hruns
      obtain ⟨⟨first, others', otherwise'⟩, middle, hchain, hpure⟩ :=
        runs_bind.mp (runs_located.mp (runs_within.mp hruns))
      obtain ⟨heq, rfl⟩ := runs_pure.mp hpure
      cases heq
      have henter : S.covers ((Context.enter 0 ∘ Context.enter 1) c) :=
        closed.covers_of (c := c) rfl rfl hc
      obtain ⟨heffect, harms⟩ := (hbody _ List.mem_cons_self).chain henter rfl hchain hkeeps
      have hsame {s : Go.Stmt} (h : S.writes ((Context.enter 0 ∘ Context.enter 1) c) s) :
          S.writes c s := closed.same h rfl rfl rfl
      exact ⟨effect_same closed heffect rfl rfl rfl, harms.settled,
        fun arm harm s hs => (harms.arms arm harm s hs).imp_left hsame,
        fun body hbody s hs => (harms.otherwise body hbody s hs).imp_left hsame⟩

theorem lowerChain_respects {condition : Expr} {thenBranch : List Statement}
    {elseBranch : Option (List Statement)} (hthen : ∀ s ∈ thenBranch, Respects S s)
    (helse : ∀ body ∈ elseBranch, ∀ s ∈ body, Respects S s) (hc : S.covers c)
    {before after : Progress} {first : Go.Arm} {others : List Go.Arm}
    {otherwise : Option (List Go.Stmt)}
    (hruns : (lowerChain condition thenBranch elseBranch).Runs c before (first, others, otherwise)
      after) (hkeeps : S.keeps before.symbols) :
    (S.discipline c).effect before after ∧ ArmsWritten S c after (first :: others) otherwise := by
  obtain ⟨test, middle, htest, hruns⟩ := runs_bind.mp hruns
  obtain ⟨body, middle', hblock, hruns⟩ := runs_bind.mp hruns
  obtain ⟨arms, middle'', helseruns, hpure⟩ := runs_bind.mp hruns
  obtain ⟨heq, rfl⟩ := runs_pure.mp hpure
  cases heq
  have htested := hasEffect_lowerCondition (closed.regular hc).forms condition htest
  obtain ⟨hmiddle, -⟩ := htested hkeeps
  obtain ⟨hmiddle', houtput, hsteady, hsettles, hwrites⟩ :=
    (hasEffect_branch closed hthen hc 0).block hblock hmiddle
  obtain ⟨helsed, harms⟩ := lowerElse_respects closed helse hc helseruns hmiddle'
  have hthened : (S.discipline c).effect middle middle' :=
    Discipline.effect_of_steady _ (fun _ => hmiddle') houtput hsteady
  obtain ⟨-, _, -, -, hextends⟩ := helsed hmiddle'
  have hbody : after.Settles body := hsettles.mono fun _ => hextends.grows.names.isBound
  exact ⟨Effect.Composable.trans htested (Effect.Composable.trans hthened helsed),
    ⟨List.forall_mem_cons.mpr ⟨hbody, harms.settled.1⟩, harms.settled.2⟩,
    List.forall_mem_cons.mpr ⟨hwrites, harms.arms⟩, harms.otherwise⟩

/-- A statement respects a closed scheme if the statements inside it do, and if its declarations may
be met. -/
theorem hasEffect_lowerStatement_of {source : Statement}
    (hadmits : ∀ vars, source = .declare vars → ∀ var ∈ vars, S.admits var)
    (h : ∀ body ∈ source.children, ∀ s ∈ body, Respects S s) (hc : S.covers c)
    (rest : List Statement) (prepared : Option Fetch) :
    (lowerStatement rest prepared source).HasEffect c (S.discipline c).effect := by
  cases source with
  | ifElse condition thenBranch elseBranch =>
    have hthen : ∀ s ∈ thenBranch, Respects S s := h _ List.mem_cons_self
    have helse : ∀ body ∈ elseBranch, ∀ s ∈ body, Respects S s := fun body hbody =>
      h body (List.mem_cons_of_mem _ (Option.mem_toList.mpr hbody))
    rw [lowerStatement_ifElse]
    refine ⟨fun before result after hruns hkeeps => ?_, fun _ _ _ _ _ => trivial⟩
    obtain ⟨⟨first, others, otherwise⟩, middle, hchain, hrest⟩ := runs_bind.mp hruns
    obtain ⟨heffect, harms⟩ := lowerChain_respects closed hthen helse hc hchain hkeeps
    obtain ⟨_, _, hemit, hpure⟩ := runs_bind.mp hrest
    obtain rfl := runs_emit.mp hemit
    obtain ⟨-, rfl⟩ := runs_pure.mp hpure
    have hwrote : (S.discipline c).effect middle (middle.wrote (.branch first others otherwise)) :=
      Discipline.effect_wrote _ ((closed.basic c).branch
          (fun arm harm s hs => (harms.arms arm harm s hs).1)
          fun body hbody s hs => (harms.otherwise body hbody s hs).1) (fun _ => rfl)
        (fun _ => Progress.settles_branch harms.settled.1 harms.settled.2)
        (Go.bindsError_branch (fun arm harm s hs => (harms.arms arm harm s hs).2)
          fun body hbody s hs => (harms.otherwise body hbody s hs).2)
    exact Effect.Composable.trans heffect hwrote hkeeps
  | «while» condition body =>
    have hbody : ∀ s ∈ body, Respects S s := h _ List.mem_cons_self
    rw [lowerStatement]
    cases sentinelRest? condition with
    | some more =>
      refine hasEffect_bind ?_ fun _ => hasEffect_pure _
      refine hasEffect_lowerFetchLoop closed hc prepared more body fun fetch => ?_
      have hloop : S.covers (inCursorLoop fetch (c.enter 0)) :=
        closed.covers_of (c := c) rfl rfl hc
      exact hasEffect_lowerStatements_of closed hbody hloop 0 none
    | none =>
      refine hasEffect_bind ?_ fun _ => hasEffect_pure _
      have hloop : S.covers c.enterLoop := closed.covers_of (c := c) rfl rfl hc
      exact hasEffect_lowerWhile closed hc condition (hasEffect_branch closed hbody hloop 0)
  | block body =>
    rw [lowerStatement]
    have hbody : ∀ s ∈ body, Respects S s := h _ List.mem_cons_self
    exact hasEffect_bind (hasEffect_lowerStatements_of closed hbody hc 0 none) fun _ =>
      hasEffect_pure _
  | tryCatch tryBody catchBody =>
    rw [lowerStatement]
    have htry : ∀ s ∈ tryBody, Respects S s := h _ List.mem_cons_self
    have hcatch : ∀ s ∈ catchBody, Respects S s :=
      h _ (List.mem_cons_of_mem _ List.mem_cons_self)
    refine hasEffect_bind (hasEffect_lowerTryCatch closed hc tryBody catchBody ?_ ?_) fun _ =>
      hasEffect_pure _
    · intro flag
      exact hasEffect_lowerStatements_of closed htry (closed.covers_inTry flag hc) 0 none
    · exact hasEffect_lowerStatements_of closed hcatch (closed.covers_inHandler hc) 0 none
  | _ =>
    have jumping := closed.jumping hc
    exact hasEffect_leaf jumping.forms rest prepared
      (fun vars hvars => closed.declares hc (hadmits vars hvars)) (fun _ => jumping.raising)
      (fun _ => allowsCursors jumping.toRegular ignoresCursors_discipline jumping.opens)
      (fun _ => allowsTransactions (closed.releasing c) jumping.toRegular
        ignoresTransaction_discipline) rfl

/-- Every statement whose declarations may be met respects every closed scheme. -/
theorem respects (source : Statement)
    (hadmits : ∀ vars, .declare vars ∈ source.nested → ∀ var ∈ vars, S.admits var) :
    Respects S source := by
  induction source using Statement.childInduction with
  | step source ih =>
    have ih : ∀ body ∈ source.children, ∀ s ∈ body, Respects S s := by
      refine fun body hbody s hs => ih body hbody s hs fun vars hvars => hadmits vars ?_
      exact Statement.mem_nested_of_mem_children hbody hs hvars
    refine ⟨fun rest prepared hc => hasEffect_lowerStatement_of closed ?_ ih hc rest prepared, ?_⟩
    · rintro vars rfl
      exact hadmits vars (Statement.mem_nested_self _)
    intro c condition thenBranch elseBranch before after first others otherwise hc hsource hruns
    subst hsource
    refine lowerChain_respects closed (ih _ List.mem_cons_self) ?_ hc hruns
    intro body hbody
    exact ih body (List.mem_cons_of_mem _ (Option.mem_toList.mpr hbody))

/-- Every list of statements whose declarations may be met respects every closed scheme. -/
theorem hasEffect_lowerStatements_admitted (hc : S.covers c) (index : Nat)
    (prepared : Option Fetch) {statements : List Statement}
    (hadmits : ∀ vars, .declare vars ∈ Statement.nestedList statements →
      ∀ var ∈ vars, S.admits var) :
    (lowerStatements index prepared statements).HasEffect c (S.discipline c).effect := by
  refine hasEffect_lowerStatements_of closed (fun s hs => respects closed s ?_) hc index prepared
  exact fun vars hvars => hadmits vars (Statement.mem_nestedList.mpr ⟨s, hs, hvars⟩)

theorem hasEffect_lowerStatements (hall : ∀ var, S.admits var) (hc : S.covers c) (index : Nat)
    (prepared : Option Fetch) (statements : List Statement) :
    (lowerStatements index prepared statements).HasEffect c (S.discipline c).effect :=
  hasEffect_lowerStatements_admitted closed hc index prepared fun _ _ var _ => hall var

end Lists

end Lower

/-! ## Schemes that admit all statements -/

/-- A scheme whose disciplines admit all Go statements is closed if it is about all contexts of a
procedure and respected by its declarations. -/
theorem Scheme.closed_of_permissive {S : Scheme} (permissive : ∀ c, (S.discipline c).Permissive)
    (covers_of : ∀ {c c' : Context}, c'.procedure = c.procedure → c'.survey = c.survey →
      S.covers c → S.covers c')
    (declares : ∀ {c : Context} {vars : List VarDecl}, S.covers c → (∀ var ∈ vars, S.admits var) →
      (Lower.lowerDeclares vars).HasEffect c (S.discipline c).effect) : S.Closed where
  covers_of := covers_of
  declares := declares
  basic c := (permissive c).basic
  opens c _ _ := permissive c _
  same _ _ _ _ := permissive _ _
  breakLoop _ := permissive _ _
  continueLoop _ := permissive _ _
  loop _ _ _ _ := permissive _ _
  releasing c := (permissive c).releasing
  handler _ := permissive _ _
  literal _ := permissive _ _
  exit _ := (permissive _).leaving.errorExit
  raise error _ := (permissive _).leaving.raise error
  leave status _ := (permissive _).leaving.lowerReturn status
  resume _ := (permissive _).leaving.resume
  report _ := (permissive _).leaving.report

/-- The scheme that asks for nothing about what is written: it only says that statements are added
behind those that are written already, and that the names which they introduce are entered. -/
def Scheme.free : Scheme where
  covers _ := True
  keeps _ := True
  writes _ _ := True
  counts := True

theorem Scheme.permissive_free (c : Context) : (Scheme.free.discipline c).Permissive :=
  fun _ => trivial

theorem Scheme.lasting_free (c : Context) : (Scheme.free.discipline c).Lasting :=
  fun _ _ _ _ _ _ _ _ => trivial

theorem Scheme.closed_free : Scheme.free.Closed :=
  closed_of_permissive permissive_free (fun _ _ _ => trivial) fun _ _ =>
    Lower.hasEffect_lowerDeclares (permissive_free _).regular (lasting_free _) _

/-- The scheme for a condition on the variables that declarations keep. -/
def Scheme.keeping (K : SymbolTable → Prop) : Scheme where
  covers _ := True
  keeps := K
  writes _ _ := True

theorem Scheme.permissive_keeping (K : SymbolTable → Prop) (c : Context) :
    ((keeping K).discipline c).Permissive :=
  fun _ => trivial

theorem Scheme.lasting_keeping {K : SymbolTable → Prop}
    (hdeclare : ∀ {table other : SymbolTable} {name type : String} {kind : SymbolKind}
      {symbol : Symbol}, K table → table.declare name type kind = .ok (symbol, other) → K other)
    (c : Context) : ((keeping K).discipline c).Lasting :=
  fun _ _ _ _ _ _ hdeclared hkeeps => hdeclare hkeeps hdeclared

theorem Scheme.closed_keeping {K : SymbolTable → Prop}
    (hdeclare : ∀ {table other : SymbolTable} {name type : String} {kind : SymbolKind}
      {symbol : Symbol}, K table → table.declare name type kind = .ok (symbol, other) → K other) :
    (keeping K).Closed :=
  closed_of_permissive (permissive_keeping K) (fun _ _ _ => trivial) fun _ _ =>
    Lower.hasEffect_lowerDeclares (permissive_keeping K _).regular (lasting_keeping hdeclare _) _

/-- What a step that respects the scheme which asks for nothing adds. -/
theorem Lower.HasEffect.exists_extends {α : Type} {c c' : Context} {step : Lower α} {value : α}
    {p after : Progress} (h : step.HasEffect c (Scheme.free.discipline c').effect)
    (hruns : step.Runs c p value after) :
    ∃ added, after.output = p.output ++ added ∧ p.Extends (c'.exits = []) after added := by
  obtain ⟨-, added, hadded, -, hextends⟩ := h hruns trivial
  exact ⟨added, hadded, hextends.grows, hextends.seen, hextends.settles,
    fun hexits => hextends.entered ⟨trivial, hexits⟩, hextends.shallow⟩

/-- Lists of statements add to what is written. -/
theorem Lower.extends_lowerStatements {c : Context} {index : Nat} {prepared : Option Fetch}
    {statements : List Statement} {p after : Progress}
    (h : (lowerStatements index prepared statements).Runs c p () after) :
    ∃ added, after.output = p.output ++ added ∧ p.Extends (c.exits = []) after added :=
  (hasEffect_lowerStatements Scheme.closed_free (fun _ => trivial) trivial index prepared
    statements).exists_extends h

/-- Statements add to what is written. -/
theorem Lower.extends_lowerStatement {c : Context} {rest : List Statement}
    {prepared result : Option Fetch} {statement : Statement} {p after : Progress}
    (h : (lowerStatement rest prepared statement).Runs c p result after) :
    ∃ added, after.output = p.output ++ added ∧ p.Extends (c.exits = []) after added :=
  ((respects Scheme.closed_free statement fun _ _ _ _ => trivial).whole rest prepared
    trivial).exists_extends h

end Sproc
