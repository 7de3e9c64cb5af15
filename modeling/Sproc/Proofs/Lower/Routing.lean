import Sproc.Proofs.Lower.Provision

/-!
# The ways out for failures

A statement that can fail at run time keeps its error and asks for it at once. What is done then
depends on where the statement stands in the source: outside of all `TRY` statements the function
returns its results with the error, in a protected half the error is raised as a panic, and in a
handler it is logged and dropped. This holds of all code of a function, whatever backend the call is
for and however deep the statement is nested.

## Main definitions

* `Go.Failure.Routed`: a failure branch is the way out of its scope
* `Part.scope`, `Procedure.Holds`: the half of a `TRY` statement that a statement stands in
* `Procedure.VisitsIn`: the frames of a procedure, with the half that they stand in

## Main results

* `Idiom.Code.routes`: the failure branches of code are the ways out of their scopes
* `Procedure.VisitsIn.settled`: every frame of a procedure stands in the context that its code asks
  for
* `Procedure.failures_leave_by_scope`: all failure branches of a function are the ways out of the
  halves that their statements stand in
-/

namespace Sproc

open Lower Idiom Permit

/-! ## Failure branches of code -/

namespace Go

variable {scope : ExitScope} {f : Failure}

theorem mem_armFailures {arms : List Arm} (h : ∀ arm ∈ arms, arm.init = none) :
    f ∈ armFailures scope arms ↔ ∃ arm ∈ arms, f ∈ listFailures scope arm.body := by
  induction arms with
  | nil => simp [armFailures]
  | cons arm rest ih =>
    obtain ⟨init, test, body⟩ := arm
    rw [List.forall_mem_cons] at h
    obtain rfl : init = none := h.1
    simp [armFailures, initFailures, ih h.2]

/-- The failure branches of a chain of conditionals: that of the assignment in front of it, and those
of its bodies. -/
theorem mem_failures_branch {first : Arm} {others : List Arm} {otherwise : Option (List Stmt)}
    {check : Option (List Stmt)} (h : ∀ arm ∈ others, arm.init = none) :
    f ∈ (Stmt.branch first others otherwise).failures scope check ↔
      f ∈ initFailures scope first.init (first :: others) ∨
      (∃ arm ∈ first :: others, f ∈ listFailures scope arm.body) ∨
      ∃ body ∈ otherwise, f ∈ listFailures scope body := by
  obtain ⟨init, test, body⟩ := first
  cases otherwise <;> simp [Stmt.failures, elseFailures, mem_armFailures h, or_assoc]

end Go

namespace Idiom

variable {I : Idiom} {scope : ExitScope}

/-- A failure branch is the way out of its scope, and the function has an error to return. -/
def Routed (I : Idiom) (f : Go.Failure) : Prop :=
  f.branch = some (I.failure f.scope) ∧ I.allows (.name "err")

/-- The failure branches of statements are the ways out of their scopes, whatever follows. -/
def Routes (I : Idiom) (scope : ExitScope) (body : List Go.Stmt) : Prop :=
  ∀ rest, ∀ f ∈ Go.listFailures scope (body ++ rest),
    I.Routed f ∨ f ∈ Go.listFailures scope rest

/-- All failure branches of statements that nothing follows are the ways out of their scopes. -/
theorem Routes.routed {body : List Go.Stmt} (h : I.Routes scope body) :
    ∀ f ∈ Go.listFailures scope body, I.Routed f := by
  intro f hf
  rcases h [] f (by rwa [List.append_nil]) with hrouted | hnil
  · exact hrouted
  · cases hnil

theorem routes_cons {s : Go.Stmt} {rest : List Go.Stmt}
    (h : ∀ behind, ∀ f ∈ s.failures scope (Go.check? (rest ++ behind)), I.Routed f)
    (hrest : I.Routes scope rest) : I.Routes scope (s :: rest) := by
  intro behind f hf
  rcases List.mem_append.mp hf with hf | hf
  · exact .inl (h behind f hf)
  · exact hrest behind f hf

theorem routes_nil : I.Routes scope [] :=
  fun _ _ hf => .inr hf

/-- A statement whose failure branches do not depend on what follows. -/
theorem routes_singleton {s : Go.Stmt} (h : ∀ check, ∀ f ∈ s.failures scope check, I.Routed f) :
    I.Routes scope [s] :=
  routes_cons (fun _ => h _) routes_nil

/-- A statement without failure branches. -/
theorem routes_of_failures_eq_nil {s : Go.Stmt} (h : ∀ check, s.failures scope check = []) :
    I.Routes scope [s] :=
  routes_singleton fun check f hf => by
    rw [h check] at hf
    cases hf

theorem failures_assign {a : Go.Assign} (h : a.mayFail = false) (check : Option (List Go.Stmt)) :
    (Go.Stmt.assign a).failures scope check = [] := by
  rw [Go.Stmt.failures, h]
  rfl

/-- The way out itself cannot fail. -/
theorem listFailures_failure (scope scope' : ExitScope) :
    Go.listFailures scope' (I.failure scope) = [] := by
  cases scope <;> rfl

/-- A chain of conditionals with an assignment in front of it, from what is done when the assignment
fails. -/
theorem routed_branch {first : Go.Arm} {others : List Go.Arm} {otherwise : Option (List Go.Stmt)}
    (hinit : ∀ f ∈ Go.initFailures scope first.init (first :: others), I.Routed f)
    (hothers : ∀ arm ∈ others, arm.init = none)
    (hbodies : ∀ arm ∈ first :: others, ∀ f ∈ Go.listFailures scope arm.body, I.Routed f)
    (hotherwise : ∀ body ∈ otherwise, I.Routes scope body) (check : Option (List Go.Stmt)) :
    ∀ f ∈ (Go.Stmt.branch first others otherwise).failures scope check, I.Routed f := by
  intro f hf
  rcases (Go.mem_failures_branch hothers).mp hf with hf | ⟨arm, harm, hf⟩ | ⟨body, hbody, hf⟩
  · exact hinit f hf
  · exact hbodies arm harm f hf
  · exact (hotherwise body hbody).routed f hf

/-- The failure branch of the assignment in front of a chain that asks for the error somewhere. -/
theorem routed_init {init : Option Go.Assign} {arms : List Go.Arm}
    (herr : I.allows (.name "err")) (h : Go.failureArm? arms = some (I.failure scope)) :
    ∀ f ∈ Go.initFailures scope init arms, I.Routed f := by
  intro f hf
  unfold Go.initFailures at hf
  split at hf
  · obtain rfl := List.mem_singleton.mp hf
    exact ⟨h, herr⟩
  · cases hf

theorem routed_failure (scope' : ExitScope) :
    ∀ f ∈ Go.listFailures scope' (I.failure scope), I.Routed f := by
  intro f hf
  rw [listFailures_failure] at hf
  cases hf

/-- The question for an error has no failure branch of its own. -/
theorem routed_check {otherwise : Option (List Go.Stmt)}
    (hotherwise : ∀ body ∈ otherwise, I.Routes scope body) (check : Option (List Go.Stmt)) :
    ∀ f ∈ (Go.Stmt.branch (.mk none failed (I.failure scope)) [] otherwise).failures scope check,
      I.Routed f := by
  refine routed_branch (fun f hf => by cases hf) (List.forall_mem_nil _) ?_ hotherwise check
  exact List.forall_mem_singleton.mpr (routed_failure scope)

/-- Every failure branch of code is the way out of its scope. -/
theorem Code.routes {body : List Go.Stmt} (h : I.Code scope body) : I.Routes scope body := by
  induction h with
  | nil => exact routes_nil
  | append _ _ ihfront ihback =>
    intro rest f hf
    rw [List.append_assoc] at hf
    rcases ihfront _ f hf with hrouted | hf
    · exact .inl hrouted
    · exact ihback rest f hf
  | assign _ hsafe => exact routes_of_failures_eq_nil (failures_assign hsafe)
  | declare _ _ _ _ ih => exact routes_cons (fun _ f hf => by cases hf) ih
  | run | deferCall | ret | panic | breakLoop | continueLoop =>
    exact routes_of_failures_eq_nil fun _ => rfl
  | @branch _ first others _ htests _ _ iharms ihotherwise =>
    have hinit : first.init = none := (htests first List.mem_cons_self).1
    refine routes_singleton (routed_branch ?_ (fun arm harm => ?_) ?_ ihotherwise)
    · rw [hinit]
      exact fun f hf => by cases hf
    · exact (htests arm (List.mem_cons_of_mem _ harm)).1
    · exact fun arm harm => (iharms arm harm).routed
  | report _ _ ih =>
    refine routes_singleton (routed_branch (fun f hf => by cases hf) nofun ?_ nofun)
    exact List.forall_mem_singleton.mpr ih.routed
  | loop _ _ ih => exact routes_singleton fun _ => ih.routed
  | guarded herr _ _ =>
    refine routes_singleton (routed_branch (routed_init herr rfl) nofun ?_ nofun)
    exact List.forall_mem_singleton.mpr (routed_failure _)
  | @scan scope _ missed missing _ herr _ _ hmissed _ _ ihmissing ihotherwise =>
    have harm : Go.failureArm? [.mk none failed (I.failure scope)] = some (I.failure scope) := rfl
    refine routes_singleton (routed_branch (routed_init herr ?_) ?_ ?_ ihotherwise)
    · rw [Go.failureArm?, hmissed]
      exact harm
    · exact List.forall_mem_singleton.mpr rfl
    · exact List.forall_mem_cons.mpr
        ⟨ihmissing.routed, List.forall_mem_singleton.mpr (routed_failure _)⟩
  | call herr _ _ _ _ _ _ _ ihotherwise ihrest =>
    refine routes_cons (fun behind f hf => ?_) (routes_cons ?_ ihrest)
    · rw [Go.Stmt.failures] at hf
      split at hf
      · obtain rfl := List.mem_singleton.mp hf
        exact ⟨rfl, herr⟩
      · cases hf
    · exact fun _ => routed_check ihotherwise _
  | caught _ _ ih =>
    refine routes_cons (fun _ f hf => by cases hf) (routes_singleton ?_)
    refine routed_branch (fun f hf => by cases hf) nofun ?_ nofun
    exact List.forall_mem_singleton.mpr ih.routed
  | recover _ ih =>
    refine routes_singleton (routed_branch (fun f hf => by cases hf) nofun ?_ nofun)
    exact List.forall_mem_singleton.mpr ih.routed
  | literal _ ih | deferred _ ih => exact routes_singleton fun _ => ih.routed

end Idiom

/-! ## Frames -/

/-- The half of a `TRY` statement that a part of a statement stands in, for a statement that stands
in the given one. -/
def Part.scope (outer : ExitScope) : Part → ExitScope
  | .tryHalf => .tryHalf
  | .catchHalf => .catchHalf
  | .thenBranch | .elseBranch | .body => outer

/-- A statement stands in a procedure, and this is the half of a `TRY` statement that most closely
encloses it. -/
inductive Procedure.Holds (procedure : Procedure) : ExitScope → Statement → Prop
  | body {statement : Statement} : statement ∈ procedure.body → Holds procedure .body statement
  | part {scope : ExitScope} {outer inner : Statement} {part : Part} {statements : List Statement} :
    Holds procedure scope outer → outer.part? part = some statements → inner ∈ statements →
    Holds procedure (part.scope scope) inner

/-- The generation of a procedure goes through a frame, and this is the half of a `TRY` statement
that most closely encloses its statements. -/
inductive Procedure.VisitsIn (procedure : Procedure) (config : Config) : ExitScope → Frame → Prop
  | body {frame : Frame} : procedure.Begins config frame → VisitsIn procedure config .body frame
  | behind {scope : ExitScope} {frame frame' : Frame} : VisitsIn procedure config scope frame →
    frame.Step frame' → VisitsIn procedure config scope frame'
  | into {scope : ExitScope} {frame inner : Frame} {statement : Statement} {rest : List Statement}
    {part : Part} : VisitsIn procedure config scope frame → frame.statements = statement :: rest →
    Opens frame.here frame.prepared frame.progress statement part inner →
    VisitsIn procedure config (part.scope scope) inner

namespace Opens

variable {c : Context} {prepared : Option Fetch} {p : Progress} {statement : Statement}
  {part : Part} {frame : Frame}

/-- The context of a part stands in the half that the part stands in. -/
theorem exitScope_eq (h : Opens c prepared p statement part frame) :
    frame.context.exitScope = part.scope c.exitScope := by
  cases h <;> rfl

end Opens

/-- A frame of a function whose code belongs to an idiom. -/
structure Idiom.Settled (I : Idiom) (frame : Frame) : Prop where
  covers : I.Covers frame.context
  sound : I.Sound frame.progress
  grants : ∀ s ∈ frame.statements, ∀ inner ∈ s.nested, I.GrantsStatement inner

namespace Idiom.Settled

variable {I : Idiom} {frame frame' : Frame} {statement : Statement} {rest : List Statement}

theorem fits (h : I.Settled frame) : ∀ s ∈ frame.statements, s.Fits I :=
  fun s hs => s.fits (h.grants s hs)

/-- The first statement of a frame writes code of the half that the frame stands in. -/
theorem step (h : I.Settled frame) (hstep : frame.Step frame') :
    I.Settled frame' ∧ ∃ written, frame'.progress.output = frame.progress.output ++ written ∧
      I.Code frame.context.exitScope written := by
  have hfits := h.fits
  obtain ⟨hcovers, hsound, hgrants⟩ := h
  cases hstep with
  | mk hruns =>
    rw [List.forall_mem_cons] at hgrants hfits
    obtain ⟨hafter, written, hwritten, hcode, -⟩ :=
      hfits.1.whole _ _ (hcovers.enter _) hruns hsound
    exact ⟨⟨hcovers, hafter, hgrants.2⟩, written, hwritten, hcode⟩

/-- The progress in front of a handler is sound. -/
theorem handler {p flagged : Progress} {tryBody catchBody : List Statement} (hp : I.Sound p)
    (hflagged : I.Sound flagged)
    (hgrants : ∀ s ∈ (Statement.tryCatch tryBody catchBody).nested, I.GrantsStatement s) :
    I.Sound { flagged with transaction := handlerTransaction tryBody p.transaction } := by
  have htry := Statement.grants_transaction_of_anyProtected hgrants
  exact ⟨hflagged.grown, hflagged.named, hflagged.cursors,
    grants_handlerTransaction htry hp.transaction⟩

/-- A part of a statement starts with a sound progress. -/
theorem opens {c : Context} {prepared : Option Fetch} {p : Progress} {part : Part}
    {inner : Frame} (hc : I.Covers c) (hp : I.Sound p)
    (hgrants : ∀ s ∈ statement.nested, I.GrantsStatement s)
    (hopens : Opens c prepared p statement part inner) :
    I.Covers inner.context ∧ I.Sound inner.progress := by
  have hown := hgrants statement (Statement.mem_nested_self statement)
  have hfits {body : List Statement} (hbody : body ∈ statement.children) : ∀ s ∈ body, s.Fits I :=
    fun s hs => s.fits fun t ht =>
      hgrants t (Statement.mem_nested_of_mem_children hbody hs ht)
  have hopened {q : Progress} (hq : I.Sound q) : I.Sound q.opened := hq.congr rfl rfl rfl
  cases hopens with
  | thenBranch htest =>
    exact ⟨hc.enter 0, hopened (ensures_lowerCondition hc _ hown.1 htest hp).1⟩
  | elseBranch htest hthen =>
    have htested := (ensures_lowerCondition hc _ hown.1 htest hp).1
    have hpassed := (yields_branch hc (hfits List.mem_cons_self) 0 hthen htested).1
    refine ⟨hc.enter 1, ?_⟩
    dsimp only [elseStart]
    split
    · exact hpassed
    · exact hopened hpassed
  | loop _ _ htest =>
    exact ⟨hc.enterLoop.enter 0, hopened (ensures_lowerCondition hc _ hown.1 htest hp).1⟩
  | testedLoop _ _ htest =>
    have hcondition := yields_lowerCondition hc.enterLoop hown.1
    have hstart := yields_emitLoopTest hcondition htest (hopened hp)
    exact ⟨hc.enterLoop.enter 0, hstart.1⟩
  | cursorLoop hrest _ hiterator htargets hround =>
    have hmore := Statement.grantsExpr_sentinelRest hrest hown.1
    obtain ⟨hfound, _, -, -, herr, hvalue⟩ := ensures_fetchIterator _ hiterator hp
    obtain ⟨hnamed, _, -, -, hfree⟩ := ensures_goNames _ htargets hfound
    have hinside := (hc.enter 0).inCursorLoop
    have hstart := ensures_emitRound (hinside _) herr hvalue hfree hmore hround (hopened hnamed)
    exact ⟨hinside _, hstart.1⟩
  | block => exact ⟨hc, hp⟩
  | catchHalf hflag hstart =>
    obtain ⟨hflagged, -⟩ := adds_returnFlag? _ hflag hp
    have hhandler := handler hp hflagged hgrants
    have hcaught := Statement.allows_caught_of_anyProtected hgrants
    exact ⟨hc.inHandler,
      (adds_emitHandlerStart hc hcaught hstart (hopened (hopened (hopened hhandler)))).1⟩
  | tryHalf hflag hrecover =>
    obtain ⟨hflagged, _, -, hname, -⟩ := adds_returnFlag? _ hflag hp
    have hhandler := handler hp hflagged hgrants
    have hcatch := hfits (List.mem_cons_of_mem _ List.mem_cons_self)
    have hbody := yields_lowerStatements hc.inHandler hcatch 0 none
    have hcaught := Statement.allows_caught_of_anyProtected hgrants
    have hhandled := (adds_emitRecover hc hcaught hbody hrecover (hopened hhandler)).1
    refine ⟨hc.inTry hname, ?_⟩
    exact ⟨hhandled.grown, hhandled.named, hhandled.cursors, hp.transaction⟩

theorem into (h : I.Settled frame) (hstatements : frame.statements = statement :: rest)
    {part : Part} {inner : Frame}
    (hopens : Opens frame.here frame.prepared frame.progress statement part inner) :
    I.Settled inner := by
  have hgrants : ∀ s ∈ statement.nested, I.GrantsStatement s :=
    h.grants statement (hstatements ▸ List.mem_cons_self)
  obtain ⟨hcovers, hsound⟩ := opens (h.covers.enter _) h.sound hgrants hopens
  refine ⟨hcovers, hsound, fun s hs t ht => hgrants t ?_⟩
  exact Statement.mem_nested_of_mem_children (Statement.mem_children_of_part? hopens.part?_eq) hs ht

end Idiom.Settled

namespace Procedure

variable {procedure : Procedure} {config : Config} {lowered : LoweredProcedure} {scope : ExitScope}
  {frame : Frame}

/-- The context of a frame knows the half that its statements stand in. -/
theorem VisitsIn.exitScope_eq (h : procedure.VisitsIn config scope frame) :
    frame.context.exitScope = scope := by
  induction h with
  | body hbegins =>
    obtain ⟨functionName, verb, hcontext⟩ := Context.start_eq_ok hbegins.1
    rw [hcontext]
    rfl
  | behind _ hstep ih => rw [hstep.context_eq, ih]
  | into _ _ hopens ih => rw [hopens.exitScope_eq, ← ih]; rfl

theorem VisitsIn.visits (h : procedure.VisitsIn config scope frame) :
    procedure.Visits config frame := by
  induction h with
  | body hbegins => exact ⟨_, hbegins, .refl⟩
  | behind _ hstep ih =>
    obtain ⟨first, hfirst, hpath⟩ := ih
    exact ⟨first, hfirst, hpath.tail (.behind hstep)⟩
  | into _ hstatements hopens ih =>
    obtain ⟨first, hfirst, hpath⟩ := ih
    exact ⟨first, hfirst, hpath.tail (.into hstatements hopens)⟩

/-- All frames of a function belong to the idiom of its code. -/
theorem VisitsIn.settled {I : Idiom} {first : Frame} (hfirst : procedure.Begins config first)
    (hsettled : I.Settled first) (h : procedure.VisitsIn config scope frame) : I.Settled frame := by
  induction h with
  | body hbegins => rwa [hbegins.unique hfirst]
  | behind _ hstep ih => exact (ih.step hstep).1
  | into _ hstatements hopens ih => exact ih.into hstatements hopens

theorem VisitsIn.succeeds (h : procedure.VisitsIn config scope frame)
    (hlower : procedure.lower config = .ok lowered) : frame.Succeeds := by
  induction h with
  | body hbegins =>
    obtain ⟨begun, hbegun, hsucceeds⟩ := Procedure.exists_begins hlower
    rwa [hbegins.unique hbegun]
  | behind _ hstep ih => exact hstep.succeeds ih
  | into _ hstatements hopens ih => exact (Frame.Next.into hstatements hopens).succeeds ih

theorem VisitsIn.steps {frame' : Frame} (h : procedure.VisitsIn config scope frame)
    (hsteps : Relation.ReflTransGen Frame.Step frame frame') :
    procedure.VisitsIn config scope frame' := by
  induction hsteps with
  | refl => exact h
  | tail _ hstep ih => exact ih.behind hstep

/-- The generation of a procedure goes through a frame for each statement, and the frame stands in
the half that the statement stands in. -/
theorem Holds.exists_visitsIn {statement : Statement} (h : procedure.Holds scope statement)
    (hlower : procedure.lower config = .ok lowered) :
    ∃ frame rest, procedure.VisitsIn config scope frame ∧ frame.statements = statement :: rest := by
  have hreach {scope : ExitScope} {frame : Frame} {statement : Statement}
      (hvisits : procedure.VisitsIn config scope frame) (hmem : statement ∈ frame.statements) :
      ∃ frame rest, procedure.VisitsIn config scope frame ∧
        frame.statements = statement :: rest := by
    obtain ⟨front, rest, hsplit⟩ := List.append_of_mem hmem
    obtain ⟨frame', hsteps, hrest, -⟩ :=
      Frame.exists_reflTransGen_step (hvisits.succeeds hlower) hsplit
    exact ⟨frame', rest, hvisits.steps hsteps, hrest⟩
  induction h with
  | body hmem =>
    obtain ⟨first, hfirst, -⟩ := Procedure.exists_begins hlower
    exact hreach (.body hfirst) (hfirst.2.2.2.2 ▸ hmem)
  | part _ hpart hmem ih =>
    obtain ⟨outer, rest, hvisits, hstatements⟩ := ih
    obtain ⟨inner, hopens, rfl, -⟩ := (hvisits.succeeds hlower).exists_opens hstatements hpart
    exact hreach (.into hvisits hstatements hopens) hmem

end Procedure

/-! ## Failures of functions -/

/-- A call that logs a failure. -/
def Go.Expr.IsLogCall (call : Go.Expr) : Prop :=
  ∃ args, call = .invoke (.name "log") "Printf" args ∨
    call = .invoke (.name "slog") "ErrorContext" args

/-- A failure branch is the way out of its scope, for a function with the given results: a return of
all of them, with the error at the end; a panic with the error; or a line in the log, after which the
error is dropped. -/
def Go.Failure.Routed (results : List String) (f : Go.Failure) : Prop :=
  match f.scope with
  | .body => f.branch = some [.ret (results.map .name)] ∧ results.getLast? = some "err"
  | .tryHalf => f.branch = some [.panic (.name "err")]
  | .catchHalf => ∃ call, call.IsLogCall ∧
    f.branch = some [.run call, .assign ⟨[.name "err"], false, .nil⟩]

/-- The error is the last result of a function that may mention it. -/
theorem Idiom.Routed.routed {I : Idiom} {f : Go.Failure} (h : I.Routed f)
    (herror : I.allows (.name "err") → I.survey.needsErr = true) : f.Routed I.resultNames := by
  obtain ⟨hbranch, hallows⟩ := h
  have hneeds := herror hallows
  unfold Go.Failure.Routed
  cases hscope : f.scope with
  | body =>
    rw [hscope] at hbranch
    refine ⟨?_, by simp [resultNames, hneeds]⟩
    rw [hbranch, failure, results, resultNames, hneeds]
    split <;> simp [err]
  | tryHalf =>
    rw [hscope] at hbranch
    exact hbranch
  | catchHalf =>
    rw [hscope] at hbranch
    refine ⟨I.acknowledgement, ?_, hbranch⟩
    unfold acknowledgement
    dsimp only
    split
    · exact ⟨_, .inr rfl⟩
    · exact ⟨_, .inl rfl⟩

/-- Every mention is allowed, except that of an error that is not needed. -/
def Survey.errorPermit (survey : Survey) (config : Config) : Permit where
  config := config
  survey := survey
  allows m := m = .name "err" → survey.needsErr = true
  names id h hid := by
    cases hid
    exact absurd List.mem_cons_self h
  messages _ := nofun
  status _ := by simp
  error h _ := h
  rowCount _ := by simp
  identity _ := by simp

/-- Every failure branch of a function is the way out of the half of a `TRY` statement that its
statement stands in. The first part is about all code of the function, where a function literal that
is called at once is a protected half and one whose call is deferred is a handler. The others are
about what a single statement writes, at any depth: there is a frame for it in the half that it
stands in, and in every such frame its code has the failure branches of that half. -/
theorem Procedure.failures_leave_by_scope {procedure : Procedure} {config : Config}
    {lowered : LoweredProcedure} (h : procedure.lower config = .ok lowered) :
    (∀ f ∈ lowered.function.failures, f.Routed (lowered.function.results.map (·.1))) ∧
    (∀ scope statement, procedure.Holds scope statement → ∃ frame rest,
      procedure.VisitsIn config scope frame ∧ frame.statements = statement :: rest) ∧
    ∀ scope frame statement rest, procedure.VisitsIn config scope frame →
      frame.statements = statement :: rest → ∃ next written, frame.Step next ∧
        next.progress.output = frame.progress.output ++ written ∧
        ∀ f ∈ Go.listFailures scope written, f.Routed (lowered.function.results.map (·.1)) := by
  let permit : Permit := (Survey.ofProcedure config procedure).errorPermit config
  have hgrants : permit.GrantsProcedure procedure := by
    refine Permit.grantsProcedure rfl (fun m hm => ?_) fun _ _ _ _ => nofun
    rintro rfl
    exact hm
  obtain ⟨I, first, hpermit, hprocedure, hfirst, hdescribes⟩ :=
    Procedure.exists_idiom h permit rfl rfl hgrants
  have herror (hallows : I.allows (.name "err")) : I.survey.needsErr = true := by
    rw [hpermit] at hallows ⊢
    exact hallows rfl
  rw [hdescribes.results]
  have hsettled : I.Settled first := by
    refine ⟨hdescribes.covers, hdescribes.sound, fun s hs inner hinner => ?_⟩
    rw [hpermit]
    rw [hfirst.2.2.2.2] at hs
    exact hgrants.statements inner (Statement.mem_nestedList.mpr ⟨s, hs, hinner⟩)
  refine ⟨?_, fun scope statement hholds => hholds.exists_visitsIn h, ?_⟩
  · exact fun f hf => (hdescribes.code.routes.routed f hf).routed herror
  · intro scope frame statement rest hvisits hstatements
    have hframe := hvisits.settled hfirst hsettled
    obtain ⟨next, hstep, -⟩ := (hvisits.succeeds h).exists_step hstatements
    obtain ⟨-, written, hwritten, hcode⟩ := hframe.step hstep
    rw [hvisits.exitScope_eq] at hcode
    exact ⟨next, written, hstep, hwritten, fun f hf => (hcode.routes.routed f hf).routed herror⟩

open Build in
/-- A procedure that deletes rows outside of its `TRY` statement, in a loop of the protected half, in
the handler, and in a `TRY` statement inside the handler. -/
def Procedure.retry : Procedure where
  name := "usp_Retry"
  params := [output "n" "INT" none]
  body := [.delete (delete "jobs"),
    .tryCatch [.while (lt (var "n") (int 3)) [.delete (delete "jobs")]]
      [.delete (delete "jobs"), .tryCatch [.delete (delete "jobs")] []]]

/-- The four deletions of `Procedure.retry` leave by a return, a line in the log and two panics. -/
theorem Procedure.retry_failures_leave_by_scope :
    ∃ lowered, Procedure.retry.lower {} = .ok lowered ∧
      lowered.function.failures.map (·.scope) = [.body, .catchHalf, .tryHalf, .tryHalf] ∧
      lowered.function.results.map (·.1) = ["n", "err"] ∧
      ∀ f ∈ lowered.function.failures, f.Routed ["n", "err"] := by
  have hscopes : (Procedure.retry.lower {}).toOption.map
      (fun lowered => (lowered.function.failures.map (·.scope),
        lowered.function.results.map (·.1))) =
      some ([.body, .catchHalf, .tryHalf, .tryHalf], ["n", "err"]) := by
    decide +kernel
  cases hlower : Procedure.retry.lower {} with
  | error error => simp [hlower, Except.toOption] at hscopes
  | ok lowered =>
    rw [hlower] at hscopes
    obtain ⟨hscopes, hresults⟩ := Prod.mk.inj (Option.some.inj hscopes)
    have hrouted := (Procedure.failures_leave_by_scope hlower).1
    rw [hresults] at hrouted
    exact ⟨lowered, rfl, hscopes, hresults, hrouted⟩

end Sproc
