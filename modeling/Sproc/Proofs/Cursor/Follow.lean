import Sproc.Proofs.Cursor.LifeCycle
import Sproc.Proofs.Lower.Fetch
import Sproc.Proofs.Lower.Stop

/-!
# Uses of cursors as the generation checks them

The generation keeps the states of the cursors in its progress, and checks each use against them
when it comes to it. It does not come to them in the order of the text: a handler is treated in
front of the statements that it protects, a fetch that is the advance of a later loop is passed
over, and a loop over a cursor starts with the fetch of its advance.

A step of the generation follows the uses that it checks: it succeeds with the states that the
automata have behind them, or it reports the first one that they refuse. This is put together along
the generation, and failures for other reasons are left open.

## Main definitions

* `Statement.checkedUses`: the uses of cursors in the order in which they are checked
* `Lower.Follows`: a step follows the automata of the cursors

## Main results

* `follows_lowerStatement`, `follows_lowerStatements`: statements follow the uses that are checked
-/

namespace Sproc

open Lower

namespace Statement

/-- The fetch that is prepared behind a statement. -/
def preparedBehind (rest : List Statement) (prepared : Option Fetch) (statement : Statement) :
    Option Fetch :=
  if statement.isCursorLoop then none
  else (statement.fetch?.filter (·.primes rest)).or prepared

/-- The fetch with which a loop over a cursor starts. -/
def headUses (path : List Nat) (prepared : Option Fetch) (condition : Expr)
    (body : List Statement) : List CursorUse :=
  if (sentinelRest? condition).isSome then
    ((prepared.or (firstFetch? body)).map fun f => ⟨path, f.cursor, .fetches⟩).toList
  else []

mutual

/-- The uses of cursors that the generation checks in the statement at a path, in the order in which
it checks them. -/
def checkedUses (path : List Nat) (rest : List Statement) (prepared : Option Fetch) :
    Statement → List CursorUse
  | ifElse _ thenBranch elseBranch =>
    listCheckedUses (0 :: path) 0 none thenBranch ++ elseCheckedUses (1 :: path) elseBranch
  | .while condition body =>
    headUses path prepared condition body ++ listCheckedUses (0 :: path) 0 none body
  | block body => listCheckedUses path 0 none body
  | tryCatch tryBody catchBody =>
    listCheckedUses (1 :: path) 0 none catchBody ++ listCheckedUses (0 :: path) 0 none tryBody
  | fetch f => if f.primes rest then [] else ownCursorUses path (fetch f)
  | statement => ownCursorUses path statement

/-- The same for a list at a path, whose first statement has the given index. -/
def listCheckedUses (path : List Nat) (index : Nat) (prepared : Option Fetch) :
    List Statement → List CursorUse
  | [] => []
  | statement :: rest =>
    checkedUses (index :: path) rest prepared statement ++
      listCheckedUses path (index + 1) (statement.preparedBehind rest prepared) rest

/-- The same for an alternative at a path. -/
def elseCheckedUses (path : List Nat) : Option (List Statement) → List CursorUse
  | none => []
  | some body => listCheckedUses path 0 none body

end

end Statement

/-- The uses of cursors that the generation checks, in the order in which it checks them. -/
def Procedure.checkedUses (procedure : Procedure) : List CursorUse :=
  Statement.listCheckedUses [] 0 none procedure.body

/-! ## Steps that leave the cursors alone -/

/-- The discipline of steps that leave the cursors alone and report nothing about them. -/
def Discipline.sameCursors (table : CursorTable) : Discipline where
  keeps p := p.cursors = table
  writes _ := True
  stable _ _ _ hcursors _ hkeeps := hcursors ▸ hkeeps
  admits error := error.fault.concernsCursor = false
  plain h := h

namespace Discipline

variable (table : CursorTable) (c : Context)

theorem permissive_sameCursors : (sameCursors table).Permissive :=
  fun _ => trivial

theorem regular_sameCursors : (sameCursors table).Regular c :=
  (permissive_sameCursors table).regular

theorem lasting_sameCursors : (sameCursors table).Lasting :=
  fun _ _ _ _ _ _ _ hkeeps => hkeeps

theorem ignoresTransaction_sameCursors : (sameCursors table).IgnoresTransaction :=
  fun _ _ hkeeps => hkeeps

end Discipline

/-- The effect of steps that leave the cursors alone, whatever they write. -/
def Effect.leavesCursors (table : CursorTable) : Effect where
  relates before after := before.cursors = table → after.cursors = table
  admits before error _ := before.cursors = table → error.fault.concernsCursor = false

instance (table : CursorTable) : (Effect.leavesCursors table).Tolerant where
  annotated h := h.cursors.trans
  trans h h' hbefore := h' (h hbefore)
  behind h hadmits hbefore := hadmits (h hbefore)
  plain h _ := h

open Discipline

namespace Lower

variable {α β : Type} {c : Context} {path : List Nat} {p : Progress}

theorem cursors_bindLocal {name : String} {type : Go.TypeExpr} {define : Bool} {after : Progress}
    (h : (bindLocal name type).Runs c p define after) : after.cursors = p.cursors := by
  obtain ⟨-, -, rfl⟩ | ⟨-, -, -, rfl⟩ | ⟨-, -, rfl⟩ := runs_bindLocal h <;> rfl

/-- A step at the statement of a path, taken with some progress, follows the automata of the cursors
to an outcome: with success, the cursors are in the states of the outcome; an error about their life
cycle reports the refusal that is the outcome. -/
structure Follows (step : Lower α) (c : Context) (path : List Nat) (p : Progress)
    (outcome : Except CursorRefusal CursorStates) : Prop where
  runs {result : α} {after : Progress} :
    step.Runs c p result after → outcome = .ok after.cursors.states
  fails {error : Error} {after : Progress} : step.Fails c p error after → error.IsLifeCycle →
    ∃ refusal, outcome = .error refusal ∧
      error.located c.procedure.name (renderPath path) = refusal.error c.procedure.name

/-- A step that changes no cursor. -/
def KeepsCursors (step : Lower α) (c : Context) (p : Progress) : Prop :=
  step.HasEffect c (Effect.leavesCursors p.cursors)

/-- A step that respects the discipline leaves the cursors alone. -/
theorem HasEffect.keepsCursors {step : Lower α}
    (h : step.HasEffect c (sameCursors p.cursors).effect) : step.KeepsCursors c p :=
  h.mono (fun heffect hbefore => (heffect hbefore).1) fun hadmits => hadmits

section Rules

variable {outcome : Except CursorRefusal CursorStates}

theorem KeepsCursors.cursors_eq {step : Lower α} {value : α} {after : Progress}
    (h : step.KeepsCursors c p) (hruns : step.Runs c p value after) : after.cursors = p.cursors :=
  h.runs hruns rfl

theorem KeepsCursors.not_isLifeCycle {step : Lower α} {error : Error} {after : Progress}
    (h : step.KeepsCursors c p) (hfails : step.Fails c p error after) : ¬error.IsLifeCycle := by
  intro herror
  have hplain : error.fault.concernsCursor = false := h.fails hfails rfl
  simp [herror.concernsCursor] at hplain

theorem KeepsCursors.follows {step : Lower α} (h : step.KeepsCursors c p) :
    step.Follows c path p (.ok p.cursors.states) where
  runs hruns := by rw [h.cursors_eq hruns]
  fails hfails herror := absurd herror (h.not_isLifeCycle hfails)

/-- One step follows the automata, and the next goes on from there. -/
theorem follows_bind {step : Lower α} {next : α → Lower β}
    (more : CursorStates → Except CursorRefusal CursorStates)
    (hstep : step.Follows c path p outcome)
    (hnext : ∀ value middle, step.Runs c p value middle →
      (next value).Follows c path middle (more middle.cursors.states)) :
    (step >>= next).Follows c path p (outcome >>= more) where
  runs hruns := by
    obtain ⟨value, middle, hfirst, hsecond⟩ := runs_bind.mp hruns
    rw [hstep.runs hfirst]
    exact (hnext value middle hfirst).runs hsecond
  fails hfails herror := by
    obtain hfirst | ⟨value, middle, hfirst, hsecond⟩ := fails_bind.mp hfails
    · obtain ⟨refusal, rfl, hlocated⟩ := hstep.fails hfirst herror
      exact ⟨refusal, rfl, hlocated⟩
    · rw [hstep.runs hfirst]
      exact (hnext value middle hfirst).fails hsecond herror

/-- In front of what follows the automata, cursors may be left alone. -/
theorem KeepsCursors.bind {step : Lower α} {next : α → Lower β} (hstep : step.KeepsCursors c p)
    (hnext : ∀ value middle, step.Runs c p value middle → middle.cursors = p.cursors →
      (next value).Follows c path middle outcome) : (step >>= next).Follows c path p outcome :=
  follows_bind (fun _ => outcome) hstep.follows fun value middle hruns =>
    hnext value middle hruns (hstep.cursors_eq hruns)

/-- Behind what follows the automata, cursors may be left alone. -/
theorem Follows.bind {step : Lower α} {next : α → Lower β}
    (hstep : step.Follows c path p outcome)
    (hnext : ∀ value middle, (next value).KeepsCursors c middle) :
    (step >>= next).Follows c path p outcome := by
  have hbind := follows_bind .ok hstep fun value middle _ => (hnext value middle).follows
  cases outcome <;> exact hbind

theorem follows_read_bind {next : Context → Lower α} (h : (next c).Follows c path p outcome) :
    (read >>= next).Follows c path p outcome where
  runs hruns := by
    obtain ⟨_, _, hread, hnext⟩ := runs_bind.mp hruns
    obtain ⟨rfl, rfl⟩ := runs_read.mp hread
    exact h.runs hnext
  fails hfails herror := by
    obtain hread | ⟨_, _, hread, hnext⟩ := fails_bind.mp hfails
    · exact absurd hread not_fails_read
    · obtain ⟨rfl, rfl⟩ := runs_read.mp hread
      exact h.fails hnext herror

theorem follows_bindLocal_bind {name : String} {type : Go.TypeExpr} {next : Bool → Lower α}
    (hnext : ∀ define middle, middle.cursors = p.cursors →
      (next define).Follows c path middle outcome) :
    (bindLocal name type >>= next).Follows c path p outcome where
  runs hruns := by
    obtain ⟨define, middle, hbind, hrest⟩ := runs_bind.mp hruns
    exact (hnext define middle (cursors_bindLocal hbind)).runs hrest
  fails hfails herror := by
    obtain hbind | ⟨define, middle, hbind, hrest⟩ := fails_bind.mp hfails
    · exact absurd hbind not_fails_bindLocal
    · exact (hnext define middle (cursors_bindLocal hbind)).fails hrest herror

theorem follows_get_bind {next : Progress → Lower α} (h : (next p).Follows c path p outcome) :
    (get >>= next).Follows c path p outcome where
  runs hruns := by
    obtain ⟨_, _, hget, hnext⟩ := runs_bind.mp hruns
    obtain ⟨rfl, rfl⟩ := runs_get.mp hget
    exact h.runs hnext
  fails hfails herror := by
    obtain hget | ⟨_, _, hget, hnext⟩ := fails_bind.mp hfails
    · exact absurd hget not_fails_get
    · obtain ⟨rfl, rfl⟩ := runs_get.mp hget
      exact h.fails hnext herror

theorem follows_within {change : Context → Context} {step : Lower α}
    (hprocedure : (change c).procedure = c.procedure)
    (h : step.Follows (change c) path p outcome) :
    (within change step).Follows c path p outcome where
  runs hruns := h.runs (runs_within.mp hruns)
  fails hfails herror := hprocedure ▸ h.fails (fails_within.mp hfails) herror

/-- Errors that have got the site of a statement keep it at the statements around it. -/
theorem follows_located {step : Lower α} (h : step.Follows c c.path p outcome) :
    (located step).Follows c path p outcome where
  runs hruns := h.runs (runs_located.mp hruns)
  fails hfails herror := by
    obtain ⟨inner, hinner, rfl⟩ := fails_located.mp hfails
    have hlifeCycle : inner.IsLifeCycle := by simpa [Error.IsLifeCycle] using herror
    obtain ⟨refusal, houtcome, hlocated⟩ := h.fails hinner hlifeCycle
    exact ⟨refusal, houtcome, Error.located_located .. |>.trans hlocated⟩

theorem follows_block {step : Lower Unit} (h : step.Follows c path p.opened outcome) :
    (block step).Follows c path p outcome where
  runs hruns := by
    obtain ⟨inner, hinner, -, rfl⟩ := runs_block.mp hruns
    exact (h.runs hinner :)
  fails hfails herror := h.fails (fails_block.mp hfails) herror

theorem keepsCursors_emit (s : Go.Stmt) : (emit s).KeepsCursors c p :=
  .of_not_fails not_fails_emit fun hruns hbefore => runs_emit.mp hruns ▸ hbefore

theorem follows_emitIf {init : Option Go.Assign} {test : Go.Expr} {step : Lower Unit}
    (h : step.Follows c path p.opened outcome) : (emitIf init test step).Follows c path p outcome :=
  (follows_block h).bind fun _ _ => keepsCursors_emit _

theorem keepsCursors_setTransaction (transaction : TransactionState) :
    (setTransaction transaction).KeepsCursors c p :=
  (hasEffect_setTransaction (ignoresTransaction_sameCursors p.cursors) transaction).keepsCursors

end Rules

/-! ## Uses of cursors -/

section Uses

variable {name : String} {action : CursorAction}
  {outcome : Except CursorRefusal CursorStates}

/-- A refused use is reported. -/
theorem follows_cursorFault {problem : CursorProblem} :
    (cursorFault name problem : Lower α).Follows c path p (.error ⟨⟨path, name, action⟩, problem⟩)
    where
  runs hruns := absurd hruns not_runs_fail
  fails hfails _ := by
    obtain ⟨rfl, -⟩ := fails_fail.mp hfails
    exact ⟨_, rfl, rfl⟩

/-- Other problems with a cursor are left open. -/
theorem follows_cursorFault_other {problem : CursorProblem} (h : problem.isLifeCycle = false) :
    (cursorFault name problem : Lower α).Follows c path p outcome where
  runs hruns := absurd hruns not_runs_fail
  fails hfails herror := by
    obtain ⟨rfl, -⟩ := fails_fail.mp hfails
    simp [Error.isLifeCycle_cursor.mp herror] at h

/-- Faults that are not about cursors are left open. -/
theorem follows_unsupported {construct detail : String} :
    (unsupported construct detail : Lower α).Follows c path p outcome where
  runs hruns := absurd hruns not_runs_unsupported
  fails hfails herror := by
    obtain ⟨rfl, -⟩ := fails_fail.mp hfails
    exact absurd herror.concernsCursor Bool.false_ne_true

/-- What stands behind a step that never succeeds is never done. -/
theorem Follows.bind_of_not_runs {step : Lower α} {next : α → Lower β}
    (hstep : step.Follows c path p outcome)
    (hruns : ∀ {value middle}, ¬step.Runs c p value middle) :
    (step >>= next).Follows c path p outcome where
  runs hboth := by
    obtain ⟨_, _, hfirst, -⟩ := runs_bind.mp hboth
    exact absurd hfirst hruns
  fails hfails herror := by
    obtain hfirst | ⟨_, _, hfirst, -⟩ := fails_bind.mp hfails
    · exact hstep.fails hfirst herror
    · exact absurd hfirst hruns

theorem fails_getCursor {error : Error} {after : Progress} :
    (getCursor name).Fails c p error after ↔ p.cursors.get? name = none ∧
      error = ⟨.cursor name CursorProblem.notDeclared.message, none⟩ ∧ after = p := by
  simp only [getCursor, CursorTable.get, fails_bind, runs_get, not_fails_get, fails_ofExcept,
    false_or]
  constructor
  · rintro ⟨_, _, ⟨rfl, rfl⟩, fault, hfault, rfl, rfl⟩
    split at hfault <;> simp_all
  · rintro ⟨hcursor, rfl, rfl⟩
    exact ⟨_, _, ⟨rfl, rfl⟩, _, by rw [hcursor], rfl, rfl⟩

/-- A cursor that is absent cannot be used, unless it is to be declared. -/
theorem follows_getCursor_bind {next : Cursor → Lower α} (haction : action ≠ .declares)
    (hnext : ∀ cursor, p.cursors.get? name = some cursor →
      (next cursor).Follows c path p (p.cursors.states.follow [⟨path, name, action⟩])) :
    (getCursor name >>= next).Follows c path p
      (p.cursors.states.follow [⟨path, name, action⟩]) where
  runs hruns := by
    obtain ⟨cursor, _, hget, hrest⟩ := runs_bind.mp hruns
    obtain ⟨hcursor, rfl⟩ := runs_getCursor.mp hget
    exact (hnext cursor hcursor).runs hrest
  fails hfails herror := by
    obtain hget | ⟨cursor, _, hget, hrest⟩ := fails_bind.mp hfails
    · obtain ⟨hcursor, rfl, -⟩ := fails_getCursor.mp hget
      have hrefused : action.next none = .error .notDeclared := by
        cases action <;> first | rfl | exact absurd rfl haction
      rw [CursorTable.follow_refused (by rw [hcursor]; exact hrefused)]
      exact ⟨_, rfl, rfl⟩
    · obtain ⟨hcursor, rfl⟩ := runs_getCursor.mp hget
      exact (hnext cursor hcursor).fails hrest herror

/-- A cursor that is put into the table has its state. -/
theorem follows_putCursor {cursor : Cursor} :
    (putCursor name cursor).Follows c path p
      (.ok (Function.update p.cursors.states (Text.toLower name) (some cursor.state))) where
  runs hruns := by
    obtain rfl := runs_modify.mp hruns
    rw [← CursorTable.states_put]
  fails hfails _ := absurd hfails not_fails_modify

theorem follows_declareCursor (name : String) (query : Select) :
    (declareCursor name query).Follows c path p
      (p.cursors.states.follow [⟨path, name, .declares⟩]) := by
  unfold declareCursor
  refine follows_get_bind ?_
  cases hcursor : p.cursors.get? name with
  | some cursor =>
    rw [CursorTable.follow_refused (by rw [hcursor]; rfl)]
    exact follows_cursorFault.bind_of_not_runs not_runs_fail
  | none =>
    rw [CursorTable.follow_accepted (by rw [hcursor]; rfl)]
    simp only [Option.isSome_none, Bool.false_eq_true, if_false]
    split
    · exact follows_cursorFault_other rfl
    next table _ =>
      refine KeepsCursors.bind (hasEffect_backendFor table) fun backend middle _ hmiddle => ?_
      split
      · exact (follows_cursorFault_other rfl).bind_of_not_runs not_runs_fail
      · refine KeepsCursors.bind (hasEffect_iteratorName name) fun iterator last _ hlast => ?_
        rw [← hmiddle, ← hlast]
        exact follows_putCursor

theorem follows_openCursor (name : String) :
    (openCursor name).Follows c path p (p.cursors.states.follow [⟨path, name, .opens⟩]) := by
  refine follows_getCursor_bind (by decide) fun cursor hcursor => ?_
  split
  next hopened =>
    rw [CursorTable.follow_refused (by rw [hcursor, Option.map_some, hopened]; rfl)]
    exact follows_cursorFault.bind_of_not_runs not_runs_fail
  next hopened =>
    have haccepted : CursorAction.opens.next (some cursor.state) = .ok (some .opened) := by
      cases hstate : cursor.state with
      | opened => exact absurd hstate hopened
      | declared | closed => rfl
    rw [CursorTable.follow_accepted (by rw [hcursor]; exact haccepted)]
    refine KeepsCursors.bind (hasEffect_rowsCall cursor) fun call p₁ _ h₁ => ?_
    refine KeepsCursors.bind (hasEffect_iteratorType _) fun type p₂ _ h₂ => ?_
    refine follows_bindLocal_bind fun define p₃ h₃ => ?_
    refine KeepsCursors.bind (keepsCursors_emit _) fun _ p₄ _ h₄ => follows_read_bind ?_
    rw [← h₁, ← h₂, ← h₃, ← h₄]
    have hregular := regular_sameCursors p₄.cursors c
    split
    · refine KeepsCursors.bind (hasEffect_emitIf hregular.toBasic _ _ hregular.exit).keepsCursors
        fun _ p₅ _ h₅ => ?_
      rw [← h₅]
      exact follows_putCursor
    · refine KeepsCursors.bind (hregular.checked
        (hasEffect_emit_plain hregular.toBasic rfl rfl (fun _ => rfl) rfl)).keepsCursors fun _ p₅ _ h₅ => ?_
      rw [← h₅]
      exact follows_putCursor

theorem follows_closeCursor (name : String) :
    (closeCursor name).Follows c path p (p.cursors.states.follow [⟨path, name, .closes⟩]) := by
  refine follows_getCursor_bind (by decide) fun cursor hcursor => ?_
  have hnext {outcome} (h : CursorAction.closes.next (some cursor.state) = outcome) :
      CursorAction.closes.next ((p.cursors.get? name).map (·.state)) = outcome := by
    rwa [hcursor]
  split
  next hstate =>
    rw [CursorTable.follow_accepted (hnext (by rw [hstate]; rfl))]
    exact follows_putCursor
  next hstate =>
    rw [CursorTable.follow_refused (hnext (by rw [hstate]; rfl))]
    exact follows_cursorFault
  next hstate =>
    rw [CursorTable.follow_refused (hnext (by rw [hstate]; rfl))]
    exact follows_cursorFault

theorem follows_deallocateCursor (name : String) :
    (deallocateCursor name).Follows c path p
      (p.cursors.states.follow [⟨path, name, .deallocates⟩]) := by
  refine follows_getCursor_bind (by decide) fun cursor hcursor => ?_
  rw [CursorTable.follow_accepted (by rw [hcursor]; rfl)]
  refine ⟨fun hruns => ?_, fun hfails _ => absurd hfails not_fails_modify⟩
  obtain rfl := runs_modify.mp hruns
  rw [← CursorTable.states_remove]

/-- A row can only be fetched from a cursor that is open, which stays so. -/
theorem follows_fetchIterator (fetch : Fetch) :
    (fetchIterator fetch).Follows c path p
      (p.cursors.states.follow [⟨path, fetch.cursor, .fetches⟩]) := by
  unfold fetchIterator
  dsimp only
  split
  · exact follows_unsupported.bind_of_not_runs not_runs_unsupported
  · refine follows_getCursor_bind (by decide) fun cursor hcursor => ?_
    split
    next hopened =>
      have hrefused : CursorAction.fetches.next (some cursor.state) = .error .notOpen := by
        cases hstate : cursor.state with
        | opened => exact absurd hstate hopened
        | declared | closed => rfl
      rw [CursorTable.follow_refused (by rw [hcursor]; exact hrefused)]
      exact follows_cursorFault.bind_of_not_runs not_runs_fail
    next hopened =>
      have hstate : cursor.state = .opened := not_not.mp hopened
      have hsame : p.cursors.states (Text.toLower fetch.cursor) = some .opened := by
        rw [CursorTable.states_toLower, hcursor, Option.map_some, hstate]
      rw [CursorTable.follow_accepted (by rw [hcursor, Option.map_some, hstate]; rfl), ← hsame,
        Function.update_eq_self]
      exact KeepsCursors.follows (hasEffect_pure _)

theorem follows_fetchRow (fetch : Fetch) :
    (fetchRow fetch).Follows c path p
      (p.cursors.states.follow [⟨path, fetch.cursor, .fetches⟩]) := by
  refine (follows_fetchIterator fetch).bind fun iterator middle => ?_
  have hregular := regular_sameCursors middle.cursors c
  refine hasEffect_bind hasEffect_read fun _ => ?_
  split
  · exact hasEffect_pure _
  · refine hasEffect_bind (hasEffect_goNames _) fun targets => ?_
    exact (hasEffect_emitIf hregular.toBasic _ _ (hasEffect_emitRow hregular.forms _ _)).keepsCursors

end Uses

/-! ## Statements -/

/-- A statement, wherever it is treated, follows the uses that the generation checks in it. -/
def FollowsUses (statement : Statement) : Prop :=
  ∀ (c : Context) (p : Progress) (rest : List Statement) (prepared : Option Fetch),
    (lowerStatement rest prepared statement).Follows c c.path p
      (p.cursors.states.follow (statement.checkedUses c.path rest prepared))

theorem preparedBehind_of_runs {statement : Statement} {rest : List Statement}
    {prepared result : Option Fetch} {after : Progress}
    (h : (lowerStatement rest prepared statement).Runs c p result after) :
    result = statement.preparedBehind rest prepared := by
  unfold Statement.preparedBehind
  split
  next hloop =>
    cases statement with
    | «while» condition body =>
      obtain ⟨more, hcursor⟩ := Option.isSome_iff_exists.mp hloop
      exact (runs_cursorLoop hcursor h).1
    | _ => cases hloop
  next hloop => exact prepared_of_runs (Bool.eq_false_iff.mpr hloop) h

theorem follows_lowerStatements_of {statements : List Statement}
    (ih : ∀ s ∈ statements, FollowsUses s) (index : Nat) (prepared : Option Fetch) :
    (lowerStatements index prepared statements).Follows c path p
      (p.cursors.states.follow (Statement.listCheckedUses c.path index prepared statements)) := by
  induction statements generalizing index prepared p with
  | nil =>
    rw [lowerStatements]
    exact KeepsCursors.follows (hasEffect_pure _)
  | cons statement rest ihrest =>
    rw [lowerStatements, Statement.listCheckedUses, CursorStates.follow_append]
    have hfirst := ih statement List.mem_cons_self (c.enter index) p rest prepared
    refine follows_bind _ (follows_within rfl (follows_located hfirst)) fun _ middle hruns => ?_
    obtain rfl := preparedBehind_of_runs (runs_located.mp (runs_within.mp hruns))
    exact ihrest (fun s hs => ih s (List.mem_cons_of_mem _ hs)) _ _

theorem elseStart_cursors (elseBranch : List Statement) (p : Progress) :
    (elseStart elseBranch p).cursors = p.cursors := by
  unfold elseStart
  split <;> rfl

theorem follows_lowerElse_of {elseBranch : Option (List Statement)}
    (ih : ∀ body ∈ elseBranch, ∀ s ∈ body, FollowsUses s) :
    (lowerElse elseBranch).Follows c path p
      (p.cursors.states.follow (Statement.elseCheckedUses (1 :: c.path) elseBranch)) := by
  cases elseBranch with
  | none =>
    rw [lowerElse]
    exact KeepsCursors.follows (hasEffect_pure _)
  | some elseBranch =>
    have hbranch : (lowerStatements 0 none elseBranch).Follows (c.enter 1) path
        (elseStart elseBranch p) (p.cursors.states.follow
          (Statement.elseCheckedUses (1 :: c.path) (some elseBranch))) := by
      rw [← elseStart_cursors elseBranch p]
      exact follows_lowerStatements_of (ih elseBranch rfl) 0 none
    constructor
    · intro _ _ hruns
      obtain ⟨inner, hinner, -, hcursors, -⟩ := runs_lowerElse hruns
      rw [hcursors]
      exact hbranch.runs hinner
    · exact fun hfails => hbranch.fails (fails_lowerElse.mp hfails)

/-- The branches of a conditional follow their uses one after the other. -/
theorem followsUses_ifElse {condition : Expr} {thenBranch : List Statement}
    {elseBranch : Option (List Statement)} (hthen : ∀ s ∈ thenBranch, FollowsUses s)
    (helse : ∀ body ∈ elseBranch, ∀ s ∈ body, FollowsUses s) :
    FollowsUses (.ifElse condition thenBranch elseBranch) := by
  intro c p rest prepared
  rw [lowerStatement, Statement.checkedUses, CursorStates.follow_append]
  refine KeepsCursors.bind
    (hasEffect_lowerCondition (regular_sameCursors _ c).forms condition).keepsCursors
    fun test tested _ htested => ?_
  rw [← htested]
  have hbranch : (block (within (Context.enter 0) (lowerStatements 0 none thenBranch))).Follows c
      c.path tested (tested.cursors.states.follow
        (Statement.listCheckedUses (0 :: c.path) 0 none thenBranch)) :=
    follows_block (follows_within rfl (follows_lowerStatements_of hthen 0 none))
  refine follows_bind _ hbranch fun body passed _ => ?_
  refine (follows_lowerElse_of helse).bind fun _ middle => ?_
  exact hasEffect_bind (keepsCursors_emit _) fun _ => hasEffect_pure _

/-- A loop follows the uses of its body, behind the fetch at its start if it goes over a cursor. -/
theorem followsUses_while {condition : Expr} {body : List Statement}
    (ih : ∀ s ∈ body, FollowsUses s) : FollowsUses (.while condition body) := by
  intro c p rest prepared
  have hbody {c' : Context} {p' : Progress} (hpath : c'.path = 0 :: c.path) :
      (lowerStatements 0 none body).Follows c' c.path p'
        (p'.cursors.states.follow (Statement.listCheckedUses (0 :: c.path) 0 none body)) := by
    rw [← hpath]
    exact follows_lowerStatements_of ih 0 none
  rw [lowerStatement, Statement.checkedUses, Statement.headUses]
  cases hcursor : sentinelRest? condition with
  | none =>
    refine Follows.bind ?_ fun _ middle => hasEffect_pure _
    unfold lowerWhile
    split
    · refine Follows.bind (follows_within rfl (follows_block ?_)) fun _ _ => keepsCursors_emit _
      refine KeepsCursors.bind
        (hasEffect_emitLoopTest (regular_sameCursors _ _).forms condition
          (hasEffect_emitBreak trivial)).keepsCursors
        fun _ tested _ htested => ?_
      have htested : tested.cursors = p.cursors := htested
      rw [← htested]
      exact follows_within rfl (hbody rfl)
    · refine KeepsCursors.bind
        (hasEffect_lowerCondition (regular_sameCursors _ c).forms condition).keepsCursors
        fun test tested _ htested => ?_
      refine Follows.bind (follows_within rfl (follows_block ?_)) fun _ _ => keepsCursors_emit _
      rw [← htested]
      exact follows_within rfl (hbody rfl)
  | some more =>
    refine Follows.bind ?_ fun _ middle => hasEffect_pure _
    unfold lowerFetchLoop
    cases hfetch : prepared.or (Statement.firstFetch? body) with
    | none => exact follows_unsupported
    | some fetch =>
      simp only [Option.isSome_some, if_true, Option.map_some, Option.toList_some,
        CursorStates.follow_append]
      refine follows_within rfl ?_
      refine follows_bind _ (follows_fetchIterator fetch) fun iterator found _ => ?_
      refine KeepsCursors.bind (hasEffect_goNames _) fun targets named _ hnamed => ?_
      rw [← hnamed]
      refine Follows.bind (follows_within rfl (follows_block ?_)) fun statements middle => ?_
      · refine KeepsCursors.bind
          (hasEffect_emitRound (regular_sameCursors _ _).forms _ _ _
            (hasEffect_emitBreak trivial)).keepsCursors
          fun _ started _ hstarted => ?_
        have hstarted : started.cursors = named.cursors := hstarted
        rw [← hstarted]
        exact hbody rfl
      · exact hasEffect_bind (keepsCursors_emit _) fun _ =>
          (hasEffect_emitGuarded (regular_sameCursors _ _).forms _).keepsCursors

/-- A `TRY` statement follows the uses of its handler in front of those that are protected. -/
theorem followsUses_tryCatch {tryBody catchBody : List Statement}
    (htry : ∀ s ∈ tryBody, FollowsUses s) (hcatch : ∀ s ∈ catchBody, FollowsUses s) :
    FollowsUses (.tryCatch tryBody catchBody) := by
  intro c p rest prepared
  rw [lowerStatement, Statement.checkedUses, CursorStates.follow_append]
  refine Follows.bind ?_ fun _ middle => hasEffect_pure _
  unfold lowerTryCatch
  refine follows_get_bind ?_
  refine KeepsCursors.bind (hasEffect_returnFlag? (regular_sameCursors _ c).forms tryBody).keepsCursors
    fun flag flagged _ hflagged => ?_
  refine KeepsCursors.bind (keepsCursors_setTransaction _) fun _ entered _ hentered => ?_
  refine Follows.bind (follows_block ?_) fun literal middle => ?_
  · have hrecover : (emitRecover catchBody (lowerStatements 0 none catchBody)).Follows c c.path
        entered.opened (p.cursors.states.follow
          (Statement.listCheckedUses (1 :: c.path) 0 none catchBody)) := by
      refine Follows.bind (follows_block (follows_emitIf ?_)) fun _ _ => keepsCursors_emit _
      refine KeepsCursors.bind (hasEffect_emitHandlerStart (regular_sameCursors _ c).toBasic id
        catchBody).keepsCursors fun _ started _ hstarted => ?_
      have hstarted : started.cursors = p.cursors := hstarted.trans (hentered.trans hflagged)
      rw [← hstarted]
      exact follows_within rfl (follows_lowerStatements_of hcatch 0 none)
    refine follows_bind _ hrecover fun _ handled _ => ?_
    refine follows_get_bind ?_
    refine KeepsCursors.bind (keepsCursors_setTransaction _) fun _ resumed _ hresumed => ?_
    rw [← hresumed]
    refine Follows.bind (follows_within rfl
      (follows_lowerStatements_of (c := inTry flag c) htry 0 none)) fun _ middle => ?_
    exact hasEffect_bind hasEffect_get fun _ => keepsCursors_setTransaction _
  · exact hasEffect_bind (keepsCursors_emit _) fun _ =>
      ((permissive_sameCursors _).emitWayOut flag catchBody).keepsCursors

/-- What becomes of a fetch is refused only if its row would be seen too late. -/
theorem primesLoop_eq_error {fetch : Fetch} {rowUsed : Bool} {rest : List Statement} {fault : Fault}
    (h : primesLoop fetch rowUsed rest = .error fault) :
    fault = .cursor fetch.cursor CursorProblem.rowUsed.message := by
  induction rest generalizing rowUsed with
  | nil => cases h
  | cons statement rest ih =>
    rw [primesLoop] at h
    split at h
    · split at h <;> cases h
      rfl
    · split at h
      · cases h
      · exact ih h

/-- A fetch that is the advance of a later loop is not checked where it stands. -/
theorem followsUses_fetch (fetch : Fetch) : FollowsUses (.fetch fetch) := by
  intro c p rest prepared
  rw [lowerStatement, Statement.checkedUses, Fetch.primes]
  cases hprimes : primesLoop fetch false rest with
  | error fault =>
    obtain rfl := primesLoop_eq_error hprimes
    exact (follows_cursorFault_other rfl).bind_of_not_runs not_runs_fail
  | ok primes =>
    cases primes with
    | true => exact KeepsCursors.follows (hasEffect_pure _)
    | false => exact (follows_fetchRow fetch).bind fun _ _ => hasEffect_pure _

/-- The generation checks the uses of cursors in every statement. -/
theorem followsUses (statement : Statement) : FollowsUses statement := by
  induction statement using Statement.childInduction with
  | step statement ih =>
    cases statement with
    | ifElse condition thenBranch elseBranch =>
      refine followsUses_ifElse (ih _ List.mem_cons_self) fun body hbody => ?_
      exact ih body (List.mem_cons_of_mem _ (Option.mem_toList.mpr hbody))
    | «while» condition body => exact followsUses_while (ih _ List.mem_cons_self)
    | block body =>
      intro c p rest prepared
      rw [lowerStatement, Statement.checkedUses]
      exact (follows_lowerStatements_of (ih _ List.mem_cons_self) 0 none).bind fun _ _ =>
        hasEffect_pure _
    | tryCatch tryBody catchBody =>
      exact followsUses_tryCatch (ih _ List.mem_cons_self)
        (ih _ (List.mem_cons_of_mem _ List.mem_cons_self))
    | fetch f => exact followsUses_fetch f
    | declareCursor name query =>
      intro c p rest prepared
      rw [lowerStatement]
      exact (follows_declareCursor name query).bind fun _ _ => hasEffect_pure _
    | openCursor name =>
      intro c p rest prepared
      rw [lowerStatement]
      exact (follows_openCursor name).bind fun _ _ => hasEffect_pure _
    | closeCursor name =>
      intro c p rest prepared
      rw [lowerStatement]
      exact (follows_closeCursor name).bind fun _ _ => hasEffect_pure _
    | deallocate name =>
      intro c p rest prepared
      rw [lowerStatement]
      exact (follows_deallocateCursor name).bind fun _ _ => hasEffect_pure _
    | _ =>
      intro c p rest prepared
      have hpermissive := permissive_sameCursors p.cursors
      refine HasEffect.keepsCursors ?_ |>.follows
      exact hpermissive.lowerLeaf (lasting_sameCursors _) rest prepared
        (by simp [Statement.isCursorUse]) (fun _ => ignoresTransaction_sameCursors _) rfl

/-- A list of statements follows the uses that the generation checks in it. -/
theorem follows_lowerStatements (index : Nat) (prepared : Option Fetch)
    (statements : List Statement) :
    (lowerStatements index prepared statements).Follows c path p
      (p.cursors.states.follow (Statement.listCheckedUses c.path index prepared statements)) :=
  follows_lowerStatements_of (fun s _ => followsUses s) index prepared

end Lower

end Sproc
