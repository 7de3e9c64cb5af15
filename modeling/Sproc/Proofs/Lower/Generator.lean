import Sproc.Lower.Generate
import Sproc.Proofs.Go.Layout
import Sproc.Proofs.Lower.Scheme

/-!
# Steps that move stacks

A step of a generation with stacks follows a step that is given its context: from a generator whose
stacks lead to the context it has the same result, writes what the other step adds, and leaves all
stacks as they were. Where it fails, it fails with the same error, and the path is as it was. What
is performed in one go follows itself, and sequences and blocks of steps that follow others follow
the sequences and blocks of these.

## Main definitions

* `Generator.of`: the generator whose stacks lead to a context
* `Generate.Runs`, `Generate.Fails`: successful and failing steps
* `Generate.Follows`: a step does with stacks what another one does in its context
* `Generate.FollowsInside`: the same from inside a block that is open

## Main results

* `follows_perform`, `follows_bind`, `follows_branch`: steps performed, in sequence, and in a branch
* `follows_openBlock`, `followsInside_closeBlock`, `followsInside_reopenBlock`: blocks
* `follows_emitGuarded`, `follows_emitChecked`: calls that can fail
-/

namespace Sproc

/-- What stays the same of a context wherever a statement stands. -/
def Context.fixed (c : Context) : Context :=
  { c with exits := [], loops := 0, outerLoops := [], path := [], returnFlags := [], looping := [] }

/-- The generator whose stacks lead to a context. -/
def Generator.of (c : Context) (p : Progress) (writer : Go.Writer) (blocks : List (List Go.Stmt)) :
    Generator where
  progress := p
  writer := writer
  blocks := blocks
  exits := c.exits ++ [.body]
  loops := c.loops :: c.outerLoops
  path := c.path
  returnFlags := c.returnFlags
  looping := c.looping

/-- The discipline that only says that statements are added behind those that are there. -/
def Discipline.adding (c : Context) : Discipline :=
  (Scheme.keeping fun _ => True).discipline c

theorem Discipline.regular_adding (c : Context) : (Discipline.adding c).Regular c :=
  (Scheme.permissive_keeping _ c).regular

variable {c : Context} {p inner after : Progress} {writer : Go.Writer}
  {blocks : List (List Go.Stmt)}

@[simp]
theorem Generator.context_of : (Generator.of c p writer blocks).context c.fixed = c := by
  simp [Generator.context, Generator.of, Context.fixed]

namespace Generate

variable {α β : Type} {fixed : Context} {g g' g'' : Generator} {error : Error}

/-! ## Runs -/

/-- A step of a generation succeeds. -/
def Runs (step : Generate α) (fixed : Context) (g : Generator) (result : α) (g' : Generator) :
    Prop :=
  step.execute fixed g = (.ok result, g')

/-- A step of a generation fails. -/
def Fails (step : Generate α) (fixed : Context) (g : Generator) (error : Error) (g' : Generator) :
    Prop :=
  step.execute fixed g = (.error error, g')

/-- A step has at most one outcome. -/
theorem Runs.unique {step : Generate α} {result result' : α} (h : step.Runs fixed g result g')
    (h' : step.Runs fixed g result' g'') : result = result' ∧ g' = g'' := by
  have heq : (Except.ok result, g') = (Except.ok result', g'') := h.symm.trans h'
  simpa using heq

theorem execute_bind (step : Generate α) (next : α → Generate β) :
    (step >>= next).execute fixed g =
      match step.execute fixed g with
      | (.ok value, middle) => (next value).execute fixed middle
      | (.error error, middle) => (.error error, middle) := by
  simp only [execute, bind, ReaderT.bind, ReaderT.run, ExceptT.bind, ExceptT.run, ExceptT.mk,
    StateT.bind, StateT.run]
  rcases step fixed g with ⟨outcome, middle⟩
  cases outcome <;> rfl

/-- A sequence succeeds exactly when both of its steps do. -/
theorem runs_bind {step : Generate α} {next : α → Generate β} {result : β} :
    (step >>= next).Runs fixed g result g' ↔
      ∃ value middle, step.Runs fixed g value middle ∧
        (next value).Runs fixed middle result g' := by
  unfold Runs
  rw [execute_bind]
  rcases step.execute fixed g with ⟨outcome, middle⟩
  cases outcome with
  | ok value => simp [and_assoc]
  | error error => simp

theorem Runs.bind {step : Generate α} {next : α → Generate β} {value : α} {result : β}
    (h : step.Runs fixed g value g') (hnext : (next value).Runs fixed g' result g'') :
    (step >>= next).Runs fixed g result g'' :=
  runs_bind.mpr ⟨value, g', h, hnext⟩

theorem Runs.bind_fails {step : Generate α} {next : α → Generate β} {value : α}
    (h : step.Runs fixed g value g') (hnext : (next value).Fails fixed g' error g'') :
    (step >>= next).Fails fixed g error g'' := by
  rw [Fails, execute_bind, h]
  exact hnext

theorem Fails.bind {step : Generate α} {next : α → Generate β} (h : step.Fails fixed g error g') :
    (step >>= next).Fails fixed g error g' := by
  rw [Fails, execute_bind, h]

theorem runs_pure (value : α) : (pure value : Generate α).Runs fixed g value g := rfl

theorem runs_read : (read : Generate Context).Runs fixed g fixed g := rfl

theorem runs_get : (get : Generate Generator).Runs fixed g g g := rfl

theorem runs_modify (change : Generator → Generator) :
    (modify change : Generate PUnit).Runs fixed g () (change g) := rfl

theorem runs_attempt {step : Generate α} {value : α} (h : step.Runs fixed g value g') :
    (attempt step).Runs fixed g (.ok value) g' := by
  change (Except.ok (step.execute fixed g).1, (step.execute fixed g).2) = _
  rw [h]

theorem Fails.attempt {step : Generate α} (h : step.Fails fixed g error g') :
    (attempt step).Runs fixed g (.error error) g' := by
  change (Except.ok (step.execute fixed g).1, (step.execute fixed g).2) = _
  rw [h]

theorem runs_resume (value : α) : (resume (.ok value)).Runs fixed g value g := rfl

theorem fails_resume (error : Error) :
    (resume (.error error) : Generate α).Fails fixed g error g := rfl

theorem Runs.located {step : Generate α} {value : α} (h : step.Runs fixed g value g') :
    (located step).Runs fixed g value g' :=
  (runs_attempt h).bind (runs_pure value)

theorem Fails.located {step : Generate α} (h : step.Fails fixed g error g') :
    (located step).Fails fixed g (error.located fixed.procedure.name (renderPath g'.path)) g' :=
  h.attempt.bind_fails (runs_read.bind_fails (runs_get.bind_fails rfl))

/-- The site of a failure is the one that the context gives if the path is as it was. -/
theorem Fails.located_of_path_eq {step : Generate α} (h : step.Fails c.fixed g error g')
    (hpath : g'.path = c.path) :
    (Generate.located step).Fails c.fixed g (error.located c.procedure.name c.pathText) g' := by
  rw [Context.pathText, ← hpath]
  exact h.located

/-! ## Stacks -/

theorem runs_enter (index : Nat) :
    (enter index).Runs fixed (.of c p writer blocks) () (.of (c.enter index) p writer blocks) := rfl

theorem runs_leave (index : Nat) :
    leave.Runs fixed (.of (c.enter index) p writer blocks) () (.of c p writer blocks) := rfl

theorem runs_enterLoop :
    enterLoop.Runs fixed (.of c p writer blocks) () (.of c.enterLoop p writer blocks) := rfl

theorem runs_leaveLoop :
    leaveLoop.Runs fixed (.of c.enterLoop p writer blocks) () (.of c p writer blocks) := rfl

theorem runs_pushExit (scope : ExitScope) :
    (pushExit scope).Runs fixed (.of c p writer blocks) ()
      (.of { c with exits := scope :: c.exits } p writer blocks) := rfl

theorem runs_popExit (scope : ExitScope) :
    popExit.Runs fixed (.of { c with exits := scope :: c.exits } p writer blocks) ()
      (.of c p writer blocks) := by
  have hinside : 1 < (scope :: (c.exits ++ [ExitScope.body])).length := by simp
  exact congrArg (Except.ok (), ·) (if_pos hinside)

theorem exists_runs_popExit (fixed : Context) (g : Generator) :
    ∃ g', popExit.Runs fixed g () g' ∧ g'.path = g.path := by
  refine ⟨_, runs_modify _, ?_⟩
  split <;> rfl

theorem runs_enterClosure :
    enterClosure.Runs fixed (.of c p writer blocks) ()
      (.of { c with loops := 0, outerLoops := c.loops :: c.outerLoops } p writer blocks) := rfl

theorem runs_leaveClosure :
    leaveClosure.Runs fixed
      (.of { c with loops := 0, outerLoops := c.loops :: c.outerLoops } p writer blocks) ()
      (.of c p writer blocks) := by
  have hinside : 1 < (0 :: c.loops :: c.outerLoops).length := by simp
  exact congrArg (Except.ok (), ·) (if_pos hinside)

theorem exists_runs_leaveClosure (fixed : Context) (g : Generator) :
    ∃ g', leaveClosure.Runs fixed g () g' ∧ g'.path = g.path := by
  refine ⟨_, runs_modify _, ?_⟩
  split <;> rfl

theorem runs_pushLooping (cursor : String) :
    (pushLooping cursor).Runs fixed (.of c p writer blocks) ()
      (.of { c with looping := cursor :: c.looping } p writer blocks) := rfl

theorem runs_popLooping (cursor : String) :
    popLooping.Runs fixed (.of { c with looping := cursor :: c.looping } p writer blocks) ()
      (.of c p writer blocks) := rfl

theorem runs_pushFlag (flag : Option String) :
    (pushFlag flag).Runs fixed (.of c p writer blocks) ()
      (.of { c with returnFlags := flag :: c.returnFlags } p writer blocks) := rfl

theorem runs_popFlag (flag : Option String) :
    popFlag.Runs fixed (.of { c with returnFlags := flag :: c.returnFlags } p writer blocks) ()
      (.of c p writer blocks) := rfl

theorem runs_exitScope :
    exitScope.Runs fixed (.of c p writer blocks) c.exitScope (.of c p writer blocks) := by
  change (Except.ok ((c.exits ++ [ExitScope.body]).head?.getD .body), _) = (Except.ok c.exitScope, _)
  rw [Context.exitScope]
  cases c.exits <;> rfl

/-! ## Lines and blocks -/

theorem runs_record (s : Go.Stmt) :
    (record s).Runs fixed (.of c p writer blocks) () (.of c (p.wrote s) writer blocks) := rfl

theorem runs_emit (s : Go.Stmt) :
    (emit s).Runs fixed (.of c p writer blocks) ()
      (.of c (p.wrote s) (s.write writer) blocks) := rfl

theorem runs_openBlock (head : String) :
    (openBlock head).Runs fixed (.of c p writer blocks) ()
      (.of c p.opened (writer.openBlock head) (p.output :: blocks)) := rfl

theorem runs_closeBlock (foot : String) :
    (closeBlock foot).Runs fixed (.of c inner writer (p.output :: blocks)) inner.output
      (.of c (p.closed inner) (writer.closeBlock foot) blocks) := rfl

theorem runs_reopenBlock (head : String) :
    (reopenBlock head).Runs fixed (.of c inner writer (p.output :: blocks)) inner.output
      (.of c (p.closed inner).opened (writer.reopenBlock head) (p.output :: blocks)) := rfl

theorem execute_perform {step : Lower α} {outcome : Except Error α}
    (h : step.execute (g.context fixed) g.progress = (outcome, after)) :
    (perform step).execute fixed g = (outcome, { g with
      progress := after
      writer := Go.writeList g.writer (after.output.drop g.progress.output.length) }) := by
  have hget : (get : Generate Generator).execute fixed g = (.ok g, g) := rfl
  have hread : (read : Generate Context).execute fixed g = (.ok fixed, g) := rfl
  have hset (g' : Generator) : (set g' : Generate PUnit).execute fixed g = (.ok (), g') := rfl
  simp only [perform, execute_bind, hget, hread, h, hset]
  cases outcome <;> rfl

theorem runs_perform {step : Lower α} {value : α} {code : List Go.Stmt}
    (h : step.Runs c p value after) (hcode : after.output = p.output ++ code) :
    (perform step).Runs c.fixed (.of c p writer blocks) value
      (.of c after (Go.writeList writer code) blocks) := by
  have hadded : after.output.drop p.output.length = code := by rw [hcode, List.drop_left]
  rw [← hadded]
  exact execute_perform (by rw [Generator.context_of]; exact h)

/-- What is performed without writing leaves the writer where it is. -/
theorem runs_perform_silent {step : Lower α} {value : α} (h : step.Runs c p value after)
    (houtput : after.output = p.output) :
    (perform step).Runs c.fixed (.of c p writer blocks) value (.of c after writer blocks) := by
  have hnone : after.output = p.output ++ [] := by rw [houtput, List.append_nil]
  exact runs_perform h hnone

theorem fails_perform {step : Lower α} (h : step.Fails c p error after) :
    ∃ g, (perform step).Fails c.fixed (.of c p writer blocks) error g ∧ g.path = c.path :=
  ⟨_, execute_perform (by rw [Generator.context_of]; exact h), rfl⟩

/-! ## Steps that follow steps -/

/-- A step does with stacks what another one does in the context that the stacks lead to. -/
structure Follows (step : Generate α) (lower : Lower α) (c : Context) : Prop where
  runs ⦃p : Progress⦄ ⦃result : α⦄ ⦃after : Progress⦄ :
    lower.Runs c p result after → ∀ writer blocks, ∃ code, after.output = p.output ++ code ∧
      step.Runs c.fixed (.of c p writer blocks) result
        (.of c after (Go.writeList writer code) blocks)
  fails ⦃p : Progress⦄ ⦃error : Error⦄ ⦃after : Progress⦄ :
    lower.Fails c p error after → ∀ writer blocks,
      ∃ g, step.Fails c.fixed (.of c p writer blocks) error g ∧ g.path = c.path

/-- In a block that has just been opened everything that is there has been written by the step. -/
theorem Follows.runs_inside {step : Generate α} {lower : Lower α} {value : α}
    (h : Follows step lower c) (hruns : lower.Runs c p value inner) (hempty : p.output = [])
    (writer : Go.Writer) (blocks : List (List Go.Stmt)) :
    step.Runs c.fixed (.of c p writer blocks) value
      (.of c inner (Go.writeList writer inner.output) blocks) := by
  obtain ⟨code, hcode, hstep⟩ := h.runs hruns writer blocks
  rw [hempty, List.nil_append] at hcode
  rwa [hcode]

theorem follows_pure (value : α) : Follows (pure value) (pure value) c where
  runs p _ _ hruns writer blocks := by
    obtain ⟨rfl, rfl⟩ := Lower.runs_pure.mp hruns
    exact ⟨[], (List.append_nil _).symm, runs_pure _⟩
  fails _ _ _ hfails := absurd hfails Lower.not_fails_pure

theorem follows_bind {step : Generate α} {lower : Lower α} {next : α → Generate β}
    {lowerNext : α → Lower β} (h : Follows step lower c)
    (hnext : ∀ value, Follows (next value) (lowerNext value) c) :
    Follows (step >>= next) (lower >>= lowerNext) c where
  runs p _ _ hruns writer blocks := by
    obtain ⟨value, middle, hfirst, hsecond⟩ := Lower.runs_bind.mp hruns
    obtain ⟨code, hcode, hstep⟩ := h.runs hfirst writer blocks
    obtain ⟨code', hcode', hstep'⟩ := (hnext value).runs hsecond (Go.writeList writer code) blocks
    refine ⟨code ++ code', by rw [hcode', hcode, List.append_assoc], ?_⟩
    rw [Go.writeList_append]
    exact hstep.bind hstep'
  fails p _ _ hfails writer blocks := by
    obtain hfirst | ⟨value, middle, hfirst, hsecond⟩ := Lower.fails_bind.mp hfails
    · obtain ⟨g, hstep, hpath⟩ := h.fails hfirst writer blocks
      exact ⟨g, hstep.bind, hpath⟩
    · obtain ⟨code, hcode, hstep⟩ := h.runs hfirst writer blocks
      obtain ⟨g, hstep', hpath⟩ := (hnext value).fails hsecond (Go.writeList writer code) blocks
      exact ⟨g, hstep.bind_fails hstep', hpath⟩

/-- What is known of the procedure is the same wherever a statement stands. -/
theorem follows_read {next : Context → Generate α} {lowerNext : Context → Lower α}
    (h : Follows (next c.fixed) (lowerNext c) c) :
    Follows (read >>= next) (read >>= lowerNext) c where
  runs p _ _ hruns writer blocks := by
    obtain ⟨_, _, hread, hnext⟩ := Lower.runs_bind.mp hruns
    obtain ⟨rfl, rfl⟩ := Lower.runs_read.mp hread
    obtain ⟨code, hcode, hstep⟩ := h.runs hnext writer blocks
    exact ⟨code, hcode, runs_read.bind hstep⟩
  fails p _ _ hfails writer blocks := by
    obtain hread | ⟨_, _, hread, hnext⟩ := Lower.fails_bind.mp hfails
    · exact absurd hread Lower.not_fails_read
    · obtain ⟨rfl, rfl⟩ := Lower.runs_read.mp hread
      obtain ⟨g, hstep, hpath⟩ := h.fails hnext writer blocks
      exact ⟨g, runs_read.bind_fails hstep, hpath⟩

theorem follows_get {next : Generator → Generate α} {lowerNext : Progress → Lower α}
    (h : ∀ p writer blocks, Follows (next (.of c p writer blocks)) (lowerNext p) c) :
    Follows (get >>= next) (get >>= lowerNext) c where
  runs p _ _ hruns writer blocks := by
    obtain ⟨_, _, hget, hnext⟩ := Lower.runs_bind.mp hruns
    obtain ⟨rfl, rfl⟩ := Lower.runs_get.mp hget
    obtain ⟨code, hcode, hstep⟩ := (h _ _ _).runs hnext writer blocks
    exact ⟨code, hcode, runs_get.bind hstep⟩
  fails p _ _ hfails writer blocks := by
    obtain hget | ⟨_, _, hget, hnext⟩ := Lower.fails_bind.mp hfails
    · exact absurd hget Lower.not_fails_get
    · obtain ⟨rfl, rfl⟩ := Lower.runs_get.mp hget
      obtain ⟨g, hstep, hpath⟩ := (h _ _ _).fails hnext writer blocks
      exact ⟨g, runs_get.bind_fails hstep, hpath⟩

/-- What the stacks hold is what the context says. -/
theorem follows_stacks {next : Generator → Generate α} {lowerNext : Context → Lower α}
    (h : ∀ p writer blocks, Follows (next (.of c p writer blocks)) (lowerNext c) c) :
    Follows (get >>= next) (read >>= lowerNext) c where
  runs p _ _ hruns writer blocks := by
    obtain ⟨_, _, hread, hnext⟩ := Lower.runs_bind.mp hruns
    obtain ⟨rfl, rfl⟩ := Lower.runs_read.mp hread
    obtain ⟨code, hcode, hstep⟩ := (h _ _ _).runs hnext writer blocks
    exact ⟨code, hcode, runs_get.bind hstep⟩
  fails p _ _ hfails writer blocks := by
    obtain hread | ⟨_, _, hread, hnext⟩ := Lower.fails_bind.mp hfails
    · exact absurd hread Lower.not_fails_read
    · obtain ⟨rfl, rfl⟩ := Lower.runs_read.mp hread
      obtain ⟨g, hstep, hpath⟩ := (h _ _ _).fails hnext writer blocks
      exact ⟨g, runs_get.bind_fails hstep, hpath⟩

theorem follows_ite {test : Prop} [Decidable test] {step step' : Generate α}
    {lower lower' : Lower α} (h : Follows step lower c) (h' : Follows step' lower' c) :
    Follows (if test then step else step') (if test then lower else lower') c := by
  split
  · exact h
  · exact h'

/-- A step that is only taken where a test holds, and what follows either way. -/
theorem follows_when {test : Prop} [Decidable test] {step : Generate β} {lower : Lower β}
    {next : Generate α} {lowerNext : Lower α} (h : Follows step lower c)
    (hnext : Follows next lowerNext c) :
    Follows (if test then step >>= fun _ => next else next)
      (if test then lower >>= fun _ => lowerNext else lowerNext) c :=
  follows_ite (follows_bind h fun _ => hnext) hnext

/-- A step that moves no stack follows itself when it is performed in one go. -/
theorem follows_perform {lower : Lower α}
    (h : lower.HasEffect c (Discipline.adding c).effect) : Follows (perform lower) lower c where
  runs p _ _ hruns writer blocks := by
    obtain ⟨-, code, hcode, -⟩ := h hruns trivial
    exact ⟨code, hcode, runs_perform hruns hcode⟩
  fails _ _ _ hfails _ _ := fails_perform hfails

/-- A change of what is known. -/
theorem follows_change {f : Progress → Progress} (h : ∀ p, (f p).output = p.output) :
    Follows (change f) (modify f) c where
  runs p _ _ hruns writer blocks := by
    obtain rfl := Lower.runs_modify.mp hruns
    exact ⟨[], by rw [h, List.append_nil], runs_modify _⟩
  fails _ _ _ hfails := absurd hfails Lower.not_fails_modify

theorem follows_emit (s : Go.Stmt) : Follows (emit s) (Lower.emit s) c where
  runs p _ _ hruns writer blocks := by
    obtain rfl := Lower.runs_emit.mp hruns
    exact ⟨[s], rfl, runs_emit s⟩
  fails _ _ _ hfails := absurd hfails Lower.not_fails_emit

theorem follows_located {step : Generate α} {lower : Lower α} (h : Follows step lower c) :
    Follows (located step) (Lower.located lower) c where
  runs p _ _ hruns writer blocks := by
    obtain ⟨code, hcode, hstep⟩ := h.runs (Lower.runs_located.mp hruns) writer blocks
    exact ⟨code, hcode, hstep.located⟩
  fails p _ _ hfails writer blocks := by
    obtain ⟨error, hinner, rfl⟩ := Lower.fails_located.mp hfails
    obtain ⟨g, hstep, hpath⟩ := h.fails hinner writer blocks
    exact ⟨g, hstep.located_of_path_eq hpath, hpath⟩

/-- What stands in a branch is left on every way out. -/
theorem follows_branch {body : Generate α} {lower : Lower α} (index : Nat)
    (h : Follows body lower (c.enter index)) :
    Follows (branch index body) (Lower.within (Context.enter index) lower) c where
  runs p _ _ hruns writer blocks := by
    obtain ⟨code, hcode, hbody⟩ := h.runs (Lower.runs_within.mp hruns) writer blocks
    exact ⟨code, hcode, (runs_enter index).bind <| (runs_attempt hbody).bind <|
      (runs_leave index).bind <| runs_resume _⟩
  fails p _ _ hfails writer blocks := by
    obtain ⟨g, hbody, hpath⟩ := h.fails (Lower.fails_within.mp hfails) writer blocks
    exact ⟨_, (runs_enter index).bind_fails <| hbody.attempt.bind_fails <|
      (runs_modify _).bind_fails <| fails_resume _, congrArg List.tail hpath⟩

/-! ## Blocks that are open -/

/-- The same from behind what has been written into an open block. The other step stands behind the
block and is given its statements. -/
structure FollowsInside (front : Go.Writer → Go.Writer) (step : Generate α)
    (lower : List Go.Stmt → Lower α) (c : Context) : Prop where
  runs ⦃p inner : Progress⦄ ⦃result : α⦄ ⦃after : Progress⦄ :
    (lower inner.output).Runs c (p.closed inner) result after → ∀ writer blocks,
      ∃ code, after.output = p.output ++ code ∧
        step.Runs c.fixed
          (.of c inner (Go.writeList (front writer) inner.output) (p.output :: blocks)) result
          (.of c after (Go.writeList writer code) blocks)
  fails ⦃p inner : Progress⦄ ⦃error : Error⦄ ⦃after : Progress⦄ :
    (lower inner.output).Fails c (p.closed inner) error after → ∀ writer blocks,
      ∃ g, step.Fails c.fixed
        (.of c inner (Go.writeList (front writer) inner.output) (p.output :: blocks)) error g ∧
        g.path = c.path

theorem follows_openBlock {head : String} {step : Generate Unit} {lower : Lower Unit}
    {rest : Generate α} {lowerRest : List Go.Stmt → Lower α} (h : Follows step lower c)
    (hrest : FollowsInside (·.openBlock head) rest lowerRest c) :
    Follows (openBlock head >>= fun _ => step >>= fun _ => rest)
      (Lower.block lower >>= lowerRest) c where
  runs p _ _ hruns writer blocks := by
    obtain ⟨_, _, hblock, hlower⟩ := Lower.runs_bind.mp hruns
    obtain ⟨inner, hinner, rfl, rfl⟩ := Lower.runs_block.mp hblock
    obtain ⟨code, hcode, hsteps⟩ := hrest.runs hlower writer blocks
    exact ⟨code, hcode,
      (runs_openBlock head).bind ((h.runs_inside hinner rfl _ _).bind hsteps)⟩
  fails p _ _ hfails writer blocks := by
    obtain hblock | ⟨_, _, hblock, hlower⟩ := Lower.fails_bind.mp hfails
    · obtain ⟨g, hstep, hpath⟩ :=
        h.fails (Lower.fails_block.mp hblock) (writer.openBlock head) (p.output :: blocks)
      exact ⟨g, (runs_openBlock head).bind_fails hstep.bind, hpath⟩
    · obtain ⟨inner, hinner, rfl, rfl⟩ := Lower.runs_block.mp hblock
      obtain ⟨g, hsteps, hpath⟩ := hrest.fails hlower writer blocks
      exact ⟨g, (runs_openBlock head).bind_fails
        ((h.runs_inside hinner rfl _ _).bind_fails hsteps), hpath⟩

theorem followsInside_exitScope {front : Go.Writer → Go.Writer} {next : ExitScope → Generate α}
    {lowerNext : List Go.Stmt → Context → Lower α}
    (h : FollowsInside front (next c.exitScope) (fun body => lowerNext body c) c) :
    FollowsInside front (exitScope >>= next) (fun body => read >>= lowerNext body) c where
  runs p _ _ _ hruns writer blocks := by
    obtain ⟨_, _, hread, hnext⟩ := Lower.runs_bind.mp hruns
    obtain ⟨rfl, rfl⟩ := Lower.runs_read.mp hread
    obtain ⟨code, hcode, hstep⟩ := h.runs hnext writer blocks
    exact ⟨code, hcode, runs_exitScope.bind hstep⟩
  fails p _ _ _ hfails writer blocks := by
    obtain hread | ⟨_, _, hread, hnext⟩ := Lower.fails_bind.mp hfails
    · exact absurd hread Lower.not_fails_read
    · obtain ⟨rfl, rfl⟩ := Lower.runs_read.mp hread
      obtain ⟨g, hstep, hpath⟩ := h.fails hnext writer blocks
      exact ⟨g, runs_exitScope.bind_fails hstep, hpath⟩

theorem followsInside_ite {test : Prop} [Decidable test] {front : Go.Writer → Go.Writer}
    {step step' : Generate α} {lower lower' : List Go.Stmt → Lower α}
    (h : FollowsInside front step lower c) (h' : FollowsInside front step' lower' c) :
    FollowsInside front (if test then step else step')
      (fun body => if test then lower body else lower' body) c := by
  split
  · exact h
  · exact h'

/-- The open block is closed, and then added as a part of a statement. -/
theorem followsInside_closeBlock {front : Go.Writer → Go.Writer} {foot : String}
    {tree : List Go.Stmt → Go.Stmt} {next : Generate α} {lowerNext : Lower α}
    (hwrite : ∀ writer body,
      (tree body).write writer = (Go.writeList (front writer) body).closeBlock foot)
    (h : Follows next lowerNext c) :
    FollowsInside front (closeBlock foot >>= fun body => record (tree body) >>= fun _ => next)
      (fun body => Lower.emit (tree body) >>= fun _ => lowerNext) c where
  runs p inner _ _ hruns writer blocks := by
    obtain ⟨_, _, hemit, hnext⟩ := Lower.runs_bind.mp hruns
    obtain rfl := Lower.runs_emit.mp hemit
    obtain ⟨code, hcode, hstep⟩ := h.runs hnext ((tree inner.output).write writer) blocks
    refine ⟨tree inner.output :: code, by simpa [Progress.wrote, Progress.closed] using hcode, ?_⟩
    rw [hwrite] at hstep
    rw [Go.writeList, hwrite]
    exact (runs_closeBlock foot).bind ((runs_record _).bind hstep)
  fails p inner _ _ hfails writer blocks := by
    obtain hemit | ⟨_, _, hemit, hnext⟩ := Lower.fails_bind.mp hfails
    · exact absurd hemit Lower.not_fails_emit
    · obtain rfl := Lower.runs_emit.mp hemit
      obtain ⟨g, hstep, hpath⟩ := h.fails hnext ((tree inner.output).write writer) blocks
      rw [hwrite] at hstep
      exact ⟨g, (runs_closeBlock foot).bind_fails ((runs_record _).bind_fails hstep), hpath⟩

/-- The open block is closed, and its sibling opened. -/
theorem followsInside_reopenBlock {front : Go.Writer → Go.Writer} {head : String}
    {step : Generate Unit} {lower : Lower Unit} {rest : List Go.Stmt → Generate α}
    {lowerRest : List Go.Stmt → List Go.Stmt → Lower α} (h : Follows step lower c)
    (hrest : ∀ body, FollowsInside
      (fun writer => (Go.writeList (front writer) body).reopenBlock head) (rest body)
      (lowerRest body) c) :
    FollowsInside front (reopenBlock head >>= fun body => step >>= fun _ => rest body)
      (fun body => Lower.block lower >>= lowerRest body) c where
  runs p outer _ _ hruns writer blocks := by
    obtain ⟨_, _, hblock, hlower⟩ := Lower.runs_bind.mp hruns
    obtain ⟨inner, hinner, rfl, rfl⟩ := Lower.runs_block.mp hblock
    obtain ⟨code, hcode, hsteps⟩ := (hrest outer.output).runs hlower writer blocks
    exact ⟨code, hcode,
      (runs_reopenBlock head).bind ((h.runs_inside hinner rfl _ _).bind hsteps)⟩
  fails p outer _ _ hfails writer blocks := by
    obtain hblock | ⟨_, _, hblock, hlower⟩ := Lower.fails_bind.mp hfails
    · obtain ⟨g, hstep, hpath⟩ := h.fails (Lower.fails_block.mp hblock)
        ((Go.writeList (front writer) outer.output).reopenBlock head) (p.output :: blocks)
      exact ⟨g, (runs_reopenBlock head).bind_fails hstep.bind, hpath⟩
    · obtain ⟨inner, hinner, rfl, rfl⟩ := Lower.runs_block.mp hblock
      obtain ⟨g, hsteps, hpath⟩ := (hrest outer.output).fails hlower writer blocks
      exact ⟨g, (runs_reopenBlock head).bind_fails
        ((h.runs_inside hinner rfl _ _).bind_fails hsteps), hpath⟩

/-- The steps behind a block that is only closed and added. -/
theorem followsInside_last {front : Go.Writer → Go.Writer} {foot : String}
    {tree : List Go.Stmt → Go.Stmt} (hwrite : ∀ writer body,
      (tree body).write writer = (Go.writeList (front writer) body).closeBlock foot) :
    FollowsInside front (closeBlock foot >>= fun body => record (tree body))
      (fun body => Lower.emit (tree body)) c := by
  have h := followsInside_closeBlock (c := c) hwrite (follows_pure ())
  simpa using h

/-! ## Ways out -/

theorem follows_emitIf (init : Option Go.Assign) (test : Go.Expr) {step : Generate Unit}
    {lower : Lower Unit} (h : Follows step lower c) :
    Follows (emitIf init test step) (Lower.emitIf init test lower) c :=
  follows_openBlock h (followsInside_last fun _ _ => rfl)

theorem follows_emitClosure (deferred : Bool) {step : Generate Unit} {lower : Lower Unit}
    (h : Follows step lower c) :
    Follows (emitClosure deferred step)
      (do
        let body ← Lower.block lower
        Lower.emit (.closure deferred body)) c :=
  follows_openBlock h (followsInside_last fun _ _ => rfl)

theorem follows_errorExit : Follows (perform Lower.errorExit) Lower.errorExit c :=
  follows_perform (Discipline.regular_adding c).exit

theorem follows_emitGuarded (init : Go.Assign) :
    Follows (emitGuarded init) (Lower.emitGuarded init) c :=
  follows_emitIf _ _ follows_errorExit

theorem follows_emitChecked {success : Generate Unit} {lower : Lower Unit}
    (h : Follows success lower c) : Follows (emitChecked success) (Lower.emitChecked lower) c := by
  refine follows_openBlock follows_errorExit (followsInside_exitScope (followsInside_ite ?_ ?_))
  · exact followsInside_reopenBlock h fun _ => followsInside_last fun _ _ => rfl
  · exact followsInside_closeBlock (fun _ _ => rfl) h

end Generate

end Sproc
