import Sproc.Proofs.Lower.Blocks
import Sproc.Proofs.Lower.Generation

/-!
# What the stacks hold

Seven stacks say where a generation stands: the indentation of the writer, the blocks that hold
generated names, the enclosing halves of `TRY` statements, the loops of each function literal, the
path of the current statement, the flags for a `RETURN`, and the cursors that are being iterated.
Each push moves one of them. A step that follows one in a context moves none: whatever it has pushed
has been taken off again when it is done.

## Main definitions

* `Stacks`, `Generator.stacks`: what the stacks of a generation hold
* `Stacks.within`: what they hold inside a nest of enclosing parts
* `Generate.Moves`: a step leads from stacks that hold one thing to stacks that hold another

## Main results

* `Stacks.depth_within`: the blocks of generated names are the blocks that are indented
* `Generate.Follows.restores`: a step that follows another one only writes
* `Generate.moves_bind`, `Generate.Follows.moves`: sequences, and steps that move no stack
-/

namespace Sproc

/-- What is kept about the place of the current statement. All stacks have their innermost element
in front. -/
structure Stacks where
  /-- The indentation of the writer. -/
  indent : Nat
  /-- The number of blocks around the innermost one that holds generated names. -/
  depth : Nat
  exits : List ExitScope
  loops : List Nat
  path : List Nat
  returnFlags : List (Option String)
  looping : List String
  deriving DecidableEq, Repr

/-- What the stacks of a generation hold. -/
def Generator.stacks (g : Generator) : Stacks where
  indent := g.writer.indent
  depth := g.progress.names.depth
  exits := g.exits
  loops := g.loops
  path := g.path
  returnFlags := g.returnFlags
  looping := g.looping

/-- The number of Go blocks of an enclosure. A handler stands in a conditional in a deferred literal
in the literal of its statement. -/
def Enclosure.blocks : Enclosure → Nat
  | .branch _ | .loop | .cursorLoop _ | .tryHalf _ => 1
  | .elseIf | .block => 0
  | .catchHalf => 3

namespace Stacks

/-- In front of the body of a procedure. -/
def start : Stacks where
  indent := 1
  depth := 0
  exits := [.body]
  loops := [0]
  path := []
  returnFlags := []
  looping := []

def enter (index : Nat) (place : Stacks) : Stacks :=
  { place with path := index :: place.path }

def enterLoop (place : Stacks) : Stacks :=
  { place with loops := place.loops.modifyHead (· + 1) }

def enterHalf (half : ExitScope) (place : Stacks) : Stacks :=
  { place with exits := half :: place.exits, loops := 0 :: place.loops }

def openBlocks (n : Nat) (place : Stacks) : Stacks :=
  { place with indent := place.indent + n, depth := place.depth + n }

/-- What an enclosure puts on the stacks, other than its blocks. -/
def enclose (place : Stacks) : Enclosure → Stacks
  | .branch index => place.enter index
  | .elseIf => place.enter 1
  | .loop => place.enterLoop.enter 0
  | .cursorLoop cursor => { (place.enter 0).enterLoop with looping := cursor :: place.looping }
  | .block => place
  | .tryHalf flag =>
    { (place.enterHalf .tryHalf).enter 0 with returnFlags := flag :: place.returnFlags }
  | .catchHalf => (place.enterHalf .catchHalf).enter 1

/-- The stacks inside an enclosure. -/
def inside (place : Stacks) (enclosure : Enclosure) : Stacks :=
  (place.enclose enclosure).openBlocks enclosure.blocks

/-- The stacks inside a nest of enclosures, given from the inside out, each with the index of its
statement in the list that holds it. -/
def within (nest : List (Nat × Enclosure)) : Stacks :=
  nest.foldr (fun outer place => (place.enter outer.1).inside outer.2) start

/-- What opens a block of generated names also indents, and nothing else does. -/
theorem depth_within (nest : List (Nat × Enclosure)) :
    (within nest).depth + 1 = (within nest).indent := by
  induction nest with
  | nil => rfl
  | cons outer nest ih =>
    obtain ⟨index, enclosure⟩ := outer
    have hdepth : (within ((index, enclosure) :: nest)).depth =
        (within nest).depth + enclosure.blocks := by
      cases enclosure <;> rfl
    have hindent : (within ((index, enclosure) :: nest)).indent =
        (within nest).indent + enclosure.blocks := by
      cases enclosure <;> rfl
    omega

/-- The outermost elements are there: the body of the procedure, and the loops of the function. -/
structure Sound (place : Stacks) : Prop where
  exits : place.exits.getLast? = some .body
  loops : place.loops ≠ []

variable {place : Stacks}

theorem Sound.enter (h : place.Sound) (index : Nat) : (place.enter index).Sound :=
  ⟨h.exits, h.loops⟩

theorem Sound.openBlocks (h : place.Sound) (n : Nat) : (place.openBlocks n).Sound :=
  ⟨h.exits, h.loops⟩

theorem Sound.looping (h : place.Sound) (cursors : List String) :
    Sound { place with looping := cursors } :=
  ⟨h.exits, h.loops⟩

theorem Sound.enterLoop (h : place.Sound) : place.enterLoop.Sound where
  exits := h.exits
  loops := by simpa [Stacks.enterLoop] using h.loops

theorem Sound.enterHalf (h : place.Sound) (half : ExitScope) : (place.enterHalf half).Sound where
  exits := by simp [Stacks.enterHalf, List.getLast?_cons, h.exits]
  loops := List.cons_ne_nil _ _

theorem sound_within (nest : List (Nat × Enclosure)) : (within nest).Sound := by
  induction nest with
  | nil => exact ⟨rfl, List.cons_ne_nil _ _⟩
  | cons outer nest ih =>
    obtain ⟨index, enclosure⟩ := outer
    have hindex := Sound.enter ih index
    refine Sound.openBlocks ?_ _
    cases enclosure with
    | branch branch => exact hindex.enter branch
    | elseIf => exact hindex.enter 1
    | loop => exact hindex.enterLoop.enter 0
    | cursorLoop cursor => exact ⟨(hindex.enter 0).enterLoop.exits, (hindex.enter 0).enterLoop.loops⟩
    | block => exact hindex
    | tryHalf flag => exact ⟨(hindex.enterHalf .tryHalf).exits, (hindex.enterHalf .tryHalf).loops⟩
    | catchHalf => exact (hindex.enterHalf .catchHalf).enter 1

end Stacks

/-- Where the outermost elements are there, the stacks lead to a context. -/
theorem Generator.eq_of {g : Generator} (h : g.stacks.Sound) (fixed : Context) :
    g = .of (g.context fixed) g.progress g.writer g.blocks := by
  have hexits : g.exits.dropLast ++ [ExitScope.body] = g.exits :=
    List.dropLast_append_getLast? _ h.exits
  have hloops : g.loops.headD 0 :: g.loops.tail = g.loops := by
    obtain ⟨count, outer, hcons⟩ := List.exists_cons_of_ne_nil h.loops
    rw [show g.loops = count :: outer from hcons]
    rfl
  simp only [Generator.of, Generator.context, hexits, hloops]

theorem Generator.fixed_context (g : Generator) (fixed : Context) :
    (g.context fixed).fixed = fixed.fixed := rfl

/-- Growth leaves the number of blocks as it is. -/
theorem NameScope.Grows.depth_eq {before after : NameScope} (h : before.Grows after) :
    after.depth = before.depth :=
  congrArg List.length h.outer

theorem NameScope.depth_pop {scope : NameScope} {n : Nat} (h : scope.depth = n + 1) :
    scope.pop.depth = n := by
  obtain ⟨enclosing, outer, houter⟩ := List.exists_cons_of_length_eq_add_one h
  rw [depth, houter] at h
  simpa [depth, pop, houter] using h

/-- No step that is made of whole blocks changes their number. -/
theorem Lower.HasEffect.depth_eq {α : Type} {lower : Lower α} {c : Context} {D : Discipline}
    {p after : Progress} {value : α} (h : lower.HasEffect c D.effect)
    (hruns : lower.Runs c p value after) (hkeeps : D.keeps p) :
    after.names.depth = p.names.depth := by
  obtain ⟨-, _, -, -, hextends⟩ := h hruns hkeeps
  exact hextends.grows.names.depth_eq

namespace Generate

variable {α β : Type} {step : Generate α} {lower : Lower α} {fixed : Context} {g g' : Generator}
  {value : α} {before middle after : Stacks}

/-- A step that follows another one changes what is known, and writes what has been added. All else
is as it was. -/
theorem Follows.restores (h : Follows step lower (g.context fixed)) (hfixed : fixed.fixed = fixed)
    (hsound : g.stacks.Sound) (hruns : step.Runs fixed g value g') :
    ∃ passed code, lower.Runs (g.context fixed) g.progress value passed ∧
      passed.output = g.progress.output ++ code ∧
      g' = { g with progress := passed, writer := Go.writeList g.writer code } := by
  have hof := Generator.eq_of hsound fixed
  obtain ⟨result, passed, hlower⟩ | ⟨error, passed, hlower⟩ :=
    Lower.runs_or_fails lower (g.context fixed) g.progress
  · obtain ⟨code, hcode, hstep⟩ := h.runs hlower g.writer g.blocks
    rw [g.fixed_context, hfixed, ← hof] at hstep
    obtain ⟨rfl, rfl⟩ := hruns.unique hstep
    let write (g : Generator) : Generator :=
      { g with progress := passed, writer := Go.writeList g.writer code }
    exact ⟨passed, code, hlower, hcode, congrArg write hof.symm⟩
  · obtain ⟨g'', hstep, -⟩ := h.fails hlower g.writer g.blocks
    rw [g.fixed_context, hfixed, ← hof] at hstep
    cases hruns.symm.trans hstep

/-- What the stacks hold behind a step, if it succeeds. -/
def Moves (step : Generate α) (fixed : Context) (before after : Stacks) : Prop :=
  ∀ ⦃g value g'⦄, g.stacks = before → step.Runs fixed g value g' → g'.stacks = after

theorem moves_bind {next : α → Generate β} (h : step.Moves fixed before middle)
    (hnext : ∀ value, (next value).Moves fixed middle after) :
    (step >>= next).Moves fixed before after := by
  intro g result g' hstacks hruns
  obtain ⟨value, passed, hstep, hrest⟩ := runs_bind.mp hruns
  exact hnext value (h hstacks hstep) hrest

theorem moves_pure (value : α) : (pure value : Generate α).Moves fixed before before := by
  intro g result g' hstacks hruns
  obtain ⟨-, rfl⟩ := hruns.unique (runs_pure value)
  exact hstacks

theorem moves_read : (read : Generate Context).Moves fixed before before := by
  intro g result g' hstacks hruns
  obtain ⟨-, rfl⟩ := hruns.unique runs_read
  exact hstacks

theorem moves_get : (get : Generate Generator).Moves fixed before before := by
  intro g result g' hstacks hruns
  obtain ⟨-, rfl⟩ := hruns.unique runs_get
  exact hstacks

theorem moves_modify {change : Generator → Generator}
    (h : ∀ g, g.stacks = before → (change g).stacks = after) :
    (modify change : Generate PUnit).Moves fixed before after := by
  intro g value g' hstacks hruns
  obtain ⟨-, rfl⟩ := hruns.unique (runs_modify change)
  exact h g hstacks

/-- A step that follows one that is made of whole blocks moves no stack. -/
theorem Follows.moves (h : ∀ c, Follows step lower c)
    (hdepth : ∀ {c p value passed}, lower.Runs c p value passed →
      passed.names.depth = p.names.depth)
    (hfixed : fixed.fixed = fixed) (hsound : before.Sound) : step.Moves fixed before before := by
  rintro g value g' rfl hruns
  obtain ⟨passed, code, hlower, -, rfl⟩ := (h _).restores hfixed hsound hruns
  simp only [Generator.stacks, hdepth hlower, (Go.settles_writeList _ _).indent]

theorem moves_perform (h : ∀ c, lower.HasEffect c (Discipline.adding c).effect)
    (hfixed : fixed.fixed = fixed) (hsound : before.Sound) :
    (perform lower).Moves fixed before before :=
  Follows.moves (fun c => follows_perform (h c)) (fun hruns => (h _).depth_eq hruns trivial) hfixed
    hsound

theorem moves_located (h : step.Moves fixed before after) :
    (located step).Moves fixed before after := by
  intro g value g' hstacks hruns
  rcases hstep : step.execute fixed g with ⟨⟨error⟩ | ⟨result⟩, passed⟩
  · cases hruns.symm.trans (Fails.located hstep)
  · obtain ⟨rfl, rfl⟩ := hruns.unique (Runs.located hstep)
    exact h hstacks hstep

/-! ## Pushes -/

theorem moves_enter (index : Nat) : (enter index).Moves fixed before (before.enter index) :=
  moves_modify fun _ h => congrArg (Stacks.enter index) h

theorem moves_enterLoop : enterLoop.Moves fixed before before.enterLoop :=
  moves_modify fun _ h => congrArg Stacks.enterLoop h

theorem moves_openBlock (head : String) :
    (openBlock head).Moves fixed before (before.openBlocks 1) :=
  moves_modify fun _ h => congrArg (Stacks.openBlocks 1) h

theorem moves_pushExit (half : ExitScope) : (pushExit half).Moves fixed before
    { before with exits := half :: before.exits } :=
  moves_modify fun _ h => congrArg (fun s => { s with exits := half :: s.exits }) h

theorem moves_enterClosure : enterClosure.Moves fixed before
    { before with loops := 0 :: before.loops } :=
  moves_modify fun _ h => congrArg (fun s => { s with loops := 0 :: s.loops }) h

theorem moves_pushFlag (flag : Option String) : (pushFlag flag).Moves fixed before
    { before with returnFlags := flag :: before.returnFlags } :=
  moves_modify fun _ h =>
    congrArg (fun s => { s with returnFlags := flag :: s.returnFlags }) h

theorem moves_pushLooping (cursor : String) : (pushLooping cursor).Moves fixed before
    { before with looping := cursor :: before.looping } :=
  moves_modify fun _ h => congrArg (fun s => { s with looping := cursor :: s.looping }) h

theorem moves_record (s : Go.Stmt) : (record s).Moves fixed before before :=
  moves_modify fun _ h => h

/-- A block that is open may be closed. -/
theorem moves_closeBlock (foot : String) :
    (closeBlock foot).Moves fixed (before.openBlocks 1) before := by
  intro g value g' hstacks hruns
  have hclose : (closeBlock foot).Runs fixed g g.progress.output { g with
      writer := g.writer.closeBlock foot
      blocks := g.blocks.tail
      progress :=
        { g.progress with output := g.blocks.headD [], names := g.progress.names.pop } } := rfl
  obtain ⟨-, rfl⟩ := hruns.unique hclose
  have hdepth : g.progress.names.pop.depth = before.depth :=
    NameScope.depth_pop (congrArg Stacks.depth hstacks)
  have hindent : (g.writer.closeBlock foot).indent = before.indent := by
    have hopen : g.writer.indent = before.indent + 1 := congrArg Stacks.indent hstacks
    simp [hopen]
  change Stacks.mk _ _ _ _ _ _ _ = _
  rw [hdepth, hindent]
  exact congrArg (fun s => { s with indent := before.indent, depth := before.depth }) hstacks

/-- A block that is open may be closed for its sibling. -/
theorem moves_reopenBlock (head : String) :
    (reopenBlock head).Moves fixed (before.openBlocks 1) (before.openBlocks 1) := by
  intro g value g' hstacks hruns
  have hreopen : (reopenBlock head).Runs fixed g g.progress.output { g with
      writer := g.writer.reopenBlock head
      progress := { g.progress with output := [], names := g.progress.names.pop.push } } := rfl
  obtain ⟨-, rfl⟩ := hruns.unique hreopen
  have hdepth : g.progress.names.pop.push.depth = before.depth + 1 :=
    congrArg (· + 1) (NameScope.depth_pop (congrArg Stacks.depth hstacks))
  have hindent : (g.writer.reopenBlock head).indent = before.indent + 1 := by
    have hopen : g.writer.indent = before.indent + 1 := congrArg Stacks.indent hstacks
    simp [Go.Writer.reopenBlock, hopen]
  change Stacks.mk _ _ _ _ _ _ _ = _
  rw [hdepth, hindent]
  exact congrArg (fun s => { s with indent := before.indent + 1, depth := before.depth + 1 }) hstacks

end Generate

end Sproc
