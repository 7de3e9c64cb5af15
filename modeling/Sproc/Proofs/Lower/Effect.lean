import Sproc.Proofs.Lower.Computation

/-!
# Effects of steps

An effect relates the progress before a successful step with the progress behind it, and says which
errors a failing step may report. Effects that allow further imports and warnings, and that can be
put together, are had by every step that only computes values: conversions, operators and built-in
functions write no statement, declare nothing, and never fail because of a cursor. Where such a step
evaluates an operand, it has the effects that the evaluation of the operand has.

## Main definitions

* `Progress.Annotated`: nothing but imports and warnings has been added
* `forcing`, `forcings`: the warnings about tables that were sent to the fallback backend
* `Progress.Computed`: nothing but imports and warnings of other kinds has been added
* `Progress.Borrowed`: all imports that have been added are those of computations
* `Progress.WarnedAt`: all warnings that have been added name one path
* `Effect`, `Effect.Composable`, `Effect.Sparing`, `Effect.Receptive`, `Effect.Tolerant`,
  `Lower.HasEffect`
* `Effect.always`: the effect that says the same of success and failure

## Main results

* `Calculates.hasEffect`: a step that calculates has the effects of its parts
* `hasEffect_lowerExpr`: an expression has every effect that the queries inside it have
* `unhoisted_leaves_progress`: an expression without queries writes nothing, even where it fails
-/

namespace Sproc

namespace Progress

/-- Nothing has changed between two moments of a generation but for further imports and
warnings. -/
structure Annotated (before after : Progress) : Prop where
  symbols : after.symbols = before.symbols
  names : after.names = before.names
  cursors : after.cursors = before.cursors
  transaction : after.transaction = before.transaction
  output : after.output = before.output
  imports : before.imports.specs ⊆ after.imports.specs
  warnings : before.warnings <+: after.warnings

theorem Annotated.refl (progress : Progress) : progress.Annotated progress :=
  ⟨rfl, rfl, rfl, rfl, rfl, List.Subset.refl _, List.prefix_refl _⟩

theorem Annotated.trans {before middle after : Progress} (h : before.Annotated middle)
    (h' : middle.Annotated after) : before.Annotated after :=
  ⟨h'.symbols.trans h.symbols, h'.names.trans h.names, h'.cursors.trans h.cursors,
    h'.transaction.trans h.transaction, h'.output.trans h.output,
    List.Subset.trans h.imports h'.imports, h.warnings.trans h'.warnings⟩

theorem Annotated.wrote {before after : Progress} (h : before.Annotated after) (s : Go.Stmt) :
    (before.wrote s).Annotated (after.wrote s) :=
  ⟨h.symbols, h.names, h.cursors, h.transaction, congrArg (· ++ [s]) h.output, h.imports,
    h.warnings⟩

end Progress

/-- The message of the warning about a table that was sent to the fallback backend. -/
def forcing (table : TableRef) : String :=
  s!"temporary table forced to fallback backend: {table.name}"

/-- The messages of the warnings about tables that were sent to the fallback backend. -/
def forcings (warnings : List Warning) : List String :=
  (warnings.filter (·.kind = .fallbackBackend)).map (·.message)

@[simp]
theorem forcings_append (front back : List Warning) :
    forcings (front ++ back) = forcings front ++ forcings back := by
  simp [forcings]

@[simp]
theorem forcings_singleton {kind : WarningKind} (h : kind ≠ .fallbackBackend)
    (path message : String) : forcings [⟨kind, path, message⟩] = [] := by
  simp [forcings, h]

namespace Progress

/-- What the computation of a value may change: imports, and warnings that are not about the choice
of a backend. -/
structure Computed (before after : Progress) : Prop extends before.Annotated after where
  forcings : forcings after.warnings = forcings before.warnings

theorem Computed.refl (progress : Progress) : progress.Computed progress :=
  ⟨.refl progress, rfl⟩

theorem Computed.trans {before middle after : Progress} (h : before.Computed middle)
    (h' : middle.Computed after) : before.Computed after :=
  ⟨h.toAnnotated.trans h'.toAnnotated, h'.forcings.trans h.forcings⟩

/-- All packages that have been imported between two moments of a generation are those of
computations. -/
def Borrowed (config : Config) (before after : Progress) : Prop :=
  ∀ spec ∈ after.imports.specs, spec ∈ before.imports.specs ∨ spec ∈ config.computingSpecs

theorem Borrowed.of_eq {config : Config} {before after : Progress}
    (h : after.imports = before.imports) : before.Borrowed config after :=
  fun _ hspec => .inl (h ▸ hspec)

/-- All warnings that have been added between two moments of a generation name one path. -/
def WarnedAt (path : String) (before after : Progress) : Prop :=
  ∃ added, after.warnings = before.warnings ++ added ∧ ∀ warning ∈ added, warning.path = path

theorem WarnedAt.of_eq {path : String} {before after : Progress}
    (h : after.warnings = before.warnings) : before.WarnedAt path after :=
  ⟨[], by simpa using h, by simp⟩

theorem WarnedAt.trans {path : String} {before middle after : Progress}
    (h : before.WarnedAt path middle) (h' : middle.WarnedAt path after) :
    before.WarnedAt path after := by
  obtain ⟨added, hadded, hpath⟩ := h
  obtain ⟨added', hadded', hpath'⟩ := h'
  exact ⟨added ++ added', by rw [hadded', hadded, List.append_assoc],
    List.forall_mem_append.mpr ⟨hpath, hpath'⟩⟩

end Progress

/-- What can be said about a step: how the progress behind a successful one relates to the progress
before it, and which errors one that fails there may report, and with which progress. -/
structure Effect where
  relates : Progress → Progress → Prop
  admits : Progress → Error → Progress → Prop := fun _ _ _ => True

namespace Effect

instance : CoeFun Effect fun _ => Progress → Progress → Prop := ⟨relates⟩

/-- A relation of progress says nothing about errors. -/
instance : Coe (Progress → Progress → Prop) Effect := ⟨fun relates => { relates }⟩

/-- Effects that can be put together, and admit every error that is not about a cursor and has no
site yet. -/
class Composable (effect : Effect) : Prop where
  refl (progress : Progress) : effect progress progress
  trans {before middle after : Progress} :
    effect before middle → effect middle after → effect before after
  behind {before middle after : Progress} {error : Error} :
    effect before middle → effect.admits middle error after → effect.admits before error after
  plain {before : Progress} {fault : Fault} :
    fault.concernsCursor = false → effect.admits before ⟨fault, none⟩ before

/-- Effects that do not mind what the computation of a value changes in a context, where all its
warnings name the current statement and all its imports are packages of computations. -/
class Sparing (effect : Effect) (context : Context) [Composable effect] : Prop where
  computed {before after : Progress} : before.Computed after →
    before.WarnedAt context.pathText after → before.Borrowed context.config after →
    effect before after

/-- Effects that do not mind further imports of other packages either. -/
class Receptive (effect : Effect) (context : Context) [Composable effect] : Prop where
  computed {before after : Progress} :
    before.Computed after → before.WarnedAt context.pathText after → effect before after

instance (effect : Effect) (context : Context) [Composable effect]
    [receptive : Receptive effect context] : Sparing effect context where
  computed h hpath _ := receptive.computed h hpath

/-- Effects that do not mind any warning. -/
class Tolerant (effect : Effect) : Prop extends Composable effect where
  annotated {before after : Progress} : before.Annotated after → effect before after
  refl _ := annotated (.refl _)

instance (effect : Effect) [tolerant : Tolerant effect] (context : Context) :
    Receptive effect context where
  computed h _ := tolerant.annotated h.toAnnotated

/-- Further imports and warnings are an effect of their own. -/
instance : Tolerant Progress.Annotated where
  annotated h := h
  trans := .trans
  behind _ _ := trivial
  plain _ := trivial

/-- So is what the computation of a value may change. -/
instance : Composable Progress.Computed where
  refl := .refl
  trans := .trans
  behind _ _ := trivial
  plain _ := trivial

instance (context : Context) : Receptive Progress.Computed context where
  computed h _ := h

/-- So are warnings at one path. -/
instance (path : String) : Composable (Progress.WarnedAt path) where
  refl _ := .of_eq rfl
  trans := .trans
  behind _ _ := trivial
  plain _ := trivial

instance (context : Context) : Receptive (Progress.WarnedAt context.pathText) context where
  computed _ h := h

/-- The effect of steps behind which, whether they succeed or fail, the progress stands in a
relation to the progress before them. -/
def always (relates : Progress → Progress → Prop) : Effect where
  relates := relates
  admits before _ after := relates before after

/-- Further imports and warnings may also stand where a step has failed. -/
instance : Tolerant (always Progress.Annotated) where
  annotated h := h
  trans := .trans
  behind := .trans
  plain _ := .refl _

/-- The effect admits errors about cursors as well, as long as they have no site. -/
def AdmitsCursors (effect : Effect) : Prop :=
  ∀ before name problem, effect.admits before ⟨.cursor name problem, none⟩ before

/-- What an effect says about failure: of success, only what a later failure needs. -/
def failures (effect : Effect) : Effect where
  relates before after :=
    ∀ error final, effect.admits after error final → effect.admits before error final
  admits := effect.admits

instance (effect : Effect) [composable : effect.Composable] : effect.failures.Composable where
  refl _ _ _ h := h
  trans h h' error final hadmits := h error final (h' error final hadmits)
  behind h := h _ _
  plain h := composable.plain h

instance (effect : Effect) [composable : effect.Composable] (context : Context)
    [receptive : effect.Receptive context] : effect.failures.Receptive context where
  computed h hpath _ _ := composable.behind (receptive.computed h hpath)

end Effect

namespace Lower

variable {α β : Type}

/-- A step, taken in a context, has an effect. -/
structure HasEffect (step : Lower α) (context : Context) (effect : Effect) : Prop where
  runs ⦃before : Progress⦄ ⦃result : α⦄ ⦃after : Progress⦄ :
    step.Runs context before result after → effect before after
  fails ⦃before : Progress⦄ ⦃error : Error⦄ ⦃after : Progress⦄ :
    step.Fails context before error after → effect.admits before error after

variable {context : Context} {effect : Effect}

namespace HasEffect

instance {step : Lower α} :
    CoeFun (step.HasEffect context effect) fun _ => ∀ ⦃before result after⦄,
      step.Runs context before result after → effect before after := ⟨runs⟩

/-- A step that only computes a value changes nothing but imports and warnings. -/
theorem annotated {step : Lower α} {before after : Progress} {result : α}
    (h : step.HasEffect context Progress.Annotated)
    (hruns : step.Runs context before result after) : before.Annotated after :=
  h hruns

theorem computes {step : Lower α} {before after : Progress} {result : α}
    (h : step.HasEffect context Progress.Computed)
    (hruns : step.Runs context before result after) : before.Computed after :=
  h hruns

/-- A step has the effects that are weaker than one of its effects. -/
theorem mono {step : Lower α} {weaker : Effect} (h : step.HasEffect context effect)
    (hweaker : ∀ {before after}, effect before after → weaker before after)
    (hadmits : ∀ {before error after}, effect.admits before error after →
      weaker.admits before error after) :
    step.HasEffect context weaker where
  runs _ _ _ hruns := hweaker (h hruns)
  fails _ _ _ hfails := hadmits (h.fails hfails)

/-- A step that never succeeds only has to report errors that are admitted. -/
theorem of_not_runs {step : Lower α}
    (hruns : ∀ {before result after}, ¬step.Runs context before result after)
    (hfails : ∀ {before error after}, step.Fails context before error after →
      effect.admits before error after) :
    step.HasEffect context effect where
  runs _ _ _ h := absurd h hruns
  fails _ _ _ := hfails

/-- A step that never fails has the effects that its success has. -/
theorem of_not_fails {step : Lower α}
    (hfails : ∀ {before error after}, ¬step.Fails context before error after)
    (hruns : ∀ {before result after}, step.Runs context before result after → effect before after) :
    step.HasEffect context effect where
  runs _ _ _ := hruns
  fails _ _ _ h := absurd h hfails

/-- Success and failure may be looked at apart. -/
theorem of_failures {step : Lower α} (h : step.HasEffect context effect.failures)
    (hruns : ∀ {before result after}, step.Runs context before result after → effect before after) :
    step.HasEffect context effect where
  runs _ _ _ := hruns
  fails _ _ _ hfails := h.fails hfails

theorem failures [effect.Composable] {step : Lower α} (h : step.HasEffect context effect) :
    step.HasEffect context effect.failures where
  runs _ _ _ hruns _ _ := Effect.Composable.behind (h hruns)
  fails _ _ _ hfails := h.fails hfails

/-- Where an effect admits all errors, only success is looked at. -/
theorem of_runs {step : Lower α} {relates : Progress → Progress → Prop}
    (hruns : ∀ {before result after}, step.Runs context before result after → relates before after) :
    step.HasEffect context relates where
  runs _ _ _ := hruns
  fails _ _ _ _ := trivial

end HasEffect

theorem HasEffect.execute {step : Lower α} {relates : Progress → Progress → Prop}
    (h : step.HasEffect context (.always relates)) (before : Progress) :
    relates before (step.execute context before).2 := by
  rcases runs_or_fails step context before with ⟨result, after, hruns⟩ | ⟨error, after, hfails⟩
  · have hafter : relates before after := h hruns
    rwa [hruns]
  · have hafter : relates before after := h.fails hfails
    rwa [hfails]

theorem hasEffect_within {change : Context → Context} {step : Lower α}
    (h : step.HasEffect (change context) effect) :
    (within change step).HasEffect context effect where
  runs _ _ _ hruns := h (runs_within.mp hruns)
  fails _ _ _ hfails := h.fails (fails_within.mp hfails)

/-- A site for the errors of a step, where errors at that site are admitted. -/
theorem hasEffect_located {step : Lower α} (h : step.HasEffect context effect)
    (hadmits : ∀ {before error after}, effect.admits before error after →
      effect.admits before (error.located context.procedure.name context.pathText) after) :
    (located step).HasEffect context effect where
  runs _ _ _ hruns := h (runs_located.mp hruns)
  fails _ _ _ hfails := by
    obtain ⟨inner, hinner, rfl⟩ := fails_located.mp hfails
    exact hadmits (h.fails hinner)

/-- What is done with the context is done with the one at hand. -/
theorem hasEffect_read_bind {next : Context → Lower α}
    (h : (next context).HasEffect context effect) :
    (read >>= next).HasEffect context effect where
  runs _ _ _ hruns := by
    obtain ⟨_, _, hread, hnext⟩ := runs_bind.mp hruns
    obtain ⟨rfl, rfl⟩ := runs_read.mp hread
    exact h hnext
  fails _ _ _ hfails := by
    obtain hread | ⟨_, _, hread, hnext⟩ := fails_bind.mp hfails
    · exact absurd hread not_fails_read
    · obtain ⟨rfl, rfl⟩ := runs_read.mp hread
      exact h.fails hnext

section Values

variable [effect.Composable]

/-! ## Sequences and primitive steps -/

@[simp]
theorem hasEffect_pure (value : α) : (pure value : Lower α).HasEffect context effect := by
  refine .of_not_fails not_fails_pure fun hruns => ?_
  obtain ⟨-, rfl⟩ := runs_pure.mp hruns
  exact Effect.Composable.refl _

/-- What follows a step only has to have the effect for what the step can yield. -/
theorem hasEffect_bind_of_runs {step : Lower α} {next : α → Lower β}
    (hstep : step.HasEffect context effect)
    (hnext : ∀ {before value middle}, step.Runs context before value middle →
      (next value).HasEffect context effect) : (step >>= next).HasEffect context effect where
  runs _ _ _ hruns := by
    obtain ⟨value, middle, hfirst, hsecond⟩ := runs_bind.mp hruns
    exact Effect.Composable.trans (hstep hfirst) (hnext hfirst hsecond)
  fails _ _ _ hfails := by
    obtain hfirst | ⟨value, middle, hfirst, hsecond⟩ := fails_bind.mp hfails
    · exact hstep.fails hfirst
    · exact Effect.Composable.behind (hstep hfirst) ((hnext hfirst).fails hsecond)

@[simp]
theorem hasEffect_bind {step : Lower α} {next : α → Lower β}
    (hstep : step.HasEffect context effect)
    (hnext : ∀ value, (next value).HasEffect context effect) :
    (step >>= next).HasEffect context effect :=
  hasEffect_bind_of_runs hstep fun _ => hnext _

@[simp]
theorem hasEffect_map (f : α → β) {step : Lower α} (h : step.HasEffect context effect) :
    (f <$> step).HasEffect context effect := by
  rw [map_eq_pure_bind]
  exact hasEffect_bind h fun _ => hasEffect_pure _

/-- A fault that is not about a cursor. -/
@[simp]
theorem hasEffect_fail {fault : Fault} (h : fault.concernsCursor = false) :
    (fail fault : Lower α).HasEffect context effect := by
  refine .of_not_runs not_runs_fail fun hfails => ?_
  obtain ⟨rfl, rfl⟩ := fails_fail.mp hfails
  exact Effect.Composable.plain h

@[simp]
theorem hasEffect_unsupported (construct detail : String) :
    (unsupported construct detail : Lower α).HasEffect context effect :=
  hasEffect_fail rfl

/-- What stands behind a failure is never done. -/
theorem hasEffect_unsupported_bind {next : α → Lower β} (construct detail : String) :
    (unsupported construct detail >>= next).HasEffect context effect := by
  refine .of_not_runs (fun hruns => ?_) fun hfails => ?_
  · obtain ⟨_, _, hfailure, -⟩ := runs_bind.mp hruns
    exact not_runs_unsupported hfailure
  · obtain hfailure | ⟨_, _, hfailure, -⟩ := fails_bind.mp hfails
    · exact (hasEffect_unsupported (α := α) construct detail).fails hfailure
    · exact absurd hfailure not_runs_unsupported

/-- A step that is only taken where a test holds, and what follows either way. -/
theorem hasEffect_when {test : Prop} [Decidable test] {step : Lower α} {next : Lower β}
    (hstep : step.HasEffect context effect) (hnext : next.HasEffect context effect) :
    (if test then step >>= fun _ => next else next).HasEffect context effect := by
  split
  · exact hasEffect_bind hstep fun _ => hnext
  · exact hnext

@[simp]
theorem hasEffect_read : (read : Lower Context).HasEffect context effect := by
  refine .of_not_fails not_fails_read fun hruns => ?_
  obtain ⟨-, rfl⟩ := runs_read.mp hruns
  exact Effect.Composable.refl _

@[simp]
theorem hasEffect_get : (get : Lower Progress).HasEffect context effect := by
  refine .of_not_fails not_fails_get fun hruns => ?_
  obtain ⟨-, rfl⟩ := runs_get.mp hruns
  exact Effect.Composable.refl _

@[simp]
theorem hasEffect_ofExcept {outcome : Except Fault α} (h : FailsPlainly outcome) :
    (ofExcept outcome).HasEffect context effect := by
  cases outcome with
  | ok value => exact hasEffect_pure value
  | error fault => exact hasEffect_fail (h fault rfl)

@[simp]
theorem hasEffect_lookup (name : String) : (lookup name).HasEffect context effect :=
  hasEffect_bind hasEffect_get fun _ => hasEffect_ofExcept (failsPlainly_lookup _ name)

@[simp]
theorem hasEffect_localName (base : String) : (localName base).HasEffect context effect :=
  hasEffect_bind hasEffect_get fun _ => hasEffect_pure _

@[simp]
theorem hasEffect_resultValues (status error : Go.Expr) :
    (resultValues status error).HasEffect context effect :=
  hasEffect_bind hasEffect_read fun _ => hasEffect_bind hasEffect_get fun _ => hasEffect_pure _

@[simp]
theorem hasEffect_checkJump (keyword : String) :
    (checkJump keyword).HasEffect context effect := by
  unfold checkJump
  refine hasEffect_bind hasEffect_read fun _ => ?_
  split
  · split <;> simp
  · simp

@[simp]
theorem hasEffect_handle : handle.HasEffect context effect :=
  hasEffect_bind hasEffect_read fun _ => hasEffect_bind hasEffect_get fun _ => hasEffect_pure _

@[simp]
theorem hasEffect_tableMethod (table : TableRef) (kind : DmlKind) (single : Bool) :
    (tableMethod table kind single).HasEffect context effect :=
  hasEffect_bind hasEffect_read fun _ => hasEffect_pure _

/-- An import only adds its specification. -/
theorem computed_importSpec {spec : String} (p : Progress) :
    p.Computed { p with imports := p.imports.addSpec spec } :=
  ⟨⟨rfl, rfl, rfl, rfl, rfl, fun _ hother => Go.mem_insertText.mpr (.inr hother),
    List.prefix_refl _⟩, rfl⟩

variable [sparing : effect.Sparing context]

/-- A warning names the path of the current statement. -/
theorem runs_warn {kind : WarningKind} {message : String} {before after : Progress}
    (h : (warn kind message).Runs context before () after) :
    after = { before with
      warnings := before.warnings ++ [⟨kind, context.pathText, message⟩] } := by
  obtain ⟨_, _, hread, hmodify⟩ := runs_bind.mp h
  obtain ⟨rfl, rfl⟩ := runs_read.mp hread
  exact runs_modify.mp hmodify

theorem annotated_warn {kind : WarningKind} {message : String} {before after : Progress}
    (h : (warn kind message).Runs context before () after) :
    before.Annotated after ∧ ∃ path, after.warnings = before.warnings ++ [⟨kind, path, message⟩] := by
  obtain rfl := runs_warn h
  exact ⟨⟨rfl, rfl, rfl, rfl, rfl, List.Subset.refl _, List.prefix_append _ _⟩, _, rfl⟩

theorem warnedAt_warn {kind : WarningKind} {message : String} {before after : Progress}
    (h : (warn kind message).Runs context before () after) :
    before.WarnedAt context.pathText after := by
  obtain rfl := runs_warn h
  exact ⟨_, rfl, by simp⟩

theorem not_fails_warn {kind : WarningKind} {message : String} {before after : Progress}
    {error : Error} : ¬(warn kind message).Fails context before error after := by
  simp [warn, fails_bind, not_fails_read, not_fails_modify]

@[simp]
theorem hasEffect_warn (kind : WarningKind) (message : String)
    (h : kind ≠ .fallbackBackend) : (warn kind message).HasEffect context effect := by
  refine .of_not_fails not_fails_warn fun hruns => ?_
  obtain ⟨hannotated, path, hwarnings⟩ := annotated_warn hruns
  refine sparing.computed ⟨hannotated, by simp [hwarnings, h]⟩ (warnedAt_warn hruns)
    (.of_eq ?_)
  rw [runs_warn hruns]

omit [effect.Composable] [effect.Sparing context] in
/-- A warning of any kind. -/
theorem hasEffect_anyWarning [effect.Tolerant] (kind : WarningKind) (message : String) :
    (warn kind message).HasEffect context effect :=
  .of_not_fails not_fails_warn fun hruns => Effect.Tolerant.annotated (annotated_warn hruns).1

/-! ## Computations -/

/-- The import of a package of computations. -/
theorem hasEffect_computingSpec {spec : String} (h : spec ∈ context.config.computingSpecs) :
    (importSpec spec).HasEffect context effect := by
  refine .of_not_fails not_fails_modify fun hruns => ?_
  obtain rfl := runs_modify.mp hruns
  refine sparing.computed (computed_importSpec _) (.of_eq rfl) fun other hother => ?_
  rcases Go.mem_insertText.mp hother with rfl | hold
  · exact .inr h
  · exact .inl hold

/-- A step that computes has the effects that its parts have. -/
theorem Calculates.hasEffect {step : Lower α}
    (h : step.Calculates context fun _ step => step.HasEffect context effect) :
    step.HasEffect context effect := by
  induction h with
  | part h => exact h
  | pure value => exact hasEffect_pure value
  | bind _ _ hstep hnext => exact hasEffect_bind hstep hnext
  | fault h => exact hasEffect_fail h
  | reads _ hnext => exact hasEffect_read_bind hnext
  | looks _ _ hnext => exact hasEffect_bind hasEffect_get hnext
  | importSpec h => exact hasEffect_computingSpec h
  | warn message h => exact hasEffect_warn _ message h

theorem hasEffect_computingPath {path : String} (h : path ∈ computingPaths) :
    (importPath path).HasEffect context effect :=
  (calculates_importPath h).hasEffect

@[simp]
theorem hasEffect_importRuntime : importRuntime.HasEffect context effect :=
  calculates_importRuntime.hasEffect

@[simp]
theorem hasEffect_importType (type : GoType) : (importType type).HasEffect context effect :=
  (calculates_importType type).hasEffect

@[simp]
theorem hasEffect_runtimeCall (function : String) (args : List Go.Expr) :
    (runtimeCall function args).HasEffect context effect :=
  (calculates_runtimeCall function args).hasEffect

/-- A conversion only imports what the target needs. -/
@[simp]
theorem hasEffect_coerce (value : Value) (target : GoType) :
    (coerce value target).HasEffect context effect :=
  (calculates_coerce value target).hasEffect

@[simp]
theorem hasEffect_renderQuery
    {build : Dialect → Resolver Go.Expr → Except Fault (Query Go.Expr)} (h : PlainBuild build) :
    (renderQuery build).HasEffect context effect := by
  unfold renderQuery
  refine hasEffect_bind hasEffect_read fun context => hasEffect_bind hasEffect_get fun p => ?_
  refine hasEffect_bind (hasEffect_ofExcept (h _ _ (plain_queryArgs context p))) fun _ => ?_
  split <;> simp

/-! ## Requests -/

@[simp]
theorem hasEffect_warnSkipped (message : String) :
    (warnSkipped message).HasEffect context effect :=
  hasEffect_warn _ _ (by decide)

/-- A field of a request is filled without writing anything. -/
@[simp]
theorem hasEffect_addField (part : String) (fields : Fields) (column : String) (expr : Expr) :
    (addField part fields column expr).HasEffect context effect := by
  unfold addField
  split
  · simp
  · split
    · simp
    next evaluate hevaluate =>
      refine hasEffect_bind (calculates_of_fieldValue?_eq_some hevaluate).hasEffect fun _ => ?_
      split <;> simp

@[simp]
theorem hasEffect_addFields (part : String) (fields : Fields) (columns : List (String × Expr)) :
    (addFields part fields columns).HasEffect context effect := by
  induction columns generalizing fields with
  | nil => exact hasEffect_pure _
  | cons column rest ih => exact hasEffect_bind (hasEffect_addField ..) ih

@[simp]
theorem hasEffect_addConditions (fields : Fields) (conditions : List Expr) :
    (addConditions fields conditions).HasEffect context effect := by
  induction conditions generalizing fields with
  | nil => exact hasEffect_pure _
  | cons condition rest ih =>
    unfold addConditions
    split <;> simp [ih]

@[simp]
theorem hasEffect_filterFields (filter : Option Expr) :
    (filterFields filter).HasEffect context effect :=
  hasEffect_addConditions _ _

@[simp]
theorem hasEffect_itemReads (items : List SelectItem) :
    (itemReads items).HasEffect context effect := by
  induction items with
  | nil => exact hasEffect_pure _
  | cons item rest ih =>
    obtain ⟨expr, aliasName, target⟩ := item
    cases target with
    | none =>
      unfold itemReads
      exact ih
    | some target =>
      unfold itemReads
      refine hasEffect_bind (hasEffect_lookup target) fun _ => ?_
      split
      · exact hasEffect_bind ih fun _ => hasEffect_pure _
      · exact hasEffect_bind (hasEffect_warnSkipped _) fun _ => ih

@[simp]
theorem hasEffect_warnJoins (joins : List Join) : (warnJoins joins).HasEffect context effect := by
  induction joins with
  | nil => exact hasEffect_pure _
  | cons join rest ih => exact hasEffect_bind (hasEffect_warnSkipped _) fun _ => ih

omit [effect.Sparing context] in
@[simp]
theorem hasEffect_outputVariable (arg : ExecArg) :
    (outputVariable arg).HasEffect context effect := by
  unfold outputVariable
  split <;> simp

@[simp]
theorem hasEffect_requestArgs (callee : String) (position : Nat) (fields : Fields) (reads : Reads)
    (args : List ExecArg) :
    (requestArgs callee position fields reads args).HasEffect context effect := by
  induction args generalizing position fields reads with
  | nil => exact hasEffect_pure _
  | cons arg rest ih =>
    unfold requestArgs
    dsimp only
    split
    · refine hasEffect_bind (hasEffect_pure _) fun field => ?_
      refine hasEffect_bind (hasEffect_addField _ _ field _) fun _ => ?_
      split <;> simp [ih]
    · refine hasEffect_bind (hasEffect_warn _ _ (by decide)) fun _ => ?_
      refine hasEffect_bind (hasEffect_pure _) fun field => ?_
      refine hasEffect_bind (hasEffect_addField _ _ field _) fun _ => ?_
      split <;> simp [ih]

omit [effect.Composable] in
/-- A table is sent to the backend of its configuration, with a warning if that is not the usual
one. -/
theorem runs_backendFor {table : TableRef} {before after : Progress} {backend : Backend}
    (h : (backendFor table).Runs context before backend after) :
    backend = (context.config.backendOf (some table)).1 ∧ before.Annotated after ∧
      forcings after.warnings = forcings before.warnings ++
        (if (context.config.backendOf (some table)).2 then [forcing table] else []) := by
  obtain ⟨c, _, hread, hnext⟩ := runs_bind.mp h
  obtain ⟨rfl, rfl⟩ := runs_read.mp hread
  generalize c.config.backendOf (some table) = choice at hnext ⊢
  obtain ⟨chosen, forced⟩ := choice
  cases forced with
  | true =>
    obtain ⟨_, _, hwarn, hpure⟩ := runs_bind.mp hnext
    obtain ⟨rfl, rfl⟩ := runs_pure.mp hpure
    obtain ⟨hannotated, path, hwarnings⟩ := annotated_warn hwarn
    refine ⟨rfl, hannotated, ?_⟩
    rw [hwarnings, forcings_append]
    rfl
  | false =>
    obtain ⟨rfl, rfl⟩ := runs_pure.mp hnext
    exact ⟨rfl, .refl _, (List.append_nil _).symm⟩

omit [effect.Composable] in
theorem hasEffect_backendFor [effect.Tolerant] (table : TableRef) :
    (backendFor table).HasEffect context effect := by
  refine .of_not_fails (fun hfails => ?_) fun hruns =>
    Effect.Tolerant.annotated (runs_backendFor hruns).2.1
  obtain hread | ⟨read, _, -, hnext⟩ := fails_bind.mp hfails
  · exact not_fails_read hread
  · generalize read.config.backendOf (some table) = choice at hnext
    obtain ⟨chosen, _ | _⟩ := choice
    · exact not_fails_pure hnext
    · obtain hwarn | ⟨_, _, -, hpure⟩ := fails_bind.mp hnext
      · exact not_fails_warn hwarn
      · exact not_fails_pure hpure

omit [effect.Sparing context] in
@[simp]
theorem hasEffect_goNames (names : List String) : (goNames names).HasEffect context effect := by
  induction names with
  | nil => exact hasEffect_pure _
  | cons name rest ih =>
    refine hasEffect_bind (hasEffect_lookup name) fun _ => ?_
    exact hasEffect_bind ih fun _ => hasEffect_pure _

@[simp]
theorem hasEffect_rowValue (value : Value) : (rowValue value).HasEffect context effect := by
  unfold rowValue
  split <;> simp

omit [effect.Sparing context] in
@[simp]
theorem hasEffect_outputTargets (args : List ExecArg) :
    (outputTargets args).HasEffect context effect := by
  induction args with
  | nil => exact hasEffect_pure _
  | cons arg rest ih =>
    unfold outputTargets
    split
    · refine hasEffect_bind (hasEffect_outputVariable arg) fun _ => ?_
      exact hasEffect_bind ih fun _ => hasEffect_pure _
    · exact ih

/-! ## Cursors -/

omit [effect.Sparing context] in
@[simp]
theorem hasEffect_iteratorName (cursor : String) :
    (iteratorName cursor).HasEffect context effect :=
  hasEffect_localName _

section Admitted

variable (hadmits : effect.AdmitsCursors)

include hadmits

omit [effect.Composable] in
@[simp]
theorem hasEffect_cursorFault (cursor : String) (problem : CursorProblem) :
    (cursorFault cursor problem : Lower α).HasEffect context effect := by
  refine .of_not_runs not_runs_fail fun hfails => ?_
  obtain ⟨rfl, rfl⟩ := fails_fail.mp hfails
  exact hadmits _ cursor problem.message

omit [effect.Sparing context] in
/-- A pure step that may fail because of a cursor. -/
theorem hasEffect_ofExcept_cursor (outcome : Except Fault α) :
    (ofExcept outcome).HasEffect context effect := by
  cases outcome with
  | ok value => exact hasEffect_pure value
  | error fault =>
    cases fault with
    | cursor name problem =>
      refine .of_not_runs not_runs_fail fun hfails => ?_
      obtain ⟨rfl, rfl⟩ := fails_fail.mp hfails
      exact hadmits _ name problem
    | _ => exact hasEffect_fail rfl

omit [effect.Sparing context] in
@[simp]
theorem hasEffect_getCursor (name : String) : (getCursor name).HasEffect context effect :=
  hasEffect_bind hasEffect_get fun _ => hasEffect_ofExcept_cursor hadmits _

omit [effect.Sparing context] in
@[simp]
theorem hasEffect_fetchIterator (fetch : Fetch) :
    (fetchIterator fetch).HasEffect context effect := by
  unfold fetchIterator
  dsimp only
  split
  · exact hasEffect_unsupported_bind _ _
  · refine hasEffect_bind (hasEffect_getCursor hadmits _) fun _ => ?_
    split
    · exact hasEffect_bind (hasEffect_cursorFault hadmits _ _) fun _ => hasEffect_pure _
    · exact hasEffect_pure _

end Admitted

omit [effect.Composable] in
/-- A pure step changes nothing, whatever it may fail with. -/
theorem annotated_ofExcept (outcome : Except Fault α) :
    (ofExcept outcome).HasEffect context Progress.Annotated :=
  hasEffect_ofExcept_cursor (fun _ _ _ => trivial) outcome

/-! ## Signatures -/

@[simp]
theorem hasEffect_symbolFields (kind : SymbolKind) :
    (symbolFields kind).HasEffect context effect := by
  have himports (symbols : List Symbol) :
      (symbols.forM fun symbol => importType symbol.type.go).HasEffect context effect := by
    induction symbols with
    | nil => exact hasEffect_pure _
    | cons symbol rest ih => exact hasEffect_bind (hasEffect_importType _) fun _ => ih
  exact hasEffect_bind hasEffect_get fun _ =>
    hasEffect_bind (himports _) fun _ => hasEffect_pure _

@[simp]
theorem hasEffect_functionResults : functionResults.HasEffect context effect := by
  refine hasEffect_bind hasEffect_read fun _ => ?_
  exact hasEffect_bind (hasEffect_symbolFields _) fun _ => hasEffect_pure _

/-! ## Other packages -/

section Receptive

variable [receptive : effect.Receptive context]

omit [effect.Sparing context]

@[simp]
theorem hasEffect_importSpec (spec : String) : (importSpec spec).HasEffect context effect := by
  refine .of_not_fails not_fails_modify fun hruns => ?_
  obtain rfl := runs_modify.mp hruns
  exact receptive.computed (computed_importSpec _) (.of_eq rfl)

@[simp]
theorem hasEffect_importPath (path : String) : (importPath path).HasEffect context effect :=
  hasEffect_importSpec (Text.pathLiteral path)

@[simp]
theorem hasEffect_rpcPackage : rpcPackage.HasEffect context effect :=
  hasEffect_bind hasEffect_read fun _ =>
    hasEffect_bind (hasEffect_importSpec _) fun _ => hasEffect_pure _

@[simp]
theorem hasEffect_mockPackage : mockPackage.HasEffect context effect :=
  hasEffect_bind hasEffect_read fun _ =>
    hasEffect_bind (hasEffect_importSpec _) fun _ => hasEffect_pure _

@[simp]
theorem hasEffect_remoteCall (backend : Backend) (client : ClientRef) (method : String)
    (fields : Fields) : (remoteCall backend client method fields).HasEffect context effect := by
  unfold remoteCall
  split <;> simp

@[simp]
theorem hasEffect_requestRowsOf (query : Select) (table : TableRef) :
    (requestRowsOf query table).HasEffect context effect := by
  unfold requestRowsOf
  refine hasEffect_bind (hasEffect_filterFields _) fun _ => ?_
  refine hasEffect_bind hasEffect_read fun _ => ?_
  exact hasEffect_bind (hasEffect_remoteCall _ _ _ _) fun _ => hasEffect_pure _

@[simp]
theorem hasEffect_iteratorType (backend : Backend) :
    (iteratorType backend).HasEffect context effect := by
  unfold iteratorType
  split <;> simp

@[simp]
theorem hasEffect_rowsCall (cursor : Cursor) : (rowsCall cursor).HasEffect context effect := by
  unfold rowsCall
  split <;> simp

@[simp]
theorem hasEffect_databaseParams : databaseParams.HasEffect context effect := by
  refine hasEffect_bind hasEffect_read fun _ => ?_
  split <;> simp

@[simp]
theorem hasEffect_clientParams : clientParams.HasEffect context effect := by
  refine hasEffect_bind hasEffect_read fun _ => ?_
  dsimp only
  split <;> simp

@[simp]
theorem hasEffect_storeParams : storeParams.HasEffect context effect := by
  refine hasEffect_bind hasEffect_read fun _ => ?_
  split <;> simp

@[simp]
theorem hasEffect_functionParams : functionParams.HasEffect context effect := by
  refine hasEffect_bind (hasEffect_importPath _) fun _ => ?_
  refine hasEffect_bind hasEffect_databaseParams fun _ => ?_
  refine hasEffect_bind hasEffect_clientParams fun _ => ?_
  refine hasEffect_bind hasEffect_storeParams fun _ => ?_
  exact hasEffect_bind (hasEffect_symbolFields _) fun _ => hasEffect_pure _

end Receptive

end Values

/-! ## Expressions -/

/-- All queries inside expressions have an effect. -/
structure QueriesHaveEffect (context : Context) (effect : Effect) : Prop where
  probe (query : Select) : (hoistExists query).HasEffect context effect
  scalar (query : Select) (table : TableRef) (hint : Option GoType) :
    (hoistScalar query table hint).HasEffect context effect

theorem QueriesHaveEffect.queriesIn (h : QueriesHaveEffect context effect) (exprs : List Expr) :
    QueriesIn exprs fun _ step => step.HasEffect context effect where
  probe _ := h.probe _
  scalar hint _ _ := h.scalar _ _ hint

/-- All expressions have the effects that queries have. -/
theorem hasEffect_lowerExpr [effect.Composable] [effect.Sparing context]
    (h : QueriesHaveEffect context effect) (expr : Expr) (hint : Option GoType) :
    (lowerExpr expr hint).HasEffect context effect :=
  (calculates_lowerExpr expr (h.queriesIn _) hint).hasEffect

theorem hasEffect_lowerValue [effect.Composable] [effect.Sparing context]
    (h : QueriesHaveEffect context effect) (expr : Expr) (target : GoType) :
    (lowerValue expr target).HasEffect context effect :=
  (calculates_lowerValue expr (h.queriesIn _) target).hasEffect

/-- A condition that depends on no query has every effect that computations have. -/
theorem hasEffect_unhoisted [effect.Composable] [effect.Sparing context] {condition : Expr}
    (h : condition.needsHoist = false) : (lowerCondition condition).HasEffect context effect :=
  (calculates_lowerValue condition (.of_unhoisted h) .bool).hasEffect

/-- It writes nothing. -/
theorem annotated_lowerCondition {condition : Expr} (h : condition.needsHoist = false) :
    (lowerCondition condition).HasEffect context Progress.Annotated :=
  hasEffect_unhoisted h

/-- Evaluating an expression that depends on no query adds nothing but imports and warnings, whether
it succeeds or fails: no statement is written, and the variables, the generated names with their
counters, the cursors and what is known about the transaction are as before. This holds for the
plain evaluation, for a condition, and for a value of any type. Where the current statement stands,
and in which loops and halves of `TRY` statements, no step can change. -/
theorem unhoisted_leaves_progress {expr : Expr} (h : expr.needsHoist = false) (context : Context)
    (before : Progress) (hint : Option GoType) (target : GoType) :
    before.Annotated ((lowerExpr expr hint).execute context before).2 ∧
    before.Annotated ((lowerCondition expr).execute context before).2 ∧
    before.Annotated ((lowerValue expr target).execute context before).2 := by
  have hqueries : QueriesIn expr.walk fun _ step =>
      step.HasEffect context (.always Progress.Annotated) := .of_unhoisted h
  exact ⟨(calculates_lowerExpr expr hqueries hint).hasEffect.execute before,
    (calculates_lowerValue expr hqueries .bool).hasEffect.execute before,
    (calculates_lowerValue expr hqueries target).hasEffect.execute before⟩

/-- A comparison whose left side imports a package and whose right side is an unknown variable
fails, and leaves behind only the imports. -/
theorem unknown_leaves_progress :
    let expr : Expr := .binary .eq (.function "UPPER" [.literal (.string "a")]) (.variable "@b")
    let context : Context :=
      { config := {}, procedure := { name := "usp_Sample" }, functionName := "Sample", verb := none,
        survey := {} }
    let outcome := (lowerCondition expr).execute context {}
    expr.needsHoist = false ∧ outcome.1.isOk = false ∧
      outcome.2.imports.specs = ["\"strings\""] ∧ Progress.Annotated {} outcome.2 := by
  have hhoist : (Expr.binary .eq (.function "UPPER" [.literal (.string "a")])
      (.variable "@b")).needsHoist = false := by
    decide
  refine ⟨hhoist, by decide +kernel, by decide +kernel, ?_⟩
  exact (unhoisted_leaves_progress hhoist _ _ none .bool).2.1

end Lower

end Sproc
