import Sproc.Proofs.Lower.Placement

/-!
# Declarations inside Go blocks

The survey of a procedure counts the Go blocks that the statements will open: a declaration inside
a conditional, a loop or a `TRY` statement is moved to function entry, and one inside `BEGIN` and
`END` alone is not. This module shows that the survey is right. The layers of a spot are the blocks
that have been opened around a statement, and there are some exactly when the survey has counted one.
So the declarations that stand inside layers have all been moved, and statements inside layers leave
the variables of the procedure as they are.

## Main definitions

* `Procedure.Nests`: whether a statement stands in a Go block
* `Procedure.Hoists`: a declaration of a name stands in a Go block

## Main results

* `Procedure.isHoisted_iff`: the names that are declared at function entry
* `Procedure.Stands.nests`: the layers of a spot are the Go blocks around its statements
* `Procedure.Stands.moved`: declarations inside layers have been moved
* `Frame.Step.symbols_eq`, `Opens.symbols_eq`: statements without other declarations leave the
  variables as they are
-/

namespace Sproc

open Lower

/-! ## Nesting in the source -/

namespace Statement

/-- Whether a statement holds others without opening a Go block for them. -/
def isBlock : Statement → Bool
  | block _ => true
  | _ => false

/-- Whether a statement holds others in function literals. -/
def isTry : Statement → Bool
  | tryCatch _ _ => true
  | _ => false

variable {config : Config} {inBlock inClosure : Bool} {name : String} {statement : Statement}

theorem hoist_notMem_exprNeeds (config : Config) (name : String) (s : Statement) :
    Need.hoist name ∉ s.exprNeeds config := by
  have hexpr (inGo : Bool) (expr : Expr) : Need.hoist name ∉ expr.needs config inGo := by
    unfold Expr.needs sourceNeeds TableRef.need
    grind
  simp [exprNeeds, hexpr]

theorem hoist_mem_ownNeeds_iff :
    Need.hoist name ∈ statement.ownNeeds config inBlock inClosure ↔
      inBlock = true ∧ ∃ vars, statement = declare vars ∧ ∃ var ∈ vars, var.name = name := by
  unfold ownNeeds sourceNeeds TableRef.need execNeed
  split <;> grind

theorem exists_part_iff {P : List Statement → Prop} :
    (∃ part body, statement.part? part = some body ∧ P body) ↔ ∃ body ∈ statement.children, P body := by
  constructor
  · rintro ⟨part, body, hpart, hbody⟩
    exact ⟨body, mem_children_of_part? hpart, hbody⟩
  · rintro ⟨body, hmem, hbody⟩
    suffices h : ∃ part, statement.part? part = some body by
      obtain ⟨part, hpart⟩ := h
      exact ⟨part, body, hpart, hbody⟩
    cases statement with
    | ifElse condition thenBranch elseBranch =>
      rcases List.mem_cons.mp hmem with rfl | helse
      · exact ⟨.thenBranch, rfl⟩
      · exact ⟨.elseBranch, Option.mem_toList.mp helse⟩
    | «while» | block => exact ⟨.body, congrArg some (List.mem_singleton.mp hmem).symm⟩
    | tryCatch tryBody catchBody =>
      rcases List.mem_pair.mp hmem with rfl | rfl
      · exact ⟨.tryHalf, rfl⟩
      · exact ⟨.catchHalf, rfl⟩
    | _ => cases hmem

/-- A statement needs something by itself, or a statement inside needs it. -/
theorem mem_needs_iff {need : Need} :
    need ∈ statement.needs config inBlock inClosure ↔
      (need ∈ statement.exprNeeds config ∨ need ∈ statement.ownNeeds config inBlock inClosure) ∨
        ∃ part body, statement.part? part = some body ∧ ∃ inner ∈ body, need ∈
          inner.needs config (inBlock || !statement.isBlock) (inClosure || statement.isTry) := by
  rw [exists_part_iff]
  cases statement with
  | ifElse condition thenBranch elseBranch =>
    cases elseBranch <;>
      simp [needs, elseNeeds, ownNeeds, children, mem_listNeeds, isBlock, isTry]
  | «while» => simp [needs, ownNeeds, children, mem_listNeeds, isBlock, isTry]
  | block | tryCatch =>
    simp [needs, exprNeeds, ownExprs, ownNeeds, children, mem_listNeeds, isBlock, isTry]
  | _ =>
    rw [needs_of_children_eq_nil rfl, List.mem_append]
    simp [children]

/-- A name is to be declared at function entry on account of a statement that declares it in a Go
block, or of a statement inside. -/
theorem hoist_mem_needs_iff :
    Need.hoist name ∈ statement.needs config inBlock inClosure ↔
      (inBlock = true ∧ ∃ vars, statement = declare vars ∧ ∃ var ∈ vars, var.name = name) ∨
        ∃ part body, statement.part? part = some body ∧ ∃ inner ∈ body, Need.hoist name ∈
          inner.needs config (inBlock || !statement.isBlock) (inClosure || statement.isTry) := by
  rw [mem_needs_iff, hoist_mem_ownNeeds_iff]
  simp [hoist_notMem_exprNeeds]

end Statement

/-- A statement stands in a procedure, and this tells whether it stands in a Go block there. -/
inductive Procedure.Nests (procedure : Procedure) : Bool → Statement → Prop
  | body {statement : Statement} : statement ∈ procedure.body → Nests procedure false statement
  | part {inBlock : Bool} {outer inner : Statement} {part : Part} {statements : List Statement} :
    Nests procedure inBlock outer → outer.part? part = some statements → inner ∈ statements →
    Nests procedure (inBlock || !outer.isBlock) inner

/-- Some declaration of a variable stands in a Go block. The variable is given by its key. -/
def Procedure.Hoists (procedure : Procedure) (key : String) : Prop :=
  ∃ vars, procedure.Nests true (.declare vars) ∧ ∃ var ∈ vars, foldName var.name = key

namespace Procedure

variable {procedure : Procedure} {config : Config} {inBlock inClosure : Bool} {name : String}
  {statement : Statement}

/-- The survey finds a declaration in a Go block. -/
theorem Nests.hoist_mem (h : procedure.Nests inBlock statement) (config : Config) :
    ∃ inClosure, ∀ name, Need.hoist name ∈ statement.needs config inBlock inClosure →
      Need.hoist name ∈ Statement.listNeeds config false false procedure.body := by
  induction h with
  | body hmem =>
    exact ⟨false, fun name hname => Statement.mem_listNeeds.mpr ⟨_, hmem, hname⟩⟩
  | @part inBlock outer inner part statements _ hpart hmem ih =>
    obtain ⟨inClosure, houter⟩ := ih
    refine ⟨inClosure || outer.isTry, fun name hname => houter name ?_⟩
    exact Statement.hoist_mem_needs_iff.mpr (.inr ⟨part, statements, hpart, inner, hmem, hname⟩)

/-- What the survey finds is a declaration in a Go block. -/
theorem Nests.exists_declare (h : procedure.Nests inBlock statement)
    (hhoist : Need.hoist name ∈ statement.needs config inBlock inClosure) :
    ∃ vars, procedure.Nests true (.declare vars) ∧ ∃ var ∈ vars, var.name = name := by
  induction statement using Statement.childInduction generalizing inBlock inClosure with
  | step statement ih =>
    rcases Statement.hoist_mem_needs_iff.mp hhoist with
      ⟨rfl, vars, rfl, hvar⟩ | ⟨part, body, hpart, inner, hinner, hneeds⟩
    · exact ⟨vars, h, hvar⟩
    · exact ih body (Statement.mem_children_of_part? hpart) inner hinner
        (h.part hpart hinner) hneeds

/-- What is nested in a statement in a Go block stands in a Go block as well. -/
theorem Nests.nested {inner : Statement} (h : procedure.Nests true statement)
    (hinner : inner ∈ statement.nested) : procedure.Nests true inner := by
  induction statement using Statement.childInduction with
  | step statement ih =>
    rcases Statement.mem_nested hinner with rfl | ⟨part, statements, hpart, s, hs, hnested⟩
    · exact h
    · exact ih statements (Statement.mem_children_of_part? hpart) s hs (h.part hpart hs) hnested

theorem Nests.mem_statements (h : procedure.Nests inBlock statement) :
    statement ∈ procedure.statements := by
  suffices hnested : ∀ inner ∈ statement.nested, inner ∈ procedure.statements from
    hnested _ statement.mem_nested_self
  induction h with
  | body hmem => exact fun inner hinner => Statement.mem_nestedList.mpr ⟨_, hmem, hinner⟩
  | part _ hpart hmem ih =>
    intro inner hinner
    refine ih inner ?_
    exact Statement.mem_nested_of_mem_children (Statement.mem_children_of_part? hpart) hmem hinner

/-- The names of the variables that are declared at function entry. -/
theorem mem_hoisted_iff : name ∈ (Survey.ofProcedure config procedure).hoisted ↔
    ∃ vars, procedure.Nests true (.declare vars) ∧ ∃ var ∈ vars, var.name = name := by
  have hdefault (param : Parameter) : Need.hoist name ∉ Survey.defaultNeeds config param :=
    Statement.hoist_notMem_exprNeeds config name (.ret param.default)
  have hhoist : name ∈ (Survey.ofProcedure config procedure).hoisted ↔
      Need.hoist name ∈ Statement.listNeeds config false false procedure.body := by
    simp only [Survey.ofProcedure, Survey.ofNeeds, List.mem_filterMap, List.mem_append,
      List.mem_flatMap]
    constructor
    · rintro ⟨need, hneed | hneed, hname⟩
      · obtain ⟨param, -, hneed⟩ := hneed
        split at hname
        · obtain rfl := Option.some.inj hname
          exact absurd hneed (hdefault param)
        · cases hname
      · split at hname
        · obtain rfl := Option.some.inj hname
          exact hneed
        · cases hname
    · exact fun hneed => ⟨.hoist name, .inr hneed, rfl⟩
  rw [hhoist]
  constructor
  · intro h
    obtain ⟨s, hs, hneeds⟩ := Statement.mem_listNeeds.mp h
    exact (Nests.body hs).exists_declare hneeds
  · rintro ⟨vars, hnests, hvar⟩
    obtain ⟨inClosure, hmem⟩ := hnests.hoist_mem config
    refine hmem name ?_
    exact Statement.hoist_mem_needs_iff.mpr (.inl ⟨rfl, vars, rfl, hvar⟩)

/-- A variable is declared at function entry when some declaration of it stands in a Go block. -/
theorem isHoisted_iff : (Survey.ofProcedure config procedure).isHoisted name = true ↔
    procedure.Hoists (foldName name) := by
  simp only [Survey.isHoisted, List.any_eq_true, beq_iff_eq, mem_hoisted_iff, Hoists]
  constructor
  · rintro ⟨_, ⟨vars, hnests, var, hvar, rfl⟩, hkey⟩
    exact ⟨vars, hnests, var, hvar, hkey⟩
  · rintro ⟨vars, hnests, var, hvar, hkey⟩
    exact ⟨var.name, ⟨vars, hnests, var, hvar, rfl⟩, hkey⟩

/-- A variable that is declared at function entry has a type there. -/
theorem isSome_declaredType? (h : name ∈ (Survey.ofProcedure config procedure).hoisted) :
    (declaredType? procedure.statements name).isSome := by
  obtain ⟨vars, hnests, var, hvar, rfl⟩ := mem_hoisted_iff.mp h
  rw [declaredType?, List.findSome?_isSome_iff]
  refine ⟨.declare vars, hnests.mem_statements, ?_⟩
  rw [Option.isSome_map, List.find?_isSome]
  exact ⟨var, hvar, beq_self_eq_true _⟩

end Procedure

/-! ## Statements that declare nothing -/

/-- All declarations inside of a statement are those of variables that are declared at function
entry. -/
def Statement.Moved (survey : Survey) (s : Statement) : Prop :=
  ∀ vars, .declare vars ∈ s.nested → ∀ var ∈ vars, survey.isHoisted var.name = true

/-- The scheme that keeps the variables as they are. It is about declarations of variables that are
declared at function entry. -/
def Scheme.constant (survey : Survey) (table : SymbolTable) : Scheme where
  covers c := c.survey = survey
  keeps symbols := symbols = table
  writes _ _ := True
  admits var := survey.isHoisted var.name = true

theorem Scheme.permissive_constant (survey : Survey) (table : SymbolTable) (c : Context) :
    ((constant survey table).discipline c).Permissive :=
  fun _ => trivial

theorem Scheme.closed_constant (survey : Survey) (table : SymbolTable) :
    (constant survey table).Closed := by
  refine closed_of_permissive (permissive_constant survey table) ?_ ?_
  · exact fun _ hsurvey hc => hsurvey.trans hc
  · intro c vars hc hadmits
    refine hasEffect_lowerDeclares_hoisted (permissive_constant survey table c).regular.forms ?_
    exact fun var hvar => hc ▸ hadmits var hvar

/-- A part that a statement opens keeps what the statement keeps. -/
theorem Opens.keeps {S : Scheme} (closed : S.Closed) {c : Context} {prepared : Option Fetch}
    {p : Progress} {statement : Statement} {part : Part} {inner : Frame} (hc : S.covers c)
    (hadmits : ∀ vars, .declare vars ∈ statement.nested → ∀ var ∈ vars, S.admits var)
    (h : Opens c prepared p statement part inner) (hkeeps : S.keeps p.symbols) :
    S.keeps inner.progress.symbols := by
  have hcovers {c' : Context} (hprocedure : c'.procedure = c.procedure)
      (hsurvey : c'.survey = c.survey) : S.covers c' := closed.covers_of hprocedure hsurvey hc
  have hchild {body : List Statement} (hbody : body ∈ statement.children) :
      ∀ vars, .declare vars ∈ Statement.nestedList body → ∀ var ∈ vars, S.admits var := by
    intro vars hvars
    obtain ⟨s, hs, hnested⟩ := Statement.mem_nestedList.mp hvars
    exact hadmits vars (Statement.mem_nested_of_mem_children hbody hs hnested)
  have hregular {c' : Context} (hc' : S.covers c') : (S.discipline c').Regular c' :=
    closed.regular hc'
  cases h with
  | thenBranch htest => exact (hasEffect_lowerCondition (hregular hc).forms _ htest hkeeps).1
  | elseBranch htest hthen =>
    have htested := (hasEffect_lowerCondition (hregular hc).forms _ htest hkeeps).1
    obtain ⟨final, hbranch, -, rfl⟩ := runs_block.mp hthen
    have henter : S.covers (c.enter 0) := hcovers rfl rfl
    have hbranch := hasEffect_lowerStatements_admitted closed henter 0 none
      (hchild List.mem_cons_self) (runs_within.mp hbranch) htested
    dsimp only [elseStart]
    split <;> exact hbranch.1
  | loop _ _ htest => exact (hasEffect_lowerCondition (hregular hc).forms _ htest hkeeps).1
  | testedLoop _ _ htest =>
    have hloop : S.covers c.enterLoop := hcovers rfl rfl
    have hinside : 0 < c.enterLoop.loops := Nat.succ_pos _
    exact (hasEffect_emitLoopTest (hregular hloop).forms _
      (hasEffect_emitBreak (closed.breakLoop hinside)) htest hkeeps).1
  | @cursorLoop _ _ _ fetch _ _ _ _ _ _ _ hiterator htargets hround =>
    obtain ⟨rfl, -⟩ := reads_of_runs hiterator htargets
    have hloop : S.covers (inCursorLoop fetch (c.enter 0)) := hcovers rfl rfl
    have hinside : 0 < (inCursorLoop fetch (c.enter 0)).loops := Nat.succ_pos _
    exact (hasEffect_emitRound (hregular hloop).forms _ _ _
      (hasEffect_emitBreak (closed.breakLoop hinside)) hround hkeeps).1
  | block => exact hkeeps
  | @catchHalf _ catchBody _ _ _ hflag hstart =>
    have hflagged := (hasEffect_returnFlag? (hregular hc).forms _ hflag hkeeps).1
    have hstarts : (emitHandlerStart catchBody).HasEffect c (S.discipline (inHandler c)).effect :=
      hasEffect_emitHandlerStart (closed.basic _) (fun hcounts => by cases hcounts.2) _
    exact (hstarts hstart hflagged).1
  | @tryHalf _ catchBody flag _ _ hflag hrecover =>
    have hflagged := (hasEffect_returnFlag? (hregular hc).forms _ hflag hkeeps).1
    have hhandler := hasEffect_lowerStatements_admitted closed (closed.covers_inHandler hc) 0 none
      (hchild (List.mem_cons_of_mem _ List.mem_cons_self))
    have hrecovers : (emitRecover catchBody (lowerStatements 0 none catchBody)).HasEffect c
        (S.discipline (inTry flag c)).effect := hasEffect_emitRecover closed catchBody hhandler
    exact (hrecovers hrecover hflagged).1

/-- Statements whose declarations have been moved leave the variables as they are. -/
theorem Frame.Step.symbols_eq {frame next : Frame} {statement : Statement} {rest : List Statement}
    (h : frame.Step next) (hstatements : frame.statements = statement :: rest)
    (hmoved : statement.Moved frame.context.survey) :
    next.progress.symbols = frame.progress.symbols := by
  cases h with
  | @mk c index prepared prepared' s rest p after hruns =>
    obtain ⟨rfl, rfl⟩ := List.cons.inj hstatements
    have hrespects := respects (Scheme.closed_constant c.survey p.symbols) s hmoved
    exact (hrespects.whole (c := c.enter index) rest prepared rfl hruns rfl).1

theorem Opens.symbols_eq {c : Context} {prepared : Option Fetch} {p : Progress}
    {statement : Statement} {part : Part} {inner : Frame} (hmoved : statement.Moved c.survey)
    (h : Opens c prepared p statement part inner) : inner.progress.symbols = p.symbols :=
  h.keeps (Scheme.closed_constant c.survey p.symbols) rfl hmoved rfl

/-! ## Nesting in the code -/

namespace Procedure.Stands

variable {procedure : Procedure} {config : Config} {frame next inner : Frame} {spot : Go.Spot}

theorem survey_eq (h : procedure.Stands config frame spot) :
    frame.context.survey = .ofProcedure config procedure := by
  induction h with
  | body hbegins =>
    obtain ⟨functionName, verb, hcontext⟩ := Context.start_eq_ok hbegins.1
    rw [hcontext]
  | behind _ hstep _ ih => rwa [hstep.context_eq]
  | into _ _ hopens _ _ _ _ _ ih => cases hopens <;> exact ih

/-- The layers of a spot are the Go blocks around its statements. -/
theorem nests (h : procedure.Stands config frame spot) :
    ∀ statement ∈ frame.statements, procedure.Nests (!spot.layers.isEmpty) statement := by
  induction h with
  | body hbegins => exact fun statement hmem => .body (hbegins.2.2.2.2 ▸ hmem)
  | behind _ hstep _ ih =>
    cases hstep with
    | mk => exact fun statement hmem => ih statement (List.mem_cons_of_mem _ hmem)
  | @into frame next inner spot place outer rest part code others _ hstatements hopens hencloses
      _ _ _ _ ih =>
    intro statement hmem
    have houter := ih outer (hstatements ▸ List.mem_cons_self)
    have hinner := houter.part hopens.part?_eq hmem
    cases hencloses with
    | block => simpa [Statement.isBlock, Go.Spot.inside, Go.Spot.before] using hinner
    | _ => simpa [Statement.isBlock, Go.Spot.inside, Go.Spot.widen] using hinner

/-- Declarations inside layers have been moved to function entry. -/
theorem moved (h : procedure.Stands config frame spot) (hlayers : spot.layers ≠ [])
    {s : Statement} (hs : s ∈ frame.statements) : s.Moved frame.context.survey := by
  have hnests : procedure.Nests true s := by
    simpa [List.isEmpty_eq_false_iff.mpr hlayers] using h.nests s hs
  intro vars hvars var hvar
  rw [h.survey_eq, isHoisted_iff]
  exact ⟨vars, hnests.nested hvars, var, hvar, rfl⟩

/-- Declarations inside of a statement have been moved to function entry, unless it opens no Go
block. -/
theorem moved_inside (h : procedure.Stands config frame spot) {s : Statement}
    (hs : s ∈ frame.statements) (hblock : ∀ body, s ≠ .block body)
    (hdeclare : ∀ vars, s ≠ .declare vars) : s.Moved frame.context.survey := by
  have hblock : s.isBlock = false := by
    cases s with
    | block body => exact absurd rfl (hblock body)
    | _ => rfl
  intro vars hvars var hvar
  rw [h.survey_eq, isHoisted_iff]
  rcases Statement.mem_nested hvars with heq | ⟨part, statements, hpart, inner, hinner, hnested⟩
  · exact absurd heq.symm (hdeclare vars)
  · have hnests := (h.nests s hs).part hpart hinner
    rw [hblock, Bool.not_false, Bool.or_true] at hnests
    exact ⟨vars, hnests.nested hnested, var, hvar, rfl⟩

end Procedure.Stands

end Sproc
