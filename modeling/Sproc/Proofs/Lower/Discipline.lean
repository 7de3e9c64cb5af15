import Sproc.Proofs.Lower.Regular

/-!
# Disciplines

A discipline is an invariant of the progress together with a condition on the statements that are
written and one on the errors that are reported. Steps are put together from few forms: plain
statements, conditionals, and the way out for a failure. The effect of a discipline that admits these
forms is regular, so the discipline is respected by every data statement, whatever backend the
statement goes to.

## Main definitions

* `Discipline`, `Discipline.effect`
* `Discipline.Basic`, `Discipline.Regular`: a discipline admits the forms that data statements are
  written in
* `Discipline.Lasting`, `Discipline.IgnoresCursors`, `Discipline.IgnoresTransaction`: declarations of
  variables, uses of cursors and transactions do not matter
* `Discipline.Jumping`: a discipline admits the forms of all statements that hold no others
* `Go.Arm.body`

## Main results

* `hasEffect_within_block_bind`: a Go block and what is done with it
* `Discipline.Regular.forms`: the effect of a regular discipline is regular
* `Discipline.Permissive.lowerLeaf`: statements that hold no others respect permissive disciplines
-/

namespace Sproc

namespace Go

/-- What an arm does when its test holds. -/
def Arm.body : Arm → List Stmt
  | .mk _ _ body => body

@[simp]
theorem Arm.body_mk (init : Option Assign) (test : Expr) (body : List Stmt) :
    (Arm.mk init test body).body = body := rfl

/-- Statements that are made of plain statements and conditionals alone. -/
inductive Stmt.Quiet : Stmt → Prop
  | plain {s : Stmt} : s.isPlain = true → s.Quiet
  | branch {first : Arm} {others : List Arm} {otherwise : Option (List Stmt)} :
    (∀ arm ∈ first :: others, ∀ s ∈ arm.body, s.Quiet) →
    (∀ body ∈ otherwise, ∀ s ∈ body, s.Quiet) → Quiet (.branch first others otherwise)

/-- A conditional introduces `err` nowhere if its branches do not. -/
theorem bindsError_branch {first : Arm} {others : List Arm} {otherwise : Option (List Stmt)}
    (harms : ∀ arm ∈ first :: others, ∀ s ∈ arm.body, s.bindsError = false)
    (hother : ∀ body ∈ otherwise, ∀ s ∈ body, s.bindsError = false) :
    (Stmt.branch first others otherwise).bindsError = false := by
  simp only [← listBindsError_eq_false] at harms hother
  have hothers {arms : List Arm} (h : ∀ arm ∈ arms, listBindsError arm.body = false) :
      armsBindError arms = false := by
    induction arms with
    | nil => rfl
    | cons arm rest ih =>
      obtain ⟨init, test, body⟩ := arm
      rw [List.forall_mem_cons, Arm.body_mk] at h
      simp [armsBindError, h.1, ih h.2]
  have helse : elseBindsError otherwise = false := by
    cases otherwise with
    | none => rfl
    | some body => exact hother body rfl
  obtain ⟨init, test, body⟩ := first
  rw [List.forall_mem_cons, Arm.body_mk] at harms
  simp [Stmt.bindsError, harms.1, hothers harms.2, helse]

/-- A conditional assigns what its branches assign. -/
theorem forall_mem_rebindings_branch {P : Rebinding → Prop} {scope : Locals} {first : Arm}
    {others : List Arm} {otherwise : Option (List Stmt)} :
    (∀ rebinding ∈ (Stmt.branch first others otherwise).rebindings scope, P rebinding) ↔
      (∀ arm ∈ first :: others, ∀ rebinding ∈ listRebindings scope arm.body, P rebinding) ∧
        ∀ body ∈ otherwise, ∀ rebinding ∈ listRebindings scope body, P rebinding := by
  have harms (arms : List Arm) : (∀ rebinding ∈ armRebindings scope arms, P rebinding) ↔
      ∀ arm ∈ arms, ∀ rebinding ∈ listRebindings scope arm.body, P rebinding := by
    induction arms with
    | nil => simp [armRebindings]
    | cons arm rest ih =>
      obtain ⟨init, test, body⟩ := arm
      simp only [armRebindings, List.forall_mem_append, ih, List.forall_mem_cons, Arm.body_mk]
  obtain ⟨init, test, body⟩ := first
  rw [Stmt.rebindings, List.forall_mem_append, List.forall_mem_append, harms, List.forall_mem_cons,
    Arm.body_mk, and_assoc]
  cases otherwise <;> simp [elseRebindings]

end Go

/-- Some code that is part of a conditional only assigns what can be seen. -/
theorem Progress.settles_branch {p : Progress} {first : Go.Arm} {others : List Go.Arm}
    {otherwise : Option (List Go.Stmt)} (harms : ∀ arm ∈ first :: others, p.Settles arm.body)
    (hother : ∀ body ∈ otherwise, p.Settles body) :
    p.Settles [.branch first others otherwise] :=
  fun scope hseen => Go.settled_singleton.mpr (Go.forall_mem_rebindings_branch.mpr
    ⟨fun arm harm => harms arm harm scope hseen, fun body hbody => hother body hbody scope hseen⟩)

/-- A loop or a function literal assigns what its body assigns. -/
theorem Progress.Settles.loop {p : Progress} {test : Option Go.Expr} {body : List Go.Stmt}
    (h : p.Settles body) : p.Settles [.loop test body] :=
  fun scope hseen => Go.settled_singleton.mpr (h scope hseen)

theorem Progress.Settles.closure {p : Progress} {deferred : Bool} {body : List Go.Stmt}
    (h : p.Settles body) : p.Settles [.closure deferred body] :=
  fun scope hseen => Go.settled_singleton.mpr (h scope hseen)

/-- An invariant of the progress that only looks at variables, cursors and the transaction, and at the
names that have been bound, a condition on the statements that are written, and the errors that may
be reported, among them all those that are not about a cursor and have no site yet. -/
structure Discipline where
  keeps : Progress → Prop
  writes : Go.Stmt → Prop
  /-- Whether what is introduced into the outermost block has to be entered. -/
  counts : Prop := False
  /-- Behind a block the names of the block are forgotten, but not those in front of it. -/
  stable {before p q : Progress} : keeps before →
    (∀ name, before.names.isBound name = true → q.names.isBound name = true) →
    p.symbols = q.symbols → p.cursors = q.cursors → p.transaction = q.transaction → keeps p → keeps q
  admits : Error → Prop := fun _ => True
  plain {fault : Fault} : fault.concernsCursor = false → admits ⟨fault, none⟩ := by
    exact fun _ => trivial

namespace Discipline

variable (D : Discipline)

/-- A step that respects a discipline keeps its invariant, only adds statements that satisfy its
condition, and only reports errors that it admits. -/
def effect : Effect where
  relates before after := D.keeps before → D.keeps after ∧
    ∃ added, after.output = before.output ++ added ∧ (∀ s ∈ added, D.writes s) ∧
      before.Extends D.counts after added
  admits before error _ := D.keeps before → D.admits error

/-- What is kept outlasts changes of other things, as long as no name is forgotten. -/
theorem keeps_of_eq {p q : Progress} (hkeeps : D.keeps p)
    (hbound : ∀ name, p.names.isBound name = true → q.names.isBound name = true)
    (hsymbols : p.symbols = q.symbols) (hcursors : p.cursors = q.cursors)
    (htransaction : p.transaction = q.transaction) : D.keeps q :=
  D.stable hkeeps hbound hsymbols hcursors htransaction hkeeps

/-- A step that writes nothing. -/
theorem effect_of_steady {before after : Progress} (hkeeps : D.keeps before → D.keeps after)
    (houtput : after.output = before.output) (hsteady : before.Steady after) :
    D.effect before after :=
  fun hbefore => ⟨hkeeps hbefore, [], by simp [houtput], by simp, hsteady.extends_nil⟩

/-- A statement that introduces nothing, or where names are not counted. -/
theorem effect_wrote {p : Progress} {s : Go.Stmt} (h : D.writes s)
    (hintroduces : D.counts → s.introduces = []) (hsettles : D.keeps p → p.Settles [s])
    (hbinds : s.bindsError = false) : D.effect p (p.wrote s) :=
  fun hkeeps => ⟨D.keeps_of_eq hkeeps (fun _ => id) rfl rfl rfl, [s], rfl,
    List.forall_mem_singleton.mpr h, .wrote hintroduces (hsettles hkeeps) hbinds⟩

/-- A declaration of a name that is bound for what a call yields, where the name does not have to be
entered. -/
theorem effect_declared {p : Progress} {name : String} {type : Go.TypeExpr}
    (h : D.writes (.declare name type none)) (hexempt : D.counts → p.names.outer ≠ []) :
    D.effect p ({ p with names := (p.names.bind name).2 }.wrote (.declare name type none)) :=
  fun hkeeps => ⟨D.keeps_of_eq hkeeps (fun _ => (NameScope.Grows.bind _ _).isBound) rfl rfl rfl, [_],
    rfl, List.forall_mem_singleton.mpr h, .wrote_declared name type hexempt⟩

instance : D.effect.Tolerant where
  annotated h :=
    D.effect_of_steady (fun hkeeps => D.keeps_of_eq hkeeps (fun _ => (h.names ▸ ·)) h.symbols.symm
      h.cursors.symm h.transaction.symm) h.output h.steady
  trans h h' hkeeps := by
    obtain ⟨hmiddle, added, hadded, hwrites, hextends⟩ := h hkeeps
    obtain ⟨hafter, added', hadded', hwrites', hextends'⟩ := h' hmiddle
    refine ⟨hafter, added ++ added', by rw [hadded', hadded, List.append_assoc], ?_,
      hextends.trans hextends'⟩
    intro s hs
    rcases List.mem_append.mp hs with hs | hs
    · exact hwrites s hs
    · exact hwrites' s hs
  behind h hadmits hkeeps := hadmits (h hkeeps).1
  plain h _ := D.plain h

/-- The discipline admits plain statements that introduce no iterators, and conditionals over
statements that it admits. -/
structure Basic : Prop where
  plain {s : Go.Stmt} : s.isPlain = true → (∀ name ∈ s.defines, IsCallName name) → D.writes s
  branch {first : Go.Arm} {others : List Go.Arm} {otherwise : Option (List Go.Stmt)} :
    (∀ arm ∈ first :: others, ∀ s ∈ arm.body, D.writes s) →
    (∀ body ∈ otherwise, ∀ s ∈ body, D.writes s) → D.writes (.branch first others otherwise)

/-- The discipline admits deferred literals that are made of the basic forms alone, which is how
handles are released. -/
def Releasing : Prop :=
  ∀ ⦃body : List Go.Stmt⦄, (∀ s ∈ body, s.Quiet) → D.writes (.closure true body)

/-- The discipline asks for nothing about what is written. -/
def Permissive : Prop :=
  ∀ s, D.writes s

/-- The discipline admits all plain statements. -/
def AdmitsPlain : Prop :=
  ∀ ⦃s : Go.Stmt⦄, s.isPlain = true → D.writes s

/-- The strictest discipline for the same invariant that admits the basic forms. -/
def quiet : Discipline :=
  { D with writes := Go.Stmt.Quiet }

theorem basic_quiet : D.quiet.Basic where
  plain hplain _ := .plain hplain
  branch := .branch

/-- The discipline behind a block whose statements are still to be written: they only assign variables
that can be seen. -/
def behind (body : List Go.Stmt) : Discipline where
  keeps p := D.keeps p ∧ p.Settles body
  writes := D.writes
  counts := D.counts
  stable hbefore hbound hsymbols hcursors htransaction hkeeps :=
    ⟨D.stable hbefore.1 hbound hsymbols hcursors htransaction hkeeps.1, hbefore.2.mono hbound⟩
  admits := D.admits
  plain := D.plain

variable {D} in
theorem Basic.behind (basic : D.Basic) (body : List Go.Stmt) : (D.behind body).Basic :=
  ⟨basic.plain, basic.branch⟩

end Discipline

namespace Lower

variable {α : Type} {context : Context} {D : Discipline}

/-! ## Forms of statements -/

theorem hasEffect_emit {s : Go.Stmt} (h : D.writes s) (hintroduces : s.introduces = [])
    (hsettles : ∀ {p : Progress}, D.keeps p → p.Settles [s]) (hbinds : s.bindsError = false) :
    (emit s).HasEffect context D.effect :=
  .of_not_fails not_fails_emit fun hruns =>
    runs_emit.mp hruns ▸ D.effect_wrote h (fun _ => hintroduces) hsettles hbinds

/-- A statement that assigns no variable which has been introduced. -/
theorem hasEffect_emit_fresh {s : Go.Stmt} (h : D.writes s) (hintroduces : s.introduces = [])
    (hrebinds : ∀ scope, s.rebindings scope = []) (hbinds : s.bindsError = false) :
    (emit s).HasEffect context D.effect :=
  hasEffect_emit h hintroduces (fun _ => Progress.settles_of_rebindings_eq_nil _ hrebinds) hbinds

theorem hasEffect_emitBreak (h : D.writes .breakLoop) :
    (emit .breakLoop).HasEffect context D.effect :=
  hasEffect_emit_fresh h rfl (fun _ => rfl) rfl

/-- A statement that introduces a name, where names are not counted. -/
theorem hasEffect_emit_uncounted {s : Go.Stmt} (h : D.writes s) (hcounts : ¬D.counts)
    (hrebinds : ∀ scope, s.rebindings scope = []) (hbinds : s.bindsError = false) :
    (emit s).HasEffect context D.effect :=
  .of_not_fails not_fails_emit fun hruns => runs_emit.mp hruns ▸
    D.effect_wrote h (fun h => absurd h hcounts)
      (fun _ => Progress.settles_of_rebindings_eq_nil _ hrebinds) hbinds

/-- No statement keeps a later failure from being admitted. -/
theorem hasEffect_emit_failures (s : Go.Stmt) :
    (emit s).HasEffect context D.effect.failures :=
  .of_not_fails not_fails_emit fun hruns =>
    runs_emit.mp hruns ▸ fun _ _ hadmits hkeeps =>
      hadmits (D.keeps_of_eq hkeeps (fun _ => id) rfl rfl rfl)

/-- A change that concerns neither names nor variables. -/
theorem hasEffect_modify {change : Progress → Progress}
    (hkeeps : ∀ {p}, D.keeps p → D.keeps (change p)) (houtput : ∀ p, (change p).output = p.output)
    (hsteady : ∀ p : Progress, p.Steady (change p)) :
    (modify change : Lower PUnit).HasEffect context D.effect := by
  refine .of_not_fails not_fails_modify fun {before} _ _ hruns => ?_
  obtain rfl := runs_modify.mp hruns
  exact D.effect_of_steady hkeeps (houtput before) (hsteady before)

/-- What a step has been shown to do without it, it also does behind a block. -/
theorem HasEffect.behind {step : Lower α} (h : step.HasEffect context D.effect)
    (body : List Go.Stmt) : step.HasEffect context (D.behind body).effect where
  runs _ _ _ hruns hkeeps := by
    obtain ⟨hafter, added, hadded, hwrites, hextends⟩ := h hruns hkeeps.1
    have hsettles := hkeeps.2.mono fun _ => hextends.grows.names.isBound
    exact ⟨⟨hafter, hsettles⟩, added, hadded, hwrites, hextends⟩
  fails _ _ _ hfails hkeeps := h.fails hfails hkeeps.1

/-- A block whose statements respect a discipline keeps the invariant and yields what may be
written. -/
theorem HasEffect.block {step : Lower Unit} {before after : Progress} {body : List Go.Stmt}
    (hstep : step.HasEffect context D.effect) (hruns : (block step).Runs context before body after)
    (hkeeps : D.keeps before) :
    D.keeps after ∧ after.output = before.output ∧ before.Steady after ∧ after.Settles body ∧
      ∀ s ∈ body, D.writes s ∧ s.bindsError = false := by
  obtain ⟨inner, hinner, rfl, rfl⟩ := runs_block.mp hruns
  have hbound (name : String) : before.opened.names.isBound name = before.names.isBound name :=
    NameScope.isBound_push _ name
  have hopened : D.keeps before.opened :=
    D.keeps_of_eq hkeeps (fun name hname => (hbound name).trans hname) rfl rfl rfl
  obtain ⟨hkept, added, hadded, hwrites, hextends⟩ := hstep hinner hopened
  have houtput : inner.output = added := by simpa [Progress.opened] using hadded
  have hbinds := hextends.bindsError_eq_false (List.cons_ne_nil _ _)
  have hsteady : before.Steady (before.closed inner) := hextends.grows.closed
  refine ⟨D.stable (p := inner) hkeeps (fun name hname => (hsteady.isBound name).trans hname) rfl rfl rfl hkept,
    rfl, hsteady, ?_, houtput ▸ fun s hs => ⟨hwrites s hs, hbinds s hs⟩⟩
  exact houtput ▸ hextends.settles.mono fun name hname =>
    (hsteady.isBound name).trans ((hbound name).symm.trans hname)

/-- A block, in a context of its own, respects a discipline if its statements do, perhaps under
another condition on what is written there, and if what is done with them does. -/
theorem hasEffect_within_block_bind {D' : Discipline} (change : Context → Context)
    {step : Lower Unit} {next : List Go.Stmt → Lower α}
    (hstep : step.HasEffect (change context) D'.effect) (hD : D'.keeps = D.keeps)
    (hadmits : D'.admits = D.admits)
    (hnext : ∀ body, (∀ s ∈ body, D'.writes s ∧ s.bindsError = false) →
      (next body).HasEffect context (D.behind body).effect) :
    (within change (block step) >>= next).HasEffect context D.effect where
  runs before _ _ hruns hkeeps := by
    obtain ⟨body, middle, hblock, hrest⟩ := runs_bind.mp hruns
    obtain ⟨hmiddle, houtput, hsteady, hsettles, hwrites⟩ :=
      hstep.block (runs_within.mp hblock) (hD ▸ hkeeps)
    have hblocked : D.effect before middle :=
      D.effect_of_steady (fun _ => hD ▸ hmiddle) houtput hsteady
    have hwritten : D.effect middle _ := fun hkept => by
      obtain ⟨hafter, hrest⟩ := hnext body hwrites hrest ⟨hkept, hsettles⟩
      exact ⟨hafter.1, hrest⟩
    exact Effect.Composable.trans hblocked hwritten hkeeps
  fails before error _ hfails hkeeps := by
    have hkeeps' : D'.keeps before := hD ▸ hkeeps
    obtain hblock | ⟨body, middle, hblock, hrest⟩ := fails_bind.mp hfails
    · have hopened : D'.keeps before.opened := D'.keeps_of_eq hkeeps'
        (fun name hname => (NameScope.isBound_push _ name).trans hname) rfl rfl rfl
      have hadmitted : D'.admits error :=
        hstep.fails (fails_block.mp (fails_within.mp hblock)) hopened
      exact hadmits ▸ hadmitted
    · obtain ⟨hmiddle, -, -, hsettles, hwrites⟩ := hstep.block (runs_within.mp hblock) hkeeps'
      exact (hnext body hwrites).fails hrest ⟨hD ▸ hmiddle, hsettles⟩

theorem hasEffect_block_bind {D' : Discipline} {step : Lower Unit} {next : List Go.Stmt → Lower α}
    (hstep : step.HasEffect context D'.effect) (hD : D'.keeps = D.keeps)
    (hadmits : D'.admits = D.admits)
    (hnext : ∀ body, (∀ s ∈ body, D'.writes s ∧ s.bindsError = false) →
      (next body).HasEffect context (D.behind body).effect) :
    (block step >>= next).HasEffect context D.effect :=
  hasEffect_within_block_bind id hstep hD hadmits hnext

section Basic

variable (basic : D.Basic)

include basic

theorem writes_plain {s : Go.Stmt} (h : s.isPlain = true) (hdefines : s.defines = []) :
    D.writes s :=
  basic.plain h (hdefines ▸ nofun)

theorem hasEffect_emit_plain {s : Go.Stmt} (h : s.isPlain = true) (hintroduces : s.introduces = [])
    (hrebinds : ∀ scope, s.rebindings scope = []) (hbinds : s.bindsError = false) :
    (emit s).HasEffect context D.effect := by
  rw [s.introduces_eq, List.append_eq_nil_iff] at hintroduces
  refine hasEffect_emit_fresh (writes_plain basic h hintroduces.2) ?_ hrebinds hbinds
  rw [s.introduces_eq, hintroduces.1, hintroduces.2, List.append_nil]

theorem hasEffect_emitAssign (target : String) (value : Go.Expr) :
    (emitAssign target value).HasEffect context D.effect :=
  hasEffect_emit_plain basic rfl rfl (fun _ => rfl) rfl

theorem hasEffect_emit_branch {first : Go.Arm} {others : List Go.Arm}
    {otherwise : Option (List Go.Stmt)}
    (harms : ∀ arm ∈ first :: others, ∀ s ∈ arm.body, D.writes s ∧ s.bindsError = false)
    (hother : ∀ body ∈ otherwise, ∀ s ∈ body, D.writes s ∧ s.bindsError = false)
    (hsettles : ∀ {p : Progress}, D.keeps p → (∀ arm ∈ first :: others, p.Settles arm.body) ∧
      ∀ body ∈ otherwise, p.Settles body) :
    (emit (.branch first others otherwise)).HasEffect context D.effect :=
  hasEffect_emit (basic.branch (fun arm harm s hs => (harms arm harm s hs).1)
      fun body hbody s hs => (hother body hbody s hs).1) rfl
    (fun hkeeps => Progress.settles_branch (hsettles hkeeps).1 (hsettles hkeeps).2)
    (Go.bindsError_branch (fun arm harm s hs => (harms arm harm s hs).2)
      fun body hbody s hs => (hother body hbody s hs).2)

theorem hasEffect_emitIf (init : Option Go.Assign) (test : Go.Expr) {step : Lower Unit}
    (h : step.HasEffect context D.effect) : (emitIf init test step).HasEffect context D.effect := by
  refine hasEffect_block_bind h rfl rfl fun body hbody => ?_
  exact hasEffect_emit_branch (basic.behind body) (List.forall_mem_singleton.mpr hbody) (by simp)
    fun hkeeps => by simpa using hkeeps.2

/-- A generated variable is assigned. In the outermost block the assignment introduces it where that
is needed, and elsewhere a declaration does. -/
theorem hasEffect_bindLocal_assign {name : String} (type : Go.TypeExpr) {value : Go.Expr}
    (hwrites : D.writes (.assign ⟨[.name name, err], true, value⟩)) {next : Bool → Lower α}
    (hnext : ∀ define, (next define).HasEffect context D.effect) :
    (do
      let define ← bindLocal name type
      emit (.assign ⟨[.name name, err], define, value⟩)
      next define : Lower α).HasEffect context D.effect := by
  have hassign : (do
      let define ← bindLocal name type
      emit (.assign ⟨[.name name, err], define, value⟩)
      return define : Lower Bool).HasEffect context D.effect := by
    refine .of_not_fails (by simp [fails_bind]) fun {before define after} hruns => ?_
    simp only [runs_bind, runs_emit, runs_pure] at hruns
    obtain ⟨_, bound, hbind, _, _, rfl, rfl, rfl⟩ := hruns
    have hagain {p : Progress} (hbound : p.names.isBound name = true) :
        D.effect p (p.wrote (.assign ⟨[.name name, err], false, value⟩)) :=
      D.effect_wrote (writes_plain basic rfl rfl) (fun _ => rfl)
        (fun _ => Progress.settles_assign hbound value) rfl
    obtain ⟨rfl, hbound, rfl⟩ | ⟨rfl, hfree, houter, rfl⟩ | ⟨rfl, houter, rfl⟩ := runs_bindLocal hbind
    · exact hagain hbound
    · intro hkeeps
      exact ⟨D.keeps_of_eq hkeeps (fun _ => (NameScope.Grows.bind _ _).isBound) rfl rfl rfl, [_], rfl,
        List.forall_mem_singleton.mpr hwrites, .wrote_defined hfree houter value⟩
    · have hdeclared : D.effect before
          ({ before with names := (before.names.bind name).2 }.wrote (.declare name type none)) :=
        D.effect_declared (writes_plain basic rfl rfl) fun _ => houter
      exact Effect.Composable.trans hdeclared (hagain (NameScope.isBound_bind _ _))
  simpa using hasEffect_bind hassign hnext

/-- A variable for what a call yields is declared, where it does not have to be entered. -/
theorem hasEffect_declare_bind {name : String} {type : Go.TypeExpr} (hcounts : ¬D.counts) {next : Lower α}
    (hnext : next.HasEffect context D.effect) :
    (do
      modify fun p => { p with names := (p.names.bind name).2 }
      emit (.declare name type none)
      next : Lower α).HasEffect context D.effect := by
  have hdeclare : (do
      modify fun p => { p with names := (p.names.bind name).2 }
      emit (.declare name type none) : Lower Unit).HasEffect context D.effect := by
    refine .of_not_fails (by simp [fails_bind]) fun {before _ after} hruns => ?_
    simp only [runs_bind, runs_emit, runs_modify] at hruns
    obtain ⟨_, _, rfl, rfl⟩ := hruns
    exact D.effect_declared (writes_plain basic rfl rfl) fun h => absurd h hcounts
  simpa using hasEffect_bind hdeclare fun _ => hnext

/-- A call whose result is kept under a name that is made from a base. -/
theorem hasEffect_localName_assign (base : String) (type : Go.TypeExpr) (value : Go.Expr)
    (hbase : ∀ name ∈ [base, base ++ "Gen"], IsCallName name) {next : String → Bool → Lower α}
    (hnext : ∀ name define, (next name define).HasEffect context D.effect) :
    (do
      let name ← localName base
      let define ← bindLocal name type
      emit (.assign ⟨[.name name, err], define, value⟩)
      next name define : Lower α).HasEffect context D.effect := by
  refine hasEffect_bind_of_runs (hasEffect_localName base) fun {_ name _} hlocal => ?_
  have hname : name ∈ [base, base ++ "Gen"] := by
    rw [(runs_localName hlocal).1]
    split <;> simp
  have hwrites : D.writes (.assign ⟨[.name name, err], true, value⟩) := by
    refine basic.plain rfl fun other hother => ?_
    obtain ⟨-, hmem, -, hne⟩ := Go.mem_introduces hother
    obtain rfl : other = name := by simpa [err, hne] using hmem
    exact hbase _ hname
  exact hasEffect_bindLocal_assign basic type hwrites (hnext name)

theorem hasEffect_emitAcknowledge : emitAcknowledge.HasEffect context D.effect := by
  refine hasEffect_bind hasEffect_read fun _ => ?_
  dsimp only
  split
  all_goals
    exact hasEffect_bind (hasEffect_importPath _) fun _ => hasEffect_emit_plain basic rfl rfl (fun _ => rfl) rfl

end Basic

/-- A variable with a numbered name is declared. -/
theorem hasEffect_fresh_declare (basic : D.Basic) {base : String} (hbase : base ∈ NameScope.bases)
    {type : Go.TypeExpr} {next : String → Lower α} {f : String → String}
    (hname : ∀ n : Nat, f (base ++ toString n) = NameScope.numberedName base n)
    (hnext : ∀ target, (next target).HasEffect context D.effect) :
    (do
      let target ← fresh base
      emit (.declare (f target) type none)
      next target : Lower α).HasEffect context D.effect := by
  have hdeclare : (do
      let target ← fresh base
      emit (.declare (f target) type none)
      return target : Lower String).HasEffect context D.effect := by
    refine .of_not_fails (by simp [fails_bind]) fun {before target after} hruns hkeeps => ?_
    simp only [runs_bind, runs_emit, runs_pure] at hruns
    obtain ⟨_, numbered, hfresh, _, _, rfl, rfl, rfl⟩ := hruns
    obtain ⟨n, hlt, rfl, rfl⟩ := runs_fresh hfresh
    rw [hname]
    exact ⟨D.keeps_of_eq hkeeps (fun _ => id) rfl rfl rfl, [_], rfl,
      List.forall_mem_singleton.mpr (writes_plain basic rfl rfl),
      .wrote_numbered hbase hlt type none⟩
  simpa using hasEffect_bind hdeclare hnext

end Lower

namespace Discipline

variable (D : Discipline)

/-- The discipline admits the forms that data statements are written in: the basic ones, and the way
out for a failure in a context. -/
structure Regular (context : Context) : Prop extends D.Basic where
  exit : Lower.errorExit.HasEffect context D.effect

end Discipline

namespace Discipline.Regular

open Lower

variable {context : Context} {D : Discipline} (regular : D.Regular context)

include regular

theorem guarded (init : Go.Assign) : (emitGuarded init).HasEffect context D.effect :=
  hasEffect_emitIf regular.toBasic _ _ regular.exit

theorem checked {success : Lower Unit} (h : success.HasEffect context D.effect) :
    (emitChecked success).HasEffect context D.effect := by
  refine hasEffect_block_bind regular.exit rfl rfl fun failure hfailure => ?_
  have basic := regular.toBasic.behind failure
  refine hasEffect_bind hasEffect_read fun c => ?_
  split
  · refine hasEffect_block_bind (h.behind failure) rfl rfl fun rest hrest => ?_
    exact hasEffect_emit_branch (basic.behind rest) (List.forall_mem_singleton.mpr hfailure)
      (by rintro _ ⟨⟩; exact hrest) fun hkeeps => by simpa using ⟨hkeeps.1.2, hkeeps.2⟩
  · refine hasEffect_bind (hasEffect_emit_branch basic (List.forall_mem_singleton.mpr hfailure)
      (by simp) fun hkeeps => by simpa using hkeeps.2) fun _ => h.behind failure

theorem callWith (backend : Backend) (client : ClientRef) (method : String)
    (fields : Fields) {onResponse : Go.Expr → Lower Unit}
    (h : ∀ response, (onResponse response).HasEffect context D.effect) :
    (emitCallWith backend client method fields onResponse).HasEffect context D.effect := by
  refine hasEffect_bind (hasEffect_remoteCall ..) fun _ => ?_
  refine hasEffect_localName_assign regular.toBasic _ _ _ (fun name hname => ?_) fun _ _ => ?_
  · rw [String.append_assoc] at hname
    exact .response hname
  · exact regular.checked (h _)

theorem call (backend : Backend) (client : ClientRef) (method : String)
    (fields : Fields) : (emitCall backend client method fields).HasEffect context D.effect := by
  refine hasEffect_bind (hasEffect_remoteCall ..) fun _ => ?_
  refine hasEffect_bind hasEffect_read fun _ => ?_
  split
  · refine hasEffect_bind (hasEffect_emit_plain regular.toBasic rfl rfl (fun _ => rfl) rfl) fun _ => ?_
    exact regular.checked (hasEffect_emitAssign regular.toBasic _ _)
  · exact regular.guarded _

theorem probe (backend : Backend) (query : Select) (table : TableRef)
    (target : String) :
    (requestExists backend query table target).HasEffect context D.effect := by
  refine hasEffect_bind (hasEffect_tableMethod _ _ _) fun _ => ?_
  refine hasEffect_bind (hasEffect_filterFields _) fun _ => ?_
  split
  · refine hasEffect_bind (hasEffect_remoteCall ..) fun _ => ?_
    exact regular.guarded _
  · exact regular.callWith _ _ _ _ fun _ => hasEffect_emitAssign regular.toBasic _ _

theorem scan (query : Query Go.Expr) (targets : List String) (trackRows : Bool) :
    (emitScan query targets trackRows).HasEffect context D.effect := by
  unfold emitScan
  refine hasEffect_bind hasEffect_handle fun _ => ?_
  refine hasEffect_bind (hasEffect_importPath _) fun _ => ?_
  refine hasEffect_bind (hasEffect_importPath _) fun _ => ?_
  have hmissed : (do
      emit (.assign (assignTo [err] .nil))
      if trackRows then emitAssign "rowCount" (.int 0) : Lower Unit).HasEffect context D.effect := by
    refine hasEffect_bind (hasEffect_emit_plain regular.toBasic rfl rfl (fun _ => rfl) rfl) fun _ => ?_
    split
    · exact hasEffect_emitAssign regular.toBasic _ _
    · exact hasEffect_pure _
  refine hasEffect_block_bind hmissed rfl rfl fun missing hmissing => ?_
  refine hasEffect_block_bind (regular.exit.behind missing) rfl rfl fun failure hfailure => ?_
  have basic := (regular.toBasic.behind missing).behind failure
  have harms (init test) : ∀ arm ∈ [Go.Arm.mk init test missing, .mk none failed failure],
      ∀ s ∈ arm.body, D.writes s ∧ s.bindsError = false := by
    simpa using ⟨hmissing, hfailure⟩
  split
  · have hrow : emitOneRow.HasEffect context D.effect := hasEffect_emitAssign regular.toBasic _ _
    have hfound := (hrow.behind missing).behind failure
    refine hasEffect_block_bind hfound rfl rfl fun found hfound => ?_
    exact hasEffect_emit_branch (basic.behind found) (harms _ _) (by rintro _ ⟨⟩; exact hfound)
      fun hkeeps => by simpa using ⟨⟨hkeeps.1.1.2, hkeeps.1.2⟩, hkeeps.2⟩
  · exact hasEffect_emit_branch basic (harms _ _) (by simp)
      fun hkeeps => by simpa using ⟨hkeeps.1.2, hkeeps.2⟩

theorem exec (query : Query Go.Expr) (identity : Bool) :
    (emitExec query identity).HasEffect context D.effect := by
  refine hasEffect_bind hasEffect_handle fun _ => hasEffect_bind hasEffect_read fun _ => ?_
  dsimp only
  split
  · exact regular.guarded _
  · refine hasEffect_bind (hasEffect_importPath _) fun _ => ?_
    refine hasEffect_localName_assign regular.toBasic _ _ _ (fun _ => .result) fun _ _ => ?_
    refine regular.checked ?_
    refine hasEffect_when (hasEffect_emit_plain regular.toBasic rfl rfl (fun _ => rfl) rfl) ?_
    split
    · exact hasEffect_emit_plain regular.toBasic rfl rfl (fun _ => rfl) rfl
    · exact hasEffect_pure _

theorem log (hooked plain : String) (message : Go.Expr) :
    (emitLog hooked plain message).HasEffect context D.effect := by
  refine hasEffect_bind hasEffect_read fun _ => ?_
  split
  all_goals
    refine hasEffect_bind (hasEffect_importPath _) fun _ => ?_
    exact hasEffect_emit_plain regular.toBasic rfl rfl (fun _ => rfl) rfl

/-- The effect of a regular discipline is regular. -/
theorem forms : D.effect.Regular context where
  plain := hasEffect_emit_plain regular.toBasic
  numbered hbase hname hnext := hasEffect_fresh_declare regular.toBasic hbase hname hnext
  conditional := hasEffect_emitIf regular.toBasic
  exit := regular.exit
  checked := regular.checked
  backend := hasEffect_backendFor
  scan := regular.scan
  exec := regular.exec
  call := regular.call
  callWith := regular.callWith
  probe := regular.probe

end Discipline.Regular

namespace Lower

variable {context : Context} {D : Discipline}

/-- What a handler starts with is made of basic forms. The error that it names is not counted, since
it never stands in the outermost block. -/
theorem hasEffect_emitHandlerStart (basic : D.Basic) (hcounts : ¬D.counts)
    (catchBody : List Statement) : (emitHandlerStart catchBody).HasEffect context D.effect := by
  have hcaught : emitCaught.HasEffect context D.effect := by
    refine hasEffect_bind (hasEffect_importPath _) fun _ => ?_
    have hcaught : ∀ name ∈ ["caught", "ok"], IsCallName name := fun _ => .caught
    refine hasEffect_bind (hasEffect_emit_uncounted (basic.plain rfl hcaught) hcounts (fun _ => rfl) rfl) fun _ => ?_
    exact hasEffect_emitIf basic _ _ (hasEffect_emitAssign basic _ _)
  refine hasEffect_when hcaught ?_
  refine hasEffect_bind hasEffect_read fun _ => ?_
  split
  · exact hasEffect_emit_plain basic rfl rfl (fun _ => rfl) rfl
  · exact hasEffect_pure _

end Lower

/-! ## Declarations and cursors -/

/-- The invariant of the discipline outlasts all uses of cursors, which may be refused. -/
structure Discipline.IgnoresCursors (D : Discipline) : Prop where
  outlasts {p : Progress} (cursors : CursorTable) : D.keeps p → D.keeps { p with cursors }
  admits (name problem : String) : D.admits ⟨.cursor name problem, none⟩ := by
    exact fun _ _ => trivial

/-- The invariant of the discipline does not look at the transaction. -/
def Discipline.IgnoresTransaction (D : Discipline) : Prop :=
  ∀ ⦃p : Progress⦄ (transaction : TransactionState), D.keeps p → D.keeps { p with transaction }

theorem Discipline.IgnoresCursors.admitsCursors {D : Discipline} (h : D.IgnoresCursors) :
    D.effect.AdmitsCursors :=
  fun _ name problem _ => h.admits name problem

/-- The invariant of the discipline outlasts declarations of variables. -/
def Discipline.Lasting (D : Discipline) : Prop :=
  ∀ ⦃p : Progress⦄ ⦃name type : String⦄ ⦃kind : SymbolKind⦄ ⦃symbol : Symbol⦄
    ⦃symbols : SymbolTable⦄, p.symbols.declare name type kind = .ok (symbol, symbols) →
      D.keeps p → D.keeps { p with symbols }

/-- The discipline admits the forms that statements are written in that hold no others: those of
data statements, jumps where there is a loop to leave, and the ways out for `RETURN` and for a raised
error. -/
structure Discipline.Jumping (D : Discipline) (context : Context) : Prop extends
    D.Regular context where
  opens : D.AdmitsPlain
  breakLoop : 0 < context.loops → D.writes .breakLoop
  continueLoop : 0 < context.loops → D.writes .continueLoop
  raise (error : Go.Expr) : (Lower.raise error).HasEffect context D.effect
  leave (status : Option Go.Expr) : (Lower.lowerReturn status).HasEffect context D.effect

namespace Discipline.Jumping

open Lower

variable {context : Context} {D : Discipline} (jumping : D.Jumping context)

include jumping

/-- The effect of a discipline that admits the forms is had by jumps and by the ways out. -/
theorem forms : D.effect.Jumping context where
  toRegular := jumping.toRegular.forms
  breakLoop hloop := hasEffect_emitBreak (jumping.breakLoop hloop)
  continueLoop hloop := hasEffect_emit_fresh (jumping.continueLoop hloop) rfl (fun _ => rfl) rfl
  leave := jumping.leave
  print message := hasEffect_bind (hasEffect_lowerValue_regular jumping.toRegular.forms message _)
    fun _ => jumping.toRegular.log _ _ _

theorem raising : D.effect.Raising context where
  raise := jumping.raise
  raiseNew _ := hasEffect_bind (hasEffect_importPath _) fun _ => jumping.raise _

end Discipline.Jumping

namespace Lower

variable {context : Context} {D : Discipline}

section Lasting

variable (regular : D.Regular context) (lasting : D.Lasting)

include regular lasting

omit regular in
theorem hasEffect_declare (name type : String) (kind : SymbolKind) :
    (declare name type kind).HasEffect context D.effect where
  runs _ _ _ hruns := by
    obtain ⟨symbols, hdeclare, rfl⟩ := runs_declare.mp hruns
    refine D.effect_of_steady (lasting hdeclare) rfl ⟨.of_symbols ?_, rfl⟩
    obtain ⟨-, -, rfl⟩ := SymbolTable.declare_eq_ok_iff.mp hdeclare
    exact List.prefix_append _ _
  fails _ _ _ hfails _ := by
    obtain ⟨fault, hfault, rfl, -⟩ := fails_declare.mp hfails
    exact D.plain (failsPlainly_declare _ _ _ _ fault hfault)

theorem hasEffect_lowerDeclare (var : VarDecl) :
    (lowerDeclare var).HasEffect context D.effect := by
  refine hasEffect_lowerDeclare_of regular.forms var fun type value => ?_
  -- The variable and its statement have to come together where names are counted.
  refine .of_failures (hasEffect_bind (hasEffect_declare lasting _ _ _).failures fun _ =>
    hasEffect_bind (hasEffect_importType _) fun _ => hasEffect_bind (hasEffect_emit_failures _)
      fun _ => (hasEffect_emitUse regular.forms _ _).failures) fun {before _ _} hruns => ?_
  simp only [runs_bind, runs_emit] at hruns
  obtain ⟨symbol, _, hdeclare, _, imported, himport, _, _, rfl, huse⟩ := hruns
  obtain ⟨symbols, hsymbols, rfl⟩ := runs_declare.mp hdeclare
  have hannotated : Progress.Annotated { before with symbols } imported :=
    (hasEffect_importType type).annotated himport
  have hwrote : D.effect before
      ({ before with symbols }.wrote (.declare symbol.goName (.value type) value)) := fun hkeeps =>
    ⟨D.keeps_of_eq (lasting hsymbols hkeeps) (fun _ => id) rfl rfl rfl, [_], rfl,
      List.forall_mem_singleton.mpr (writes_plain regular.toBasic rfl rfl),
      .wrote_variable hsymbols _ _⟩
  exact Effect.Composable.trans hwrote
    (Effect.Composable.trans (Effect.Tolerant.annotated (hannotated.wrote _))
      (hasEffect_emitUse regular.forms _ _ huse))

theorem hasEffect_lowerDeclares (vars : List VarDecl) :
    (lowerDeclares vars).HasEffect context D.effect :=
  hasEffect_lowerDeclares_of (hasEffect_lowerDeclare regular lasting) vars

end Lasting

section Cursors

variable (regular : D.Regular context) (hcursors : D.IgnoresCursors)

include regular hcursors

omit regular in
theorem hasEffect_putCursor (name : String) (cursor : Cursor) :
    (putCursor name cursor).HasEffect context D.effect :=
  hasEffect_modify (hcursors.outlasts _) (fun _ => rfl) fun _ => .of_eq rfl rfl rfl rfl

theorem hasEffect_openCursor (hplain : D.AdmitsPlain) (name : String) :
    (openCursor name).HasEffect context D.effect := by
  refine hasEffect_bind (hasEffect_getCursor hcursors.admitsCursors name) fun cursor => ?_
  refine hasEffect_when (hasEffect_cursorFault hcursors.admitsCursors name .alreadyOpen) ?_
  · refine hasEffect_bind (hasEffect_rowsCall cursor) fun call => ?_
    refine hasEffect_bind (hasEffect_iteratorType _) fun type => ?_
    refine hasEffect_bindLocal_assign regular.toBasic type (hplain rfl) fun define => ?_
    refine hasEffect_bind hasEffect_read fun _ => ?_
    have hput : (putCursor name { cursor with state := .opened }).HasEffect context D.effect :=
      hasEffect_putCursor hcursors _ _
    split
    · exact hasEffect_bind (hasEffect_emitIf regular.toBasic _ _ regular.exit) fun _ => hput
    · refine hasEffect_bind (regular.checked ?_) fun _ => hput
      exact hasEffect_emit_plain regular.toBasic rfl rfl (fun _ => rfl) rfl

/-- A discipline that ignores cursors allows their uses. -/
theorem allowsCursors (hplain : D.AdmitsPlain) : D.effect.AllowsCursors context where
  admits := hcursors.admitsCursors
  put := hasEffect_putCursor hcursors
  remove _ := hasEffect_modify (hcursors.outlasts _) (fun _ => rfl) fun _ => .of_eq rfl rfl rfl rfl
  opens := hasEffect_openCursor regular hcursors hplain

end Cursors

theorem hasEffect_setTransaction (htransaction : D.IgnoresTransaction)
    (transaction : TransactionState) :
    (setTransaction transaction).HasEffect context D.effect :=
  hasEffect_modify (htransaction _) (fun _ => rfl) fun _ => .of_eq rfl rfl rfl rfl

/-! ## Handles and transactions -/

section Releasing

variable (releasing : D.Releasing)

include releasing

/-- A deferred literal that releases a handle. -/
theorem hasEffect_release {step : Lower Unit} (hstep : step.HasEffect context D.quiet.effect) :
    (block step >>= fun body => emit (.closure true body)).HasEffect context D.effect :=
  hasEffect_block_bind hstep rfl rfl fun _ hbody =>
    hasEffect_emit (releasing fun s hs => (hbody s hs).1) rfl
      (fun hkeeps => hkeeps.2.closure)
      (Go.listBindsError_eq_false.mpr fun s hs => (hbody s hs).2)

theorem hasEffect_emitBegin (regular : D.Regular context) :
    emitBegin.HasEffect context D.effect := by
  have hbasic := D.basic_quiet
  refine hasEffect_bind (regular.guarded _) fun _ => ?_
  refine hasEffect_release releasing (hasEffect_emitIf hbasic _ _ ?_)
  exact hasEffect_bind (hasEffect_emit_plain hbasic rfl rfl (fun _ => rfl) rfl) fun _ => hasEffect_emitAssign hbasic _ _

/-- A discipline that does not mind what is known about the transaction allows its uses. -/
theorem allowsTransactions (regular : D.Regular context) (htransaction : D.IgnoresTransaction) :
    D.effect.AllowsTransactions context where
  sets := hasEffect_setTransaction htransaction
  begins := hasEffect_emitBegin releasing regular

theorem hasEffect_emitRelease (iterator : String) :
    (emitRelease iterator).HasEffect context D.effect := by
  have hbasic := D.basic_quiet
  exact hasEffect_release releasing
    (hasEffect_emitIf hbasic _ _ (hasEffect_emit_plain hbasic rfl rfl (fun _ => rfl) rfl))

theorem hasEffect_hoistIterator (basic : D.Basic) (hcounts : ¬D.counts) (name : String)
    (query : Select) : (hoistIterator name query).HasEffect context D.effect := by
  refine hasEffect_bind hasEffect_read fun _ => ?_
  dsimp only
  split
  · refine hasEffect_bind (hasEffect_iteratorName name) fun iterator => ?_
    refine hasEffect_bind (hasEffect_iteratorType _) fun type => ?_
    refine hasEffect_declare_bind basic hcounts ?_
    split
    · exact hasEffect_emitRelease releasing iterator
    · exact hasEffect_pure _
  · exact hasEffect_pure _

end Releasing

/-! ## The prologue -/

theorem hasEffect_emitEntry (basic : D.Basic) : emitEntry.HasEffect context D.effect := by
  refine hasEffect_bind hasEffect_read fun _ => ?_
  refine hasEffect_bind (hasEffect_importPath _) fun _ => ?_
  refine hasEffect_bind (hasEffect_inputPairs _) fun _ => ?_
  exact hasEffect_emit_plain basic rfl rfl (fun _ => rfl) rfl

/-- A declaration at function entry, where names are not counted. -/
theorem hasEffect_emitLine (basic : D.Basic) (hcounts : ¬D.counts) (name : String)
    (type : Go.TypeExpr) : (emit (.declare name type none)).HasEffect context D.effect :=
  hasEffect_emit_uncounted (writes_plain basic rfl rfl) hcounts (fun _ => rfl) rfl

theorem hasEffect_emitCounters (basic : D.Basic) (hcounts : ¬D.counts) :
    emitCounters.HasEffect context D.effect := by
  have hline (name : String) (type : Go.TypeExpr) :
      (emit (.declare name type none)).HasEffect context D.effect :=
    hasEffect_emitLine basic hcounts name type
  refine hasEffect_bind hasEffect_read fun _ => ?_
  refine hasEffect_when (hline _ _) ?_
  refine hasEffect_when (hline _ _) ?_
  split
  · exact hasEffect_bind (hasEffect_importPath _) fun _ => hline _ _
  · exact hasEffect_pure _

end Lower

open Lower in
/-- What stands in front of the statements respects a regular discipline that does not count
names. -/
theorem Discipline.Regular.opening {context : Context} {D : Discipline} (regular : D.Regular context)
    (releasing : D.Releasing) (hcounts : ¬D.counts) : D.effect.Opening context where
  toRegular := regular.forms
  entry := hasEffect_emitEntry regular.toBasic
  counters := hasEffect_emitCounters regular.toBasic hcounts
  line := hasEffect_emitLine regular.toBasic hcounts
  iterator := hasEffect_hoistIterator releasing regular.toBasic hcounts

/-! ## Disciplines that admit all ways out -/

/-- The discipline admits all plain statements, all conditionals, and all returns and panics. -/
structure Discipline.Leaving (D : Discipline) : Prop extends D.Basic where
  opens : D.AdmitsPlain
  ret (values : List Go.Expr) : D.writes (.ret values)
  panic (value : Go.Expr) : D.writes (.panic value)

namespace Discipline.Leaving

open Lower

variable {D : Discipline} {c : Context} (leaving : D.Leaving)

include leaving

theorem emitBare : (emit (.ret [])).HasEffect c D.effect :=
  hasEffect_emit_fresh (leaving.ret _) rfl (fun _ => rfl) rfl

theorem emitPanic (value : Go.Expr) : (emit (.panic value)).HasEffect c D.effect :=
  hasEffect_emit_fresh (leaving.panic value) rfl (fun _ => rfl) rfl

theorem emitReturn (status error : Go.Expr) : (emitReturn status error).HasEffect c D.effect :=
  hasEffect_bind (hasEffect_resultValues _ _) fun _ => hasEffect_emit_fresh (leaving.ret _) rfl (fun _ => rfl) rfl

theorem emitFinalReturn : emitFinalReturn.HasEffect c D.effect := by
  refine hasEffect_bind (hasEffect_resultValues _ _) fun _ => hasEffect_bind hasEffect_read fun _ => ?_
  split
  · exact hasEffect_emit_fresh (leaving.ret _) rfl (fun _ => rfl) rfl
  · exact hasEffect_pure ()

theorem errorExit : errorExit.HasEffect c D.effect := by
  have hbasic := leaving.toBasic
  refine hasEffect_bind hasEffect_read fun context => ?_
  cases context.exitScope with
  | body => exact leaving.emitReturn _ _
  | tryHalf => exact leaving.emitPanic _
  | catchHalf =>
    exact hasEffect_bind (hasEffect_emitAcknowledge hbasic) fun _ =>
      hasEffect_emit_plain hbasic rfl rfl (fun _ => rfl) rfl

theorem regular : D.Regular c where
  toBasic := leaving.toBasic
  exit := leaving.errorExit

theorem propagateReturn : propagateReturn.HasEffect c D.effect := by
  refine hasEffect_bind hasEffect_read fun context => ?_
  cases context.returnFlags.head?.join with
  | some flag =>
    exact hasEffect_bind (hasEffect_emitAssign leaving.toBasic _ _) fun _ => leaving.emitBare
  | none => exact hasEffect_bind (hasEffect_warn _ _ (by decide)) fun _ => leaving.emitBare

theorem raise (error : Go.Expr) : (raise error).HasEffect c D.effect := by
  refine hasEffect_bind hasEffect_read fun context => ?_
  cases context.exitScope with
  | body => exact leaving.emitReturn _ _
  | tryHalf => exact leaving.emitPanic _
  | catchHalf =>
    exact hasEffect_bind (hasEffect_emit_plain leaving.toBasic rfl rfl (fun _ => rfl) rfl) fun _ => leaving.emitBare

theorem lowerReturn (status : Option Go.Expr) : (lowerReturn status).HasEffect c D.effect := by
  refine hasEffect_bind hasEffect_read fun context => ?_
  dsimp only
  cases context.exitScope with
  | body => exact leaving.emitReturn _ _
  | tryHalf =>
    cases status with
    | some value =>
      exact hasEffect_bind (hasEffect_emitAssign leaving.toBasic _ _) fun _ =>
        leaving.propagateReturn
    | none => exact leaving.propagateReturn
  | catchHalf =>
    refine hasEffect_bind (hasEffect_warn _ _ (by decide)) fun _ => ?_
    exact leaving.regular.log _ _ _

theorem resume : (if c.exitScope = .body then Lower.emitReturn (.name "returnCode") .nil
    else Lower.propagateReturn).HasEffect c D.effect := by
  split
  · exact leaving.emitReturn _ _
  · exact leaving.propagateReturn

theorem report : (if c.exitScope = .catchHalf then Lower.emit (.ret [])
    else Lower.errorExit).HasEffect c D.effect := by
  split
  · exact leaving.emitBare
  · exact leaving.errorExit

end Discipline.Leaving

/-! ## Disciplines that allow everything to be written -/

namespace Discipline.Permissive

open Lower

variable {D : Discipline} {c : Context} (permissive : D.Permissive)

include permissive

theorem leaving : D.Leaving where
  plain _ _ := permissive _
  branch _ _ := permissive _
  opens _ _ := permissive _
  ret _ := permissive _
  panic _ := permissive _

theorem basic : D.Basic :=
  permissive.leaving.toBasic

theorem releasing : D.Releasing :=
  fun _ _ => permissive _

theorem emitFinalReturn : emitFinalReturn.HasEffect c D.effect :=
  permissive.leaving.emitFinalReturn

theorem regular : D.Regular c :=
  permissive.leaving.regular

theorem jumping : D.Jumping c where
  toRegular := permissive.regular
  opens _ _ := permissive _
  breakLoop _ := permissive _
  continueLoop _ := permissive _
  raise := permissive.leaving.raise
  leave := permissive.leaving.lowerReturn

theorem emitWayOut (flag : Option String) (catchBody : List Statement) :
    (emitWayOut flag catchBody).HasEffect c D.effect :=
  hasEffect_emitWayOut permissive.regular.forms flag catchBody permissive.leaving.resume
    permissive.leaving.report

/-- Every statement that holds no others respects a permissive discipline. Only the statements about
cursors and transactions have to be minded. -/
theorem lowerLeaf (lasting : D.Lasting) (rest : List Statement) (prepared : Option Fetch)
    {source : Statement} (hcursors : source.isCursorUse = true → D.IgnoresCursors)
    (htransactions : source.isTransaction = true → D.IgnoresTransaction)
    (hchildren : source.children = []) :
    (lowerStatement rest prepared source).HasEffect c D.effect := by
  have jumping : D.Jumping c := permissive.jumping
  exact hasEffect_leaf jumping.forms rest prepared
    (fun vars _ => hasEffect_lowerDeclares jumping.toRegular lasting vars)
    (fun _ => jumping.raising)
    (fun hcursor => allowsCursors jumping.toRegular (hcursors hcursor) jumping.opens)
    (fun h => allowsTransactions permissive.releasing jumping.toRegular (htransactions h)) hchildren

end Discipline.Permissive

end Sproc
