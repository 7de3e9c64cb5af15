import Sproc.Proofs.Lower.Frame
import Sproc.Proofs.Lower.Idiom

/-!
# Compound statements and kinds of code

Conditionals, loops and blocks put the code of the statements inside them together. A kind of code
is therefore written by every statement as soon as it is written by the statements that hold no
others, by the conditions, by the loops over cursors and by the `TRY` statements: this is proved by
induction on the statements inside a statement.

Which statements are admitted is a parameter. Those in the handler of a `TRY` statement need not be,
since a kind may say nothing about handlers.

## Main definitions

* `Kind.Arms`: the arms of a chain of conditionals are code of a kind
* `Statement.Writes`: what a statement writes, wherever it stands, is code of a kind
* `Kind.Extends`: all code of an idiom is of a kind
* `Kind.Closed`: what has to be known of the statements that are admitted

## Main results

* `yields_lowerStatements`, `yields_lowerChain`, `yields_lowerWhile`: lists, conditionals and loops
* `Kind.Closed.writes`: every statement that is admitted
-/

namespace Sproc

open Lower Idiom

namespace Idiom

variable {I : Idiom} {c : Context}

theorem Covers.enter (h : I.Covers c) (index : Nat) : I.Covers (c.enter index) :=
  ⟨h.config, h.procedure, h.survey, h.functionName, h.flags⟩

theorem Covers.enterLoop (h : I.Covers c) : I.Covers c.enterLoop :=
  ⟨h.config, h.procedure, h.survey, h.functionName, h.flags⟩

theorem Covers.inCursorLoop (h : I.Covers c) (fetch : Fetch) : I.Covers (inCursorLoop fetch c) :=
  ⟨h.config, h.procedure, h.survey, h.functionName, h.flags⟩

theorem Covers.inHandler (h : I.Covers c) : I.Covers (inHandler c) :=
  ⟨h.config, h.procedure, h.survey, h.functionName, h.flags⟩

theorem Covers.inTry (h : I.Covers c) {flag : Option String}
    (hflag : ∀ name ∈ flag, name ∉ privateNames) : I.Covers (inTry flag c) := by
  refine ⟨h.config, h.procedure, h.survey, h.functionName, fun name hname => ?_⟩
  rcases List.mem_cons.mp hname with heq | hname
  · exact hflag name heq.symm
  · exact h.flags name hname

end Idiom

/-- The condition of a conditional or of a loop. -/
def Statement.condition? : Statement → Option Expr
  | .ifElse condition _ _ => some condition
  | .while condition _ => some condition
  | _ => none

/-- The arms of a chain of conditionals, and its alternative, are code of a kind. -/
structure Kind.Arms (K : Kind) (scope : ExitScope) (arms : List Go.Arm)
    (otherwise : Option (List Go.Stmt)) : Prop where
  tests : ∀ arm ∈ arms, arm.init = none ∧ K.test arm.test
  bodies : ∀ arm ∈ arms, K.code scope arm.body
  otherwise : ∀ body ∈ otherwise, K.code scope body

/-- What a statement writes, wherever it stands, is code of a kind. A conditional may also be written
as the continuation of another one. -/
structure Statement.Writes (K : Kind) (I : Idiom) (source : Statement) : Prop where
  whole {c : Context} (rest : List Statement) (prepared : Option Fetch) : I.Covers c →
    (lowerStatement rest prepared source).Yields K I c fun _ => True
  chain {c : Context} {condition : Expr} {thenBranch : List Statement}
    {elseBranch : Option (List Statement)} : I.Covers c →
    source = .ifElse condition thenBranch elseBranch →
    (lowerChain condition thenBranch elseBranch).Yields K I c fun chain =>
      K.Arms c.exitScope (chain.1 :: chain.2.1) chain.2.2

/-- Code of an idiom is of a kind, and so are the tests in it. -/
structure Kind.Extends (K : Kind) (I : Idiom) : Prop where
  code {scope : ExitScope} {body : List Go.Stmt} : I.Code scope body → K.code scope body
  test {e : Go.Expr} : I.kind.test e → K.test e

theorem Lower.Ensures.yields {α : Type} {step : Lower α} {K : Kind} {I : Idiom} {c : Context}
    {P : α → Prop} (h : step.Ensures I c P) (hK : K.Extends I) : step.Yields K I c P :=
  Adds.mono h fun _ _ hpost => ⟨hK.code hpost.1, hpost.2⟩

/-- The statements that are admitted have parts that are admitted, handlers apart, and write code of
the kind if their parts do. -/
structure Kind.Closed (K : Kind) (I : Idiom) (admits : Statement → Prop) : Prop where
  child {source s : Statement} {part : Part} {body : List Statement} : admits source →
    source.part? part = some body → part ≠ .catchHalf → s ∈ body → admits s
  leaf {c : Context} {source : Statement} (rest : List Statement) (prepared : Option Fetch) :
    I.Covers c → admits source → source.children = [] →
    (lowerStatement rest prepared source).Yields K I c fun _ => True
  condition {c : Context} {source : Statement} {condition : Expr} : I.Covers c → admits source →
    source.condition? = some condition → (lowerCondition condition).Yields K I c K.test
  cursorLoop {c : Context} {condition : Expr} {more : Option Expr} {statements : List Statement}
    {body : Lower Unit} (prepared : Option Fetch) : I.Covers c →
    admits (.while condition statements) → sentinelRest? condition = some more →
    (∀ fetch, body.Yields K I (inCursorLoop fetch (c.enter 0)) fun _ => True) →
    (lowerFetchLoop prepared more statements body).Yields K I c fun _ => True
  tryCatch {c : Context} {tryBody catchBody : List Statement} : I.Covers c →
    admits (.tryCatch tryBody catchBody) → (∀ s ∈ tryBody, s.Writes K I) →
    (∀ s ∈ catchBody, admits s → s.Writes K I) →
    (lowerTryCatch tryBody catchBody (lowerStatements 0 none tryBody)
      (lowerStatements 0 none catchBody)).Yields K I c fun _ => True

namespace Lower

variable {K : Kind} {I : Idiom} {c : Context}

/-- A list of statements writes code of a kind if its members do. -/
theorem yields_lowerStatements {statements : List Statement} (hc : I.Covers c)
    (h : ∀ s ∈ statements, s.Writes K I) (index : Nat) (prepared : Option Fetch) :
    (lowerStatements index prepared statements).Yields K I c fun _ => True := by
  induction statements generalizing index prepared with
  | nil => exact yields_pure trivial
  | cons statement rest ih =>
    rw [List.forall_mem_cons] at h
    have hfirst := h.1.whole rest prepared (hc.enter index)
    rw [lowerStatements]
    refine yields_bind (yields_within (adds_located hfirst) rfl) fun prepared _ => ?_
    exact ih h.2 (index + 1) prepared

/-- What a loop over a condition starts with. -/
theorem yields_emitLoopTest {condition : Expr}
    (h : (lowerCondition condition).Yields K I c K.test) :
    (emitLoopTest condition).Yields K I c fun _ => True := by
  refine yields_bind h fun test htest => ?_
  refine yields_bind (yields_block (yields_emit K.breakLoop)) fun body hbody => yields_emit ?_
  exact K.branch (List.forall_mem_singleton.mpr ⟨rfl, K.fails htest⟩)
    (List.forall_mem_singleton.mpr hbody) nofun

theorem yields_lowerWhile {condition : Expr} {body : Lower Unit}
    (h : ∀ {c}, I.Covers c → (lowerCondition condition).Yields K I c K.test) (hc : I.Covers c)
    (hbody : body.Yields K I c.enterLoop fun _ => True) :
    (lowerWhile condition body).Yields K I c fun _ => True := by
  unfold lowerWhile
  split
  · have hround := yields_bind (yields_emitLoopTest (h hc.enterLoop)) fun _ _ => hbody
    refine yields_bind (yields_within (yields_block hround) rfl) fun statements hcode => ?_
    exact yields_emit (K.loop nofun hcode)
  · refine yields_bind (h hc) fun test htest => ?_
    refine yields_bind (yields_within (yields_block hbody) rfl) fun statements hcode => ?_
    refine yields_emit (K.loop (fun e he => ?_) hcode)
    exact Option.some.inj he ▸ htest

section Branches

variable (hc : I.Covers c)

include hc

/-- The branch at an index. -/
theorem yields_branch {statements : List Statement} (h : ∀ s ∈ statements, s.Writes K I)
    (index : Nat) :
    (block (within (Context.enter index) (lowerStatements 0 none statements))).Yields K I c
      (K.code c.exitScope) :=
  yields_block (yields_within (yields_lowerStatements (hc.enter index) h 0 none) rfl)

theorem yields_lowerElse {elseBranch : Option (List Statement)}
    (h : ∀ body ∈ elseBranch, ∀ s ∈ body, s.Writes K I) :
    (lowerElse elseBranch).Yields K I c fun result => K.Arms c.exitScope result.1 result.2 := by
  cases elseBranch with
  | none => exact yields_pure ⟨nofun, nofun, nofun⟩
  | some body =>
    have hbody := h body rfl
    cases hchain : Statement.continuesChain body with
    | false =>
      rw [lowerElse_of_not_continuesChain hchain]
      refine yields_bind (yields_branch hc hbody 1) fun statements hcode => yields_pure ?_
      refine ⟨nofun, nofun, fun other hother => ?_⟩
      obtain rfl := Option.some.inj hother
      exact hcode
    | true =>
      obtain ⟨condition, thenBranch, elseBranch, rfl, hhoist⟩ :=
        Statement.continuesChain_iff.mp hchain
      have hinner := (hbody _ List.mem_cons_self).chain ((hc.enter 1).enter 0) rfl
      rw [lowerElse_of_continuesChain hhoist]
      refine yields_within (adds_located ?_) rfl
      exact yields_bind hinner fun chain hcode => yields_pure hcode

/-- A chain of conditionals, from the statements of its branches. -/
theorem yields_lowerChain {condition : Expr} {thenBranch : List Statement}
    {elseBranch : Option (List Statement)}
    (hcondition : (lowerCondition condition).Yields K I c K.test)
    (hthen : ∀ s ∈ thenBranch, s.Writes K I)
    (helse : ∀ body ∈ elseBranch, ∀ s ∈ body, s.Writes K I) :
    (lowerChain condition thenBranch elseBranch).Yields K I c fun chain =>
      K.Arms c.exitScope (chain.1 :: chain.2.1) chain.2.2 := by
  refine yields_bind hcondition fun test htest => ?_
  refine yields_bind (yields_branch hc hthen 0) fun body hbody => ?_
  refine yields_bind (yields_lowerElse hc helse) fun result hresult => yields_pure ?_
  exact ⟨List.forall_mem_cons.mpr ⟨⟨rfl, htest⟩, hresult.tests⟩,
    List.forall_mem_cons.mpr ⟨hbody, hresult.bodies⟩, hresult.otherwise⟩

end Branches

end Lower

/-! ## All of them -/

namespace Kind.Closed

variable {K : Kind} {I : Idiom} {admits : Statement → Prop}

/-- A statement that is admitted writes code of the kind if its parts do. -/
theorem writes_of_children (closed : K.Closed I admits) {source : Statement} (h : admits source)
    (hchildren : ∀ body ∈ source.children, ∀ s ∈ body, admits s → s.Writes K I) :
    source.Writes K I := by
  have hpart (part : Part) {body : List Statement} (hbody : source.part? part = some body)
      (hhandler : part ≠ .catchHalf) : ∀ s ∈ body, s.Writes K I := fun s hs =>
    hchildren body (Statement.mem_children_of_part? hbody) s hs (closed.child h hbody hhandler hs)
  have hchain {c : Context} {condition : Expr} {thenBranch : List Statement}
      {elseBranch : Option (List Statement)} (hc : I.Covers c)
      (hsource : source = .ifElse condition thenBranch elseBranch) :
      (lowerChain condition thenBranch elseBranch).Yields K I c fun chain =>
        K.Arms c.exitScope (chain.1 :: chain.2.1) chain.2.2 := by
    subst hsource
    refine yields_lowerChain hc (closed.condition hc h rfl) (hpart .thenBranch rfl (by decide))
      fun body hbody => ?_
    exact hpart .elseBranch hbody (by decide)
  refine ⟨fun {c} rest prepared hc => ?_, hchain⟩
  cases source with
  | ifElse condition thenBranch elseBranch =>
    rw [lowerStatement_ifElse]
    refine yields_bind (hchain hc rfl) fun chain hcode => ?_
    refine yields_bind (yields_emit ?_) fun _ _ => yields_pure trivial
    exact K.branch hcode.tests hcode.bodies hcode.otherwise
  | «while» condition body =>
    have hbody : ∀ s ∈ body, s.Writes K I := hpart .body rfl (by decide)
    rw [lowerStatement]
    cases hrest : sentinelRest? condition with
    | some more =>
      refine yields_bind (closed.cursorLoop prepared hc h hrest fun fetch => ?_)
        fun _ _ => yields_pure trivial
      exact yields_lowerStatements ((hc.enter 0).inCursorLoop fetch) hbody 0 none
    | none =>
      refine yields_bind (yields_lowerWhile (fun hc => closed.condition hc h rfl) hc
        (yields_within ?_ rfl)) fun _ _ => yields_pure trivial
      exact yields_lowerStatements (hc.enterLoop.enter 0) hbody 0 none
  | block body =>
    have hbody : ∀ s ∈ body, s.Writes K I := hpart .body rfl (by decide)
    rw [lowerStatement]
    exact yields_bind (yields_lowerStatements hc hbody 0 none) fun _ _ => yields_pure trivial
  | tryCatch tryBody catchBody =>
    have htry : ∀ s ∈ tryBody, s.Writes K I := hpart .tryHalf rfl (by decide)
    rw [lowerStatement]
    refine yields_bind (closed.tryCatch hc h htry ?_) fun _ _ => yields_pure trivial
    exact hchildren catchBody (List.mem_cons_of_mem _ List.mem_cons_self)
  | _ => exact closed.leaf rest prepared hc h rfl

/-- Every statement that is admitted writes code of the kind. -/
theorem writes (closed : K.Closed I admits) {source : Statement} (h : admits source) :
    source.Writes K I := by
  induction source using Statement.childInduction with
  | step source ih => exact closed.writes_of_children h fun body hbody s hs => ih body hbody s hs

end Kind.Closed

end Sproc
