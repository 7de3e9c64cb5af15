import Sproc.Ast.Build
import Sproc.Proofs.Lower.Returns

/-!
# The end of a function

A function with results must not be left through its end. Go decides this by the last statement of
the body alone: it has to be a return, or a conditional with an alternative all of whose branches
end in the same way. The generated function ends like this whenever it has results. Either control
cannot pass the last statement of the procedure, and then all branches that are written for it end
in a return, or a return is added behind them.

That a branch is written as a link of a chain, in a block of its own, or behind the statements that
its condition needs, makes no difference to how it ends. Outside of `TRY` statements `RETURN` and
`THROW` are returns of the function, so the statement is about the contexts outside of them.

## Main definitions

* `Go.listTerminates`: whether a body ends in a terminating statement
* `Statement.IsWritten`: a statement is written as the given code

## Main results

* `terminates_of_alwaysReturns`: a statement that control cannot pass ends in a terminating
  statement
* `Procedure.body_terminates`: a function with results does not end without a return
-/

namespace Sproc

namespace Go

mutual

/-- Whether a statement is a return, or a conditional with an alternative all of whose branches end
in such a statement. -/
def Stmt.terminates : Stmt → Bool
  | .ret _ => true
  | .branch (.mk _ _ body) others otherwise =>
    listTerminates body && (armsTerminate others && elseTerminates otherwise)
  | _ => false

/-- Whether the last statement of a list terminates. -/
def listTerminates : List Stmt → Bool
  | [] => false
  | [last] => last.terminates
  | _ :: rest => listTerminates rest

/-- Whether all arms end in terminating statements. -/
def armsTerminate : List Arm → Bool
  | [] => true
  | .mk _ _ body :: rest => listTerminates body && armsTerminate rest

/-- Whether there is an alternative, and it ends in a terminating statement. -/
def elseTerminates : Option (List Stmt) → Bool
  | none => false
  | some body => listTerminates body

end

@[simp] theorem listTerminates_singleton (s : Stmt) : listTerminates [s] = s.terminates := by
  rw [listTerminates]

/-- What stands in front of a terminating statement does not matter. -/
theorem listTerminates_append {front back : List Stmt} (h : listTerminates back = true) :
    listTerminates (front ++ back) = true := by
  induction front with
  | nil => exact h
  | cons s front ih =>
    cases hrest : front ++ back with
    | nil =>
      obtain ⟨-, rfl⟩ := List.append_eq_nil_iff.mp hrest
      cases h
    | cons next rest =>
      rw [List.cons_append, hrest, listTerminates]
      · rwa [← hrest]
      · simp

end Go

namespace Statement

/-- A list of statements cannot be passed if it has a last statement that cannot. -/
theorem listReturns_iff {body : List Statement} :
    listReturns body = true ↔ ∃ last, body.getLast? = some last ∧ last.alwaysReturns = true := by
  induction body with
  | nil => simp [listReturns]
  | cons s rest ih =>
    cases rest with
    | nil => simp [listReturns]
    | cons next rest =>
      rw [listReturns, ih, List.getLast?_cons_cons]
      simp

end Statement

open Lower in
/-- Outside of all `TRY` statements of a procedure, a statement is written as the code `code` behind
the code `front`. -/
def Statement.IsWritten (procedure : Procedure) (config : Config) (statement : Statement)
    (front code : List Go.Stmt) : Prop :=
  ∃ c rest prepared before result after, c.config = config ∧ c.procedure = procedure ∧
    c.exits = [] ∧ (lowerStatement rest prepared statement).Runs c before result after ∧
    before.output = front ∧ after.output = front ++ code

namespace Lower

variable {c : Context} {before after : Progress}

/-- A step has added code that ends in a terminating statement. -/
def Terminated (before after : Progress) : Prop :=
  ∃ code, after.output = before.output ++ code ∧ Go.listTerminates code = true

theorem terminated_wrote {s : Go.Stmt} (houtput : after.output = before.output)
    (h : s.terminates = true) : Terminated before (after.wrote s) :=
  ⟨[s], by simp [Progress.wrote, houtput], by simpa using h⟩

/-- In a block of its own such code is all there is. -/
theorem Terminated.opened {p inner : Progress} (h : Terminated p.opened inner) :
    Go.listTerminates inner.output = true := by
  obtain ⟨code, hcode, hterminates⟩ := h
  rw [hcode]
  exact Go.listTerminates_append hterminates

theorem Terminated.behind {middle : Progress} {front : List Go.Stmt} (h : Terminated middle after)
    (hfront : middle.output = before.output ++ front) : Terminated before after := by
  obtain ⟨code, hcode, hterminates⟩ := h
  exact ⟨front ++ code, by rw [hcode, hfront, List.append_assoc],
    Go.listTerminates_append hterminates⟩

/-- What a step has written in front of such code does not matter. -/
theorem Terminated.behind_step {α : Type} {step : Lower α} {value : α} {middle : Progress}
    (h : Terminated middle after)
    (hstep : step.HasEffect c (Scheme.free.discipline c).effect)
    (hruns : step.Runs c before value middle) : Terminated before after := by
  obtain ⟨front, hfront, -⟩ := hstep.exists_extends hruns
  exact h.behind hfront

/-! ## Returns and errors -/

theorem terminated_emitReturn {status error : Go.Expr}
    (h : (emitReturn status error).Runs c before () after) : Terminated before after := by
  obtain ⟨values, middle, hvalues, hemit⟩ := runs_bind.mp h
  simp only [resultValues, runs_bind, runs_read, runs_get, runs_pure] at hvalues
  obtain ⟨_, _, ⟨-, rfl⟩, _, _, ⟨-, rfl⟩, -, rfl⟩ := hvalues
  obtain rfl := runs_emit.mp hemit
  exact terminated_wrote rfl (by rw [Go.Stmt.terminates])

theorem exitScope_of_exits_eq_nil (hexits : c.exits = []) : c.exitScope = .body := by
  rw [Context.exitScope, hexits]
  rfl

/-- Outside of `TRY` statements a `RETURN` is a return of the function. -/
theorem terminated_lowerReturn {status : Option Go.Expr} (hexits : c.exits = [])
    (h : (lowerReturn status).Runs c before () after) : Terminated before after := by
  simp only [lowerReturn, runs_bind, runs_read] at h
  obtain ⟨_, _, ⟨rfl, rfl⟩, hreturn⟩ := h
  rw [exitScope_of_exits_eq_nil hexits] at hreturn
  exact terminated_emitReturn hreturn

/-- Outside of `TRY` statements an error is raised by a return of the function. -/
theorem terminated_raise {error : Go.Expr} (hexits : c.exits = [])
    (h : (raise error).Runs c before () after) : Terminated before after := by
  simp only [raise, runs_bind, runs_read] at h
  obtain ⟨_, _, ⟨rfl, rfl⟩, hreturn⟩ := h
  rw [exitScope_of_exits_eq_nil hexits] at hreturn
  exact terminated_emitReturn hreturn

/-- Outside of `TRY` statements a `THROW` has to have arguments, and returns the error that they
give. -/
theorem terminated_lowerThrow {args : Option ThrowArgs} (hexits : c.exits = [])
    (h : (lowerThrow args).Runs c before () after) : Terminated before after := by
  have regular : (Scheme.free.discipline c).Regular c := (Scheme.permissive_free c).regular
  cases args with
  | none =>
    have hcatch : c.inCatch = false := by simp [Context.inCatch, hexits]
    simp [lowerThrow, runs_bind, hcatch] at h
  | some args =>
    simp only [lowerThrow, runs_bind] at h
    obtain ⟨number, numbered, hnumber, message, worded, hmessage, _, imported, himport, hraise⟩ := h
    have hraised : Terminated imported after := terminated_raise hexits hraise
    have hworded : Terminated worded after := hraised.behind_step (hasEffect_importPath _) himport
    have hnumbered : Terminated numbered after :=
      hworded.behind_step (hasEffect_lowerValue_regular regular.forms _ _) hmessage
    exact hnumbered.behind_step (hasEffect_lowerValue_regular regular.forms _ _) hnumber

/-! ## Statements -/

/-- A statement that control cannot pass ends in a terminating statement, and so does the chain of a
conditional that is not yet written. -/
structure Ending (source : Statement) : Prop where
  whole {c : Context} {before after : Progress} (rest : List Statement) (prepared : Option Fetch)
    {result : Option Fetch} : c.exits = [] → source.alwaysReturns = true →
    (lowerStatement rest prepared source).Runs c before result after → Terminated before after
  chain {c : Context} {before after : Progress} {condition : Expr} {thenBranch : List Statement}
    {elseBranch : Option (List Statement)} {first : Go.Arm} {others : List Go.Arm}
    {otherwise : Option (List Go.Stmt)} : c.exits = [] →
    source = .ifElse condition thenBranch elseBranch → source.alwaysReturns = true →
    (lowerChain condition thenBranch elseBranch).Runs c before (first, others, otherwise) after →
    (Go.Stmt.branch first others otherwise).terminates = true

theorem terminated_lowerStatements {statements : List Statement} {index : Nat}
    {prepared : Option Fetch} (ih : ∀ s ∈ statements, Ending s) (hexits : c.exits = [])
    (hreturns : Statement.listReturns statements = true)
    (h : (lowerStatements index prepared statements).Runs c before () after) :
    Terminated before after := by
  induction statements generalizing index prepared before with
  | nil => cases hreturns
  | cons s rest hrest =>
    rw [lowerStatements] at h
    obtain ⟨prepared', middle, hfirst, hothers⟩ := runs_bind.mp h
    have hlowered := runs_located.mp (runs_within.mp hfirst)
    cases rest with
    | nil =>
      obtain ⟨-, rfl⟩ := runs_pure.mp hothers
      exact (ih s List.mem_cons_self).whole (c := c.enter index) [] prepared hexits hreturns hlowered
    | cons next rest =>
      obtain ⟨front, hfront, -⟩ := extends_lowerStatement hlowered
      exact (hrest (fun s hs => ih s (List.mem_cons_of_mem _ hs)) hreturns hothers).behind hfront

theorem terminates_branch {statements : List Statement} {index : Nat} {body : List Go.Stmt}
    (ih : ∀ s ∈ statements, Ending s) (hexits : c.exits = [])
    (hreturns : Statement.listReturns statements = true)
    (h : (block (within (Context.enter index) (lowerStatements 0 none statements))).Runs c before
      body after) : Go.listTerminates body = true := by
  obtain ⟨inner, hinner, rfl, -⟩ := runs_block.mp h
  exact (terminated_lowerStatements ih (c := c.enter index) hexits hreturns
    (runs_within.mp hinner)).opened

/-- An alternative that control cannot pass ends in terminating statements, as links of the chain or
in a block of its own. -/
theorem terminates_lowerElse {statements : List Statement} {others : List Go.Arm}
    {otherwise : Option (List Go.Stmt)} (ih : ∀ s ∈ statements, Ending s) (hexits : c.exits = [])
    (hreturns : Statement.listReturns statements = true)
    (h : (lowerElse (some statements)).Runs c before (others, otherwise) after) :
    Go.armsTerminate others = true ∧ Go.elseTerminates otherwise = true := by
  cases hchain : Statement.continuesChain statements with
  | false =>
    rw [lowerElse_of_not_continuesChain hchain] at h
    obtain ⟨body, middle, hblock, hpure⟩ := runs_bind.mp h
    obtain ⟨heq, -⟩ := runs_pure.mp hpure
    cases heq
    exact ⟨by rw [Go.armsTerminate], terminates_branch ih hexits hreturns hblock⟩
  | true =>
    obtain ⟨condition, thenBranch, elseBranch, rfl, hhoist⟩ :=
      Statement.continuesChain_iff.mp hchain
    rw [lowerElse_of_continuesChain hhoist] at h
    obtain ⟨⟨first, others', otherwise'⟩, middle, hlower, hpure⟩ :=
      runs_bind.mp (runs_located.mp (runs_within.mp h))
    obtain ⟨heq, -⟩ := runs_pure.mp hpure
    cases heq
    have hlinks := (ih _ List.mem_cons_self).chain
      (c := (Context.enter 0 ∘ Context.enter 1) c) hexits rfl hreturns hlower
    obtain ⟨init, test, body⟩ := first
    simp only [Go.Stmt.terminates, Bool.and_eq_true] at hlinks
    simpa [Go.armsTerminate] using ⟨⟨hlinks.1, hlinks.2.1⟩, hlinks.2.2⟩

theorem terminates_lowerChain {condition : Expr} {thenBranch elseBranch : List Statement}
    {first : Go.Arm} {others : List Go.Arm} {otherwise : Option (List Go.Stmt)}
    (hthen : ∀ s ∈ thenBranch, Ending s) (helse : ∀ s ∈ elseBranch, Ending s)
    (hexits : c.exits = []) (hreturns : Statement.listReturns thenBranch = true)
    (hreturns' : Statement.listReturns elseBranch = true)
    (h : (lowerChain condition thenBranch (some elseBranch)).Runs c before
      (first, others, otherwise) after) :
    (Go.Stmt.branch first others otherwise).terminates = true := by
  obtain ⟨test, tested, -, h⟩ := runs_bind.mp h
  obtain ⟨body, middle, hblock, h⟩ := runs_bind.mp h
  obtain ⟨arms, middle', hlower, hpure⟩ := runs_bind.mp h
  obtain ⟨heq, -⟩ := runs_pure.mp hpure
  cases heq
  have hbody := terminates_branch hthen hexits hreturns hblock
  obtain ⟨harms, hotherwise⟩ := terminates_lowerElse helse hexits hreturns' hlower
  simp [Go.Stmt.terminates, hbody, harms, hotherwise]

/-- The induction on the statements of a procedure. Only the alternatives of conditionals need the
chain that is not yet written, since they may become links of the chain that they stand in. -/
theorem ending (source : Statement) : Ending source := by
  induction source using Statement.childInduction with
  | step source ih =>
    have hchain {c : Context} {before after : Progress} {condition : Expr}
        {thenBranch : List Statement} {elseBranch : Option (List Statement)} {first : Go.Arm}
        {others : List Go.Arm} {otherwise : Option (List Go.Stmt)} (hexits : c.exits = [])
        (hsource : source = .ifElse condition thenBranch elseBranch)
        (hreturns : source.alwaysReturns = true)
        (hruns : (lowerChain condition thenBranch elseBranch).Runs c before
          (first, others, otherwise) after) :
        (Go.Stmt.branch first others otherwise).terminates = true := by
      subst hsource
      cases elseBranch with
      | none => simp [Statement.alwaysReturns] at hreturns
      | some elseBranch =>
        rw [Statement.alwaysReturns, Bool.and_eq_true] at hreturns
        exact terminates_lowerChain (ih _ List.mem_cons_self)
          (ih _ (List.mem_cons_of_mem _ List.mem_cons_self)) hexits hreturns.1 hreturns.2 hruns
    refine ⟨fun {c before after} rest prepared result hexits hreturns hruns => ?_, hchain⟩
    cases source with
    | ifElse condition thenBranch elseBranch =>
      rw [lowerStatement_ifElse] at hruns
      obtain ⟨⟨first, others, otherwise⟩, middle, hlower, hrest⟩ := runs_bind.mp hruns
      obtain ⟨_, written, hemit, hpure⟩ := runs_bind.mp hrest
      obtain ⟨-, rfl⟩ := runs_pure.mp hpure
      obtain rfl := runs_emit.mp hemit
      obtain ⟨hfree, -⟩ := (respects Scheme.closed_free (.ifElse condition thenBranch elseBranch)
        fun _ _ _ _ => trivial).chain trivial rfl hlower trivial
      obtain ⟨-, front, hfront, -⟩ := hfree trivial
      have hterminates := hchain hexits rfl hreturns hlower
      exact (terminated_wrote rfl hterminates).behind hfront
    | block body =>
      rw [lowerStatement] at hruns
      obtain ⟨_, middle, hbody, hpure⟩ := runs_bind.mp hruns
      obtain ⟨-, rfl⟩ := runs_pure.mp hpure
      rw [Statement.alwaysReturns] at hreturns
      exact terminated_lowerStatements (ih body List.mem_cons_self) hexits hreturns hbody
    | ret value =>
      rw [lowerStatement] at hruns
      obtain ⟨status, middle, hstatus, hrest⟩ := runs_bind.mp hruns
      obtain ⟨_, _, hreturn, hpure⟩ := runs_bind.mp hrest
      obtain ⟨-, rfl⟩ := runs_pure.mp hpure
      exact (terminated_lowerReturn hexits hreturn).behind_step
        (hasEffect_lowerStatus (Scheme.permissive_free c).regular.forms value) hstatus
    | throw args =>
      rw [lowerStatement] at hruns
      obtain ⟨_, _, hthrow, hpure⟩ := runs_bind.mp hruns
      obtain ⟨-, rfl⟩ := runs_pure.mp hpure
      exact terminated_lowerThrow hexits hthrow
    | _ => simp [Statement.alwaysReturns] at hreturns

/-- The code of a list of statements ends with the code of the last one. -/
theorem exists_writes_last {statements : List Statement} {last : Statement} {index : Nat}
    {prepared : Option Fetch} (hlast : statements.getLast? = some last) (hexits : c.exits = [])
    (hreturns : last.alwaysReturns = true)
    (h : (lowerStatements index prepared statements).Runs c before () after) :
    ∃ front code, last.IsWritten c.procedure c.config front code ∧ after.output = front ++ code ∧
      Go.listTerminates code = true := by
  induction statements generalizing index prepared before with
  | nil => cases hlast
  | cons s rest ih =>
    rw [lowerStatements] at h
    obtain ⟨prepared', middle, hfirst, hothers⟩ := runs_bind.mp h
    cases rest with
    | nil =>
      obtain rfl : s = last := Option.some.inj hlast
      obtain ⟨-, rfl⟩ := runs_pure.mp hothers
      have hruns := runs_located.mp (runs_within.mp hfirst)
      obtain ⟨code, hcode, hterminates⟩ :=
        (ending s).whole (c := c.enter index) [] prepared hexits hreturns hruns
      exact ⟨before.output, code, ⟨c.enter index, [], prepared, before, prepared', after, rfl, rfl,
        hexits, hruns, rfl, hcode⟩, hcode, hterminates⟩
    | cons next rest => exact ih (by rwa [List.getLast?_cons_cons] at hlast) hothers

end Lower

/-! ## Procedures -/

/-- A return at the end of a function has a value for each of its results. -/
theorem Lower.length_finalValues {c : Context} {config : Config} {survey : Survey}
    {declared hoisted middle headed entered finished after : Progress}
    {params results : List (String × Go.TypeExpr)} {values : List Go.Expr} {status error : Go.Expr}
    (hdeclared : (declareParams c.procedure.params).Runs c (.start config survey) () declared)
    (hhoisted : (declareHoisted c.procedure.statements c.survey.hoisted).Runs c declared () hoisted)
    (hparams : functionParams.Runs c hoisted params middle)
    (hresults : functionResults.Runs c middle results headed)
    (hentered : emitPrologue.Runs c headed () entered)
    (hfinished : (lowerStatements 0 none c.procedure.body).Runs c entered () finished)
    (hvalues : (resultValues status error).Runs c finished values after) :
    after = finished ∧ values.length = results.length := by
  obtain ⟨table, htable, rfl⟩ := runs_declareParams hdeclared
  obtain ⟨hresults, hgrown, -⟩ := results_eq hhoisted hparams hresults
  obtain ⟨added, hadded, hadds⟩ := SymbolTable.declareAll_eq_ok htable
  rw [Progress.start_symbols, List.nil_append] at hadded
  have houtputs := forall₂_outputs (fun _ _ hparam => hparam.2) hadds
  have hknown := isSome_get?_of_forall₂ houtputs
  obtain ⟨hkept, -⟩ := returning_finished hknown hentered hfinished hgrown
  obtain ⟨rfl, heq⟩ := resultValues_eq hknown ⟨rfl, rfl⟩ hkept hvalues
  refine ⟨rfl, ?_⟩
  rw [heq, hresults, hadded, outputNames_eq houtputs]
  cases c.survey.hasStatus <;> cases c.survey.needsErr <;> simp

namespace Procedure

open Lower

variable {procedure : Procedure} {config : Config} {lowered : LoweredProcedure}

/-- A function with results does not end without a return: the last statement of its body is a
return, or a conditional all of whose branches end in one. Where control cannot pass the last
statement of the procedure, the body ends with the code of that statement, and it is this code that
ends in returns. -/
theorem body_terminates (h : procedure.lower config = .ok lowered) :
    (lowered.function.results ≠ [] → Go.listTerminates lowered.function.body = true) ∧
    ∀ last, procedure.body.getLast? = some last → last.alwaysReturns = true →
      ∃ front code, last.IsWritten procedure config front code ∧
        lowered.function.body = front ++ code ∧ Go.listTerminates code = true := by
  obtain ⟨c, after, hstart, hruns⟩ := Procedure.lower_eq_ok h
  obtain ⟨functionName, verb, rfl⟩ := Context.start_eq_ok hstart
  obtain ⟨declared, hoisted, hdeclared, hhoisted, middle, headed, hparams, hresults, entered,
    finished, hentered, hfinished, hfinal, hbody, -⟩ := Lower.runs_lowerProcedure hruns
  obtain ⟨values, same, hvalues, hrest⟩ := runs_bind.mp hfinal
  obtain ⟨rfl, hlength⟩ := length_finalValues hdeclared hhoisted hparams hresults hentered hfinished
    hvalues
  simp only [runs_bind, runs_read] at hrest
  obtain ⟨_, _, ⟨rfl, rfl⟩, hend⟩ := hrest
  have hlast (last : Statement) (hlast : procedure.body.getLast? = some last)
      (hreturns : last.alwaysReturns = true) : ∃ front code,
        last.IsWritten procedure config front code ∧ lowered.function.body = front ++ code ∧
          Go.listTerminates code = true := by
    have hall : Statement.listReturns procedure.body = true :=
      Statement.listReturns_iff.mpr ⟨last, hlast, hreturns⟩
    rw [if_neg (by simp [hall])] at hend
    obtain ⟨-, rfl⟩ := runs_pure.mp hend
    obtain ⟨front, code, hwrites, hcode, hterminates⟩ :=
      exists_writes_last hlast rfl hreturns hfinished
    exact ⟨front, code, hwrites, hbody.trans hcode, hterminates⟩
  refine ⟨fun hresults => ?_, hlast⟩
  cases hall : Statement.listReturns procedure.body with
  | true =>
    obtain ⟨last, hmem, hreturns⟩ := Statement.listReturns_iff.mp hall
    obtain ⟨front, code, -, hcode, hterminates⟩ := hlast last hmem hreturns
    rw [hcode]
    exact Go.listTerminates_append hterminates
  | false =>
    have hvalues : values.isEmpty = false := by
      rw [List.isEmpty_eq_false_iff]
      rintro rfl
      exact hresults (List.length_eq_zero_iff.mp hlength.symm)
    rw [if_pos (by simp [hall, hvalues])] at hend
    obtain rfl := runs_emit.mp hend
    rw [hbody]
    exact Go.listTerminates_append (by simp [Go.Stmt.terminates])

open Build in
/-- A procedure that is left by a `RETURN`, by an error, or by a `RETURN` behind a query that the
innermost condition depends on. -/
def settle : Procedure where
  name := "usp_Settle"
  params := [input "n" "INT" none, output "total" "INT" none]
  body := [.set "@total" (int 0),
    ifElse (eq (var "n") (int 0)) [.ret (some (int 1))]
      [ifElse (lt (var "n") (int 0)) [.block [throw (int 50001) (text "negative") (int 1)]]
        [ifElse (.exists ((select [col "id"]).readFrom ⟨"Orders", none⟩))
          [.set "@total" (var "n"), .ret none] [.ret (some (int 2))]]]]

/-- The function of `settle` has three results, and nothing is added behind its last conditional. -/
theorem settle_body_terminates : ∃ lowered, settle.lower {} = .ok lowered ∧
    lowered.function.results.map (·.1) = ["total", "returnCode", "err"] ∧
    Go.listTerminates lowered.function.body = true ∧
    ∃ last front code, settle.body.getLast? = some last ∧ last.alwaysReturns = true ∧
      last.IsWritten settle {} front code ∧ lowered.function.body = front ++ code ∧
      Go.listTerminates code = true := by
  have hnames : (settle.lower {}).toOption.map (·.function.results.map (·.1)) =
      some ["total", "returnCode", "err"] := by
    decide +kernel
  cases hlower : settle.lower {} with
  | error error => simp [hlower, Except.toOption] at hnames
  | ok lowered =>
    rw [hlower] at hnames
    have hresults : lowered.function.results.map (·.1) = ["total", "returnCode", "err"] :=
      Option.some.inj hnames
    obtain ⟨hterminates, hlast⟩ := body_terminates hlower
    obtain ⟨front, code, hwrites, hbody, hcode⟩ := hlast _ rfl rfl
    refine ⟨lowered, rfl, hresults, hterminates ?_, _, front, code, rfl, rfl, hwrites, hbody, hcode⟩
    rintro hnone
    simp [hnone] at hresults

end Procedure

end Sproc
