import Sproc.Lower.Procedure

/-!
# Steps of a generation

A step of the generation reads where the current statement stands and changes what has been produced
so far. This module says what it means that a step succeeds or fails, and takes such a step apart:
each combinator of the generation has one equivalence for its success and one for its failure, read
from left to right to open a step and from right to left to build one.

## Main definitions

* `Lower.Runs`: a step succeeds with a result and a progress
* `Lower.Fails`: a step fails with an error
* `Progress.opened`, `Progress.closed`: the progress around a Go block
* `lowerChain`: a chain of conditionals that is not yet written

## Main results

* `runs_bind`, `runs_within`, `runs_located`, `runs_block`, `runs_emit`: successful steps opened
* `fails_bind`, `fails_within`, `fails_located`, `fails_block`: failing steps opened
* `Statement.childInduction`: induction on statements
* `lowerStatement_ifElse`, `lowerElse_of_continuesChain`: conditionals by their chains
-/

namespace Sproc

theorem Expr.mem_walk_self (e : Expr) : e ∈ e.walk := by
  cases e <;> rw [Expr.walk] <;> exact List.mem_cons_self

theorem mem_walkList {e : Expr} {list : List Expr} :
    e ∈ walkList list ↔ ∃ expr ∈ list, e ∈ expr.walk := by
  induction list with
  | nil => simp [walkList]
  | cons expr rest ih => simp [walkList, ih]

namespace Statement

/-- The statements of a branch or body are smaller than the statement. -/
theorem sizeOf_lt_of_children {s : Statement} {body : List Statement} (hbody : body ∈ s.children) :
    sizeOf body < sizeOf s := by
  cases s with
  | ifElse condition thenBranch elseBranch =>
    rw [children, List.mem_cons, Option.mem_toList] at hbody
    rcases hbody with rfl | rfl
    · simp only [ifElse.sizeOf_spec]
      omega
    · simp only [ifElse.sizeOf_spec, Option.some.sizeOf_spec]
      omega
  | «while» condition body =>
    obtain rfl := List.mem_singleton.mp hbody
    simp only [while.sizeOf_spec]
    omega
  | block body =>
    obtain rfl := List.mem_singleton.mp hbody
    simp only [block.sizeOf_spec]
    omega
  | tryCatch tryBody catchBody =>
    simp only [children, List.mem_cons, List.not_mem_nil, or_false] at hbody
    simp only [tryCatch.sizeOf_spec]
    rcases hbody with rfl | rfl <;> omega
  | _ => cases hbody

theorem sizeOf_lt_of_mem_children {s t : Statement} {body : List Statement}
    (hbody : body ∈ s.children) (ht : t ∈ body) : sizeOf t < sizeOf s :=
  Nat.lt_trans (List.sizeOf_lt_of_mem ht) (sizeOf_lt_of_children hbody)

/-- Induction on statements, where the statements of all branches and bodies come first. -/
theorem childInduction {P : Statement → Prop}
    (step : ∀ s, (∀ body ∈ s.children, ∀ t ∈ body, P t) → P s) (s : Statement) : P s :=
  step s fun _ hbody t ht =>
    have := sizeOf_lt_of_mem_children hbody ht
    childInduction step t
termination_by sizeOf s

theorem mem_nestedList {statement : Statement} {body : List Statement} :
    statement ∈ nestedList body ↔ ∃ s ∈ body, statement ∈ s.nested := by
  induction body with
  | nil => simp [nestedList]
  | cons s rest ih => simp [nestedList, ih]

theorem mem_nested_self (s : Statement) : s ∈ s.nested := by
  cases s <;> rw [nested] <;> exact List.mem_cons_self

/-- The statements inside a branch or body are inside the statement. -/
theorem mem_nested_of_mem_children {statement s inner : Statement} {body : List Statement}
    (hbody : body ∈ statement.children) (hs : s ∈ body) (hinner : inner ∈ s.nested) :
    inner ∈ statement.nested := by
  have hlist : inner ∈ nestedList body := mem_nestedList.mpr ⟨s, hs, hinner⟩
  cases statement with
  | ifElse condition thenBranch elseBranch =>
    rw [children, List.mem_cons, Option.mem_toList] at hbody
    rcases hbody with rfl | rfl <;> simp [nested, nestedElse, hlist]
  | «while» | block =>
    obtain rfl := List.mem_singleton.mp hbody
    simp [nested, hlist]
  | tryCatch tryBody catchBody =>
    simp only [children, List.mem_cons, List.not_mem_nil, or_false] at hbody
    rcases hbody with rfl | rfl <;> simp [nested, hlist]
  | _ => cases hbody

theorem mem_listSameHalf {handlers : Bool} {inner : Statement} {body : List Statement} :
    inner ∈ listSameHalf handlers body ↔ ∃ s ∈ body, inner ∈ s.sameHalf handlers := by
  induction body with
  | nil => simp [listSameHalf]
  | cons s rest ih => simp [listSameHalf, ih]

/-- The statements of one half are among all statements inside. -/
theorem mem_nested_of_mem_sameHalf {handlers : Bool} {statement inner : Statement}
    (h : inner ∈ statement.sameHalf handlers) : inner ∈ statement.nested := by
  induction statement using Statement.childInduction with
  | step statement ih =>
    have hlist {body : List Statement} (hbody : body ∈ statement.children)
        (hinner : inner ∈ listSameHalf handlers body) : inner ∈ statement.nested := by
      obtain ⟨s, hs, hmem⟩ := mem_listSameHalf.mp hinner
      exact mem_nested_of_mem_children hbody hs (ih body hbody s hs hmem)
    cases statement with
    | ifElse condition thenBranch elseBranch =>
      cases elseBranch with
      | none =>
        simp only [sameHalf, elseSameHalf, List.append_nil, List.mem_cons] at h
        rcases h with rfl | h
        · simp [nested]
        · exact hlist (by simp [children]) h
      | some elseBranch =>
        simp only [sameHalf, elseSameHalf, List.mem_append, List.mem_cons] at h
        rcases h with rfl | h | h
        · simp [nested]
        · exact hlist (by simp [children]) h
        · exact hlist (by simp [children]) h
    | «while» | block =>
      simp only [sameHalf, List.mem_cons] at h
      rcases h with rfl | h
      · simp [nested]
      · exact hlist (by simp [children]) h
    | tryCatch tryBody catchBody =>
      simp only [sameHalf, List.mem_cons] at h
      rcases h with rfl | h
      · simp [nested]
      · split at h <;> exact hlist (by simp [children]) h
    | _ => simpa [sameHalf, nested] using h

/-- Whether an alternative only continues a chain of conditionals: it is a conditional of its own
whose condition depends on no query. -/
def continuesChain : List Statement → Bool
  | [.ifElse condition _ _] => !condition.needsHoist
  | _ => false

theorem continuesChain_iff {body : List Statement} :
    continuesChain body = true ↔ ∃ condition thenBranch elseBranch,
      body = [.ifElse condition thenBranch elseBranch] ∧ condition.needsHoist = false := by
  unfold continuesChain
  grind

end Statement

namespace Progress

/-- The progress at the start of a Go block. -/
def opened (progress : Progress) : Progress :=
  { progress with output := [], names := progress.names.push }

/-- The progress behind a Go block that has ended with the progress `inner`. -/
def closed (progress inner : Progress) : Progress :=
  { inner with output := progress.output, names := inner.names.pop }

/-- The progress with a further statement. -/
def wrote (progress : Progress) (s : Go.Stmt) : Progress :=
  { progress with output := progress.output ++ [s] }

@[simp] theorem opened_transaction (progress : Progress) :
    progress.opened.transaction = progress.transaction := rfl

@[simp] theorem closed_transaction (progress inner : Progress) :
    (progress.closed inner).transaction = inner.transaction := rfl

@[simp] theorem wrote_transaction (progress : Progress) (s : Go.Stmt) :
    (progress.wrote s).transaction = progress.transaction := rfl

end Progress

namespace Lower

variable {α β : Type}

/-- A step, taken in a context, succeeds. -/
def Runs (step : Lower α) (context : Context) (before : Progress) (result : α)
    (after : Progress) : Prop :=
  step.execute context before = (.ok result, after)

variable {context : Context} {before after : Progress}

/-- A step has at most one outcome. -/
theorem Runs.unique {step : Lower α} {result result' : α} {after' : Progress}
    (h : step.Runs context before result after) (h' : step.Runs context before result' after') :
    result = result' ∧ after = after' := by
  have heq : (Except.ok result, after) = (Except.ok result', after') := h.symm.trans h'
  simpa using heq

theorem execute_pure (value : α) :
    (pure value : Lower α).execute context before = (.ok value, before) := rfl

theorem execute_bind (step : Lower α) (next : α → Lower β) :
    (step >>= next).execute context before =
      match step.execute context before with
      | (.ok value, middle) => (next value).execute context middle
      | (.error error, middle) => (.error error, middle) := by
  simp only [execute, bind, ReaderT.bind, ReaderT.run, ExceptT.bind, ExceptT.run, ExceptT.mk,
    StateT.bind, StateT.run]
  rcases step context before with ⟨outcome, middle⟩
  cases outcome <;> rfl

@[simp]
theorem runs_pure {value result : α} :
    (pure value : Lower α).Runs context before result after ↔ result = value ∧ after = before := by
  rw [Runs, execute_pure]
  grind

/-- A sequence succeeds exactly when both of its steps do. -/
theorem runs_bind {step : Lower α} {next : α → Lower β} {result : β} :
    (step >>= next).Runs context before result after ↔
      ∃ value middle, step.Runs context before value middle ∧
        (next value).Runs context middle result after := by
  unfold Runs
  rw [execute_bind]
  rcases step.execute context before with ⟨outcome, middle⟩
  cases outcome with
  | ok value => simp [and_assoc]
  | error error => simp

theorem Runs.bind {step : Lower α} {next : α → Lower β} {middle : Progress} {value : α} {result : β}
    (h : step.Runs context before value middle)
    (hnext : (next value).Runs context middle result after) :
    (step >>= next).Runs context before result after :=
  runs_bind.mpr ⟨value, middle, h, hnext⟩

@[simp]
theorem runs_read {result : Context} :
    (read : Lower Context).Runs context before result after ↔
      result = context ∧ after = before := by
  change (Except.ok context, before) = (Except.ok result, after) ↔ _
  grind

@[simp]
theorem runs_get {result : Progress} :
    (get : Lower Progress).Runs context before result after ↔
      result = before ∧ after = before := by
  change (Except.ok before, before) = (Except.ok result, after) ↔ _
  grind

@[simp]
theorem runs_set {progress : Progress} {result : PUnit} :
    (set progress : Lower PUnit).Runs context before result after ↔ after = progress := by
  change (Except.ok PUnit.unit, progress) = (Except.ok result, after) ↔ _
  grind

@[simp]
theorem runs_modify {change : Progress → Progress} {result : PUnit} :
    (modify change : Lower PUnit).Runs context before result after ↔ after = change before := by
  change (Except.ok PUnit.unit, change before) = (Except.ok result, after) ↔ _
  grind

@[simp]
theorem not_runs_fail {fault : Fault} {result : α} :
    ¬(fail fault : Lower α).Runs context before result after := by
  intro h
  cases h

@[simp]
theorem not_runs_unsupported {construct detail : String} {result : α} :
    ¬(unsupported construct detail : Lower α).Runs context before result after :=
  not_runs_fail

@[simp]
theorem runs_ofExcept {outcome : Except Fault α} {result : α} :
    (ofExcept outcome).Runs context before result after ↔ outcome = .ok result ∧ after = before := by
  cases outcome with
  | ok value =>
    rw [ofExcept, runs_pure]
    grind
  | error fault => simp [ofExcept]

@[simp]
theorem runs_within {change : Context → Context} {step : Lower α} {result : α} :
    (within change step).Runs context before result after ↔
      step.Runs (change context) before result after := Iff.rfl

theorem execute_located (step : Lower α) :
    (located step).execute context before =
      match step.execute context before with
      | (.ok value, middle) => (.ok value, middle)
      | (.error error, middle) =>
        (.error (error.located context.procedure.name context.pathText), middle) := by
  rcases hstep : step.execute context before with ⟨outcome, middle⟩
  have hraw : step context before = (outcome, middle) := hstep
  -- Reading the context leaves a step that catches the error of the given one.
  have hcatch : (located step).execute context before =
      (ExceptT.tryCatch (step context) fun error => fun progress =>
        (.error (error.located context.procedure.name context.pathText), progress)) before := rfl
  rw [hcatch]
  cases outcome with
  | ok value =>
    simp only [ExceptT.tryCatch, ExceptT.mk, bind, StateT.bind, hraw]
    rfl
  | error error => simp only [ExceptT.tryCatch, ExceptT.mk, bind, StateT.bind, hraw]

/-- A site for the errors of a step changes nothing about its success. -/
@[simp]
theorem runs_located {step : Lower α} {result : α} :
    (located step).Runs context before result after ↔ step.Runs context before result after := by
  unfold Runs
  rw [execute_located]
  rcases step.execute context before with ⟨outcome, middle⟩
  cases outcome <;> simp

@[simp]
theorem runs_emit {s : Go.Stmt} {result : Unit} :
    (emit s).Runs context before result after ↔ after = before.wrote s :=
  runs_modify

/-- A block collects what its step writes and leaves the enclosing statements alone. -/
theorem runs_block {step : Lower Unit} {body : List Go.Stmt} :
    (block step).Runs context before body after ↔
      ∃ inner, step.Runs context before.opened () inner ∧
        body = inner.output ∧ after = before.closed inner := by
  simp only [block, runs_bind, runs_get, runs_set, runs_pure]
  constructor
  · rintro ⟨_, _, ⟨rfl, rfl⟩, _, _, rfl, _, inner, hstep, _, _, ⟨rfl, rfl⟩, _, _, rfl, rfl, rfl⟩
    exact ⟨_, hstep, rfl, rfl⟩
  · rintro ⟨inner, hstep, rfl, rfl⟩
    exact ⟨_, _, ⟨rfl, rfl⟩, (), _, rfl, (), inner, hstep, _, _, ⟨rfl, rfl⟩, (), _, rfl, rfl, rfl⟩

/-- A declaration extends the table of variables and changes nothing else. -/
theorem runs_declare {name type : String} {kind : SymbolKind} {symbol : Symbol} :
    (declare name type kind).Runs context before symbol after ↔
      ∃ symbols, before.symbols.declare name type kind = .ok (symbol, symbols) ∧
        after = { before with symbols } := by
  simp only [declare, runs_bind, runs_get, runs_ofExcept, runs_modify, runs_pure]
  constructor
  · rintro ⟨_, _, ⟨rfl, rfl⟩, ⟨_, symbols⟩, _, ⟨hdeclare, rfl⟩, _, _, rfl, rfl, rfl⟩
    exact ⟨symbols, hdeclare, rfl⟩
  · rintro ⟨symbols, hdeclare, rfl⟩
    exact ⟨_, _, ⟨rfl, rfl⟩, (symbol, symbols), _, ⟨hdeclare, rfl⟩, (), _, rfl, rfl, rfl⟩

/-! ## Failing steps -/

/-- A step, taken in a context, fails. -/
def Fails (step : Lower α) (context : Context) (before : Progress) (error : Error)
    (after : Progress) : Prop :=
  step.execute context before = (.error error, after)

section Fails

variable {error : Error}

theorem runs_or_fails (step : Lower α) (context : Context) (before : Progress) :
    (∃ result after, step.Runs context before result after) ∨
      ∃ error after, step.Fails context before error after := by
  rcases hstep : step.execute context before with ⟨outcome, after⟩
  cases outcome with
  | ok result => exact .inl ⟨result, after, hstep⟩
  | error error => exact .inr ⟨error, after, hstep⟩

theorem Fails.not_runs {step : Lower α} {result : α} {after' : Progress}
    (h : step.Fails context before error after) : ¬step.Runs context before result after' := by
  intro hruns
  cases h.symm.trans hruns

/-- A step has at most one outcome. -/
theorem Fails.unique {step : Lower α} {error' : Error} {after' : Progress}
    (h : step.Fails context before error after) (h' : step.Fails context before error' after') :
    error = error' ∧ after = after' := by
  have heq : (Except.error error, after) = (Except.error error', after') := h.symm.trans h'
  simpa using heq

@[simp]
theorem not_fails_pure {value : α} : ¬(pure value : Lower α).Fails context before error after := by
  rintro ⟨⟩

/-- A sequence fails where its first step does, or behind it where the second one does. -/
theorem fails_bind {step : Lower α} {next : α → Lower β} :
    (step >>= next).Fails context before error after ↔
      step.Fails context before error after ∨
        ∃ value middle, step.Runs context before value middle ∧
          (next value).Fails context middle error after := by
  unfold Fails Runs
  rw [execute_bind]
  rcases step.execute context before with ⟨outcome, middle⟩
  cases outcome with
  | ok value => simp [and_assoc]
  | error error => simp

@[simp]
theorem fails_map {f : α → β} {step : Lower α} :
    (f <$> step).Fails context before error after ↔ step.Fails context before error after := by
  rw [map_eq_pure_bind, fails_bind]
  simp

@[simp]
theorem not_fails_read : ¬(read : Lower Context).Fails context before error after := by
  rintro ⟨⟩

@[simp]
theorem not_fails_get : ¬(get : Lower Progress).Fails context before error after := by
  rintro ⟨⟩

@[simp]
theorem not_fails_set {progress : Progress} :
    ¬(set progress : Lower PUnit).Fails context before error after := by
  rintro ⟨⟩

@[simp]
theorem not_fails_modify {change : Progress → Progress} :
    ¬(modify change : Lower PUnit).Fails context before error after := by
  rintro ⟨⟩

@[simp]
theorem not_fails_emit {s : Go.Stmt} : ¬(emit s).Fails context before error after :=
  not_fails_modify

@[simp]
theorem fails_fail {fault : Fault} :
    (fail fault : Lower α).Fails context before error after ↔
      error = ⟨fault, none⟩ ∧ after = before := by
  change (Except.error (⟨fault, none⟩ : Error), before) = (Except.error error, after) ↔ _
  grind

@[simp]
theorem fails_ofExcept {outcome : Except Fault α} :
    (ofExcept outcome).Fails context before error after ↔
      ∃ fault, outcome = .error fault ∧ error = ⟨fault, none⟩ ∧ after = before := by
  cases outcome with
  | ok value => simp [ofExcept]
  | error fault => simp [ofExcept]

@[simp]
theorem fails_within {change : Context → Context} {step : Lower α} :
    (within change step).Fails context before error after ↔
      step.Fails (change context) before error after := Iff.rfl

/-- An error of a step that has no site yet gets that of the current statement. -/
theorem fails_located {step : Lower α} :
    (located step).Fails context before error after ↔
      ∃ inner, step.Fails context before inner after ∧
        error = inner.located context.procedure.name context.pathText := by
  unfold Fails
  rw [execute_located]
  rcases step.execute context before with ⟨outcome, middle⟩
  cases outcome with
  | ok value => simp
  | error inner =>
    constructor
    · rintro ⟨⟩
      exact ⟨inner, rfl, rfl⟩
    · rintro ⟨_, ⟨⟩, rfl⟩
      rfl

/-- A block fails where its step does. -/
theorem fails_block {step : Lower Unit} :
    (block step).Fails context before error after ↔
      step.Fails context before.opened error after := by
  simp only [block, fails_bind, not_fails_get, not_fails_set, not_fails_pure, runs_get, runs_set,
    and_false, exists_false, or_false, false_or]
  constructor
  · rintro ⟨_, _, ⟨rfl, rfl⟩, _, _, rfl, hfails⟩
    exact hfails
  · intro hfails
    exact ⟨_, _, ⟨rfl, rfl⟩, (), _, rfl, hfails⟩

end Fails

/-- A declaration fails where the table of variables refuses it. -/
theorem fails_declare {name type : String} {kind : SymbolKind} {error : Error} :
    (declare name type kind).Fails context before error after ↔
      ∃ fault, before.symbols.declare name type kind = .error fault ∧ error = ⟨fault, none⟩ ∧
        after = before := by
  simp only [declare, fails_bind, not_fails_get, not_fails_modify, not_fails_pure, runs_get,
    runs_modify, fails_ofExcept, false_or, or_false, and_false, exists_false]
  constructor
  · rintro ⟨_, _, ⟨rfl, rfl⟩, hfault⟩
    exact hfault
  · intro hfault
    exact ⟨_, _, ⟨rfl, rfl⟩, hfault⟩

/-! ## Chains of conditionals -/

/-- A chain of conditionals that is not yet written: the first arm, the others, and the
alternative. -/
def lowerChain (condition : Expr) (thenBranch : List Statement)
    (elseBranch : Option (List Statement)) :
    Lower (Go.Arm × List Go.Arm × Option (List Go.Stmt)) := do
  let test ← lowerCondition condition
  let body ← block (within (Context.enter 0) (lowerStatements 0 none thenBranch))
  let (others, otherwise) ← lowerElse elseBranch
  return (.mk none test body, others, otherwise)

theorem lowerStatement_ifElse (rest : List Statement) (prepared : Option Fetch) (condition : Expr)
    (thenBranch : List Statement) (elseBranch : Option (List Statement)) :
    lowerStatement rest prepared (.ifElse condition thenBranch elseBranch) = (do
      let (first, others, otherwise) ← lowerChain condition thenBranch elseBranch
      emit (.branch first others otherwise)
      return prepared) := by
  simp [lowerStatement, lowerChain]

theorem lowerElse_of_continuesChain {condition : Expr} {thenBranch : List Statement}
    {elseBranch : Option (List Statement)} (h : condition.needsHoist = false) :
    lowerElse (some [.ifElse condition thenBranch elseBranch]) =
      within (Context.enter 0 ∘ Context.enter 1) (located do
        let (first, others, otherwise) ← lowerChain condition thenBranch elseBranch
        return (first :: others, otherwise)) := by
  simp [lowerElse, lowerChain, h]

theorem lowerElse_of_not_continuesChain {body : List Statement} (h : Statement.continuesChain body = false) :
    lowerElse (some body) = (do
      let body ← block (within (Context.enter 1) (lowerStatements 0 none body))
      return ([], some body)) := by
  unfold lowerElse
  split
  next heq => cases heq
  next condition thenBranch elseBranch heq =>
    cases heq
    have hhoist : condition.needsHoist = true := by simpa [Statement.continuesChain] using h
    rw [if_pos hhoist]
  next heq =>
    cases heq
    rfl

/-! ## Procedures -/

/-- The generation of a function in its stages: the variables, the head of the function, the
prologue, the statements, and the last return. -/
theorem runs_lowerProcedure {function : Go.Func}
    (h : lowerProcedure.Runs context before function after) :
    ∃ declared hoisted, (declareParams context.procedure.params).Runs context before () declared ∧
      (declareHoisted context.procedure.statements context.survey.hoisted).Runs context declared ()
        hoisted ∧
    ∃ middle headed, functionParams.Runs context hoisted function.params middle ∧
      functionResults.Runs context middle function.results headed ∧
    ∃ entered finished, emitPrologue.Runs context headed () entered ∧
      (lowerStatements 0 none context.procedure.body).Runs context entered () finished ∧
      emitFinalReturn.Runs context finished () after ∧ function.body = after.output ∧
      function.comment =
        commentLines context.functionName context.procedure hoisted.symbols ∧
      function.name = context.functionName := by
  simp only [lowerProcedure, runs_located, runs_bind, runs_read, runs_get, runs_pure] at h
  obtain ⟨_, _, ⟨rfl, rfl⟩, _, declared, hdeclared, _, hoisted, hhoisted, _, _, ⟨rfl, rfl⟩,
    params, middle, hparams, results, headed, hresults, _, entered, hentered, _, finished,
    hfinished, _, final, hfinal, _, _, ⟨rfl, rfl⟩, rfl, rfl⟩ := h
  exact ⟨declared, _, hdeclared, hhoisted, middle, headed, hparams, hresults, entered, finished,
    hentered, hfinished, hfinal, rfl, rfl, rfl⟩

end Lower

theorem Context.start_eq_ok {config : Config} {survey : Survey} {procedure : Procedure}
    {context : Context} (h : Context.start config survey procedure = .ok context) :
    ∃ functionName verb, context = { config, procedure, functionName, verb, survey } := by
  unfold Context.start at h
  cases hname : Identifier.functionName procedure.name with
  | error fault =>
    rw [hname] at h
    cases h
  | ok functionName =>
    cases hverb : Identifier.leadingVerb? procedure.name with
    | error fault =>
      rw [hname, hverb] at h
      cases h
    | ok verb =>
      rw [hname, hverb] at h
      cases h
      exact ⟨functionName, verb, rfl⟩

/-- A function is generated by a successful run in the context of its procedure, which has also
produced its imports and warnings. -/
theorem Procedure.lower_eq_ok_iff {procedure : Procedure} {config : Config}
    {lowered : LoweredProcedure} : procedure.lower config = .ok lowered ↔
      config.validate = .ok () ∧ ∃ context function after,
        Context.start config (.ofProcedure config procedure) procedure = .ok context ∧
        Lower.lowerProcedure.Runs context (Progress.start config (.ofProcedure config procedure))
          function after ∧
        lowered = ⟨procedure.name, function, after.imports, after.warnings⟩ := by
  unfold Procedure.lower Lower.Runs
  dsimp only
  constructor
  · intro h
    split at h
    next => cases h
    next => cases h
    next context hvalid hcontext =>
      split at h
      next => cases h
      next function after hruns =>
        cases h
        exact ⟨hvalid, context, function, after, hcontext, hruns, rfl⟩
  · rintro ⟨hvalid, context, function, after, hcontext, hruns, rfl⟩
    rw [hvalid, hcontext]
    dsimp only
    rw [hruns]

theorem Procedure.lower_eq_ok {procedure : Procedure} {config : Config}
    {lowered : LoweredProcedure} (h : procedure.lower config = .ok lowered) :
    ∃ context after, Context.start config (.ofProcedure config procedure) procedure = .ok context ∧
      Lower.lowerProcedure.Runs context (Progress.start config (.ofProcedure config procedure))
        lowered.function after := by
  obtain ⟨-, context, function, after, hcontext, hruns, rfl⟩ := lower_eq_ok_iff.mp h
  exact ⟨context, after, hcontext, hruns⟩

theorem Procedure.exists_lower_eq_ok {procedure : Procedure} {config : Config}
    (h : (procedure.lower config).isOk = true) : ∃ lowered, procedure.lower config = .ok lowered := by
  cases hlower : procedure.lower config with
  | error error => simp [hlower, Except.isOk, Except.toBool] at h
  | ok lowered => exact ⟨lowered, rfl⟩

end Sproc
