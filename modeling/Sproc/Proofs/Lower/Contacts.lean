import Mathlib.Data.List.Flatten
import Sproc.Proofs.Lower.DataCalls
import Sproc.Proofs.Lower.Dispatch

/-!
# The contacts of statements

Each statement names the contacts that it makes itself: those of a data statement, and those for the
queries inside the expressions that it evaluates. This is shown for a single statement first, and
for a tree of statements by induction: the branches of a conditional, the rounds of a loop and the
halves of a `TRY` statement deliver what their statements deliver, in whatever order they are
written.

## Main definitions

* `Statement.ownContacts`: the contacts that a statement makes by itself
* `Charter.Admits`: a statement may use its cursor
* `Statement.Obeys`: a statement delivers what it names

## Main results

* `Statement.obeys`: every statement delivers what it names, if its cursors may be used
* `delivers_lowerStatements`: lists of statements
* `delivers_emitPrologue`: the first lines of a function
-/

namespace Sproc

open Go
open Contact (hoists)

namespace Statement

/-- The contacts that a statement makes by itself. Those with the rows of cursors are left out. -/
def ownContacts : Statement → List Contact
  | .declare vars => hoists (vars.flatMap fun var => optionSources var.init)
  | .declareCursor _ query => (query.source.map Contact.cursor).toList
  | .set target value =>
    match Lower.assignmentQuery? target value with
    | some query => query.contacts
    | none => hoists value.sources
  | .ifElse condition _ _ | .while condition _ => hoists condition.sources
  | .ret value => hoists (optionSources value)
  | .print value => hoists value.sources
  | .select query => query.contacts
  | .insert i => [.data i.table i.messages]
  | .update u => [.data u.table 1]
  | .delete d => [.data d.table 1]
  | .exec _ => [.call]
  | .raiserror message _ _ => hoists message.sources
  | .throw (some args) => hoists (args.number.sources ++ args.message.sources)
  | _ => []

/-- The contacts of a statement and of those inside it. -/
def contacts (s : Statement) : List Contact :=
  s.nested.flatMap ownContacts

/-- The contacts of a list of statements. -/
def listContacts (statements : List Statement) : List Contact :=
  (nestedList statements).flatMap ownContacts

theorem listContacts_cons (s : Statement) (rest : List Statement) :
    listContacts (s :: rest) = s.contacts ++ listContacts rest :=
  List.flatMap_append

theorem contacts_ifElse (condition : Expr) (thenBranch : List Statement)
    (elseBranch : Option (List Statement)) :
    (ifElse condition thenBranch elseBranch).contacts = hoists condition.sources ++
      (listContacts thenBranch ++ (nestedElse elseBranch).flatMap ownContacts) := by
  rw [contacts, nested, List.flatMap_cons, List.flatMap_append]
  rfl

theorem contacts_tryCatch (tryBody catchBody : List Statement) :
    (tryCatch tryBody catchBody).contacts = listContacts tryBody ++ listContacts catchBody := by
  rw [contacts, nested, List.flatMap_cons, List.flatMap_append]
  rfl

theorem contacts_while (condition : Expr) (body : List Statement) :
    (Statement.while condition body).contacts = hoists condition.sources ++ listContacts body := by
  rw [contacts, nested, List.flatMap_cons]
  rfl

/-- A statement without statements inside only makes its own contacts. -/
theorem contacts_leaf {s : Statement} (h : s.children = []) : s.contacts = s.ownContacts := by
  cases s with
  | ifElse _ _ _ | «while» _ _ | block _ | tryCatch _ _ => cases h
  | _ => simp [contacts, nested]

end Statement

/-- A statement may use its cursor, where iterators of the given cursors are advanced by loops
around it. -/
structure Charter.Admits (L : Charter) (looping : List String) (s : Statement) : Prop where
  declares {name : String} {query : Select} {table : TableRef} : s = .declareCursor name query →
    query.source = some table → L.serves (Text.toLower name) → L.allows (.rows table)
  opens {name : String} : s = .openCursor name → L.serves (Text.toLower name)
  fetches {fetch : Fetch} : s = .fetch fetch →
    L.serves (Text.toLower fetch.cursor) ∨ Text.toLower fetch.cursor ∈ looping
  loops : s.isCursorLoop = true → ∀ key, L.serves key

namespace Lower

variable {α : Type} {L : Charter} {looping : List String} {c : Context} {due : List Event}
  {contacts contacts' : List Contact}

/-! ## Declarations and assignments -/

theorem delivers_lowerDeclare (var : VarDecl) :
    (lowerDeclare var).Delivers L c [] (hoists (optionSources var.init)) := by
  refine carries_read_bind ?_
  split
  · cases var.init with
    | none => exact delivers_computed (hasEffect_pure _)
    | some init => exact delivers_assignVariable var.name init
  refine carries_sends_bind (sends_ofExcept fun _ _ => trivial) fun info _ => ?_
  have hdeclared {value : Option Go.Expr} (hvalue : optionEvents value = []) : (do
      let symbol ← declare var.name var.type .declared
      importType info.go
      emit (.declare symbol.goName (.value info.go) value)
      emitUse var.name symbol.goName : Lower Unit).Delivers L c [] [] := by
    refine carries_sends_bind (sends_declare _ _ _) fun symbol _ => ?_
    refine carries_sends_bind (sends_computed (hasEffect_importType _)) fun _ _ => ?_
    have hdeclare : (Go.Stmt.declare symbol.goName (.value info.go) value).events = [] := by
      rw [Stmt.events, hvalue]
    exact (sends_first_bind (sends_emit hdeclare) fun _ _ => sends_emitUse _ _).delivers
  dsimp only
  cases var.init with
  | some init =>
    have hvalue : (some <$> lowerValue init info.go).Carries L c [] (hoists init.sources)
        fun value owed => owed = [] ∧ optionEvents value = [] :=
      carries_value_bind_last (carries_lowerValue init info.go) fun e he =>
        carries_pure ⟨rfl, he.events_eq_nil⟩
    exact carries_value_bind_last hvalue fun value hvalue => hdeclared hvalue
  | none =>
    exact carries_sends_bind (sends_pure (P := fun value => value = none) rfl) fun value hvalue =>
      hdeclared (by rw [hvalue]; rfl)

theorem delivers_lowerDeclares (vars : List VarDecl) : (lowerDeclares vars).Delivers L c []
    (hoists (vars.flatMap fun var => optionSources var.init)) := by
  induction vars with
  | nil => exact delivers_computed (hasEffect_pure _)
  | cons var rest ih =>
    rw [List.flatMap_cons, Contact.hoists_append]
    exact delivers_bind (delivers_lowerDeclare var) fun _ => ih

theorem delivers_lowerSet (target : String) (value : Expr) :
    (lowerSet target value).Delivers L c [] (Statement.set target value).ownContacts := by
  unfold lowerSet
  rw [Statement.ownContacts]
  cases assignmentQuery? target value with
  | none => exact delivers_assignVariable target value
  | some query =>
    exact carries_sends_bind (sends_computed (hasEffect_lookup _)) fun _ _ =>
      delivers_lowerSelect query

/-! ## Ways out -/

theorem carries_lowerStatus (status : Option Expr) :
    (lowerStatus status).Carries L c [] (hoists (optionSources status)) fun value owed =>
      owed = [] ∧ ∀ e ∈ value, e.events = [] := by
  cases status with
  | none => exact carries_pure ⟨rfl, nofun⟩
  | some expr =>
    refine carries_value_bind_last (carries_lowerValue expr .int32) fun e he =>
      carries_pure ⟨rfl, ?_⟩
    rintro _ ⟨⟩
    exact he.events_eq_nil

theorem delivers_lowerThrow (args : Option ThrowArgs) :
    (lowerThrow args).Delivers L c [] (Statement.throw args).ownContacts := by
  cases args with
  | none =>
    exact carries_read_bind (carries_when not_runs_unsupported (sends_raise rfl).delivers)
  | some args =>
    rw [Statement.ownContacts, Contact.hoists_append]
    refine carries_value_bind (carries_lowerValue args.number .int32) fun number hnumber => ?_
    have hargs := carries_lowerValue (L := L) (c := c) args.message .string
    refine carries_value_bind_last hargs fun message hmessage => ?_
    refine carries_sends_bind (sends_computed (hasEffect_importPath _)) fun _ _ => ?_
    refine (sends_raise ?_).delivers
    rw [Expr.events_invoke (by decide) (by decide) (request?_eq_none_of_length _ (by simp))]
    simp [hnumber.events_eq_nil, hmessage.events_eq_nil]

theorem delivers_lowerRaiserror (message severity : Expr) :
    (lowerRaiserror message severity).Delivers L c [] (hoists message.sources) := by
  refine carries_value_bind_last (carries_lowerValue message .string) fun text htext => ?_
  split
  · exact (sends_emitLog (by decide) (by decide) htext).delivers
  · refine carries_sends_bind (sends_computed (hasEffect_importPath _)) fun _ _ => ?_
    refine (sends_raise ?_).delivers
    rw [Expr.events_invoke (by decide) (by decide) rfl]
    simp [htext.events_eq_nil]

/-! ## Statements without statements inside -/

theorem delivers_lowerLeaf {s : Statement} (hs : s.children = []) (h : L.Admits looping s)
    (hlooping : looping ⊆ c.looping) (rest : List Statement) (prepared : Option Fetch) :
    (lowerStatement rest prepared s).Delivers L c [] s.ownContacts := by
  have hreturn {step : Lower Unit} {contacts : List Contact} (hstep : step.Delivers L c [] contacts)
      (result : Option Fetch) :
      (step >>= fun _ => pure result).Delivers L c [] contacts :=
    carries_bind_last hstep fun _ _ howed => carries_pure howed
  cases s with
  | ifElse _ _ _ | «while» _ _ | block _ | tryCatch _ _ => cases hs
  | declare vars =>
    rw [lowerStatement]
    exact hreturn (delivers_lowerDeclares vars) _
  | declareCursor name query =>
    rw [lowerStatement]
    exact hreturn (delivers_declareCursor fun table hsource => h.declares rfl hsource) _
  | set target value =>
    rw [lowerStatement]
    exact hreturn (delivers_lowerSet target value) _
  | ret value =>
    rw [lowerStatement]
    exact carries_value_bind_last (carries_lowerStatus value) fun status hstatus =>
      hreturn (sends_lowerReturn hstatus).delivers _
  | print value =>
    rw [lowerStatement]
    exact carries_value_bind_last (carries_lowerValue value .string) fun message hmessage =>
      hreturn (sends_emitLog (by decide) (by decide) hmessage).delivers _
  | breakLoop | continueLoop =>
    rw [lowerStatement]
    exact carries_sends_bind (sends_computed (hasEffect_checkJump _)) fun _ _ =>
      hreturn (sends_emit rfl).delivers _
  | select query =>
    rw [lowerStatement]
    exact hreturn (delivers_lowerSelect query) _
  | insert insert =>
    rw [lowerStatement]
    exact hreturn (delivers_lowerInsert insert) _
  | update update =>
    rw [lowerStatement]
    exact hreturn (delivers_lowerUpdate update) _
  | delete delete =>
    rw [lowerStatement]
    exact hreturn (delivers_lowerDelete delete) _
  | exec exec =>
    rw [lowerStatement]
    exact hreturn (delivers_lowerExec exec) _
  | execDynamic text =>
    rw [lowerStatement]
    exact carries_unsupported
  | openCursor name =>
    rw [lowerStatement]
    exact hreturn (delivers_openCursor (h.opens rfl)) _
  | fetch fetch =>
    rw [lowerStatement]
    refine carries_sends_bind (sends_ofExcept fun _ _ => trivial) fun primes _ => ?_
    split
    · exact carries_pure rfl
    · exact hreturn (delivers_fetchRow ((h.fetches rfl).imp_right fun hmem => hlooping hmem)) _
  | closeCursor name =>
    rw [lowerStatement]
    exact hreturn (delivers_closeCursor name) _
  | deallocate name =>
    rw [lowerStatement]
    exact hreturn (delivers_deallocateCursor name) _
  | beginTransaction name =>
    rw [lowerStatement]
    exact hreturn (sends_beginTransaction name).delivers _
  | commit name | rollback name =>
    rw [lowerStatement]
    exact hreturn (sends_endTransaction _ (by decide) (by decide)).delivers _
  | savepoint name =>
    rw [lowerStatement]
    exact hreturn carries_fail _
  | raiserror message severity state =>
    rw [lowerStatement]
    exact hreturn (delivers_lowerRaiserror message severity) _
  | throw args =>
    rw [lowerStatement]
    exact hreturn (delivers_lowerThrow args) _

/-! ## Loops -/

/-- A condition is evaluated where nothing is due, unless it has no queries inside. -/
theorem carries_lowerCondition {condition : Expr} (hdue : due = [] ∨ condition.needsHoist = false) :
    (lowerCondition condition).Carries L c due (hoists condition.sources) fun e owed =>
      owed = due ∧ e.Composed .everything false 1 := by
  rcases hdue with rfl | hhoist
  · exact carries_lowerValue condition .bool
  · refine Carries.fulfils ?_ (Contact.fulfils_hoists List.nil_subperm)
    exact (sends_lowerCondition hhoist).carries fun _ he => ⟨rfl, he⟩

theorem delivers_lowerWhile {condition : Expr} {body : Lower Unit}
    (hbody : body.Delivers L c.enterLoop [] contacts) :
    (lowerWhile condition body).Delivers L c [] (hoists condition.sources ++ contacts) := by
  unfold lowerWhile
  split
  · have hround : (do emitLoopTest condition; body).Delivers L c.enterLoop []
        (hoists condition.sources ++ contacts) :=
      delivers_bind (delivers_emitLoopTest condition) fun _ => hbody
    refine carries_bind_last (carries_within rfl (carries_block hround []))
      fun body owed howed => ?_
    exact (sends_emit (by simp [howed])).delivers
  · refine carries_value_bind (carries_lowerCondition (.inl rfl)) fun test htest => ?_
    refine carries_bind_last (carries_within rfl (carries_block hbody [])) fun body owed howed => ?_
    exact (sends_emit (by simp [howed, htest.events_eq_nil])).delivers

/-- The queries inside a condition are those inside its conjuncts. -/
theorem sources_eq_conjuncts (condition : Expr) :
    condition.sources = condition.conjuncts.flatMap Expr.sources := by
  fun_induction Expr.conjuncts condition with
  | case1 left right ihleft ihright =>
    rw [Expr.sources, List.flatMap_append, ihleft, ihright]
  | case2 condition _ => simp

theorem sources_foldl_and (first : Expr) (rest : List Expr) :
    (rest.foldl (fun condition next => .binary .and condition next) first).sources =
      (first :: rest).flatMap Expr.sources := by
  induction rest generalizing first with
  | nil => simp
  | cons next rest ih =>
    rw [List.foldl_cons, ih]
    simp [Expr.sources]

/-- What is required beyond the success of a fetch has no queries of its own. -/
theorem sources_sentinelRest {condition : Expr} {rest : Option Expr}
    (hrest : sentinelRest? condition = some rest) :
    (optionSources rest).Sublist condition.sources := by
  unfold sentinelRest? at hrest
  dsimp only at hrest
  split at hrest
  next =>
    obtain rfl := Option.some.inj hrest
    have hparts : ((condition.conjuncts.filter (!·.isSentinel)).flatMap Expr.sources).Sublist
        condition.sources := by
      rw [sources_eq_conjuncts]
      exact List.filter_sublist.flatMap _
    revert hparts
    generalize condition.conjuncts.filter (!·.isSentinel) = parts
    intro hparts
    cases parts with
    | nil => exact List.nil_sublist _
    | cons first rest =>
      rw [← sources_foldl_and] at hparts
      exact hparts
  next => cases hrest

theorem delivers_lowerFetchLoop {prepared : Option Fetch} {rest : Option Expr}
    {statements : List Statement} {body : Lower Unit} (hserves : ∀ key, L.serves key)
    (hbody : ∀ fetch, body.Delivers L (inCursorLoop fetch (c.enter 0)) [] contacts) :
    (lowerFetchLoop prepared rest statements body).Delivers L c []
      (hoists (optionSources rest) ++ contacts) := by
  unfold lowerFetchLoop
  split
  · exact carries_unsupported
  · exact carries_within rfl (delivers_lowerCursorLoop (hserves _) (hbody _))

/-! ## Handlers -/

theorem delivers_emitRecover {catchBody : List Statement} {handler : Lower Unit}
    (h : handler.Delivers L (inHandler c) [] contacts) :
    (emitRecover catchBody handler).Delivers L c [] contacts := by
  have hhandler : (do emitHandlerStart catchBody; within inHandler handler).Delivers L c []
      contacts :=
    carries_sends_bind (sends_emitHandlerStart catchBody) fun _ _ => carries_within rfl h
  refine carries_bind_last (carries_block (delivers_emitIf rfl rfl hhandler) [])
    fun deferred owed howed => ?_
  exact (sends_emit (by simp [howed])).delivers

/-- The contacts of both halves, that of the handler being written first. -/
theorem delivers_lowerTryCatch {tryBody catchBody : List Statement} {attempt handler : Lower Unit}
    (hattempt : ∀ flag, attempt.Delivers L (inTry flag c) [] contacts)
    (hhandler : handler.Delivers L (inHandler c) [] contacts') :
    (lowerTryCatch tryBody catchBody attempt handler).Delivers L c [] (contacts ++ contacts') := by
  refine carries_get_bind fun p => ?_
  refine carries_sends_bind (sends_returnFlag? tryBody) fun flag _ => ?_
  refine carries_sends_bind (sends_setTransaction _) fun _ _ => ?_
  have hliteral : (do
      emitRecover catchBody handler
      let afterCatch := (← get).transaction
      setTransaction p.transaction
      within (inTry flag) attempt
      setTransaction ((← get).transaction.join afterCatch) : Lower Unit).Delivers L c []
        (contacts' ++ contacts) := by
    refine delivers_bind (delivers_emitRecover hhandler) fun _ => carries_get_bind fun q => ?_
    refine carries_sends_bind (sends_setTransaction _) fun _ _ => ?_
    refine carries_bind_last (carries_within rfl (hattempt flag)) fun _ owed howed => ?_
    rw [howed]
    exact carries_get_bind fun r => (sends_setTransaction _).delivers
  refine Carries.fulfils ?_ (.of_perm List.perm_append_comm)
  refine carries_bind_last (carries_block hliteral []) fun literal owed howed => ?_
  have hclosure : (emit (.closure false literal)).Delivers L c owed [] :=
    (sends_emit (by simp [howed])).delivers
  exact delivers_first_bind hclosure fun _ => (sends_emitWayOut flag catchBody).delivers

end Lower

/-! ## Trees of statements -/

/-- A statement delivers what it names, wherever it stands. A conditional does so before it is
written, too, since it may become a part of another one; it then has no queries in its condition, so
that something may be due. -/
structure Statement.Obeys (L : Charter) (looping : List String) (s : Statement) : Prop where
  statement {c : Context} : looping ⊆ c.looping → ∀ (rest : List Statement)
    (prepared : Option Fetch), (Lower.lowerStatement rest prepared s).Delivers L c [] s.contacts
  chain {condition : Expr} {thenBranch : List Statement} {elseBranch : Option (List Statement)} :
    s = .ifElse condition thenBranch elseBranch → ∀ (c : Context) (due : List Event),
      looping ⊆ c.looping → (due = [] ∨ condition.needsHoist = false) →
        (Lower.lowerChain condition thenBranch elseBranch).Carries L c due s.contacts
          fun chain owed => owed = due ++ (Stmt.branch chain.1 chain.2.1 chain.2.2).events

namespace Lower

variable {L : Charter} {looping : List String} {c : Context} {due : List Event}

theorem delivers_lowerStatements_of {statements : List Statement}
    (h : ∀ s ∈ statements, s.Obeys L looping) (hlooping : looping ⊆ c.looping) (index : Nat)
    (prepared : Option Fetch) :
    (lowerStatements index prepared statements).Delivers L c []
      (Statement.listContacts statements) := by
  induction statements generalizing index prepared with
  | nil => exact (sends_pure (P := fun _ => True) trivial).delivers
  | cons s rest ih =>
    rw [List.forall_mem_cons] at h
    rw [lowerStatements, Statement.listContacts_cons]
    refine delivers_bind ?_ fun _ => ih h.2 _ _
    exact carries_within rfl (carries_located (h.1.statement (c := c.enter index) hlooping _ _))

/-- A branch owes the events of its statements. -/
theorem carries_branch {statements : List Statement} (h : ∀ s ∈ statements, s.Obeys L looping)
    (hlooping : looping ⊆ c.looping) (index : Nat) (due : List Event) :
    (block (within (Context.enter index) (lowerStatements 0 none statements))).Carries L c due
      (Statement.listContacts statements) fun body owed => owed = due ++ listEvents body :=
  carries_block (carries_within rfl
    (delivers_lowerStatements_of (c := c.enter index) h hlooping 0 none)) due

/-- The branches behind the first one. -/
theorem carries_lowerElse {elseBranch : Option (List Statement)}
    (h : ∀ body ∈ elseBranch, ∀ s ∈ body, s.Obeys L looping) (hlooping : looping ⊆ c.looping) :
    (lowerElse elseBranch).Carries L c due
      ((Statement.nestedElse elseBranch).flatMap Statement.ownContacts) fun chain owed =>
        owed = due ++ (armEvents chain.1 ++ elseEvents chain.2) := by
  cases elseBranch with
  | none =>
    rw [lowerElse]
    exact carries_pure (List.append_nil _).symm
  | some body =>
    have hbody := h body rfl
    cases hchain : Statement.continuesChain body with
    | false =>
      rw [lowerElse_of_not_continuesChain hchain]
      refine carries_bind_last (carries_branch hbody hlooping 1 due) fun body owed howed => ?_
      exact carries_pure howed
    | true =>
      obtain ⟨condition, thenBranch, otherwise, rfl, hhoist⟩ :=
        Statement.continuesChain_iff.mp hchain
      rw [lowerElse_of_continuesChain hhoist]
      have hcontacts :
          (Statement.nestedElse (some [.ifElse condition thenBranch otherwise])).flatMap
            Statement.ownContacts = (Statement.ifElse condition thenBranch otherwise).contacts := by
        rw [Statement.nestedElse, Statement.nestedList, Statement.nestedList, List.append_nil]
        rfl
      rw [hcontacts]
      have hnested := (hbody _ List.mem_cons_self).chain rfl ((c.enter 1).enter 0) due hlooping
        (.inr hhoist)
      refine carries_within rfl (carries_located ?_)
      refine carries_bind_last hnested fun chain owed howed => carries_pure ?_
      obtain ⟨⟨init, test, body⟩, others, last⟩ := chain
      simp [howed]

theorem carries_lowerChain {condition : Expr} {thenBranch : List Statement}
    {elseBranch : Option (List Statement)}
    (hthen : ∀ s ∈ thenBranch, s.Obeys L looping)
    (helse : ∀ body ∈ elseBranch, ∀ s ∈ body, s.Obeys L looping) (hlooping : looping ⊆ c.looping)
    (hdue : due = [] ∨ condition.needsHoist = false) :
    (lowerChain condition thenBranch elseBranch).Carries L c due
      (Statement.ifElse condition thenBranch elseBranch).contacts fun chain owed =>
        owed = due ++ (Stmt.branch chain.1 chain.2.1 chain.2.2).events := by
  rw [Statement.contacts_ifElse]
  refine carries_bind (carries_lowerCondition hdue) fun test owed htest => ?_
  obtain ⟨rfl, htest⟩ := htest
  refine carries_bind (carries_branch hthen hlooping 0 owed) fun body later hlater => ?_
  refine carries_bind_last (carries_lowerElse helse hlooping) fun chain last hlast => ?_
  refine carries_pure ?_
  simp [hlast, hlater, htest.events_eq_nil]

end Lower

/-- Every statement delivers what it names, if those inside it may make their contacts. -/
theorem Statement.obeys {L : Charter} {looping : List String} (s : Statement)
    (h : ∀ t ∈ s.nested, L.Admits looping t) : s.Obeys L looping := by
  induction s using Statement.childInduction with
  | step s ih =>
    have hself := h s s.mem_nested_self
    have hchild {body : List Statement} (hbody : body ∈ s.children) :
        ∀ t ∈ body, t.Obeys L looping := fun t ht =>
      ih body hbody t ht fun inner hinner => h inner (mem_nested_of_mem_children hbody ht hinner)
    have hlist {body : List Statement} (hbody : body ∈ s.children) {c : Context}
        (hlooping : looping ⊆ c.looping) :
        (Lower.lowerStatements 0 none body).Delivers L c [] (listContacts body) :=
      Lower.delivers_lowerStatements_of (hchild hbody) hlooping 0 none
    have hchain {condition : Expr} {thenBranch : List Statement}
        {elseBranch : Option (List Statement)} (hs : s = .ifElse condition thenBranch elseBranch)
        (c : Context) (due : List Event) (hlooping : looping ⊆ c.looping)
        (hdue : due = [] ∨ condition.needsHoist = false) :
        (Lower.lowerChain condition thenBranch elseBranch).Carries L c due s.contacts
          fun chain owed => owed = due ++ (Stmt.branch chain.1 chain.2.1 chain.2.2).events := by
      subst hs
      refine Lower.carries_lowerChain (hchild List.mem_cons_self) ?_ hlooping hdue
      exact fun body hbody => hchild (List.mem_cons_of_mem _ (Option.mem_toList.mpr hbody))
    refine ⟨fun {c} hlooping rest prepared => ?_, hchain⟩
    have hreturn {step : Lower Unit} {due : List Event} {contacts : List Contact}
        (hstep : step.Delivers L c due contacts) (result : Option Fetch) :
        (step >>= fun _ => pure result).Delivers L c due contacts :=
      Lower.carries_bind_last hstep fun _ _ howed => Lower.carries_pure howed
    cases s with
    | ifElse condition thenBranch elseBranch =>
      rw [Lower.lowerStatement_ifElse]
      refine Lower.carries_bind_last (hchain rfl c [] hlooping (.inl rfl))
        fun chain owed howed => ?_
      exact hreturn (Lower.sends_emit howed.symm).delivers prepared
    | «while» condition body =>
      rw [Lower.lowerStatement, contacts_while]
      have hbody := fun {c : Context} => hlist (List.mem_singleton_self body) (c := c)
      cases hrest : sentinelRest? condition with
      | none =>
        exact hreturn (Lower.delivers_lowerWhile
          (Lower.carries_within rfl (hbody hlooping))) _
      | some more =>
        have hserves := hself.loops (by simp [Statement.isCursorLoop, hrest])
        have hloop : (Lower.lowerFetchLoop prepared more body
            (Lower.lowerStatements 0 none body)).Delivers L c []
              (hoists (optionSources more) ++ listContacts body) :=
          Lower.delivers_lowerFetchLoop hserves fun fetch =>
            hbody (List.subset_cons_of_subset _ hlooping)
        have hsources := Contact.fulfils_hoists (Lower.sources_sentinelRest hrest).subperm
        exact hreturn (Lower.Carries.fulfils hloop (hsources.append (.refl _))) _
    | block body =>
      rw [Lower.lowerStatement]
      exact hreturn (hlist List.mem_cons_self hlooping) _
    | tryCatch tryBody catchBody =>
      rw [Lower.lowerStatement, Statement.contacts_tryCatch]
      refine hreturn (Lower.delivers_lowerTryCatch (fun flag => ?_) ?_) _
      · exact hlist List.mem_cons_self hlooping
      · exact hlist (List.mem_cons_of_mem _ List.mem_cons_self) hlooping
    | _ =>
      rw [contacts_leaf rfl]
      exact Lower.delivers_lowerLeaf rfl hself hlooping rest prepared

namespace Lower

variable {L : Charter} {looping : List String} {c : Context}

/-- Lists of statements make the contacts of their statements. -/
theorem delivers_lowerStatements {statements : List Statement} (hlooping : looping ⊆ c.looping)
    (h : ∀ s ∈ Statement.nestedList statements, L.Admits looping s) (index : Nat)
    (prepared : Option Fetch) :
    (lowerStatements index prepared statements).Delivers L c []
      (Statement.listContacts statements) := by
  refine delivers_lowerStatements_of (fun s hs => s.obeys fun t ht => ?_) hlooping index prepared
  exact h t (Statement.mem_nestedList.mpr ⟨s, hs, ht⟩)

/-! ## The first lines of a function -/

theorem sends_inputPairs (params : List Parameter) :
    (inputPairs params).Sends c [] fun pairs => ∀ e ∈ pairs, e.Composed .everything false 1 := by
  induction params with
  | nil => exact sends_pure (List.forall_mem_nil _)
  | cons param rest ih =>
    refine sends_first_bind (sends_computed (hasEffect_lookup _)) fun symbol _ => ?_
    refine sends_first_bind ih fun pairs hpairs => sends_pure ?_
    exact List.forall_mem_cons.mpr ⟨.loosen (.str _) (by decide),
      List.forall_mem_cons.mpr ⟨.loosen (.name trivial) (by decide), hpairs⟩⟩

theorem sends_emitEntry : emitEntry.Sends c [] fun _ => True := by
  refine sends_read_bind ?_
  refine sends_first_bind (sends_computed (hasEffect_importPath _)) fun _ _ => ?_
  refine sends_first_bind (sends_inputPairs _) fun pairs hpairs => sends_emit ?_
  have hnot {package type : String} {fields : List (String × Go.Expr)} :
      .message package type fields ∉ pairs := fun hmem => Expr.not_composed_message (hpairs _ hmem)
  have hevents : exprEvents pairs = [] := exprEvents_eq_nil fun e he => (hpairs e he).events_eq_nil
  rw [Stmt.events, Expr.events_invoke (by decide) (by decide)
    (request?_eq_none_of_notMem _ fun _ _ _ hmem => hnot (by simpa [ctx] using hmem))]
  simp [ctx, hevents]

theorem delivers_emitDefaults (params : List Parameter) : (emitDefaults params).Delivers L c []
    (hoists (params.flatMap fun param => optionSources param.default)) := by
  induction params with
  | nil => exact delivers_computed (hasEffect_pure _)
  | cons param rest ih =>
    rw [List.flatMap_cons]
    unfold emitDefaults
    cases param.default with
    | none => exact ih
    | some value =>
      rw [Contact.hoists_append]
      exact delivers_bind (delivers_assignVariable _ value) fun _ => ih

theorem sends_emitCounters : emitCounters.Sends c [] fun _ => True := by
  refine sends_read_bind (sends_perhaps (sends_emit rfl) (sends_perhaps (sends_emit rfl) ?_))
  split
  · exact sends_first_bind (sends_computed (hasEffect_importPath _)) fun _ _ => sends_emit rfl
  · exact sends_pure trivial

theorem sends_emitHoisted (names : List String) :
    (emitHoisted names).Sends c [] fun _ => True := by
  induction names with
  | nil => exact sends_pure trivial
  | cons name rest ih =>
    refine sends_get_bind fun p => ?_
    split
    · refine sends_first_bind (sends_computed (hasEffect_importType _)) fun _ _ => ?_
      refine sends_first_bind (sends_emit rfl) fun _ _ => ?_
      exact sends_first_bind (sends_emitUse _ _) fun _ _ => ih
    · exact ih

/-- Iterators are declared, and released where the survey asks for it. -/
theorem delivers_hoistIterators (h : ∀ name, c.survey.releasesAtEntry name = true →
    ∀ iterator method, L.allows (.step iterator method)) (statements : List Statement) :
    (hoistIterators statements).Delivers L c [] [] := by
  have hrelease {name iterator : String} (hname : c.survey.releasesAtEntry name = true) :
      (emitRelease iterator).Delivers L c [] [] := by
    have hclose : (emitRelease iterator).Sends c [.iterate iterator "Close"] fun _ => True :=
      sends_first_bind (sends_block (sends_emitIf (sends_emit rfl))) fun body hbody =>
        sends_emit hbody
    exact carries_using ["Close"] (h name hname iterator) hclose.delivers
  have hiterator (name : String) (query : Select) :
      (hoistIterator name query).Delivers L c [] [] := by
    refine carries_read_bind ?_
    dsimp only
    split
    · refine carries_sends_bind (sends_computed (hasEffect_iteratorName _)) fun iterator _ => ?_
      refine carries_sends_bind (sends_computed (hasEffect_iteratorType _)) fun type _ => ?_
      refine carries_sends_bind (sends_modify (fun _ => rfl) (fun _ => rfl) fun _ => rfl)
        fun _ _ => ?_
      refine carries_sends_bind (sends_emit rfl) fun _ _ => ?_
      split
      next hname => exact hrelease hname
      next => exact (sends_pure (P := fun _ => True) trivial).delivers
    · exact (sends_pure (P := fun _ => True) trivial).delivers
  induction statements with
  | nil => exact (sends_pure (P := fun _ => True) trivial).delivers
  | cons statement rest ih =>
    cases statement with
    | declareCursor name query =>
      exact delivers_first_bind (hiterator name query) fun _ => ih
    | _ => exact ih

/-- The first lines of a function use no backend, apart from the queries inside the default values
of its parameters. -/
theorem delivers_emitPrologue (hreleases : ∀ name, c.survey.releasesAtEntry name = true →
    ∀ iterator method, L.allows (.step iterator method)) : emitPrologue.Delivers L c []
      (hoists (c.procedure.outputs.flatMap fun param => optionSources param.default)) := by
  refine carries_read_bind ?_
  have hrest : (do
      emitDefaults c.procedure.outputs
      emitCounters
      emitHoisted c.survey.hoisted
      hoistIterators c.procedure.statements : Lower Unit).Delivers L c []
        (hoists (c.procedure.outputs.flatMap fun param => optionSources param.default)) := by
    refine carries_bind_last (delivers_emitDefaults _) fun _ owed howed => ?_
    rw [howed]
    refine carries_sends_bind sends_emitCounters fun _ _ => ?_
    refine carries_sends_bind (sends_emitHoisted _) fun _ _ => ?_
    exact delivers_hoistIterators hreleases _
  split
  · exact carries_sends_bind sends_emitEntry fun _ _ => hrest
  · exact hrest

end Lower

end Sproc
