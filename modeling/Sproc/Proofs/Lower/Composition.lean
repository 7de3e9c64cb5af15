import Sproc.Proofs.Lower.Kind
import Sproc.Proofs.Lower.Leaves
import Sproc.Proofs.Text.Folding

/-!
# Compound statements of the idiom

Where the needs of a statement and of those inside it are met, all code that it writes belongs to the
idiom. What is left to be shown for this are the loops over cursors and the `TRY` statements, with
their handlers.

## Main definitions

* `Idiom.GrantsNested`: the needs of a statement and of those inside it are met
* `Statement.Fits`: what a statement writes, wherever it stands, belongs to the idiom

## Main results

* `yields_lowerCursorLoop`, `ensures_lowerTryCatch`: loops over cursors and handlers
* `Idiom.closed_kind`: the statements whose needs are met write code of the idiom
* `Statement.fits`: every statement whose needs are met
-/

namespace Sproc

open Lower Idiom Permit

namespace Lower

variable {I : Idiom} {c : Context}

section Covered

variable (hc : I.Covers c)

include hc

/-! ## Loops -/

/-- Conditions do not ask for an error. -/
theorem yields_lowerCondition {condition : Expr} (h : ∀ e ∈ condition.walk, I.GrantsExpr true e) :
    (lowerCondition condition).Yields I.kind I c I.kind.test :=
  (ensures_lowerCondition hc condition h).mono fun _ htest =>
    ⟨htest.admits, htest.isFailureTest_eq⟩

theorem ensures_emitRound {iterator : Go.Expr} {targets : List String} {rest : Option Expr}
    (herr : I.allows (.name "err")) (hiterator : I.IsValue iterator)
    (htargets : ∀ target ∈ targets, target ∉ privateNames)
    (hrest : ∀ e ∈ walkOption rest, I.GrantsExpr true e) :
    (emitRound iterator targets rest).Ensures I c fun _ => True := by
  refine ensures_bind (ensures_emitRow hc herr hiterator htargets) fun _ _ => ?_
  cases rest with
  | none => exact ensures_pure trivial
  | some condition => exact yields_emitLoopTest (yields_lowerCondition hc hrest)

/-- A loop over the rows of a cursor. -/
theorem yields_lowerCursorLoop {K : Kind} (hK : K.Extends I) {fetch : Fetch} {rest : Option Expr}
    {body : Lower Unit} (hrest : ∀ e ∈ walkOption rest, I.GrantsExpr true e)
    (hbody : body.Yields K I (inCursorLoop fetch c) fun _ => True) :
    (lowerCursorLoop fetch rest body).Yields K I c fun _ => True := by
  refine yields_bind (Ensures.yields (ensures_fetchIterator fetch) hK) fun iterator hiterator => ?_
  obtain ⟨herr, hvalue⟩ := hiterator
  refine yields_bind (Ensures.yields (ensures_goNames _) hK) fun targets htargets => ?_
  have hround := yields_bind (Ensures.yields
    (ensures_emitRound (hc.inCursorLoop fetch) herr hvalue htargets hrest) hK) fun _ _ => hbody
  refine yields_bind (yields_within (yields_block hround) rfl) fun statements hcode => ?_
  have hnext : I.IsValue (.invoke iterator "Next" []) := by simpa using hvalue
  have hdone : I.IsValue (.invoke iterator "Err" []) := by simpa using hvalue
  refine yields_bind (yields_emit (K.loop (fun e he => ?_) hcode)) fun _ _ => ?_
  · obtain rfl := Option.some.inj he
    exact hK.test ⟨hnext.admits, rfl⟩
  · refine Ensures.yields (ensures_emitGuarded hc herr (fun e he => ?_) hdone.admits) hK
    obtain rfl := List.mem_singleton.mp he
    exact admits_name.mpr herr

theorem yields_lowerFetchLoop {K : Kind} (hK : K.Extends I) {prepared : Option Fetch}
    {rest : Option Expr} {statements : List Statement} {body : Lower Unit}
    (hrest : ∀ e ∈ walkOption rest, I.GrantsExpr true e)
    (hbody : ∀ fetch, body.Yields K I (inCursorLoop fetch (c.enter 0)) fun _ => True) :
    (lowerFetchLoop prepared rest statements body).Yields K I c fun _ => True := by
  unfold lowerFetchLoop
  split
  · exact adds_fail
  · exact yields_within (yields_lowerCursorLoop (hc.enter 0) hK hrest (hbody _)) rfl

/-! ## Handlers -/

omit hc in
/-- The error that a handler has recovered may be named in any scope. -/
theorem adds_emitCaught (h : I.allows (.name "caught")) :
    emitCaught.Adds I c fun _ added => ∀ scope, I.Code scope added := by
  have hbody : (emitAssign "caught" (.invoke (.name "fmt") "Errorf" [.str "%v", .name "r"])).Adds I c
      fun _ added => ∀ scope, I.Code scope added := by
    have hfmt : I.IsValue (.name "fmt") := isValue_free (by decide)
    have hr : I.IsValue (.name "r") := isValue_free (by decide)
    refine (adds_emit _).mono fun _ _ hadded scope => hadded ▸ ?_
    refine code_assign h (by decide) (IsValue.admits ?_)
    simp [hfmt, hr]
  refine adds_bind (adds_of_annotated (P := fun _ added => added = []) (hasEffect_importPath _)
    fun _ _ _ _ _ => rfl) fun _ written hwritten => ?_
  subst hwritten
  refine adds_emit_bind (adds_bind (adds_block hbody) fun body written hwritten => ?_)
  obtain ⟨rfl, hcode⟩ := hwritten
  exact (adds_emit _).mono fun _ _ hadded scope => hadded ▸ .caught h (hcode scope)

/-- What a handler starts with may stand in any scope. -/
theorem adds_emitHandlerStart {catchBody : List Statement}
    (hcaught : Statement.anyProtected Statement.readsCaught catchBody = true →
      I.allows (.name "caught")) :
    (emitHandlerStart catchBody).Adds I c fun _ added => ∀ scope, I.Code scope added := by
  have hreset : (do
      if (← read).survey.needsErr then
        emit (.assign (assignTo [err] .nil)) : Lower Unit).Adds I c
          fun _ added => ∀ scope, I.Code scope added := by
    refine adds_read_bind ?_
    rw [hc.survey]
    split
    next hneeds =>
      refine (adds_emit _).mono fun _ _ hadded scope => hadded ▸ ?_
      exact code_assign_err (I.error hneeds) isValue_nil.admits rfl
    next => exact adds_pure fun _ => .nil
  unfold emitHandlerStart
  dsimp only
  split
  next hreads =>
    refine adds_bind (adds_emitCaught (hcaught hreads)) fun _ written hwritten => ?_
    exact hreset.mono fun _ _ hadded scope => (hwritten scope).append (hadded scope)
  next => exact hreset

/-- A handler stands in a deferred function literal, which may stand in any scope. -/
theorem adds_emitRecover {catchBody : List Statement} {handler : Lower Unit}
    (hcaught : Statement.anyProtected Statement.readsCaught catchBody = true →
      I.allows (.name "caught"))
    (h : handler.Ensures I (inHandler c) fun _ => True) :
    (emitRecover catchBody handler).Adds I c fun _ added => ∀ scope, I.Code scope added := by
  have hbody : (emitHandlerStart catchBody >>= fun _ => within inHandler handler).Adds I c
      fun _ added => I.Code .catchHalf added := by
    refine adds_bind (adds_emitHandlerStart hc hcaught) fun _ written hwritten => ?_
    refine adds_within (Adds.mono h fun _ _ hadded => ?_)
    exact (hwritten .catchHalf).append hadded.1
  refine adds_bind (adds_block (P := I.Code .catchHalf) ?_) fun deferred written hwritten => ?_
  · refine adds_bind (adds_block hbody) fun body written hwritten => ?_
    obtain ⟨rfl, hcode⟩ := hwritten
    exact (adds_emit _).mono fun _ _ hadded => hadded ▸ .recover hcode
  · obtain ⟨rfl, hcode⟩ := hwritten
    exact (adds_emit _).mono fun _ _ hadded scope => hadded ▸ .deferred hcode

omit hc in
/-- The flag that a `RETURN` sets is declared in front of the literal. -/
theorem adds_returnFlag? (body : List Statement) :
    (returnFlag? body).Adds I c fun flag added => (∀ name ∈ flag, name ∉ privateNames) ∧
      added = flag.toList.map fun name => .declare name (.value .bool) none := by
  refine adds_read_bind ?_
  split
  · refine adds_bind (adds_fresh "returned") fun numbered written hwritten => ?_
    obtain ⟨rfl, n, rfl⟩ := hwritten
    refine adds_emit_bind (adds_pure ⟨fun name hname => ?_, rfl⟩)
    obtain rfl := Option.some.inj hname
    split
    · decide
    · exact append_toString_notMem_privateNames _ _
  · exact adds_pure ⟨nofun, rfl⟩

/-- What follows the literal of a `TRY` statement uses the flag. -/
theorem uses_emitWayOut {flag : Option String} (catchBody : List Statement)
    (hflag : ∀ name ∈ flag, name ∉ privateNames) :
    (emitWayOut flag catchBody).Uses I c flag.toList fun _ => True := by
  have hreport : (if (c.survey.needsErr && Statement.anyHandler Statement.raises catchBody) = true then
      emitIf none failed (if c.exitScope = .catchHalf then emit (.ret []) else errorExit)
        else pure () : Lower Unit).Ensures I c fun _ => True := by
    rw [hc.survey]
    split
    next hraises =>
      have herr := I.error (Bool.and_eq_true_iff.mp hraises).1
      have hway : (if c.exitScope = .catchHalf then emit (.ret []) else errorExit).Ensures I c
          fun _ => True := by
        split
        · exact ensures_emit (.ret (List.forall_mem_nil _))
        · exact (adds_errorExit hc).mono fun _ _ hadded => ⟨hadded ▸ code_failure herr _, trivial⟩
      exact ensures_block_bind hway fun body hbody => ensures_emit (.report herr hbody)
    next => exact ensures_pure trivial
  have hresume : (if c.exitScope = .body then emitReturn (.name "returnCode") .nil
      else propagateReturn).Ensures I c fun _ => True := by
    split
    · refine ensures_emitReturn hc (fun hstatus => ?_) fun _ => isValue_nil.admits
      exact admits_name.mpr (I.status hstatus)
    · exact ensures_propagateReturn hc
  refine adds_read_bind ?_
  dsimp only
  split
  next name =>
    refine Uses.bind (P := fun _ => True) ?_ fun _ _ => hreport
    have hname : I.IsValue (.name name) := isValue_free (hflag name rfl)
    refine uses_bind (ensures_block hresume) fun body hbody => ?_
    exact uses_emit (code_if hname.admits rfl hbody) List.mem_cons_self
  next =>
    exact Adds.mono hreport fun _ _ hadded => ⟨hadded.1, List.forall_mem_nil _, trivial⟩

omit hc in
/-- A handler starts with a transaction that may be open only if one is needed. -/
theorem grants_handlerTransaction {tryBody : List Statement} {transaction : TransactionState}
    (htry : Statement.anyProtected Statement.isTransaction tryBody = true → I.Grants .transaction)
    (hbefore : transaction.active = true ∨ transaction.uncertain = true → I.Grants .transaction) :
    (handlerTransaction tryBody transaction).active = true ∨
      (handlerTransaction tryBody transaction).uncertain = true → I.Grants .transaction := by
  unfold handlerTransaction
  split
  next hprotected => exact fun _ => htry hprotected
  next => exact hbefore

omit hc in
/-- Behind a `TRY` statement a transaction may be open only if one is needed. -/
theorem grants_join {attempted handled : Progress} (hattempted : I.Sound attempted)
    (hhandled : I.Sound handled) :
    (attempted.transaction.join handled.transaction).active = true ∨
      (attempted.transaction.join handled.transaction).uncertain = true →
        I.Grants .transaction := by
  intro hopen
  by_cases hactive : attempted.transaction.active = true ∨ attempted.transaction.uncertain = true
  · exact hattempted.transaction hactive
  · refine hhandled.transaction ?_
    rw [not_or, Bool.not_eq_true, Bool.not_eq_true] at hactive
    simp only [TransactionState.join, hactive.1, hactive.2, Bool.false_and, Bool.false_eq_true,
      Bool.false_or, false_or, Bool.or_eq_true, bne_iff_ne, ne_eq] at hopen
    rcases hopen with huncertain | hdiffer
    · exact .inr huncertain
    · exact .inl (by simpa using Ne.symm hdiffer)

/-- A `TRY` statement, from both halves. -/
theorem ensures_lowerTryCatch {tryBody catchBody : List Statement} {attempt handler : Lower Unit}
    (htransaction : Statement.anyProtected Statement.isTransaction tryBody = true →
      I.Grants .transaction)
    (hcaught : Statement.anyProtected Statement.readsCaught catchBody = true →
      I.allows (.name "caught"))
    (hattempt : ∀ flag, (∀ name ∈ flag, name ∉ privateNames) →
      attempt.Ensures I (inTry flag c) fun _ => True)
    (hhandler : handler.Ensures I (inHandler c) fun _ => True) :
    (lowerTryCatch tryBody catchBody attempt handler).Ensures I c fun _ => True := by
  refine ensures_get_bind fun p hsound => ?_
  have hstart := grants_handlerTransaction htransaction hsound.transaction
  refine adds_bind (adds_returnFlag? tryBody) fun flag written hwritten => ?_
  obtain ⟨hflag, rfl⟩ := hwritten
  -- The literal is code of the protected half, whatever scope the statement stands in.
  have hliteral : (do
      emitRecover catchBody handler
      let afterCatch := (← get).transaction
      setTransaction p.transaction
      within (inTry flag) attempt
      setTransaction ((← get).transaction.join afterCatch) : Lower Unit).Adds I c
        fun _ added => I.Code .tryHalf added := by
    refine adds_bind (adds_emitRecover hc hcaught hhandler) fun _ recovering hrecovering => ?_
    refine adds_get_bind fun q hq => ?_
    refine adds_bind (adds_setTransaction hsound.transaction) fun _ written hwritten => ?_
    subst hwritten
    refine adds_bind (adds_within (hattempt flag hflag)) fun _ attempted hattempted => ?_
    refine adds_get_bind fun r hr => (adds_setTransaction (grants_join hr hq)).mono fun _ added hadded => ?_
    subst hadded
    exact (hrecovering .tryHalf).append (hattempted.1.append .nil)
  have hrest : (do
      setTransaction (handlerTransaction tryBody p.transaction)
      let literal ← block do
        emitRecover catchBody handler
        let afterCatch := (← get).transaction
        setTransaction p.transaction
        within (inTry flag) attempt
        setTransaction ((← get).transaction.join afterCatch)
      emit (.closure false literal)
      emitWayOut flag catchBody : Lower Unit).Uses I c flag.toList fun _ => True := by
    refine uses_bind (ensures_setTransaction hstart) fun _ _ => ?_
    refine adds_bind (adds_block hliteral) fun literal written hwritten => ?_
    obtain ⟨rfl, hcode⟩ := hwritten
    exact uses_bind (ensures_emit (.literal hcode)) fun _ _ => uses_emitWayOut hc catchBody hflag
  refine hrest.mono fun _ added hadded => ?_
  obtain ⟨hcode, huses, -⟩ := hadded
  cases flag with
  | none => exact ⟨hcode, trivial⟩
  | some name =>
    exact ⟨.declare (fun _ h => absurd h (Option.not_mem_none _)) .of_isValue hcode
      (huses name List.mem_cons_self), trivial⟩

end Covered

end Lower

/-! ## Statements -/

/-- What a statement writes, wherever it stands, belongs to the idiom. -/
abbrev Statement.Fits (I : Idiom) (source : Statement) : Prop :=
  source.Writes I.kind I

/-- The needs of a statement and of those inside it are met. -/
def Idiom.GrantsNested (I : Idiom) (source : Statement) : Prop :=
  ∀ inner ∈ source.nested, I.GrantsStatement inner

namespace Statement

variable {I : Idiom}

/-- What is required beyond the success of a fetch needs no more than the whole condition. -/
theorem grantsExpr_sentinelRest {condition : Expr} {rest : Option Expr}
    (hrest : sentinelRest? condition = some rest)
    (h : ∀ e ∈ condition.walk, I.GrantsExpr true e) :
    ∀ e ∈ walkOption rest, I.GrantsExpr true e := by
  intro e he
  rcases Expr.mem_walk_sentinelRest hrest he with hwalk | ⟨left, right, rfl⟩
  · exact h e hwalk
  · exact ⟨nofun, nofun⟩

/-- A statement of a half that is not in an inner handler is one of the statements inside the
whole. -/
theorem exists_nested_of_anyProtected {source : Statement} {body : List Statement}
    {p : Statement → Bool} (hbody : body ∈ source.children) (h : anyProtected p body = true) :
    ∃ inner ∈ source.nested, p inner = true := by
  obtain ⟨inner, hinner, hp⟩ := List.any_eq_true.mp h
  obtain ⟨s, hs, hmem⟩ := mem_listSameHalf.mp hinner
  exact ⟨inner, mem_nested_of_mem_children hbody hs (mem_nested_of_mem_sameHalf hmem), hp⟩

/-- A transaction statement needs a transaction. -/
theorem grants_transaction_of_isTransaction {s : Statement} (h : I.GrantsStatement s)
    (htransaction : s.isTransaction = true) : I.Grants .transaction := by
  refine h.needs .transaction ?_
  cases s with
  | beginTransaction | commit | rollback => exact List.mem_cons_self
  | _ => cases htransaction

/-- A statement that needs the recovered error may name it, if its own needs are met. -/
theorem allows_caught_of_readsCaught {s : Statement} (h : I.GrantsStatement s)
    (hreads : s.readsCaught = true) : I.allows (.name "caught") := by
  unfold readsCaught at hreads
  split at hreads
  · exact h.rethrow rfl
  · obtain ⟨e, he, hfunction⟩ := List.any_eq_true.mp hreads
    cases e with
    | function name args =>
      refine (h.exprs _ he).2 name args rfl _ (mem_functionMentions_error ?_)
      rw [Text.toUpper_eq_of_sameIgnoringCase hfunction]
      decide
    | _ => cases hfunction

section Halves

variable {tryBody catchBody : List Statement}
  (h : I.GrantsNested (tryCatch tryBody catchBody))

include h

theorem grants_transaction_of_anyProtected (hprotected : anyProtected isTransaction tryBody = true) :
    I.Grants .transaction := by
  have hbody : tryBody ∈ (tryCatch tryBody catchBody).children := List.mem_cons_self
  obtain ⟨inner, hinner, hkind⟩ := exists_nested_of_anyProtected hbody hprotected
  exact grants_transaction_of_isTransaction (h inner hinner) hkind

theorem allows_caught_of_anyProtected (hprotected : anyProtected readsCaught catchBody = true) :
    I.allows (.name "caught") := by
  have hbody : catchBody ∈ (tryCatch tryBody catchBody).children :=
    List.mem_cons_of_mem _ List.mem_cons_self
  obtain ⟨inner, hinner, hreads⟩ := exists_nested_of_anyProtected hbody hprotected
  exact allows_caught_of_readsCaught (h inner hinner) hreads

end Halves

end Statement

theorem Idiom.GrantsNested.child {I : Idiom} {source s : Statement} {body : List Statement}
    (h : I.GrantsNested source) (hbody : body ∈ source.children) (hs : s ∈ body) :
    I.GrantsNested s :=
  fun inner hinner => h inner (Statement.mem_nested_of_mem_children hbody hs hinner)

/-- The statements whose needs are met write code of the idiom. -/
theorem Idiom.closed_kind (I : Idiom) : I.kind.Closed I I.GrantsNested where
  child h hbody _ hs := h.child (Statement.mem_children_of_part? hbody) hs
  leaf rest prepared hc h hleaf :=
    ensures_lowerLeaf hc (h _ (Statement.mem_nested_self _)) hleaf rest prepared
  condition {_ source _} hc h hcondition := by
    have hexprs := (h source (Statement.mem_nested_self source)).exprs
    cases source with
    | ifElse | «while» =>
      obtain rfl := Option.some.inj hcondition
      exact yields_lowerCondition hc hexprs
    | _ => cases hcondition
  cursorLoop _ hc h hrest hbody :=
    yields_lowerFetchLoop hc ⟨id, id⟩ (Statement.grantsExpr_sentinelRest hrest
      (h _ (Statement.mem_nested_self _)).exprs) hbody
  tryCatch {_ _ catchBody} hc h htry hcatch := by
    have hhandler : ∀ s ∈ catchBody, s.Fits I := fun s hs =>
      hcatch s hs (h.child (List.mem_cons_of_mem _ List.mem_cons_self) hs)
    exact ensures_lowerTryCatch hc (Statement.grants_transaction_of_anyProtected h)
      (Statement.allows_caught_of_anyProtected h)
      (fun flag hflag => yields_lowerStatements (hc.inTry hflag) htry 0 none)
      (yields_lowerStatements hc.inHandler hhandler 0 none)

/-- Every statement whose needs are met, and those of the statements inside it, is code. -/
theorem Statement.fits {I : Idiom} (source : Statement) (h : I.GrantsNested source) :
    source.Fits I :=
  I.closed_kind.writes h

end Sproc
