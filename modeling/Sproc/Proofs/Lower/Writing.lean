import Sproc.Proofs.Lower.Evaluation
import Sproc.Proofs.Query.References

/-!
# What steps write

The steps of the generation write the forms of code that belong to the idiom of a function. This
module goes through the steps that are not made of statements: ways out, calls and their checks,
requests, queries inside expressions, and expressions themselves.

## Main definitions

* `Backend.need`: what a call to a backend needs
* `Idiom.GrantsSelect`: the needs of a query are met

## Main results

* `ensures_lookup`, `ensures_localName`, `adds_fresh`: generated names are not private
* `adds_errorExit`, `ensures_emitGuarded`, `ensures_call`: failures leave as their scope asks
* `ensures_renderQuery`: the arguments of a query are values
* `evaluates_lowerExpr`: an expression becomes a value
-/

namespace Sproc

open Lower Idiom Permit

/-! ## Names -/

/-- A name with an ending that neither a private name nor the blank has. -/
theorem ending_free {front ending : String}
    (h : ∀ name ∈ "_" :: privateNames, ¬ending.toList <:+ name.toList) :
    front ++ ending ∉ privateNames ∧ front ++ ending ≠ "_" := by
  have hfree := append_notMem h front
  rw [List.mem_cons, not_or] at hfree
  exact hfree.symm

/-- A name for the rows of a cursor has the ending of an iterator. -/
theorem isIterator_of_mem_iteratorNames {name cursor : String} (h : name ∈ iteratorNames cursor) :
    Go.isIterator name = true := by
  simp only [Go.isIterator, List.any_cons, List.any_nil, Bool.or_false, Bool.or_eq_true,
    List.isSuffixOf_iff_suffix]
  rcases List.mem_pair.mp h with rfl | rfl
  · exact .inl ⟨_, String.toList_append.symm⟩
  · exact .inr ⟨_, String.toList_append.symm⟩

/-- A name for a response does not have the ending of an iterator. -/
theorem isIterator_of_mem_responseNames {name method : String} (h : name ∈ responseNames method) :
    Go.isIterator name = false := by
  have hother {ending : String} (hending : ∀ rows ∈ ["Rows", "RowsGen"],
      ¬rows.toList <:+ ending.toList ∧ ¬ending.toList <:+ rows.toList) :
      Go.isIterator (Identifier.camelCase method ++ ending) = false := by
    refine List.any_eq_false.mpr fun rows hrows hsuffix => ?_
    rw [List.isSuffixOf_iff_suffix, String.toList_append] at hsuffix
    obtain ⟨hleft, hright⟩ := hending rows hrows
    exact (List.suffix_or_suffix_of_suffix hsuffix (List.suffix_append _ _)).elim hleft hright
  rcases List.mem_pair.mp h with rfl | rfl
  · exact hother (by decide)
  · exact hother (by decide)

/-- Numbered names are not private. -/
theorem append_toString_notMem_privateNames (base : String) (n : Nat) :
    base ++ toString n ∉ privateNames :=
  append_toString_notMem (by decide) base n

/-- Variables of a procedure do not take private names. -/
theorem SymbolTable.freshGoName_notMem_privateNames {table : SymbolTable} (name : String)
    (hreserved : privateNames ⊆ table.reserved) : table.freshGoName name ∉ privateNames :=
  freshGoName_notMem (fun _ hplain => .inr (hreserved hplain)) (by decide) (by decide) name

/-- Further names may be kept from being taken. -/
theorem SymbolTable.Named.reserve {table : SymbolTable} (h : table.Named) (name : String) :
    (table.reserve name).Named :=
  ⟨fun _ hname => List.mem_append_left _ (h.reserved hname), h.free, h.made⟩

/-- A declared variable gets a name of its own. -/
theorem SymbolTable.Named.declare {table other : SymbolTable} {name type : String}
    {kind : SymbolKind} {symbol : Symbol} (h : table.Named)
    (hdeclare : table.declare name type kind = .ok (symbol, other)) :
    other.Named ∧ symbol.goName = table.freshGoName name := by
  obtain ⟨-, ⟨info, -, rfl⟩, rfl⟩ := declare_eq_ok_iff.mp hdeclare
  refine ⟨⟨h.reserved, ?_, ?_⟩, rfl⟩
  · refine List.forall_mem_append.mpr ⟨h.free, List.forall_mem_singleton.mpr ?_⟩
    exact freshGoName_notMem_privateNames name h.reserved
  · refine List.forall_mem_append.mpr ⟨h.made, List.forall_mem_singleton.mpr ?_⟩
    exact ⟨table, rfl⟩

namespace Lower

variable {α : Type} {I : Idiom} {c : Context}

/-- A variable of the procedure has a name of its own. -/
theorem ensures_lookup (name : String) :
    (lookup name).Ensures I c fun symbol => symbol.goName ∉ privateNames := by
  refine ensures_of_annotated (hasEffect_lookup name) fun before symbol after hruns hsound => ?_
  simp only [lookup, runs_bind, runs_get, runs_ofExcept] at hruns
  obtain ⟨_, _, ⟨rfl, rfl⟩, hlookup, rfl⟩ := hruns
  have hfound := SymbolTable.lookup_eq_ok_iff.mp hlookup
  exact hsound.named.free symbol (List.mem_of_find?_eq_some hfound)

theorem ensures_localName (base : String) :
    (localName base).Ensures I c fun name => name ∈ [base, base ++ "Gen"] := by
  refine ensures_get_bind fun p _ => ?_
  split <;> exact ensures_pure (by simp)

/-- Fresh names are numbered. -/
theorem adds_fresh (base : String) :
    (fresh base).Adds I c fun name added =>
      added = [] ∧ ∃ n : Nat, name = base ++ toString n := by
  intro before name after hruns hsound
  obtain ⟨n, -, rfl, rfl⟩ := runs_fresh hruns
  exact ⟨hsound.congr rfl rfl rfl, [], by simp, rfl, n, rfl⟩

/-- A variable that is already declared may be assigned; one that is not is declared by a statement
of its own, or by the assignment. -/
theorem adds_bindLocal (name : String) (type : Go.TypeExpr) :
    (bindLocal name type).Adds I c fun _ added =>
      added = [] ∨ added = [.declare name type none] := by
  refine adds_get_bind fun p _ => ?_
  refine adds_bind (P := fun _ added => added = [])
    (adds_modify (fun p hp => hp.congr rfl rfl rfl) (fun _ => rfl) rfl) fun _ written hwritten => ?_
  subst hwritten
  split
  · exact adds_pure (.inl rfl)
  · split
    · exact adds_pure (.inl rfl)
    · exact adds_emit_bind (adds_pure (.inr rfl))

/-- A declaration in front of code that uses what is declared. -/
theorem ensures_declare_bind {name : String} {type : Go.TypeExpr} {init : Option Go.Expr}
    {next : Unit → Lower α} {P : α → Prop} (hinit : ∀ e ∈ init, I.Admits e)
    (htype : type.isValue = false → IsLocalType I.config name type)
    (hnext : (next ()).Uses I c [name] P) : (emit (.declare name type init) >>= next).Ensures I c P :=
  adds_emit_bind (hnext.mono fun _ _ hP =>
    ⟨.declare hinit htype hP.1 (hP.2.1 name List.mem_cons_self), hP.2.2⟩)

end Lower

/-! ## Assignments -/

namespace Idiom

variable {I : Idiom}

@[simp]
theorem grants_error : I.Grants .error ↔ I.allows (.name "err") :=
  List.forall_mem_singleton

@[simp]
theorem grants_status : I.Grants .status ↔ I.allows (.name "returnCode") :=
  List.forall_mem_singleton

@[simp]
theorem grants_database : I.Grants .database ↔ I.allows (.name "db") :=
  List.forall_mem_singleton

@[simp]
theorem grants_store :
    I.Grants .store ↔ I.allows (.receiver "store" I.config.mockPackage.aliasName) :=
  List.forall_mem_singleton

@[simp]
theorem grants_client (ref : ClientRef) :
    I.Grants (.client ref) ↔ I.allows (.receiver ref.var I.config.rpcPackage.aliasName) :=
  List.forall_mem_singleton

@[simp]
theorem grants_rowCount : I.Grants .rowCount ↔ I.allows (.name "rowCount") :=
  List.forall_mem_singleton

@[simp]
theorem grants_identity : I.Grants .identity ↔ I.allows (.name "lastInsertID") :=
  List.forall_mem_singleton

/-- A transaction on a database is carried out through its handle, and can fail. -/
theorem grants_transaction (h : I.Grants .transaction) (hdatabase : I.survey.usesDb = true) :
    I.allows (.name "err") ∧ I.allows (.name "db") ∧ I.allows (.name "tx") := by
  simpa [Grants, mentionsOf, hdatabase] using h

theorem admits_name {id : String} : I.Admits (.name id) ↔ I.allows (.name id) := by
  simp [Admits, Go.Expr.mentions]

theorem admits_free {id : String} (h : id ∉ privateNames) : I.Admits (.name id) :=
  admits_name.mpr (I.names id h)

theorem isValue_ctx : I.IsValue ctx :=
  isValue_free (by decide)

/-- A call of a method on values. -/
theorem admits_invoke {owner : Go.Expr} {args : List Go.Expr} (method : String)
    (howner : I.Admits owner) (hargs : ∀ e ∈ args, I.IsValue e) :
    I.Admits (.invoke owner method args) := by
  intro m hm
  rcases (Go.mem_mentions_call (request?_eq_none hargs)).mp hm with hm | ⟨e, he, hm⟩
  · exact howner m hm
  · exact (hargs e he m hm).1

theorem admits_failed (h : I.allows (.name "err")) : I.Admits failed := by
  intro m hm
  obtain rfl := List.mem_singleton.mp hm
  exact h

/-- An assignment to one variable other than the error. -/
theorem code_assign {scope : ExitScope} {target : String} {value : Go.Expr}
    (htarget : I.allows (.name target)) (hne : target ≠ "err") (hvalue : I.Admits value) :
    I.Code scope [.assign (assignTo [.name target] value)] := by
  refine .assign rfl ?_ rfl ?_ hvalue
  · simp [Go.Assign.mayFail, assignTo, Go.Expr.isError, hne]
  · intro e he
    obtain rfl := List.mem_singleton.mp he
    exact admits_name.mpr htarget

/-- The error is dropped, or set to one that was built for it. -/
theorem code_assign_err {scope : ExitScope} {value : Go.Expr} (herr : I.allows (.name "err"))
    (hvalue : I.Admits value) (hfallible : value.isFallible = false) :
    I.Code scope [.assign (assignTo [err] value)] := by
  refine .assign rfl ?_ rfl ?_ hvalue
  · simp [Go.Assign.mayFail, assignTo, hfallible]
  · intro e he
    obtain rfl := List.mem_singleton.mp he
    exact admits_name.mpr herr

theorem ne_err_of_notMem {name : String} (h : name ∉ privateNames) : name ≠ "err" := by
  rintro rfl
  exact h List.mem_cons_self

/-- A conditional with one arm that does not ask for an error. -/
theorem code_if {scope : ExitScope} {test : Go.Expr} {body : List Go.Stmt} (htest : I.Admits test)
    (hfailure : test.isFailureTest = false) (hbody : I.Code scope body) :
    I.Code scope [.branch (.mk none test body) [] none] := by
  refine .branch ?_ ?_ nofun
  · intro arm harm
    obtain rfl := List.mem_singleton.mp harm
    exact ⟨rfl, htest, hfailure⟩
  · intro arm harm
    obtain rfl := List.mem_singleton.mp harm
    exact hbody

end Idiom

namespace Lower

variable {α : Type} {I : Idiom} {c : Context}

theorem ensures_emitAssign {target : String} {value : Go.Expr} (htarget : I.allows (.name target))
    (hne : target ≠ "err") (hvalue : I.Admits value) :
    (emitAssign target value).Ensures I c fun _ => True :=
  ensures_emit (code_assign htarget hne hvalue)

/-- An assignment to a variable of the procedure. -/
theorem ensures_emitAssign_free {target : String} {value : Go.Expr} (htarget : target ∉ privateNames)
    (hvalue : I.Admits value) : (emitAssign target value).Ensures I c fun _ => True :=
  ensures_emitAssign (I.names target htarget) (ne_err_of_notMem htarget) hvalue

theorem ensures_emitIf {test : Go.Expr} {step : Lower Unit} (htest : I.Admits test)
    (hfailure : test.isFailureTest = false) (hstep : step.Ensures I c fun _ => True) :
    (emitIf none test step).Ensures I c fun _ => True :=
  ensures_block_bind hstep fun _ hbody => ensures_emit (code_if htest hfailure hbody)

/-! ## Ways out -/

section Covered

variable (hc : I.Covers c)

include hc

/-- Later declarations do not change the values of a return. -/
theorem adds_resultValues (status error : Go.Expr) :
    (resultValues status error).Adds I c fun values added =>
      added = [] ∧ values = I.results status error := by
  refine adds_of_annotated (hasEffect_resultValues status error) fun _ _ _ hruns hsound => ?_
  exact ⟨rfl, (resultValues_eq I.declared ⟨hc.procedure, hc.survey⟩ hsound.grown hruns).2⟩

theorem adds_emitReturn (status error : Go.Expr) :
    (emitReturn status error).Adds I c fun _ added => added = [.ret (I.results status error)] := by
  refine adds_bind (adds_resultValues hc status error) fun values written hwritten => ?_
  obtain ⟨rfl, rfl⟩ := hwritten
  exact adds_emit _

/-- The way out for a failure is that of the scope. -/
theorem adds_errorExit : errorExit.Adds I c fun _ added => added = I.failure c.exitScope := by
  refine adds_read_bind ?_
  cases c.exitScope with
  | body => exact adds_emitReturn hc _ _
  | tryHalf => exact adds_emit _
  | catchHalf =>
    have hacknowledge : emitAcknowledge.Adds I c fun _ added => added = [.run I.acknowledgement] := by
      refine adds_read_bind ?_
      unfold acknowledgement
      rw [hc.functionName, hc.config]
      dsimp only
      split
      all_goals
        refine adds_bind (adds_of_annotated (P := fun _ added => added = [])
          (hasEffect_importPath _) fun _ _ _ _ _ => rfl) fun _ written hwritten => ?_
        subst hwritten
        exact adds_emit _
    refine adds_bind hacknowledge fun _ written hwritten => ?_
    subst hwritten
    exact (adds_emit _).mono fun _ _ hadded => hadded ▸ rfl

omit hc in
/-- The results of a function may be mentioned. -/
theorem admits_results {status error : Go.Expr}
    (hstatus : I.survey.hasStatus = true → I.Admits status)
    (herror : I.survey.needsErr = true → I.Admits error) :
    ∀ value ∈ I.results status error, I.Admits value := by
  intro value hvalue
  simp only [results, List.mem_append, List.mem_map, or_assoc] at hvalue
  rcases hvalue with ⟨name, hname, rfl⟩ | hvalue | hvalue
  · exact admits_free (I.outputs name hname)
  · split at hvalue
    next hhas => exact List.mem_singleton.mp hvalue ▸ hstatus hhas
    next => cases hvalue
  · split at hvalue
    next hneeds => exact List.mem_singleton.mp hvalue ▸ herror hneeds
    next => cases hvalue

theorem adds_emitGuarded (init : Go.Assign) :
    (emitGuarded init).Adds I c fun _ added =>
      added = [.branch (.mk (some init) failed (I.failure c.exitScope)) [] none] := by
  refine adds_bind (adds_block (adds_errorExit hc)) fun failure written hwritten => ?_
  obtain ⟨rfl, rfl⟩ := hwritten
  exact adds_emit _

/-- A call whose failure leaves at once. -/
theorem ensures_emitGuarded {targets : List Go.Expr} {call : Go.Expr}
    (herr : I.allows (.name "err")) (htargets : ∀ target ∈ targets, I.Admits target)
    (hcall : I.Admits call) :
    (emitGuarded (assignTo targets call)).Ensures I c fun _ => True :=
  (adds_emitGuarded hc _).mono fun _ _ hadded =>
    ⟨hadded ▸ .guarded herr htargets hcall, trivial⟩

/-- A call uses the variables that it mentions. -/
theorem uses_emitGuarded {targets : List Go.Expr} {call : Go.Expr} {name : String}
    (herr : I.allows (.name "err")) (htargets : ∀ target ∈ targets, I.Admits target)
    (hcall : I.Admits call) (hname : .name name ∈ call.mentions) :
    (emitGuarded (assignTo targets call)).Uses I c [name] fun _ => True := by
  refine (adds_emitGuarded hc _).mono fun _ added hadded => ?_
  subst hadded
  refine ⟨.guarded herr htargets hcall, List.forall_mem_singleton.mpr (.inl ?_), trivial⟩
  refine Go.mem_listUses.mpr ⟨.name name, ?_, rfl⟩
  simp only [Go.listMentions, Go.Stmt.mentions, Go.initMentions, Go.Assign.mentions, List.mem_append]
  exact .inl (.inl (.inr hname))

/-- A step checks the call in front of it: on a failure it leaves as the scope asks. What follows
uses what is kept of the result, unless there is an excuse. -/
def Checks (step : Lower Unit) (I : Idiom) (c : Context) (name : String) : Prop :=
  step.Adds I c fun _ added => ∃ otherwise rest,
    added = .branch (.mk none failed (I.failure c.exitScope)) [] otherwise :: rest ∧
    (∀ body ∈ otherwise, I.Code c.exitScope body) ∧ I.Code c.exitScope rest ∧
    (name ∈ Go.listUses added ∨ name = "_" ∨ Excuse I.survey name)

/-- What follows a checked call is its alternative in a handler, and stands behind the check
elsewhere. -/
theorem checks_emitChecked {success : Lower Unit} {name : String}
    (h : success.Adds I c fun _ added => I.Code c.exitScope added ∧
      (name ∈ Go.listUses added ∨ name = "_" ∨ Excuse I.survey name)) :
    (emitChecked success).Checks I c name := by
  refine adds_bind (adds_block (adds_errorExit hc)) fun failure written hwritten => ?_
  obtain ⟨rfl, rfl⟩ := hwritten
  refine adds_read_bind ?_
  split
  · refine adds_bind (adds_block h) fun body written hwritten => ?_
    obtain ⟨rfl, hcode, huses⟩ := hwritten
    refine (adds_emit _).mono fun _ added hadded => ?_
    subst hadded
    refine ⟨some body, [], rfl, ?_, .nil, huses.imp_left fun hname => ?_⟩
    · intro other hother
      obtain rfl := Option.some.inj hother
      exact hcode
    · obtain ⟨m, hm, hname⟩ := Go.mem_listUses.mp hname
      refine Go.mem_listUses.mpr ⟨m, ?_, hname⟩
      simp [Go.listMentions, Go.Stmt.mentions, Go.elseMentions, hm]
  · refine adds_emit_bind (h.mono fun _ rest hrest => ?_)
    refine ⟨none, rest, rfl, by simp, hrest.1, hrest.2.imp_left fun hname => ?_⟩
    rw [List.nil_append, Go.listUses_cons]
    exact List.mem_append_right _ hname

/-- What follows a checked call uses what is kept of its result. -/
theorem Uses.checks {success : Lower Unit} {name : String}
    (h : success.Uses I c [name] fun _ => True) : (emitChecked success).Checks I c name :=
  checks_emitChecked hc (h.mono fun _ _ hP =>
    ⟨hP.1, (hP.2.1 name List.mem_cons_self).imp_right .inr⟩)

/-- A check behind which nothing follows. -/
theorem checks_emitIf {name : String} (hexcuse : Excuse I.survey name) :
    (emitIf none failed errorExit).Checks I c name := by
  refine adds_bind (adds_block (adds_errorExit hc)) fun failure written hwritten => ?_
  obtain ⟨rfl, rfl⟩ := hwritten
  refine (adds_emit _).mono fun _ added hadded => ?_
  subst hadded
  exact ⟨none, [], rfl, nofun, .nil, .inr (.inr hexcuse)⟩

omit hc in
/-- A check in front of further code. -/
theorem Checks.bind {step : Lower Unit} {next : Unit → Lower Unit} {name : String}
    (hstep : step.Checks I c name) (hnext : (next ()).Ensures I c fun _ => True) :
    (step >>= next).Checks I c name := by
  refine adds_bind hstep fun _ written hwritten => Adds.mono hnext fun _ added hadded => ?_
  obtain ⟨otherwise, rest, rfl, hotherwise, hrest, huses⟩ := hwritten
  refine ⟨otherwise, rest ++ added, rfl, hotherwise, hrest.append hadded.1,
    huses.imp_left fun hname => ?_⟩
  rw [Go.listUses_append]
  exact List.mem_append_left _ hname

omit hc in
/-- A call whose error is asked for behind it. -/
theorem adds_checkedCall {name : String} {define : Bool} {call : Go.Expr} {check : Lower Unit}
    (herr : I.allows (.name "err")) (hname : I.allows (.name name)) (hcall : I.Admits call)
    (hlocal : define = true → IsLocalName name)
    (htype : name ∉ Go.fixedTargets → IsLocalType I.config name (call.yields (Go.isIterator name)))
    (hcheck : check.Checks I c name) :
    (emit (.assign ⟨[.name name, err], define, call⟩) >>= fun _ => check).Adds I c
      fun _ added => I.Code c.exitScope added ∧
        (name ∈ Go.listUses added ∨ name = "_" ∨ Excuse I.survey name) := by
  refine adds_emit_bind (hcheck.mono fun _ added hadded => ?_)
  obtain ⟨otherwise, rest, rfl, hotherwise, hrest, huses⟩ := hadded
  refine ⟨.call herr hname hcall hlocal htype hotherwise hrest huses, huses.imp_left fun hname => ?_⟩
  rw [Go.listUses_cons]
  exact List.mem_append_right _ hname

omit hc in
/-- A checked call whose result is kept in a variable of its own, which is declared with the type of
what the call yields. -/
theorem ensures_boundCall {name : String} {type : Go.TypeExpr} {call : Go.Expr}
    {check : Lower Unit} (herr : I.allows (.name "err")) (hname : name ∉ privateNames)
    (hblank : name ≠ "_") (hlocal : IsLocalName name) (htype : IsLocalType I.config name type)
    (hyields : call.yields (Go.isIterator name) = type) (hcall : I.Admits call)
    (hcheck : check.Checks I c name) :
    (bindLocal name type >>= fun define =>
      emit (.assign ⟨[.name name, err], define, call⟩) >>= fun _ => check).Ensures I c
        fun _ => True := by
  refine adds_bind (adds_bindLocal name type) fun define written hwritten => ?_
  have hlocal (_ : define = true) : IsLocalName name := hlocal
  have hkept (_ : name ∉ Go.fixedTargets) :
      IsLocalType I.config name (call.yields (Go.isIterator name)) := hyields ▸ htype
  refine (adds_checkedCall herr (I.names name hname) hcall hlocal hkept hcheck).mono
    fun _ added hadded => ?_
  obtain ⟨hcode, huses⟩ := hadded
  refine ⟨?_, trivial⟩
  rcases hwritten with rfl | rfl
  · exact hcode
  · refine .declare nofun (fun _ => htype) hcode ?_
    rcases huses with huses | hname | hexcuse
    · exact .inl huses
    · exact absurd hname hblank
    · exact .inr hexcuse

/-! ## Handles and slots -/

/-- Data calls go through the database, or through the transaction where one is open. -/
theorem ensures_handle (hdatabase : I.Grants .database) : handle.Ensures I c I.IsValue := by
  refine ensures_read_bind (ensures_get_bind fun p hsound => ensures_pure ?_)
  rw [hc.survey, sqlHandle]
  split
  next hopen =>
    rw [Bool.and_eq_true] at hopen
    have htransaction := grants_transaction (hsound.transaction (.inl hopen.1)) hopen.2
    exact isValue_name.mpr ⟨htransaction.2.2, by decide⟩
  next => exact isValue_name.mpr ⟨grants_database.mp hdatabase, by decide⟩

omit hc in
theorem isValue_tranCountCode {p : Progress} (hsound : I.Sound p) :
    I.IsValue (tranCountCode I.survey.usesDb p.transaction) := by
  unfold tranCountCode
  split
  next hopen =>
    rw [Bool.and_eq_true] at hopen
    have htransaction := grants_transaction (hsound.transaction (.inr hopen.1)) hopen.2
    have htx : I.IsValue (.name "tx") := isValue_name.mpr ⟨htransaction.2.2, by decide⟩
    simpa using htx
  next => simp

theorem evaluates_tranCount : tranCount.Evaluates I c := by
  refine ensures_read_bind (ensures_get_bind fun p hsound => ?_)
  rw [hc.survey]
  have hcode := isValue_tranCountCode hsound
  dsimp only
  split
  · exact ensures_bind (ensures_annotated hasEffect_importRuntime) fun _ _ => evaluates_pure hcode
  · exact evaluates_pure hcode

/-- A server variable may be read where its need is met. -/
theorem evaluates_lowerGlobal {var : GlobalVar} {inGo : Bool}
    (h : I.GrantsExpr inGo (.global var)) : (lowerGlobal var).Evaluates I c := by
  cases var with
  | rowCount =>
    exact evaluates_pure (isValue_name.mpr ⟨grants_rowCount.mp (h.1 _ List.mem_cons_self), by decide⟩)
  | identity =>
    exact evaluates_pure (isValue_name.mpr ⟨grants_identity.mp (h.1 _ List.mem_cons_self), by decide⟩)
  | error => exact ensures_bind (ensures_warn _ _) fun _ _ => evaluates_pure (by simp)
  | tranCount => exact evaluates_tranCount hc
  | fetchStatus => exact evaluates_unsupported

omit hc in
theorem evaluates_lowerVariable (name : String) : (lowerVariable name).Evaluates I c :=
  ensures_bind (ensures_lookup name) fun _ hsymbol => evaluates_pure (isValue_free hsymbol)

/-- What is bound for a node whose needs are met is a value. -/
theorem isValue_answer {p : Progress} {e : Expr} {reference : Reference} {arg : Go.Expr}
    (hsound : I.Sound p) (he : I.GrantsExpr false e) (hreference : e.IsReference reference)
    (hanswer : (queryArgs c p).Answers reference arg) : I.IsValue arg := by
  cases e with
  | «variable» name =>
    obtain rfl : reference = .variable name := hreference
    obtain ⟨hlookup⟩ | ⟨hglobal⟩ | ⟨hfunction⟩ := hanswer
    obtain ⟨symbol, hsymbol, rfl⟩ := map_eq_ok.mp hlookup
    have hfound := SymbolTable.lookup_eq_ok_iff.mp hsymbol
    exact isValue_free (hsound.named.free symbol (List.mem_of_find?_eq_some hfound))
  | global var =>
    obtain rfl : reference = .global var := hreference
    obtain ⟨hlookup⟩ | ⟨hglobal⟩ | ⟨hfunction⟩ := hanswer
    cases var with
    | rowCount =>
      cases hglobal
      exact isValue_name.mpr ⟨grants_rowCount.mp (he.1 _ List.mem_cons_self), by decide⟩
    | identity =>
      cases hglobal
      exact isValue_name.mpr ⟨grants_identity.mp (he.1 _ List.mem_cons_self), by decide⟩
    | error =>
      cases hglobal
      exact isValue_int 0
    | tranCount =>
      cases hglobal
      rw [hc.survey]
      exact isValue_tranCountCode hsound
    | fetchStatus => cases hglobal
  | function name args =>
    obtain rfl : reference = .function (Text.toUpper name) := hreference
    obtain ⟨hlookup⟩ | ⟨hglobal⟩ | ⟨hfunction⟩ := hanswer
    simp only [queryArgs] at hfunction
    split at hfunction
    next hname =>
      cases hfunction
      have hidentity : Text.toUpper name ∈ identityFunctions := by
        rw [eq_of_beq hname]
        decide
      exact isValue_name.mpr
        ⟨he.2 name args rfl _ (mem_functionMentions_identity hidentity), by decide⟩
    next =>
      obtain ⟨value, hvalue, hok⟩ := Option.map_eq_some_iff.mp hfunction
      cases hok
      refine isValue_errorIntrinsic (fun hname => he.2 name args rfl _ ?_) hvalue
      exact mem_functionMentions_error hname
  | _ => cases hreference

omit hc in
theorem plainBuild_query (statement : DataStatement) :
    PlainBuild (statement.query : Dialect → Resolver Go.Expr → Except Fault (Query Go.Expr)) := by
  cases statement <;> simp [DataStatement.query]

/-- The arguments of a query are values. -/
theorem ensures_renderQuery (statement : DataStatement)
    (h : ∀ e ∈ statement.walk, I.GrantsExpr false e) :
    (renderQuery statement.query).Ensures I c fun query => ∀ arg ∈ query.args, I.IsValue arg := by
  refine ensures_of_annotated (hasEffect_renderQuery (plainBuild_query statement)) fun before query after hruns hsound => ?_
  intro arg harg
  simp only [renderQuery, runs_bind, runs_read, runs_get, runs_ofExcept] at hruns
  obtain ⟨_, _, ⟨rfl, rfl⟩, _, _, ⟨rfl, rfl⟩, rendered, _, ⟨hquery, rfl⟩, hrest⟩ := hruns
  have hrendered : query = rendered := by
    split at hrest
    · obtain ⟨_, _, -, hpure⟩ := runs_bind.mp hrest
      exact (runs_pure.mp hpure).1
    · exact (runs_pure.mp hrest).1
  subst hrendered
  obtain ⟨e, he, reference, hreference, hanswer⟩ :=
    DataStatement.exists_answers_of_mem_args hquery harg
  exact isValue_answer hc hsound (h e he) hreference hanswer

end Covered

end Lower

end Sproc
