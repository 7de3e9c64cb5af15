import Sproc.Proofs.Lower.DataCalls

/-!
# Simple statements

The statements that hold no others: declarations, assignments, returns, raised errors, cursors and
transactions. Each writes code that belongs to the idiom of the function once its needs are met. The
statements about cursors and transactions also change what is known about them; what is known stays
sound.

## Main results

* `ensures_lowerDeclare`, `ensures_lowerSet`, `ensures_lowerReturn`, `ensures_raise`
* `ensures_declareCursor`, `ensures_openCursor`, `ensures_fetchRow`
* `ensures_beginTransaction`, `ensures_endTransaction`
* `ensures_lowerLeaf`: every statement that holds no others
-/

namespace Sproc

open Lower Idiom Permit

namespace Idiom

variable {I : Idiom}

/-- The line that logs a failure names nothing but the error. -/
theorem admits_acknowledgement (herr : I.allows (.name "err")) : I.Admits I.acknowledgement := by
  intro m hm
  have hm : m ∈ [.name "slog", .name "log", .name "ctx", .name "err"] := by
    unfold acknowledgement at hm
    dsimp only at hm
    split at hm
    · have hm : m ∈ [.name "slog", .name "ctx", .name "err"] := hm
      simp only [List.mem_cons, List.not_mem_nil, or_false] at hm ⊢
      tauto
    · have hm : m ∈ [.name "log", .name "err"] := hm
      simp only [List.mem_cons, List.not_mem_nil, or_false] at hm ⊢
      tauto
  simp only [List.mem_cons, List.not_mem_nil, or_false] at hm
  rcases hm with rfl | rfl | rfl | rfl
  · exact I.names _ (by decide)
  · exact I.names _ (by decide)
  · exact I.names _ (by decide)
  · exact herr

/-- The way out for a failure is code of its scope. -/
theorem code_failure (herr : I.allows (.name "err")) (scope : ExitScope) :
    I.Code scope (I.failure scope) := by
  have hadmits : I.Admits err := admits_name.mpr herr
  cases scope with
  | body =>
    refine .ret (admits_results (fun hstatus => ?_) fun _ => hadmits)
    exact admits_name.mpr (I.status hstatus)
  | tryHalf => exact .panic hadmits
  | catchHalf =>
    have hdrop : I.Code .catchHalf [.assign (assignTo [err] .nil)] :=
      code_assign_err herr isValue_nil.admits rfl
    exact Code.append (.run (admits_acknowledgement herr)) hdrop

end Idiom

namespace Lower

variable {I : Idiom} {c : Context}

/-! ## Declarations -/

/-- A declaration gives a variable a name of its own. -/
theorem ensures_declare (name type : String) (kind : SymbolKind) :
    (declare name type kind).Ensures I c fun symbol =>
      ∃ table : SymbolTable, table.Named ∧ symbol.goName = table.freshGoName name := by
  intro before symbol after hruns hsound
  obtain ⟨symbols, hdeclare, rfl⟩ := runs_declare.mp hruns
  obtain ⟨hnamed, hgoName⟩ := hsound.named.declare hdeclare
  have hgrown : before.symbols.symbols <+: symbols.symbols := by
    rw [(SymbolTable.declare_eq_ok hdeclare).1]
    exact List.prefix_append _ _
  refine ⟨⟨hsound.grown.trans hgrown, hnamed, hsound.cursors, hsound.transaction⟩, [], ?_, .nil, ?_⟩
  · simp
  · exact ⟨before.symbols, hsound.named, hgoName⟩

section Covered

variable (hc : I.Covers c)

include hc

/-- A variable that the survey does not find read is used on purpose. -/
theorem uses_emitUse {name goName : String} (hfree : goName ∉ privateNames)
    (hread : I.survey.isRead name = true → Excuse I.survey goName) :
    (emitUse name goName).Uses I c [goName] fun _ => True := by
  refine adds_read_bind ?_
  rw [hc.survey]
  split
  · refine uses_emit ?_ List.mem_cons_self
    exact code_assign (I.names _ (by decide)) (by decide) (admits_free hfree)
  next hnotUnread =>
    exact (ensures_pure trivial).uses (hread (by simpa using hnotUnread))

/-- The declaration of a variable. -/
theorem ensures_lowerDeclare {var : VarDecl} (h : ∀ e ∈ walkOption var.init, I.GrantsExpr true e) :
    (lowerDeclare var).Ensures I c fun _ => True := by
  have hdeclare (type : GoType) {value : Option Go.Expr} (hvalue : ∀ e ∈ value, I.Admits e) : (do
      let symbol ← declare var.name var.type .declared
      importType type
      emit (.declare symbol.goName (.value type) value)
      emitUse var.name symbol.goName : Lower Unit).Ensures I c fun _ => True := by
    refine ensures_bind (ensures_declare _ _ _) fun symbol hsymbol => ?_
    obtain ⟨table, hnamed, hname⟩ := hsymbol
    have hfree : symbol.goName ∉ privateNames :=
      hname ▸ SymbolTable.freshGoName_notMem_privateNames _ hnamed.reserved
    refine ensures_bind (ensures_importType _) fun _ _ => ?_
    refine ensures_declare_bind hvalue .of_isValue (uses_emitUse hc hfree fun hread => ?_)
    exact hname ▸ .variable table hread
  refine ensures_read_bind ?_
  split
  · split
    next init hinit => exact ensures_assignVariable hc _ _ (by rwa [hinit] at h)
    next => exact ensures_pure trivial
  · refine ensures_bind (ensures_annotated (annotated_ofExcept _)) fun info _ => ?_
    dsimp only
    split
    next init hinit =>
      rw [hinit] at h
      rw [map_eq_pure_bind, bind_assoc]
      refine ensures_bind (ensures_lowerValue hc init _ h) fun value hvalue => ?_
      rw [pure_bind]
      refine hdeclare _ fun e he => ?_
      obtain rfl := Option.some.inj he
      exact hvalue.admits
    next =>
      rw [pure_bind]
      exact hdeclare _ nofun

theorem ensures_lowerDeclares {vars : List VarDecl}
    (h : ∀ e ∈ vars.flatMap fun v => walkOption v.init, I.GrantsExpr true e) :
    (lowerDeclares vars).Ensures I c fun _ => True := by
  induction vars with
  | nil => exact ensures_pure trivial
  | cons var rest ih =>
    rw [List.flatMap_cons, List.forall_mem_append] at h
    exact ensures_bind (ensures_lowerDeclare hc h.1) fun _ _ => ih h.2

/-! ## Assignments -/

omit hc in
/-- The query that assigns a variable has the needs of the query that it stands for. -/
theorem grantsSelect_assignmentQuery {target : String} {value : Expr} {query : Select}
    (hquery : assignmentQuery? target value = some query)
    (h : ∀ e ∈ value.walk, I.GrantsExpr true e) : I.GrantsSelect query := by
  unfold assignmentQuery? at hquery
  split at hquery
  next inner =>
    split at hquery
    next table item hsource hitems =>
      obtain rfl := Option.some.inj hquery
      have hinner := grantsSelect_of_isQuery (.inr rfl) h (by rw [hsource, Option.isSome_some])
      obtain ⟨top, distinct, items, source, joins, filter, groupBy, orderBy⟩ := inner
      obtain rfl : items = [item] := hitems
      obtain ⟨expr, aliasName, assigned⟩ := item
      exact ⟨hinner.exprs, hinner.error, hinner.source⟩
    next => cases hquery
  next => cases hquery

theorem ensures_lowerSet {target : String} {value : Expr}
    (h : ∀ e ∈ value.walk, I.GrantsExpr true e) :
    (lowerSet target value).Ensures I c fun _ => True := by
  unfold lowerSet
  split
  next query hquery =>
    refine ensures_bind (ensures_lookup target) fun _ _ => ?_
    exact ensures_lowerSelect hc (grantsSelect_assignmentQuery hquery h)
  next => exact ensures_assignVariable hc target value h

/-! ## Messages, returns and errors -/

omit hc in
theorem ensures_emitLog (hooked plain : String) {message : Go.Expr} (h : I.IsValue message) :
    (emitLog hooked plain message).Ensures I c fun _ => True := by
  have hslog : I.IsValue (.name "slog") := isValue_free (by decide)
  have hlog : I.IsValue (.name "log") := isValue_free (by decide)
  refine ensures_read_bind ?_
  split
  · refine ensures_bind (ensures_importPath _) fun _ _ => ensures_emit (.run (IsValue.admits ?_))
    simp [hslog, isValue_ctx, h]
  · refine ensures_bind (ensures_importPath _) fun _ _ => ensures_emit (.run (IsValue.admits ?_))
    simp [hlog, h]

theorem ensures_propagateReturn : propagateReturn.Ensures I c fun _ => True := by
  refine ensures_read_bind ?_
  have hret : (emit (.ret [])).Ensures I c fun _ => True := ensures_emit (.ret nofun)
  split
  next flag hflag =>
    have hmem : some flag ∈ c.returnFlags := by
      rw [Option.join_eq_some_iff] at hflag
      exact List.mem_of_mem_head? hflag
    refine ensures_bind (ensures_emitAssign_free (hc.flags flag hmem) ?_) fun _ _ => hret
    exact (isValue_bool true).admits
  next => exact ensures_bind (ensures_warn _ _) fun _ _ => hret

theorem ensures_emitReturn {status error : Go.Expr}
    (hstatus : I.survey.hasStatus = true → I.Admits status)
    (herror : I.survey.needsErr = true → I.Admits error) :
    (emitReturn status error).Ensures I c fun _ => True :=
  (adds_emitReturn hc status error).mono fun _ _ hadded =>
    ⟨hadded ▸ .ret (admits_results hstatus herror), trivial⟩

/-- A `RETURN` in each scope. -/
theorem ensures_lowerReturn {status : Option Go.Expr} (h : ∀ value ∈ status, I.IsValue value)
    (hgranted : status.isSome → I.allows (.name "returnCode")) :
    (lowerReturn status).Ensures I c fun _ => True := by
  refine ensures_read_bind ?_
  split
  · refine ensures_emitReturn hc (fun _ => ?_) fun _ => isValue_nil.admits
    cases status with
    | none => exact (isValue_int 0).admits
    | some value => exact (h value rfl).admits
  · split
    next value =>
      refine ensures_bind (ensures_emitAssign (hgranted rfl) (by decide) (h value rfl).admits) ?_
      exact fun _ _ => ensures_propagateReturn hc
    next => exact ensures_propagateReturn hc
  · refine ensures_bind (ensures_warn _ _) fun _ _ => ?_
    exact ensures_emitLog _ _ (isValue_str _)

/-- An error is raised in each scope. In a handler it is kept, so it must not be a call that can
fail itself. -/
theorem ensures_raise {error : Go.Expr} (herr : I.allows (.name "err")) (h : I.IsValue error)
    (hfallible : error.isFallible = false) : (raise error).Ensures I c fun _ => True := by
  refine ensures_read_bind ?_
  split
  · refine ensures_emitReturn hc (fun hstatus => ?_) fun _ => h.admits
    exact admits_name.mpr (I.status hstatus)
  · exact ensures_emit (.panic h.admits)
  · refine ensures_bind (ensures_emit (code_assign_err herr h.admits hfallible)) fun _ _ => ?_
    exact ensures_emit (.ret nofun)

theorem ensures_lowerThrow {args : Option ThrowArgs} (herr : I.allows (.name "err"))
    (hcaught : args = none → I.allows (.name "caught"))
    (h : ∀ e ∈ (Statement.throw args).ownExprs, I.GrantsExpr true e) :
    (lowerThrow args).Ensures I c fun _ => True := by
  unfold lowerThrow
  cases args with
  | none =>
    refine ensures_read_bind (ensures_when ensures_unsupported ?_)
    exact ensures_raise hc herr (isValue_name.mpr ⟨hcaught rfl, by decide⟩) rfl
  | some args =>
    simp only [Statement.ownExprs, List.forall_mem_append] at h
    refine ensures_bind (ensures_lowerValue hc _ _ h.1) fun number hnumber => ?_
    refine ensures_bind (ensures_lowerValue hc _ _ h.2.1) fun message hmessage => ?_
    refine ensures_bind (ensures_importPath _) fun _ _ => ?_
    have hfmt : I.IsValue (.name "fmt") := isValue_free (by decide)
    exact ensures_raise hc herr (by simp [hfmt, hnumber, hmessage]) rfl

theorem ensures_lowerRaiserror {message severity : Expr}
    (herr : severity.isInformational = false → I.allows (.name "err"))
    (h : ∀ e ∈ message.walk, I.GrantsExpr true e) :
    (lowerRaiserror message severity).Ensures I c fun _ => True := by
  refine ensures_bind (ensures_lowerValue hc message _ h) fun text htext => ?_
  split
  · exact ensures_emitLog _ _ htext
  next hsevere =>
    refine ensures_bind (ensures_importPath _) fun _ _ => ?_
    have herrors : I.IsValue (.name "errors") := isValue_free (by decide)
    exact ensures_raise hc (herr (by simpa using hsevere)) (by simp [herrors, htext]) rfl

/-! ## Cursors -/

omit hc in
/-- The names of iterators are neither handles nor blank. -/
theorem iteratorNames_free {name cursor : String} (h : name ∈ iteratorNames cursor) :
    name ∉ privateNames ∧ name ≠ "_" := by
  simp only [iteratorNames, List.mem_cons, List.not_mem_nil, or_false] at h
  rcases h with rfl | rfl <;> exact ending_free (by decide)

omit hc in
theorem ensures_iteratorName (cursor : String) :
    (iteratorName cursor).Ensures I c fun name => name ∈ iteratorNames cursor :=
  (ensures_localName _).mono fun name hname => by
    rwa [String.append_assoc] at hname

omit hc in
/-- What is known about a cursor that can be found. -/
theorem ensures_getCursor (name : String) :
    (getCursor name).Ensures I c fun cursor => I.SoundCursor (Text.toLower name) cursor := by
  refine ensures_get_bind fun p hsound => ?_
  refine ensures_of_annotated (annotated_ofExcept _) fun _ cursor _ hruns _ => ?_
  obtain ⟨hget, -⟩ := runs_ofExcept.mp hruns
  unfold CursorTable.get at hget
  split at hget
  next found hfound =>
    obtain rfl := Except.ok.inj hget
    obtain ⟨front, back, hcursors, -⟩ := List.lookup_eq_some_iff.mp hfound
    have hmem : (Text.toLower name, found) ∈ p.cursors := by
      rw [hcursors]
      exact List.mem_append_right _ List.mem_cons_self
    exact hsound.cursors _ hmem
  next => cases hget

omit hc in
theorem ensures_putCursor {name : String} {cursor : Cursor}
    (h : I.SoundCursor (Text.toLower name) cursor) :
    (putCursor name cursor).Ensures I c fun _ => True := by
  refine adds_modify (fun p hsound => ?_) (fun _ => rfl) ⟨.nil, trivial⟩
  refine ⟨hsound.grown, hsound.named, fun entry hentry => ?_, hsound.transaction⟩
  rcases List.mem_cons.mp hentry with rfl | hentry
  · exact h
  · exact hsound.cursors entry (List.mem_filter.mp hentry).1

theorem ensures_declareCursor {name : String} {query : Select}
    (hquery : ∀ e ∈ query.walk, I.GrantsExpr false e)
    (hsource : ∀ table ∈ query.source, I.Grants (table.need I.config)) :
    (declareCursor name query).Ensures I c fun _ => True := by
  refine ensures_get_bind fun p _ => ensures_when ensures_fail ?_
  cases htable : query.source with
  | none => exact ensures_fail
  | some table =>
    refine ensures_bind (ensures_backendFor hc table) fun backend hbackend => ?_
    dsimp only
    split
    · exact ensures_bind (P := fun _ => False) ensures_fail fun _ hfalse => hfalse.elim
    next hremote =>
      refine ensures_bind (ensures_iteratorName name) fun iterator hiterator => ?_
      refine ensures_putCursor ⟨⟨name, rfl, hiterator⟩, ?_, hremote, hquery, nofun⟩
      exact ⟨table, htable, hbackend, hsource table htable⟩

/-- The type of iterators is that of the rows of their back end. -/
theorem ensures_iteratorType (backend : Backend) :
    (iteratorType backend).Ensures I c fun type =>
      type = .pointer (.named (I.config.rowsPackage backend) "Rows") := by
  unfold iteratorType mockPackage
  split
  next hmock =>
    subst hmock
    simp only [bind_assoc, pure_bind]
    refine ensures_read_bind (ensures_bind (ensures_annotated (hasEffect_importSpec _)) fun _ _ => ?_)
    rw [hc.config]
    exact ensures_pure rfl
  next hmock =>
    refine ensures_bind (ensures_importPath _) fun _ _ => ensures_pure ?_
    rw [Config.rowsPackage, if_neg hmock]

/-- The call that yields the rows of a cursor. -/
theorem ensures_rowsCall {key : String} {cursor : Cursor} (h : I.SoundCursor key cursor) :
    (rowsCall cursor).Ensures I c fun call => I.Admits call ∧
      call.yields true = .pointer (.named (I.config.rowsPackage cursor.backend) "Rows") := by
  obtain ⟨table, htable, hbackend, hneed⟩ := h.source
  rw [TableRef.need_eq, ← hbackend] at hneed
  have hremote := h.backend
  unfold rowsCall
  rw [htable]
  cases hcase : cursor.backend with
  | rpc => exact absurd hcase hremote
  | mock =>
    rw [hcase] at hneed
    refine ensures_requestRowsOf hc hneed fun e he => ?_
    exact h.query e (cursor.query.walkOption_filter_subset he)
  | sql =>
    rw [hcase] at hneed
    refine ensures_bind (ensures_renderQuery hc (.select cursor.query) h.query)
      fun rendered hargs => ?_
    refine ensures_bind (ensures_handle hc hneed) fun owner howner => ensures_pure ?_
    exact ⟨(isValue_dataCall _ howner hargs).admits, yields_dataCall _ _ _ _⟩

/-- The opening of a cursor. Its iterator is used by its release, or was declared and released at
the entry of the function. -/
theorem ensures_openCursor {name : String} (herr : I.allows (.name "err")) :
    (openCursor name).Ensures I c fun _ => True := by
  refine ensures_bind (ensures_getCursor name) fun cursor hcursor => ?_
  refine ensures_when ensures_fail ?_
  refine ensures_bind (ensures_rowsCall hc hcursor) fun call hcall => ?_
  refine ensures_bind (ensures_iteratorType hc _) fun type htype => ?_
  subst htype
  obtain ⟨declared, hkey, hiterator⟩ := hcursor.iterator
  obtain ⟨hfree, hblank⟩ := iteratorNames_free hiterator
  have hopened : (putCursor name { cursor with state := .opened }).Ensures I c fun _ => True :=
    ensures_putCursor ⟨hcursor.iterator, hcursor.source, hcursor.backend, hcursor.query,
      fun _ => herr⟩
  have hclose : (emit (.deferCall (.invoke (.name cursor.iterator) "Close" []))).Uses I c
      [cursor.iterator] fun _ => True := by
    refine uses_emit (.deferCall ?_) List.mem_cons_self
    exact admits_invoke _ (admits_free hfree) nofun
  have hexcuse (h : I.survey.releasesAtEntry name = true) : Excuse I.survey cursor.iterator := by
    refine .iterator (.inr ?_) hiterator
    rwa [Survey.releasesAtEntry, hkey]
  have hserves : cursor.backend ∈ I.config.backends := by
    obtain ⟨table, -, hbackend, -⟩ := hcursor.source
    exact hbackend ▸ I.config.backendOf_mem_backends _
  have hyields : call.yields (Go.isIterator cursor.iterator) =
      .pointer (.named (I.config.rowsPackage cursor.backend) "Rows") := by
    rw [isIterator_of_mem_iteratorNames hiterator, hcall.2]
  -- The check is followed by the release, or the release stands at the entry already.
  refine ensures_boundCall herr hfree hblank (.iterator hiterator) (.rows hserves hiterator) hyields
    hcall.1 (adds_read_bind ?_)
  rw [hc.survey]
  split
  next hreleases => exact (checks_emitIf hc (hexcuse hreleases)).bind hopened
  next => exact (hclose.checks hc).bind hopened

omit hc in
/-- The iterator that a fetch advances. The cursor is open, so an error can be kept. -/
theorem ensures_fetchIterator (fetch : Fetch) :
    (fetchIterator fetch).Ensures I c fun iterator =>
      I.allows (.name "err") ∧ I.IsValue iterator := by
  refine ensures_when ensures_unsupported ?_
  refine ensures_bind (ensures_getCursor _) fun cursor hcursor => ?_
  split
  · exact ensures_bind (P := fun _ => False) ensures_fail fun _ hfalse => hfalse.elim
  next hstate =>
    obtain ⟨declared, -, hiterator⟩ := hcursor.iterator
    refine ensures_pure ⟨hcursor.opened (Decidable.of_not_not hstate), ?_⟩
    exact isValue_free (iteratorNames_free hiterator).1

/-- A row is read into variables of the procedure. -/
theorem ensures_emitRow {iterator : Go.Expr} {targets : List String}
    (herr : I.allows (.name "err")) (hiterator : I.IsValue iterator)
    (htargets : ∀ target ∈ targets, target ∉ privateNames) :
    (emitRow iterator targets).Ensures I c fun _ => True := by
  refine ensures_emitGuarded hc herr (fun e he => ?_) (IsValue.admits ?_)
  · obtain rfl := List.mem_singleton.mp he
    exact admits_name.mpr herr
  · exact (isValue_invoke _ _ _).mpr ⟨hiterator, isValue_addresses htargets⟩

theorem ensures_fetchRow (fetch : Fetch) : (fetchRow fetch).Ensures I c fun _ => True := by
  refine ensures_bind (ensures_fetchIterator fetch) fun iterator hiterator => ensures_read_bind ?_
  split
  · exact ensures_pure trivial
  · refine ensures_bind (ensures_goNames _) fun targets htargets => ?_
    have hnext : I.IsValue (.invoke iterator "Next" []) := by simpa using hiterator.2
    exact ensures_emitIf hnext.admits hnext.isFailureTest_eq
      (ensures_emitRow hc hiterator.1 hiterator.2 htargets)

omit hc in
theorem ensures_closeCursor (name : String) : (closeCursor name).Ensures I c fun _ => True := by
  refine ensures_bind (ensures_getCursor name) fun cursor hcursor => ?_
  split
  · exact ensures_putCursor ⟨hcursor.iterator, hcursor.source, hcursor.backend, hcursor.query, nofun⟩
  · exact ensures_fail
  · exact ensures_fail

omit hc in
theorem ensures_deallocateCursor (name : String) :
    (deallocateCursor name).Ensures I c fun _ => True := by
  refine ensures_bind (ensures_getCursor name) fun _ _ => ?_
  refine adds_modify (fun p hsound => ?_) (fun _ => rfl) ⟨.nil, trivial⟩
  refine ⟨hsound.grown, hsound.named, fun entry hentry => ?_, hsound.transaction⟩
  exact hsound.cursors entry (List.mem_filter.mp hentry).1

/-! ## Transactions -/

omit hc in
/-- What is known about the transaction may change where transactions are granted. -/
theorem adds_setTransaction {state : TransactionState}
    (h : state.active = true ∨ state.uncertain = true → I.Grants .transaction) :
    (setTransaction state).Adds I c fun _ added => added = [] :=
  adds_modify (fun _ hsound => ⟨hsound.grown, hsound.named, hsound.cursors, h⟩) (fun _ => rfl) rfl

omit hc in
theorem ensures_setTransaction {state : TransactionState}
    (h : state.active = true ∨ state.uncertain = true → I.Grants .transaction) :
    (setTransaction state).Ensures I c fun _ => True :=
  (adds_setTransaction h).mono fun _ _ hadded => ⟨hadded ▸ .nil, trivial⟩

/-- The opening of a transaction. What is deferred for a failure may stand in any scope. -/
theorem ensures_emitBegin (h : I.Grants .transaction) (hdatabase : I.survey.usesDb = true) :
    emitBegin.Ensures I c fun _ => True := by
  obtain ⟨herr, hdb, htx⟩ := grants_transaction h hdatabase
  have hbegin : I.Admits (.invoke (.name "db") "BeginTx" [ctx, .nil]) :=
    admits_invoke _ (admits_name.mpr hdb) (by simp [isValue_ctx])
  have htargets : ∀ e ∈ [tx, err], I.Admits e := by
    simp only [List.mem_cons, List.not_mem_nil, or_false, forall_eq_or_imp, forall_eq]
    exact ⟨admits_name.mpr htx, admits_name.mpr herr⟩
  have htest : I.Admits (.chain "&&" [failed, txOpen]) := by
    intro m hm
    have hm : m ∈ [.name "err", .name "tx"] := hm
    simp only [List.mem_cons, List.not_mem_nil, or_false] at hm
    rcases hm with rfl | rfl
    · exact herr
    · exact htx
  have hrollback : I.Code .catchHalf [.assign (assignTo [.name "_"] (.invoke tx "Rollback" []))] :=
    code_assign (I.names _ (by decide)) (by decide)
      (admits_invoke _ (admits_name.mpr htx) nofun)
  have hreset : I.Code .catchHalf [.assign (assignTo [.name "tx"] .nil)] :=
    code_assign htx (by decide) isValue_nil.admits
  refine ensures_bind (ensures_emitGuarded hc herr htargets hbegin) fun _ _ => ?_
  have hbody : (emitIf none (.chain "&&" [failed, txOpen]) do
      emit (.assign (assignTo [.name "_"] (.invoke tx "Rollback" [])))
      emitNoTransaction).Adds I c fun _ added => I.Code .catchHalf added := by
    refine adds_bind (adds_block (P := I.Code .catchHalf) ?_) fun body written hwritten => ?_
    · exact adds_emit_bind ((adds_emit _).mono fun _ _ hadded => hadded ▸ hrollback.append hreset)
    · obtain ⟨rfl, hbody⟩ := hwritten
      exact (adds_emit _).mono fun _ _ hadded => hadded ▸ code_if htest rfl hbody
  refine adds_bind (adds_block hbody) fun body written hwritten => ?_
  obtain ⟨rfl, hbody⟩ := hwritten
  exact ensures_emit (.deferred hbody)

theorem ensures_beginTransaction (name : Option String) (h : I.Grants .transaction) :
    (beginTransaction name).Ensures I c fun _ => True := by
  have hopen : (do
      setTransaction ⟨true, false⟩
      if (← read).survey.usesDb then emitBegin
      else warnNoHandle "BEGIN TRANSACTION" : Lower Unit).Ensures I c fun _ => True := by
    refine ensures_bind (ensures_setTransaction fun _ => h) fun _ _ => ensures_read_bind ?_
    rw [hc.survey]
    split
    next hdatabase => exact ensures_emitBegin hc h hdatabase
    next => exact ensures_warn _ _
  refine ensures_get_bind fun _ _ => ensures_when ensures_fail ?_
  split
  · exact ensures_bind (ensures_warn _ _) fun _ _ => hopen
  · exact hopen

/-- The end of a transaction, by whichever method. -/
theorem ensures_endTransaction (keyword method : String) (h : I.Grants .transaction) :
    (endTransaction keyword method).Ensures I c fun _ => True := by
  refine ensures_get_bind fun p _ => ensures_when ensures_fail ?_
  refine ensures_bind (ensures_setTransaction (by simp)) fun _ _ => ensures_read_bind ?_
  rw [hc.survey]
  split
  next hdatabase =>
    obtain ⟨herr, -, htx⟩ := grants_transaction h hdatabase
    have hfinish : (do
        emitGuarded (assignTo [err] (.invoke tx method []))
        emitNoTransaction : Lower Unit).Ensures I c fun _ => True := by
      refine ensures_bind (ensures_emitGuarded hc herr (fun e he => ?_) ?_) fun _ _ => ?_
      · obtain rfl := List.mem_singleton.mp he
        exact admits_name.mpr herr
      · exact admits_invoke _ (admits_name.mpr htx) nofun
      · exact ensures_emitAssign htx (by decide) isValue_nil.admits
    have hopen : I.IsValue txOpen := by
      have hvalue : I.IsValue tx := isValue_name.mpr ⟨htx, by decide⟩
      simpa [txOpen] using hvalue
    dsimp only
    split
    · exact ensures_emitIf hopen.admits rfl hfinish
    · exact hfinish
  next => exact ensures_warn _ _

/-! ## All of them -/

omit hc in
theorem grantsSelect_of_grantsStatement {query : Select} (h : I.GrantsStatement (.select query)) :
    I.GrantsSelect query := by
  obtain ⟨hexprs, hneeds, -⟩ := h
  have hsource (need : Need) {table : TableRef} (htable : query.source = some table)
      (hneed : need ∈ [.error, table.need I.config]) : I.Grants need := by
    refine hneeds need ?_
    rw [Statement.ownNeeds, htable]
    exact List.mem_append_left _ hneed
  refine ⟨hexprs, fun hsome => ?_, fun table htable => ?_⟩
  · obtain ⟨table, htable⟩ := Option.isSome_iff_exists.mp hsome
    exact hsource .error htable List.mem_cons_self
  · exact hsource (table.need I.config) htable (List.mem_cons_of_mem _ List.mem_cons_self)

/-- A statement that holds no others writes code of the idiom once its needs are met. -/
theorem ensures_lowerLeaf {s : Statement} (h : I.GrantsStatement s) (hleaf : s.children = [])
    (rest : List Statement) (prepared : Option Fetch) :
    (lowerStatement rest prepared s).Ensures I c fun _ => True := by
  have hdone {step : Lower Unit} (hstep : step.Ensures I c fun _ => True) :
      (step >>= fun _ => pure prepared).Ensures I c fun _ => True :=
    ensures_bind hstep fun _ _ => ensures_pure trivial
  have hexprs := h.1
  -- The needs of a statement on a table, or of a call, are an error and a receiver.
  have hneeds (receiver : Need) (heq : s.ownNeeds I.config false false = [.error, receiver]) :
      I.allows (.name "err") ∧ I.Grants receiver := by
    have hall := h.2
    rw [heq] at hall
    exact ⟨grants_error.mp (hall _ List.mem_cons_self),
      hall receiver (List.mem_cons_of_mem _ List.mem_cons_self)⟩
  rw [lowerStatement.eq_def]
  cases s with
  | ifElse condition thenBranch elseBranch => cases hleaf
  | «while» condition body => cases hleaf
  | block body => cases hleaf
  | tryCatch tryBody catchBody => cases hleaf
  | declare vars => exact hdone (ensures_lowerDeclares hc hexprs)
  | declareCursor name query =>
    refine hdone (ensures_declareCursor hc hexprs fun table htable => h.2 _ ?_)
    simp [Statement.ownNeeds, sourceNeeds, Option.mem_def.mp htable]
  | set target value => exact hdone (ensures_lowerSet hc hexprs)
  | ret value =>
    cases value with
    | none =>
      refine ensures_bind (ensures_pure (P := fun status => status = none) rfl) fun _ hnone => ?_
      subst hnone
      exact hdone (ensures_lowerReturn hc (fun _ h => absurd h (Option.not_mem_none _))
        fun h => absurd h Bool.false_ne_true)
    | some value =>
      have hgranted : I.allows (.name "returnCode") :=
        grants_status.mp (h.2 .status List.mem_cons_self)
      refine ensures_bind (P := fun status => ∀ value ∈ status, I.IsValue value) ?_
        fun status hstatus => hdone (ensures_lowerReturn hc hstatus fun _ => hgranted)
      refine ensures_bind (ensures_lowerValue hc value _ hexprs) fun code hcode => ensures_pure ?_
      intro other hother
      obtain rfl := Option.some.inj hother
      exact hcode
  | print value =>
    refine ensures_bind (ensures_lowerValue hc value _ hexprs) fun text htext => ?_
    exact hdone (ensures_emitLog _ _ htext)
  | breakLoop =>
    refine ensures_bind (ensures_annotated (hasEffect_checkJump _)) fun _ _ => ?_
    exact hdone (ensures_emit .breakLoop)
  | continueLoop =>
    refine ensures_bind (ensures_annotated (hasEffect_checkJump _)) fun _ _ => ?_
    exact hdone (ensures_emit .continueLoop)
  | select query => exact hdone (ensures_lowerSelect hc (grantsSelect_of_grantsStatement h))
  | insert i =>
    obtain ⟨herr, hneed⟩ := hneeds (i.table.need I.config) rfl
    exact hdone (ensures_lowerInsert hc herr hneed hexprs)
  | update u =>
    obtain ⟨herr, hneed⟩ := hneeds (u.table.need I.config) rfl
    exact hdone (ensures_lowerUpdate hc herr hneed hexprs)
  | delete d =>
    obtain ⟨herr, hneed⟩ := hneeds (d.table.need I.config) rfl
    exact hdone (ensures_lowerDelete hc herr hneed hexprs)
  | exec e =>
    obtain ⟨herr, hneed⟩ := hneeds (Statement.execNeed I.config) rfl
    exact hdone (ensures_lowerExec hc herr hneed hexprs)
  | execDynamic text => exact ensures_unsupported
  | openCursor name =>
    exact hdone (ensures_openCursor hc (grants_error.mp (h.2 .error List.mem_cons_self)))
  | fetch f =>
    refine ensures_bind (ensures_annotated (annotated_ofExcept _)) fun primes _ => ?_
    split
    · exact ensures_pure trivial
    · exact hdone (ensures_fetchRow hc f)
  | closeCursor name => exact hdone (ensures_closeCursor name)
  | deallocate name => exact hdone (ensures_deallocateCursor name)
  | beginTransaction name =>
    exact hdone (ensures_beginTransaction hc name (h.2 .transaction List.mem_cons_self))
  | commit name =>
    exact hdone (ensures_endTransaction hc _ _ (h.2 .transaction List.mem_cons_self))
  | rollback name =>
    exact hdone (ensures_endTransaction hc _ _ (h.2 .transaction List.mem_cons_self))
  | savepoint name => exact hdone ensures_fail
  | raiserror message severity state =>
    refine hdone (ensures_lowerRaiserror hc (fun hsevere => ?_) fun e he => ?_)
    · refine grants_error.mp (h.2 .error ?_)
      simp [Statement.ownNeeds, hsevere]
    · exact hexprs e (List.mem_append_left _ he)
  | throw args =>
    have herr := grants_error.mp (h.2 .error List.mem_cons_self)
    exact hdone (ensures_lowerThrow hc herr (fun hnone => h.rethrow (hnone ▸ rfl)) hexprs)

end Covered

end Lower

end Sproc
