import Sproc.Proofs.Lower.Writing

/-!
# Data calls

Data statements become calls of the database, of a client or of the store. Each call needs its
receiver and a place for its error, which the survey has to provide: what a statement writes belongs
to the idiom of the function once the needs of the statement are met. The same holds for the queries
inside expressions, which run in front of the statement that holds them.

## Main definitions

* `Backend.need`: what a call to a backend needs
* `Idiom.GrantsSelect`: the needs of a query are met

## Main results

* `ensures_remoteCall`, `ensures_emitCallWith`: requests and what follows them
* `ensures_hoistExists`, `ensures_hoistScalar`: queries inside expressions
* `evaluates_lowerExpr`: an expression becomes a value
* `ensures_lowerSelect`, `ensures_lowerInsert`, `ensures_lowerUpdate`, `ensures_lowerDelete`,
  `ensures_lowerExec`: data statements
-/

namespace Sproc

open Lower Idiom Permit

/-! ## Needs -/

/-- What a call to a backend needs, where services are reached through the given client. -/
def Backend.need (backend : Backend) (client : ClientRef) : Need :=
  match backend with
  | .sql => .database
  | .mock => .store
  | .rpc => .client client

theorem TableRef.need_eq (config : Config) (table : TableRef) :
    table.need config = (config.backendOf (some table)).1.need (config.clientOf table) := by
  unfold TableRef.need Backend.need
  cases (config.backendOf (some table)).1 <;> rfl

theorem Statement.execNeed_eq (config : Config) :
    Statement.execNeed config = config.backend.need config.execClient := by
  unfold Statement.execNeed Backend.need
  cases config.backend <;> rfl

/-- The filter of a query is a part of it. -/
theorem Select.walkOption_filter_subset (query : Select) : walkOption query.filter ⊆ query.walk := by
  intro e he
  obtain ⟨top, distinct, items, source, joins, filter, groupBy, orderBy⟩ := query
  simp only [Select.walk, List.mem_append]
  exact .inr (.inr (.inr (.inl he)))

/-- The conjuncts of a condition are parts of it. -/
theorem Expr.walk_subset_of_mem_conjuncts {condition part : Expr} (h : part ∈ condition.conjuncts) :
    part.walk ⊆ condition.walk := by
  fun_induction Expr.conjuncts condition with
  | case1 left right ihleft ihright =>
    rw [Expr.walk]
    rcases List.mem_append.mp h with h | h
    · exact fun e he => List.mem_cons_of_mem _ (List.mem_append_left _ (ihleft h he))
    · exact fun e he => List.mem_cons_of_mem _ (List.mem_append_right _ (ihright h he))
  | case2 condition _ =>
    obtain rfl := List.mem_singleton.mp h
    exact List.Subset.refl _

/-- What stands inside a conjunction of parts, apart from the conjunctions that put them together. -/
theorem Expr.mem_walk_foldl_and {first e : Expr} {rest : List Expr}
    (h : e ∈ (rest.foldl (fun condition next => .binary .and condition next) first).walk) :
    (∃ part ∈ first :: rest, e ∈ part.walk) ∨ ∃ left right, e = .binary .and left right := by
  induction rest generalizing first with
  | nil => exact .inl ⟨first, List.mem_cons_self, h⟩
  | cons next rest ih =>
    rcases ih h with ⟨part, hpart, he⟩ | hconjunction
    · rcases List.mem_cons.mp hpart with rfl | hpart
      · rw [Expr.walk, List.mem_cons, List.mem_append] at he
        rcases he with rfl | he | he
        · exact .inr ⟨first, next, rfl⟩
        · exact .inl ⟨first, List.mem_cons_self, he⟩
        · exact .inl ⟨next, List.mem_cons_of_mem _ List.mem_cons_self, he⟩
      · exact .inl ⟨part, List.mem_cons_of_mem _ (List.mem_cons_of_mem _ hpart), he⟩
    · exact .inr hconjunction

/-- What is required beyond the success of a fetch stands in the whole condition, apart from the
conjunctions that put it together. -/
theorem Expr.mem_walk_sentinelRest {condition e : Expr} {rest : Option Expr}
    (hrest : sentinelRest? condition = some rest) (he : e ∈ walkOption rest) :
    e ∈ condition.walk ∨ ∃ left right, e = .binary .and left right := by
  unfold sentinelRest? at hrest
  dsimp only at hrest
  split at hrest
  next =>
    obtain rfl := Option.some.inj hrest
    have hparts : ∀ part ∈ condition.conjuncts.filter (!·.isSentinel),
        part.walk ⊆ condition.walk := fun part hpart =>
      Expr.walk_subset_of_mem_conjuncts (List.mem_filter.mp hpart).1
    revert hparts he
    generalize condition.conjuncts.filter (!·.isSentinel) = parts
    intro he hparts
    cases parts with
    | nil => cases he
    | cons first rest =>
      refine (Expr.mem_walk_foldl_and he).imp_left fun ⟨part, hpart, he⟩ => hparts part hpart he
  next => cases hrest

/-- Inside query text an expression needs no more than in Go. -/
theorem Permit.GrantsExpr.inQuery {permit : Permit} {inGo : Bool} {e : Expr}
    (h : permit.GrantsExpr inGo e) : permit.GrantsExpr false e := by
  refine ⟨fun need hneed => h.1 need ?_, h.2⟩
  cases e with
  | «exists» query => cases hneed
  | subquery query => cases hneed
  | global var => cases var <;> exact hneed
  | _ => exact hneed

namespace Idiom

variable {I : Idiom}

/-- The needs of a query are met. -/
structure GrantsSelect (I : Idiom) (query : Select) : Prop where
  exprs : ∀ e ∈ query.walk, I.GrantsExpr query.source.isNone e
  error : query.source.isSome → I.Grants .error
  source : ∀ table ∈ query.source, I.Grants (table.need I.config)

/-- A query inside an expression that is evaluated in Go. -/
theorem grantsSelect_of_isQuery {e : Expr} {query : Select}
    (he : e = .exists query ∨ e = .subquery query) (h : ∀ node ∈ e.walk, I.GrantsExpr true node)
    (hsource : query.source.isSome) : I.GrantsSelect query := by
  have hwalk : ∀ node ∈ query.walk, I.GrantsExpr true node := by
    rcases he with rfl | rfl <;> exact fun node hnode => h node (List.mem_cons_of_mem _ hnode)
  have hneeds (need : Need) (hneed : need = .error ∨ need ∈ sourceNeeds I.config query.source) :
      I.Grants need := by
    refine (h e (Expr.mem_walk_self e)).1 need ?_
    rcases he with rfl | rfl <;> simpa [Expr.needs] using hneed
  refine ⟨fun node hnode => ?_, fun _ => hneeds .error (.inl rfl), fun table htable => ?_⟩
  · rw [Option.isNone_eq_false_iff.mpr hsource]
    exact (hwalk node hnode).inQuery
  · refine hneeds (table.need I.config) (.inr ?_)
    simp [sourceNeeds, Option.mem_def.mp htable]

/-- The error of a query over a table may be kept, its call may be made, and its arguments are
known. -/
theorem GrantsSelect.of_source {query : Select} {table : TableRef} (h : I.GrantsSelect query)
    (hsource : query.source = some table) : I.allows (.name "err") ∧
      I.Grants ((I.config.backendOf (some table)).1.need (I.config.clientOf table)) ∧
      ∀ e ∈ query.walk, I.GrantsExpr false e := by
  have hsome : query.source.isSome := by rw [hsource, Option.isSome_some]
  refine ⟨grants_error.mp (h.error hsome), ?_, fun e he => (h.exprs e he).inQuery⟩
  rw [← TableRef.need_eq]
  exact h.source table hsource

end Idiom

namespace Lower

variable {I : Idiom} {c : Context} {backend : Backend} {client : ClientRef} {fields : Fields}

section Covered

variable (hc : I.Covers c)

include hc

/-- The backend of a table is the one that the survey has counted on. -/
theorem ensures_backendFor (table : TableRef) :
    (backendFor table).Ensures I c fun backend =>
      backend = (I.config.backendOf (some table)).1 := by
  refine ensures_read_bind ?_
  rw [hc.config]
  generalize I.config.backendOf (some table) = choice
  obtain ⟨backend, forced⟩ := choice
  exact ensures_when (ensures_warn _ _) (ensures_pure rfl)

/-! ## Fields of requests -/

/-- What fills a field is a value. -/
theorem evaluates_fieldValue {expr : Expr} {evaluate : Lower Value}
    (h : fieldValue? expr = some evaluate) (hexpr : ∀ e ∈ expr.walk, I.GrantsExpr false e) :
    evaluate.Evaluates I c := by
  have hself := hexpr _ (Expr.mem_walk_self expr)
  unfold fieldValue? at h
  split at h
  · obtain rfl := Option.some.inj h
    exact evaluates_lowerVariable _
  · obtain rfl := Option.some.inj h
    exact evaluates_pure (isValue_ofLiteral _)
  · obtain rfl := Option.some.inj h
    exact evaluates_lowerGlobal hc hself
  · obtain rfl := Option.some.inj h
    exact evaluates_lowerGlobal hc hself
  · obtain rfl := Option.some.inj h
    refine ensures_of_annotated (annotated_ofExcept _) fun _ _ _ hruns _ => ?_
    exact isValue_negate (isValue_ofLiteral _) (runs_ofExcept.mp hruns).1
  · split at h
    · obtain rfl := Option.some.inj h
      exact evaluates_lowerFunction (fun _ harg => absurd harg List.not_mem_nil)
        (hself.2 _ _ rfl) none
    · cases h
  · cases h

theorem ensures_addField (part : String) (column : String) {expr : Expr}
    (hfields : ∀ field ∈ fields, I.IsValue field.2)
    (hexpr : ∀ e ∈ expr.walk, I.GrantsExpr false e) :
    (addField part fields column expr).Ensures I c fun fields =>
      ∀ field ∈ fields, I.IsValue field.2 := by
  have hskipped (message : String) : (warnSkipped message >>= fun _ => pure fields).Ensures I c
      fun fields => ∀ field ∈ fields, I.IsValue field.2 :=
    ensures_bind (ensures_warn _ _) fun _ _ => ensures_pure hfields
  unfold addField
  dsimp only
  split
  · exact hskipped _
  · split
    · exact hskipped _
    next evaluate hevaluate =>
      refine ensures_bind (evaluates_fieldValue hc hevaluate hexpr) fun value hvalue => ?_
      split
      · exact hskipped _
      · refine ensures_pure (List.forall_mem_append.mpr ⟨hfields, fun field hfield => ?_⟩)
        obtain rfl := List.mem_singleton.mp hfield
        exact hvalue

theorem ensures_addFields (part : String) {columns : List (String × Expr)}
    (hfields : ∀ field ∈ fields, I.IsValue field.2)
    (hcolumns : ∀ column ∈ columns, ∀ e ∈ column.2.walk, I.GrantsExpr false e) :
    (addFields part fields columns).Ensures I c fun fields =>
      ∀ field ∈ fields, I.IsValue field.2 := by
  induction columns generalizing fields with
  | nil => exact ensures_pure hfields
  | cons column rest ih =>
    rw [List.forall_mem_cons] at hcolumns
    refine ensures_bind (ensures_addField hc part _ hfields hcolumns.1) fun fields hfields => ?_
    exact ih hfields hcolumns.2

omit hc in
/-- The value that a condition compares a column with is a part of the condition. -/
theorem walk_subset_of_columnTest? {condition value : Expr} {column : String}
    (h : columnTest? condition = some (column, value)) : value.walk ⊆ condition.walk := by
  unfold columnTest? at h
  split at h
  next left right =>
    rw [Expr.walk]
    split at h
    · cases h
      exact fun e he => List.mem_cons_of_mem _ (List.mem_append_right _ he)
    · cases h
      exact fun e he => List.mem_cons_of_mem _ (List.mem_append_left _ he)
    · cases h
  next => cases h

theorem ensures_addConditions {conditions : List Expr}
    (hfields : ∀ field ∈ fields, I.IsValue field.2)
    (hconditions : ∀ condition ∈ conditions, ∀ e ∈ condition.walk, I.GrantsExpr false e) :
    (addConditions fields conditions).Ensures I c fun fields =>
      ∀ field ∈ fields, I.IsValue field.2 := by
  induction conditions generalizing fields with
  | nil => exact ensures_pure hfields
  | cons condition rest ih =>
    rw [List.forall_mem_cons] at hconditions
    rw [addConditions]
    split
    next column value htest =>
      have hvalue (e : Expr) (he : e ∈ value.walk) : I.GrantsExpr false e :=
        hconditions.1 e (walk_subset_of_columnTest? htest he)
      refine ensures_bind (ensures_addField hc _ _ hfields hvalue) fun fields hfields => ?_
      exact ih hfields hconditions.2
    next => exact ensures_bind (ensures_warn _ _) fun _ _ => ih hfields hconditions.2

/-- The fields of a filter are values. -/
theorem ensures_filterFields {filter : Option Expr}
    (h : ∀ e ∈ walkOption filter, I.GrantsExpr false e) :
    (filterFields filter).Ensures I c fun fields => ∀ field ∈ fields, I.IsValue field.2 := by
  refine ensures_addConditions hc nofun fun condition hcondition e he => ?_
  cases filter with
  | none => cases hcondition
  | some filter => exact h e (Expr.walk_subset_of_mem_conjuncts hcondition he)

/-! ## Requests -/

/-- A request may be sent where the survey has provided its receiver. It is sent through the package
of its back end, and yields a message of that package. -/
theorem ensures_remoteCall (method : String) (hremote : backend ≠ .sql)
    (hneed : I.Grants (backend.need client)) (hfields : ∀ field ∈ fields, I.IsValue field.2) :
    (remoteCall backend client method fields).Ensures I c fun result =>
      I.Admits result.1 ∧ result.2 = I.config.messagePackage backend ∧
        ∀ iterated, result.1.yields iterated =
          .pointer (.named result.2 (if iterated then "Rows" else method ++ "Response")) := by
  have hadmits {receiver package : String} (hreceiver : I.allows (.receiver receiver package)) :
      I.Admits (.invoke (.name receiver) method
        [ctx, .message package (method ++ "Request") fields]) := by
    intro m hm
    simp only [Go.Expr.invoke, Go.Expr.mentions, Go.request?, Go.exprMentions, List.append_nil,
      List.mem_append, List.mem_cons, List.not_mem_nil, or_false] at hm
    rcases hm with rfl | hm | rfl | hm
    · exact hreceiver
    · exact (isValue_ctx m hm).1
    · exact I.messages package
    · obtain ⟨field, hfield, hm⟩ := Go.mem_fieldMentions.mp hm
      exact (hfields field hfield m hm).1
  unfold remoteCall mockPackage rpcPackage
  dsimp only
  split
  next hmock =>
    subst hmock
    simp only [bind_assoc, pure_bind]
    refine ensures_read_bind (ensures_bind (ensures_annotated (hasEffect_importSpec _)) fun _ _ => ?_)
    rw [hc.config]
    exact ensures_pure ⟨hadmits (grants_store.mp hneed), rfl, fun _ => rfl⟩
  next hmock =>
    cases backend with
    | sql => exact absurd rfl hremote
    | mock => exact absurd rfl hmock
    | rpc =>
      simp only [bind_assoc, pure_bind]
      refine ensures_read_bind
        (ensures_bind (ensures_annotated (hasEffect_importSpec _)) fun _ _ => ?_)
      rw [hc.config]
      exact ensures_pure ⟨hadmits ((grants_client _).mp hneed), rfl, fun _ => rfl⟩

omit hc in
/-- The names of responses are neither handles nor blank. -/
theorem responseNames_free {name method : String} (h : name ∈ responseNames method) :
    name ∉ privateNames ∧ name ≠ "_" := by
  simp only [responseNames, List.mem_cons, List.not_mem_nil, or_false] at h
  rcases h with rfl | rfl <;> exact ending_free (by decide)

/-- A request whose response is used by what follows, or excused. -/
theorem ensures_emitCallWith {method : String} {onResponse : Go.Expr → Lower Unit}
    (hserves : backend ∈ I.config.backends) (hremote : backend ≠ .sql) (herr : I.allows (.name "err"))
    (hneed : I.Grants (backend.need client)) (hfields : ∀ field ∈ fields, I.IsValue field.2)
    (hresponse : ∀ response ∈ responseNames method,
      (onResponse (.name response)).Uses I c [response] fun _ => True) :
    (emitCallWith backend client method fields onResponse).Ensures I c fun _ => True := by
  refine ensures_bind (ensures_remoteCall hc method hremote hneed hfields) fun result hresult => ?_
  obtain ⟨call, package⟩ := result
  obtain ⟨hcall, rfl, hyields⟩ := hresult
  refine ensures_bind (ensures_localName _) fun response hname => ?_
  have hname : response ∈ responseNames method := by
    rwa [String.append_assoc] at hname
  obtain ⟨hfree, hblank⟩ := responseNames_free hname
  refine ensures_boundCall herr hfree hblank (.call (.response hname)) (.response hserves hname)
    ?_ hcall ((hresponse response hname).checks hc)
  rw [hyields, isIterator_of_mem_responseNames hname]
  rfl

omit hc in
theorem ensures_emitOneRow (h : I.allows (.name "rowCount")) :
    emitOneRow.Ensures I c fun _ => True :=
  ensures_emitAssign h (by decide) (isValue_int 1).admits

/-- A request whose response is dropped. -/
theorem ensures_emitCall {method : String} (hremote : backend ≠ .sql)
    (herr : I.allows (.name "err")) (hneed : I.Grants (backend.need client))
    (hfields : ∀ field ∈ fields, I.IsValue field.2) :
    (emitCall backend client method fields).Ensures I c fun _ => True := by
  refine ensures_bind (ensures_remoteCall hc method hremote hneed hfields) fun result hresult => ?_
  have hcall := hresult.1
  have hblank : I.allows (.name "_") := I.names _ (by decide)
  refine ensures_read_bind ?_
  rw [hc.survey]
  split
  next htracks =>
    have hrow := ensures_emitOneRow (c := c) (I.rowCount htracks)
    have hcheck : (emitChecked emitOneRow).Checks I c "_" :=
      checks_emitChecked hc (Adds.mono hrow fun _ _ h => ⟨h.1, .inr (.inl rfl)⟩)
    have hlocal : false = true → IsLocalName "_" := nofun
    have hkept (h : "_" ∉ Go.fixedTargets) :
        IsLocalType I.config "_" (result.1.yields (Go.isIterator "_")) := absurd (by decide) h
    exact (adds_checkedCall herr hblank hcall hlocal hkept hcheck).mono fun _ _ h => ⟨h.1, trivial⟩
  next =>
    refine ensures_emitGuarded hc herr (fun target htarget => ?_) hcall
    simp only [List.mem_cons, List.not_mem_nil, or_false] at htarget
    rcases htarget with rfl | rfl
    · exact admits_name.mpr hblank
    · exact admits_name.mpr herr

theorem ensures_tableMethod (table : TableRef) (kind : DmlKind) (single : Bool) :
    (tableMethod table kind single).Ensures I c fun result =>
      result.1 = I.config.clientOf table := by
  refine ensures_read_bind ?_
  rw [hc.config]
  exact ensures_pure rfl

omit hc in
/-- The fields of a response are read into variables of the procedure. -/
theorem ensures_emitReads {response : String} {reads : Reads} (hresponse : response ∉ privateNames)
    (hreads : ∀ entry ∈ reads, entry.1 ∉ privateNames) :
    (emitReads (.name response) reads).Ensures I c fun _ => True := by
  induction reads with
  | nil => exact ensures_pure trivial
  | cons entry rest ih =>
    rw [List.forall_mem_cons] at hreads
    refine ensures_bind (ensures_emitAssign_free hreads.1 ?_) fun _ _ => ih hreads.2
    exact admits_invoke _ (admits_free hresponse) nofun

omit hc in
/-- A response is used if anything is read from it. -/
theorem uses_emitReads {response : String} {reads : Reads} (hresponse : response ∉ privateNames)
    (hreads : ∀ entry ∈ reads, entry.1 ∉ privateNames)
    (hused : reads = [] → Excuse I.survey response) :
    (emitReads (.name response) reads).Uses I c [response] fun _ => True := by
  cases reads with
  | nil => exact (ensures_emitReads hresponse hreads).uses (hused rfl)
  | cons entry rest =>
    rw [List.forall_mem_cons] at hreads
    have hget : I.Admits (.invoke (.name response) ("Get" ++ entry.2) []) :=
      admits_invoke _ (admits_free hresponse) nofun
    refine (uses_emit ?_ List.mem_cons_self).bind fun _ _ => ensures_emitReads hresponse hreads.2
    exact code_assign (I.names _ hreads.1) (ne_err_of_notMem hreads.1) hget

omit hc in
/-- The variables that a select list assigns. None is read from the response only if no assigned
item is a plain column. -/
theorem ensures_itemReads (items : List SelectItem) :
    (itemReads items).Ensures I c fun reads =>
      (∀ entry ∈ reads, entry.1 ∉ privateNames) ∧
        (reads = [] → ∀ item ∈ items, item.assignTo.isSome → columnName? item.expr = none) := by
  induction items with
  | nil => exact ensures_pure ⟨nofun, nofun⟩
  | cons item rest ih =>
    obtain ⟨expr, aliasName, target⟩ := item
    cases target with
    | none =>
      refine ih.mono fun reads hreads => ⟨hreads.1, fun hnil item hitem hassigns => ?_⟩
      rcases List.mem_cons.mp hitem with rfl | hitem
      · cases hassigns
      · exact hreads.2 hnil item hitem hassigns
    | some target =>
      refine ensures_bind (ensures_lookup target) fun symbol hsymbol => ?_
      cases hcolumn : columnName? expr with
      | some column =>
        refine ensures_bind ih fun reads hreads => ensures_pure ⟨?_, nofun⟩
        exact List.forall_mem_cons.mpr ⟨hsymbol, hreads.1⟩
      | none =>
        refine ensures_bind (ensures_warn _ _) fun _ _ => ?_
        refine ih.mono fun reads hreads => ⟨hreads.1, fun hnil item hitem hassigns => ?_⟩
        rcases List.mem_cons.mp hitem with rfl | hitem
        · exact hcolumn
        · exact hreads.2 hnil item hitem hassigns

omit hc in
theorem adds_runtimeCall (function : String) (args : List Go.Expr) :
    (runtimeCall function args).Adds I c fun call added =>
      added = [] ∧ call = .runtime function args := by
  refine adds_of_annotated (hasEffect_runtimeCall function args) fun _ _ _ hruns _ => ⟨rfl, ?_⟩
  obtain ⟨_, _, -, hpure⟩ := runs_bind.mp hruns
  exact (runs_pure.mp hpure).1

/-- A query as a request. Its response is left unused where none of the assigned items is a plain
column. -/
theorem ensures_requestSelect {query : Select} {table : TableRef}
    (hserves : backend ∈ I.config.backends) (hremote : backend ≠ .sql)
    (herr : I.allows (.name "err")) (hneed : I.Grants (backend.need (I.config.clientOf table)))
    (hquery : ∀ e ∈ query.walk, I.GrantsExpr false e) :
    (requestSelect backend query table).Ensures I c fun _ => True := by
  have hfilter (e : Expr) (he : e ∈ walkOption query.filter) : I.GrantsExpr false e :=
    hquery e (query.walkOption_filter_subset he)
  refine ensures_bind (ensures_annotated (hasEffect_warnJoins _)) fun _ _ => ?_
  refine ensures_bind (ensures_tableMethod hc table .select _) fun result hclient => ?_
  obtain ⟨client, method⟩ := result
  obtain rfl : client = I.config.clientOf table := hclient
  refine ensures_bind (ensures_filterFields hc hfilter) fun fields hfields => ?_
  split
  next hassigns =>
    refine ensures_bind (ensures_itemReads query.items) fun reads hreads => ?_
    refine ensures_emitCallWith hc hserves hremote herr hneed hfields fun response hresponse => ?_
    have hreading : (emitReads (.name response) reads).Uses I c [response] fun _ => True :=
      uses_emitReads (responseNames_free hresponse).1 hreads.1
        fun hnil => .response query hassigns (hreads.2 hnil) hresponse
    refine hreading.bind fun _ _ => ensures_read_bind ?_
    rw [hc.survey]
    split
    next htracks => exact ensures_emitOneRow (I.rowCount htracks)
    next => exact ensures_pure trivial
  next =>
    refine ensures_emitCallWith hc hserves hremote herr hneed hfields fun response hresponse => ?_
    have hvalue : I.IsValue (.name response) := isValue_free (responseNames_free hresponse).1
    refine adds_bind (adds_runtimeCall _ _) fun call written hwritten => ?_
    obtain ⟨rfl, rfl⟩ := hwritten
    refine uses_emit (.run (IsValue.admits ?_)) ?_
    · simpa using ⟨isValue_ctx, hvalue⟩
    · exact List.mem_cons_of_mem _ (List.mem_cons_of_mem _ List.mem_cons_self)

theorem ensures_requestRows {method : String} {columns : List String} {rows : List (List Expr)}
    (hremote : backend ≠ .sql) (herr : I.allows (.name "err"))
    (hneed : I.Grants (backend.need client))
    (hrows : ∀ e ∈ rows.flatMap walkList, I.GrantsExpr false e) :
    (requestRows backend client method columns rows).Ensures I c fun _ => True := by
  induction rows with
  | nil => exact ensures_pure trivial
  | cons row rest ih =>
    rw [List.flatMap_cons, List.forall_mem_append] at hrows
    have hcolumns (column : String × Expr) (hcolumn : column ∈ columns.zip row) (e : Expr)
        (he : e ∈ column.2.walk) : I.GrantsExpr false e :=
      hrows.1 e (mem_walkList.mpr ⟨column.2, (List.of_mem_zip hcolumn).2, he⟩)
    refine ensures_bind (ensures_addFields hc _ nofun hcolumns) fun fields hfields => ?_
    refine ensures_bind (ensures_emitCall hc hremote herr hneed hfields) fun _ _ => ?_
    exact ih hrows.2

theorem ensures_requestInsert {insert : Insert} (hremote : backend ≠ .sql)
    (herr : I.allows (.name "err"))
    (hneed : I.Grants (backend.need (I.config.clientOf insert.table)))
    (hsource : ∀ e ∈ insert.source.walk, I.GrantsExpr false e) :
    (requestInsert backend insert).Ensures I c fun _ => True := by
  refine ensures_when ensures_fail ?_
  cases hrows : insert.source with
  | query q => exact ensures_fail
  | values rows =>
    rw [hrows] at hsource
    refine ensures_bind (ensures_tableMethod hc _ _ _) fun result hclient => ?_
    obtain ⟨client, method⟩ := result
    obtain rfl : client = I.config.clientOf insert.table := hclient
    exact ensures_requestRows hc hremote herr hneed hsource

theorem ensures_requestUpdate {update : Update} (hremote : backend ≠ .sql)
    (herr : I.allows (.name "err"))
    (hneed : I.Grants (backend.need (I.config.clientOf update.table)))
    (hassignments : ∀ e ∈ update.assignments.flatMap (·.value.walk), I.GrantsExpr false e)
    (hfilter : ∀ e ∈ walkOption update.filter, I.GrantsExpr false e) :
    (requestUpdate backend update).Ensures I c fun _ => True := by
  refine ensures_bind (ensures_tableMethod hc _ _ _) fun result hclient => ?_
  obtain ⟨client, method⟩ := result
  obtain rfl : client = I.config.clientOf update.table := hclient
  refine ensures_bind (ensures_filterFields hc hfilter) fun fields hfields => ?_
  have hcolumns (column : String × Expr)
      (hcolumn : column ∈ update.assignments.map fun a => (a.column, a.value)) (e : Expr)
      (he : e ∈ column.2.walk) : I.GrantsExpr false e := by
    obtain ⟨assignment, hassignment, rfl⟩ := List.mem_map.mp hcolumn
    exact hassignments e (List.mem_flatMap.mpr ⟨assignment, hassignment, he⟩)
  refine ensures_bind (ensures_addFields hc _ hfields hcolumns) fun fields hfields => ?_
  exact ensures_emitCall hc hremote herr hneed hfields

theorem ensures_requestDelete {delete : Delete} (hremote : backend ≠ .sql)
    (herr : I.allows (.name "err"))
    (hneed : I.Grants (backend.need (I.config.clientOf delete.table)))
    (hfilter : ∀ e ∈ walkOption delete.filter, I.GrantsExpr false e) :
    (requestDelete backend delete).Ensures I c fun _ => True := by
  refine ensures_bind (ensures_tableMethod hc _ _ _) fun result hclient => ?_
  obtain ⟨client, method⟩ := result
  obtain rfl : client = I.config.clientOf delete.table := hclient
  refine ensures_bind (ensures_filterFields hc hfilter) fun fields hfields => ?_
  exact ensures_emitCall hc hremote herr hneed hfields

omit hc in
theorem ensures_outputVariable (arg : ExecArg) :
    (outputVariable arg).Ensures I c fun result => result.2 ∉ privateNames := by
  unfold outputVariable
  split
  · exact ensures_bind (ensures_lookup _) fun _ hsymbol => ensures_pure hsymbol
  · exact ensures_unsupported

theorem ensures_requestArgs (callee : String) (position : Nat) {reads : Reads} {args : List ExecArg}
    (hfields : ∀ field ∈ fields, I.IsValue field.2)
    (hreads : ∀ entry ∈ reads, entry.1 ∉ privateNames)
    (hargs : ∀ arg ∈ args, ∀ e ∈ arg.value.walk, I.GrantsExpr false e) :
    (requestArgs callee position fields reads args).Ensures I c fun result =>
      (∀ field ∈ result.1, I.IsValue field.2) ∧ ∀ entry ∈ result.2, entry.1 ∉ privateNames := by
  induction args generalizing position fields reads with
  | nil => exact ensures_pure ⟨hfields, hreads⟩
  | cons arg rest ih =>
    rw [List.forall_mem_cons] at hargs
    have hnamed (field : String) : (do
        let fields ← addField "argument" fields field arg.value
        if arg.output then
          let result ← outputVariable arg
          requestArgs callee (position + 1) fields
            (reads ++ [(result.2, Identifier.fieldName (arg.name.getD result.1))]) rest
        else
          requestArgs callee (position + 1) fields reads rest).Ensures I c fun result =>
        (∀ field ∈ result.1, I.IsValue field.2) ∧ ∀ entry ∈ result.2, entry.1 ∉ privateNames := by
      refine ensures_bind (ensures_addField hc _ field hfields hargs.1) fun fields hfields => ?_
      split
      · refine ensures_bind (ensures_outputVariable arg) fun result hresult => ?_
        refine ih _ hfields (List.forall_mem_append.mpr ⟨hreads, fun entry hentry => ?_⟩) hargs.2
        obtain rfl := List.mem_singleton.mp hentry
        exact hresult
      · exact ih _ hfields hreads hargs.2
    rw [requestArgs]
    dsimp only
    split
    · rw [pure_bind]
      exact hnamed _
    · refine ensures_bind (ensures_warn _ _) fun _ _ => ?_
      rw [pure_bind]
      exact hnamed _

/-- A procedure call as a request, whose response is used if anything is read from it. -/
theorem ensures_requestExec {exec : Exec} (hserves : backend ∈ I.config.backends)
    (hremote : backend ≠ .sql)
    (herr : I.allows (.name "err")) (hneed : I.Grants (backend.need I.config.execClient))
    (hargs : ∀ e ∈ exec.args.flatMap (·.value.walk), I.GrantsExpr false e) :
    (requestExec backend exec).Ensures I c fun _ => True := by
  refine ensures_bind (ensures_annotated (annotated_ofExcept _)) fun method _ => ?_
  have hargs (arg : ExecArg) (harg : arg ∈ exec.args) (e : Expr) (he : e ∈ arg.value.walk) :
      I.GrantsExpr false e :=
    hargs e (List.mem_flatMap.mpr ⟨arg, harg, he⟩)
  refine ensures_bind (ensures_requestArgs hc _ _ nofun nofun hargs) fun result hresult => ?_
  obtain ⟨fields, reads⟩ := result
  have hcall (reads : Reads) (hreads : ∀ entry ∈ reads, entry.1 ∉ privateNames) : (do
      let client := (← read).config.execClient
      if reads.isEmpty then
        emitCall backend client method fields
      else
        emitCallWith backend client method fields fun response =>
          emitReads response reads : Lower Unit).Ensures I c fun _ => True := by
    refine ensures_read_bind ?_
    rw [hc.config]
    dsimp only
    split
    · exact ensures_emitCall hc hremote herr hneed hresult.1
    next hne =>
      refine ensures_emitCallWith hc hserves hremote herr hneed hresult.1 fun response hresponse => ?_
      refine uses_emitReads (responseNames_free hresponse).1 hreads fun hnil => ?_
      exact absurd (List.isEmpty_iff.mpr hnil) hne
  dsimp only
  split
  · refine ensures_bind (ensures_lookup _) fun symbol hsymbol => ?_
    rw [pure_bind]
    refine hcall _ (List.forall_mem_append.mpr ⟨hresult.2, fun entry hentry => ?_⟩)
    obtain rfl := List.mem_singleton.mp hentry
    exact hsymbol
  · rw [pure_bind]
    exact hcall _ hresult.2

/-- The test for rows as a request. -/
theorem ensures_requestExists {query : Select} {table : TableRef} {target : String}
    (hserves : backend ∈ I.config.backends) (hremote : backend ≠ .sql) (herr : I.allows (.name "err"))
    (hneed : I.Grants (backend.need (I.config.clientOf table)))
    (hfilter : ∀ e ∈ walkOption query.filter, I.GrantsExpr false e)
    (htarget : target ∉ privateNames) :
    (requestExists backend query table target).Ensures I c fun _ => True := by
  refine ensures_bind (ensures_tableMethod hc table .exists true) fun result hclient => ?_
  obtain ⟨client, method⟩ := result
  obtain rfl : client = I.config.clientOf table := hclient
  refine ensures_bind (ensures_filterFields hc hfilter) fun fields hfields => ?_
  split
  · refine ensures_bind (ensures_remoteCall hc method hremote hneed hfields) fun result hcall => ?_
    refine ensures_emitGuarded hc herr (fun e he => ?_) hcall.1
    simp only [List.mem_cons, List.not_mem_nil, or_false] at he
    rcases he with rfl | rfl
    · exact admits_free htarget
    · exact admits_name.mpr herr
  · refine ensures_emitCallWith hc hserves hremote herr hneed hfields fun response hresponse => ?_
    have hfree := (responseNames_free hresponse).1
    have hget : I.Admits (.invoke (.name response) "GetExists" []) :=
      admits_invoke _ (admits_free hfree) nofun
    refine uses_emit ?_ List.mem_cons_self
    exact code_assign (I.names _ htarget) (ne_err_of_notMem htarget) hget

/-- The rows of a query from the store. -/
theorem ensures_requestRowsOf {query : Select} {table : TableRef} (hneed : I.Grants .store)
    (hfilter : ∀ e ∈ walkOption query.filter, I.GrantsExpr false e) :
    (requestRowsOf query table).Ensures I c fun call =>
      I.Admits call ∧ call.yields true = .pointer (.named (I.config.rowsPackage .mock) "Rows") := by
  refine ensures_bind (ensures_filterFields hc hfilter) fun fields hfields => ?_
  refine ensures_read_bind (ensures_bind
    (ensures_remoteCall hc _ (by decide) hneed hfields) fun result hresult => ?_)
  obtain ⟨hcall, hpackage, hyields⟩ := hresult
  refine ensures_pure ⟨hcall, ?_⟩
  rw [hyields, hpackage]
  rfl

/-! ## Queries inside expressions -/

omit hc in
/-- A data call on values. -/
theorem isValue_dataCall {owner : Go.Expr} {query : Query Go.Expr} (method : String)
    (howner : I.IsValue owner) (hargs : ∀ arg ∈ query.args, I.IsValue arg) :
    I.IsValue (dataCall owner method query) := by
  simpa [dataCall, isValue_ctx, howner] using hargs

omit hc in
/-- What data calls yield depends on their method alone. -/
theorem yields_dataCall (owner : Go.Expr) (method : String) (query : Query Go.Expr)
    (iterated : Bool) : (dataCall owner method query).yields iterated =
      if method = "ExecContext" then .named "sql" "Result"
      else if method = "QueryContext" then .pointer (.named "sql" "Rows")
      else .builtin "any" := by
  unfold dataCall
  cases query.args <;> rfl

omit hc in
theorem isValue_addresses {targets : List String} (h : ∀ target ∈ targets, target ∉ privateNames) :
    ∀ e ∈ addresses targets, I.IsValue e := by
  intro e he
  obtain ⟨target, htarget, rfl⟩ := List.mem_map.mp he
  exact isValue_free (h target htarget)

omit hc in
/-- A call uses the variables whose addresses it takes. -/
theorem mem_mentions_addresses {owner : Go.Expr} {targets : List String} {target : String}
    (method : String) (htarget : target ∈ targets) :
    .name target ∈ (Go.Expr.invoke owner method (addresses targets)).mentions := by
  have hrequest : Go.request? (.member owner method) (addresses targets) = none := by
    unfold Go.request?
    split
    next heq =>
      have hmem := heq ▸ List.mem_cons_of_mem _ (List.mem_singleton_self _)
      obtain ⟨target, -, htarget⟩ := List.mem_map.mp hmem
      cases htarget
    next => rfl
  refine (Go.mem_mentions_call hrequest).mpr (.inr ?_)
  exact ⟨_, List.mem_map_of_mem htarget, List.mem_singleton_self _⟩

omit hc in
/-- The question whether a row is missing. -/
theorem admits_noRow (herr : I.allows (.name "err")) : I.Admits
    (.invoke (.name "errors") "Is" [err, .member (.name "sql") "ErrNoRows"]) := by
  intro m hm
  have hm : m ∈ [.name "errors", .name "err", .name "sql"] := hm
  simp only [List.mem_cons, List.not_mem_nil, or_false] at hm
  rcases hm with rfl | rfl | rfl
  · exact I.names _ (by decide)
  · exact herr
  · exact I.names _ (by decide)

/-- A query for a single row uses the variables that it is read into. -/
theorem uses_emitScan {query : Query Go.Expr} {targets : List String} {trackRows : Bool}
    (hdatabase : I.Grants .database) (herr : I.allows (.name "err"))
    (hargs : ∀ arg ∈ query.args, I.IsValue arg) (htargets : ∀ target ∈ targets, target ∉ privateNames)
    (htracks : trackRows = true → I.allows (.name "rowCount")) :
    (emitScan query targets trackRows).Uses I c targets fun _ => True := by
  refine uses_bind (ensures_handle hc hdatabase) fun owner howner => ?_
  refine uses_bind (ensures_importPath _) fun _ _ => ?_
  refine uses_bind (ensures_importPath _) fun _ _ => ?_
  have hscan : I.IsValue (.invoke (dataCall owner "QueryRowContext" query) "Scan"
      (addresses targets)) :=
    (isValue_invoke _ _ _).mpr ⟨isValue_dataCall _ howner hargs, isValue_addresses htargets⟩
  -- Both forms of the conditional call the scan in front of their first test.
  have hemit {missing : List Go.Stmt} {otherwise : Option (List Go.Stmt)}
      (hmissing : I.Code c.exitScope missing)
      (hotherwise : ∀ body ∈ otherwise, I.Code c.exitScope body) :
      (emit (.branch (.mk (some (assignTo [err] (.invoke (dataCall owner "QueryRowContext" query)
        "Scan" (addresses targets))))
        (.invoke (.name "errors") "Is" [err, .member (.name "sql") "ErrNoRows"]) missing)
        [.mk none failed (I.failure c.exitScope)] otherwise)).Uses I c targets fun _ => True := by
    have hcode := Code.scan herr hscan.admits (admits_noRow herr) rfl hmissing hotherwise
    refine (adds_emit _).mono fun _ added hadded => ?_
    subst hadded
    refine ⟨hcode, fun target htarget => .inl ?_, trivial⟩
    refine Go.mem_listUses.mpr ⟨.name target, ?_, rfl⟩
    simp only [Go.listMentions, Go.Stmt.mentions, Go.initMentions, Go.Assign.mentions,
      List.mem_append]
    exact .inl (.inl (.inr (mem_mentions_addresses _ htarget)))
  have hmissing : (do
      emit (.assign (assignTo [err] .nil))
      if trackRows then
        emitAssign "rowCount" (.int 0) : Lower Unit).Ensures I c fun _ => True := by
    refine ensures_bind (ensures_emit (code_assign_err herr isValue_nil.admits rfl)) fun _ _ => ?_
    split
    next htrack => exact ensures_emitAssign (htracks htrack) (by decide) (isValue_int 0).admits
    next => exact ensures_pure trivial
  refine uses_bind (ensures_block hmissing) fun missing hmissing => ?_
  refine adds_bind (adds_block (adds_errorExit hc)) fun failure written hwritten => ?_
  obtain ⟨rfl, rfl⟩ := hwritten
  split
  next htrack =>
    refine uses_bind (ensures_block (ensures_emitOneRow (htracks htrack))) fun found hfound => ?_
    refine hemit hmissing fun body hbody => ?_
    obtain rfl := Option.some.inj hbody
    exact hfound
  next => exact hemit hmissing fun _ hbody => absurd hbody (Option.not_mem_none _)

omit hc in
theorem ensures_fresh (base : String) :
    (fresh base).Ensures I c fun name =>
      name ∉ privateNames ∧ ∃ n : Nat, name = base ++ toString n := by
  refine (adds_fresh base).mono fun name added hname => ?_
  obtain ⟨rfl, n, rfl⟩ := hname
  exact ⟨.nil, append_toString_notMem_privateNames base n, n, rfl⟩

/-- The value of `EXISTS`. Its variable is used by the call that fills it, or filled from a
response. -/
theorem evaluates_hoistExists {query : Select}
    (h : ∀ e ∈ (Expr.exists query).walk, I.GrantsExpr true e) :
    (hoistExists query).Evaluates I c := by
  unfold hoistExists
  cases hsource : query.source with
  | none => exact evaluates_pure (by simp)
  | some table =>
    have hgrants := grantsSelect_of_isQuery (.inl rfl) h (by rw [hsource, Option.isSome_some])
    obtain ⟨herr, hneed, hnodes⟩ := hgrants.of_source hsource
    refine ensures_bind (ensures_fresh _) fun target htarget => ?_
    obtain ⟨hfree, n, hn⟩ := htarget
    refine ensures_declare_bind nofun .of_isValue ?_
    have hvalue : I.IsValue (Value.ofType (.name target) .bool).code := isValue_free hfree
    refine uses_bind (ensures_backendFor hc table) fun backend hbackend => ?_
    rw [← hbackend] at hneed
    have hserves : backend ∈ I.config.backends := hbackend ▸ I.config.backendOf_mem_backends _
    have hrequest (hremote : backend ≠ .sql) : (do
        requestExists backend query table target
        return .ofType (.name target) .bool : Lower Value).Uses I c [target]
          fun value => I.IsValue value.code := by
      have hfilter (e : Expr) (he : e ∈ walkOption query.filter) : I.GrantsExpr false e :=
        hnodes e (query.walkOption_filter_subset he)
      refine Ensures.uses ?_ (hn ▸ .probe n)
      exact ensures_bind (ensures_requestExists hc hserves hremote herr hneed hfilter hfree) fun _ _ =>
        ensures_pure hvalue
    cases backend with
    | sql =>
      refine uses_bind (ensures_renderQuery hc (.probe query) hnodes) fun probe hargs => ?_
      refine uses_bind (ensures_handle hc hneed) fun owner howner => ?_
      have htargets : ∀ id ∈ [target], id ∉ privateNames := by simpa using hfree
      have hscan : I.IsValue (.invoke (dataCall owner "QueryRowContext" probe) "Scan"
          (addresses [target])) :=
        (isValue_invoke _ _ _).mpr ⟨isValue_dataCall _ howner hargs, isValue_addresses htargets⟩
      refine (uses_emitGuarded hc herr (fun e he => ?_) hscan.admits
        (mem_mentions_addresses _ List.mem_cons_self)).bind fun _ _ => ensures_pure hvalue
      obtain rfl := List.mem_singleton.mp he
      exact admits_name.mpr herr
    | mock => exact hrequest nofun
    | rpc => exact hrequest nofun

/-- The value of a query for a single value. Its variable is used by the call that fills it. -/
theorem evaluates_hoistScalar {query : Select} {table : TableRef} (hint : Option GoType)
    (h : ∀ e ∈ (Expr.subquery query).walk, I.GrantsExpr true e)
    (hsource : query.source = some table) : (hoistScalar query table hint).Evaluates I c := by
  have hgrants := grantsSelect_of_isQuery (.inr rfl) h (by rw [hsource, Option.isSome_some])
  obtain ⟨herr, hneed, hnodes⟩ := hgrants.of_source hsource
  refine ensures_bind (ensures_backendFor hc table) fun backend hbackend => ?_
  rw [← hbackend] at hneed
  dsimp only
  split
  · exact ensures_bind (P := fun _ => False) ensures_unsupported fun _ hfalse => hfalse.elim
  next hsql =>
    obtain rfl : backend = .sql := Decidable.of_not_not hsql
    split
    · exact ensures_unsupported
    next type _ =>
      refine ensures_bind (ensures_importType type) fun _ _ => ?_
      refine ensures_bind (ensures_fresh _) fun target htarget => ?_
      refine ensures_declare_bind nofun .of_isValue ?_
      refine uses_bind (ensures_renderQuery hc (.select query) hnodes) fun rendered hargs => ?_
      have htargets : ∀ id ∈ [target], id ∉ privateNames := by simpa using htarget.1
      have hscan : (emitScan rendered [target] false).Uses I c [target] fun _ => True :=
        uses_emitScan hc hneed herr hargs htargets nofun
      exact hscan.bind fun _ _ => ensures_pure (isValue_free htarget.1)

end Covered

/-! ## Expressions -/

-- The cases follow the mutual recursion of the generation; each takes the needs of the nodes apart.
mutual

/-- An expression whose needs are met becomes a value. -/
theorem evaluates_lowerExpr (hc : I.Covers c) (expr : Expr) (hint : Option GoType)
    (h : ∀ e ∈ expr.walk, I.GrantsExpr true e) : (lowerExpr expr hint).Evaluates I c := by
  match expr with
  | .literal value =>
    rw [lowerExpr]
    exact evaluates_pure (isValue_ofLiteral value)
  | .variable name =>
    rw [lowerExpr]
    exact evaluates_lowerVariable name
  | .global var =>
    rw [lowerExpr]
    exact evaluates_lowerGlobal hc (h _ List.mem_cons_self)
  | .column ref =>
    rw [lowerExpr]
    exact evaluates_unsupported
  | .star =>
    rw [lowerExpr]
    exact evaluates_unsupported
  | .unary op operand =>
    rw [lowerExpr]
    rw [Expr.walk, List.forall_mem_cons] at h
    exact ensures_bind (evaluates_lowerExpr hc operand hint h.2) fun _ hvalue =>
      evaluates_lowerUnary hvalue op
  | .binary op left right =>
    rw [lowerExpr]
    rw [Expr.walk, List.forall_mem_cons, List.forall_mem_append] at h
    exact evaluates_lowerBinary op hint (fun hint => evaluates_lowerExpr hc left hint h.2.1)
      fun hint => evaluates_lowerExpr hc right hint h.2.2
  | .isNull operand negated =>
    rw [lowerExpr]
    rw [Expr.walk, List.forall_mem_cons] at h
    exact ensures_bind (evaluates_lowerExpr hc operand none h.2) fun _ hvalue =>
      evaluates_isZero hvalue negated
  | .inList operand list negated =>
    rw [lowerExpr]
    rw [Expr.walk, List.forall_mem_cons, List.forall_mem_append] at h
    refine ensures_bind (evaluates_lowerExpr hc operand none h.2.1) fun subject hsubject => ?_
    refine ensures_bind (ensures_lowerMembers hc _ hsubject list h.2.2) fun tests htests => ?_
    exact evaluates_pure (isValue_lowerMember negated htests)
  | .between operand low high negated =>
    rw [lowerExpr]
    rw [Expr.walk, List.forall_mem_cons, List.forall_mem_append, List.forall_mem_append] at h
    refine ensures_bind (evaluates_lowerExpr hc operand none h.2.1) fun subject hsubject => ?_
    refine ensures_bind (evaluates_lowerExpr hc low _ h.2.2.1) fun low hlow => ?_
    refine ensures_bind (evaluates_lowerExpr hc high _ h.2.2.2) fun high hhigh => ?_
    exact evaluates_lowerBetween hsubject hlow hhigh negated
  | .function name args =>
    rw [lowerExpr]
    rw [Expr.walk, List.forall_mem_cons] at h
    exact evaluates_lowerFunction (argsEvaluate_lowerArgs hc args h.2) (h.1.2 name args rfl) hint
  | .cast operand type =>
    rw [lowerExpr]
    rw [Expr.walk, List.forall_mem_cons] at h
    refine ensures_bind (ensures_annotated (annotated_ofExcept _)) fun info _ => ?_
    exact ensures_bind (evaluates_lowerExpr hc operand _ h.2) fun _ hvalue => evaluates_coerce hvalue _
  | .case branches otherwise =>
    rw [lowerExpr]
    rw [Expr.walk, List.forall_mem_cons, List.forall_mem_append] at h
    refine ensures_bind (ensures_lowerBranches hc hint branches h.2.1) fun arms harms => ?_
    refine ensures_bind (ensures_lowerOtherwise hc hint otherwise h.2.2) fun last hlast => ?_
    exact evaluates_lowerCase harms hlast hint
  | .exists query =>
    rw [lowerExpr]
    exact evaluates_hoistExists hc h
  | .subquery query =>
    rw [lowerExpr]
    exact evaluates_lowerScalar hc query hint h

theorem ensures_lowerMembers (hc : I.Covers c) (op : BinaryOp) {subject : Value}
    (hsubject : I.IsValue subject.code) (list : List Expr)
    (h : ∀ e ∈ walkList list, I.GrantsExpr true e) :
    (lowerMembers op subject list).Ensures I c fun tests =>
      ∀ test ∈ tests, I.IsValue test.code := by
  match list with
  | [] =>
    rw [lowerMembers]
    exact ensures_pure nofun
  | expr :: rest =>
    rw [lowerMembers]
    rw [walkList, List.forall_mem_append] at h
    refine ensures_bind (evaluates_lowerExpr hc expr _ h.1) fun value hvalue => ?_
    refine ensures_bind (evaluates_compare hsubject hvalue op) fun test htest => ?_
    refine ensures_bind (ensures_lowerMembers hc op hsubject rest h.2) fun tests htests => ?_
    exact ensures_pure (List.forall_mem_cons.mpr ⟨htest, htests⟩)

theorem argsEvaluate_lowerArgs (hc : I.Covers c) (args : List Expr)
    (h : ∀ e ∈ walkList args, I.GrantsExpr true e) : ArgsEvaluate (lowerArgs args) I c := by
  match args with
  | [] => exact fun arg harg => by simp [lowerArgs] at harg
  | expr :: rest =>
    intro arg harg hint
    rw [walkList, List.forall_mem_append] at h
    rw [lowerArgs, List.mem_cons] at harg
    rcases harg with rfl | hrest
    · exact evaluates_lowerExpr hc expr hint h.1
    · exact argsEvaluate_lowerArgs hc rest h.2 arg hrest hint

theorem ensures_lowerBranches (hc : I.Covers c) (hint : Option GoType)
    (branches : List CaseBranch)
    (h : ∀ e ∈ walkBranches branches, I.GrantsExpr true e) :
    (lowerBranches hint branches).Ensures I c fun arms =>
      ∀ arm ∈ arms, I.IsValue arm.1 ∧ I.IsValue arm.2.code := by
  match branches with
  | [] =>
    rw [lowerBranches]
    exact ensures_pure nofun
  | ⟨test, result⟩ :: rest =>
    rw [lowerBranches]
    rw [walkBranches, List.forall_mem_append, List.forall_mem_append] at h
    refine ensures_bind (evaluates_lowerExpr hc test _ h.1) fun test htest => ?_
    refine ensures_bind (evaluates_coerce htest _) fun test htest => ?_
    refine ensures_bind (evaluates_lowerExpr hc result hint h.2.1) fun result hresult => ?_
    refine ensures_bind (ensures_lowerBranches hc hint rest h.2.2) fun arms harms => ?_
    exact ensures_pure (List.forall_mem_cons.mpr ⟨⟨htest, hresult⟩, harms⟩)

theorem ensures_lowerOtherwise (hc : I.Covers c) (hint : Option GoType) (otherwise : Option Expr)
    (h : ∀ e ∈ walkOption otherwise, I.GrantsExpr true e) :
    (lowerOtherwise hint otherwise).Ensures I c fun last =>
      ∀ value ∈ last, I.IsValue value.code := by
  match otherwise with
  | none =>
    rw [lowerOtherwise]
    exact ensures_pure nofun
  | some expr =>
    rw [lowerOtherwise]
    refine ensures_bind (evaluates_lowerExpr hc expr hint h) fun value hvalue => ensures_pure ?_
    intro last hlast
    obtain rfl := Option.some.inj hlast
    exact hvalue

theorem evaluates_lowerScalar (hc : I.Covers c) (query : Select) (hint : Option GoType)
    (h : ∀ e ∈ (Expr.subquery query).walk, I.GrantsExpr true e) :
    (lowerScalar query hint).Evaluates I c := by
  match query with
  | ⟨top, distinct, items, source, joins, filter, groupBy, orderBy⟩ =>
    have hitems : ∀ e ∈ walkItems items, I.GrantsExpr true e := by
      intro e he
      refine h e (List.mem_cons_of_mem _ ?_)
      rw [Select.walk, List.mem_append, List.mem_append]
      exact .inr (.inl he)
    rw [lowerScalar]
    split
    · exact evaluates_unsupported
    next value hvalue =>
      split
      · exact evaluates_lowerOnlyItem hc items hint hitems value hvalue
      · exact evaluates_hoistScalar hc hint h rfl

theorem evaluates_lowerOnlyItem (hc : I.Covers c) (items : List SelectItem)
    (hint : Option GoType)
    (h : ∀ e ∈ walkItems items, I.GrantsExpr true e) (value : Lower Value)
    (hvalue : lowerOnlyItem? items hint = some value) : value.Evaluates I c := by
  match items with
  | [] => cases hvalue
  | [⟨expr, _, _⟩] =>
    rw [lowerOnlyItem?, Option.some.injEq] at hvalue
    rw [walkItems, List.forall_mem_append] at h
    exact hvalue ▸ evaluates_lowerExpr hc expr hint h.1
  | ⟨_, _, _⟩ :: _ :: _ => cases hvalue

end

section Covered

variable (hc : I.Covers c)

include hc

theorem ensures_lowerValue (expr : Expr) (target : GoType)
    (h : ∀ e ∈ expr.walk, I.GrantsExpr true e) : (lowerValue expr target).Ensures I c I.IsValue := by
  refine ensures_bind (evaluates_lowerExpr hc expr _ h) fun value hvalue => ?_
  exact ensures_bind (evaluates_coerce hvalue _) fun _ hcoerced => ensures_pure hcoerced

theorem ensures_lowerCondition (expr : Expr) (h : ∀ e ∈ expr.walk, I.GrantsExpr true e) :
    (lowerCondition expr).Ensures I c I.IsValue :=
  ensures_lowerValue hc expr .bool h

/-! ## Data statements -/

/-- A statement on the database for its effect. The result of the call is used where it is kept. -/
theorem ensures_emitExec {query : Query Go.Expr} (identity : Bool) (hdatabase : I.Grants .database)
    (herr : I.allows (.name "err")) (hargs : ∀ arg ∈ query.args, I.IsValue arg) :
    (emitExec query identity).Ensures I c fun _ => True := by
  refine ensures_bind (ensures_handle hc hdatabase) fun owner howner => ensures_read_bind ?_
  have hcall : I.IsValue (dataCall owner "ExecContext" query) := isValue_dataCall _ howner hargs
  rw [hc.survey]
  dsimp only
  split
  · refine ensures_emitGuarded hc herr (fun target htarget => ?_) hcall.admits
    simp only [List.mem_cons, List.not_mem_nil, or_false] at htarget
    rcases htarget with rfl | rfl
    · exact admits_free (by decide)
    · exact admits_name.mpr herr
  next hkeeps =>
    refine ensures_bind (ensures_importPath _) fun _ _ => ?_
    refine ensures_bind (ensures_localName _) fun result hresult => ?_
    simp only [List.mem_cons, List.not_mem_nil, or_false] at hresult
    have hfree : result ∉ privateNames ∧ result ≠ "_" := by
      rcases hresult with rfl | rfl <;> decide
    have hkeep {target method : String} (htarget : I.allows (.name target)) (hne : target ≠ "err") :
        (emit (.assign (assignTo [.name target, .name "_"]
          (.invoke (.name result) method [])))).Uses I c [result] fun _ => True := by
      refine uses_emit (.assign rfl ?_ rfl ?_ ?_) List.mem_cons_self
      · simp [Go.Assign.mayFail, assignTo, Go.Expr.isError, hne]
      · simp only [assignTo, List.mem_cons, List.not_mem_nil, or_false, forall_eq_or_imp, forall_eq]
        exact ⟨admits_name.mpr htarget, admits_free (by decide)⟩
      · exact admits_invoke _ (admits_free hfree.1) (List.forall_mem_nil _)
    have hidentity (h : (identity && I.survey.tracksIdentity) = true) :
        I.allows (.name "lastInsertID") :=
      I.identity (Bool.and_eq_true_iff.mp h).2
    have hname : result ∈ ["res", "resGen"] := by simpa using hresult
    refine ensures_boundCall herr hfree.1 hfree.2 (.call (.result hname)) (.result hname)
      (yields_dataCall _ _ _ _) hcall.admits (Uses.checks hc ?_)
    split
    next hrows =>
      refine (hkeep (I.rowCount hrows) (by decide)).bind fun _ _ => ?_
      split
      next hkept => exact (hkeep (hidentity hkept) (by decide)).ensures
      next => exact ensures_pure trivial
    next hrows =>
      split
      next hkept => exact hkeep (hidentity hkept) (by decide)
      next hdropped => exact absurd (by simp [hrows, hdropped]) hkeeps

omit hc in
theorem ensures_goNames (names : List String) :
    (goNames names).Ensures I c fun targets => ∀ target ∈ targets, target ∉ privateNames := by
  induction names with
  | nil => exact ensures_pure nofun
  | cons name rest ih =>
    refine ensures_bind (ensures_lookup name) fun symbol hsymbol => ?_
    refine ensures_bind ih fun targets htargets => ensures_pure ?_
    exact List.forall_mem_cons.mpr ⟨hsymbol, htargets⟩

theorem ensures_assignVariable (name : String) (value : Expr)
    (h : ∀ e ∈ value.walk, I.GrantsExpr true e) :
    (assignVariable name value).Ensures I c fun _ => True := by
  refine ensures_bind (ensures_lookup name) fun symbol hsymbol => ?_
  refine ensures_bind (ensures_lowerValue hc value _ h) fun code hcode => ?_
  exact ensures_emitAssign_free hsymbol hcode.admits

theorem ensures_assignItems (items : List SelectItem)
    (h : ∀ e ∈ walkItems items, I.GrantsExpr true e) :
    (assignItems items).Ensures I c fun _ => True := by
  induction items with
  | nil => exact ensures_pure trivial
  | cons item rest ih =>
    obtain ⟨expr, aliasName, target⟩ := item
    rw [walkItems, List.forall_mem_append] at h
    cases target with
    | none => exact ensures_unsupported
    | some target =>
      exact ensures_bind (ensures_assignVariable hc target expr h.1) fun _ _ => ih h.2

omit hc in
theorem ensures_rowValue {value : Value} (h : I.IsValue value.code) :
    (rowValue value).Ensures I c I.IsValue := by
  have hcoerced (type : GoType) : (do
      return (← coerce value type).code : Lower Go.Expr).Ensures I c I.IsValue :=
    ensures_bind (evaluates_coerce h type) fun _ hvalue => ensures_pure hvalue
  unfold rowValue
  split
  · exact ensures_pure h
  · exact hcoerced _
  · exact ensures_pure isValue_nil
  · exact hcoerced _

theorem ensures_rowValues (items : List SelectItem)
    (h : ∀ e ∈ walkItems items, I.GrantsExpr true e) :
    (rowValues items).Ensures I c fun values => ∀ value ∈ values, I.IsValue value := by
  induction items with
  | nil => exact ensures_pure nofun
  | cons item rest ih =>
    obtain ⟨expr, aliasName, target⟩ := item
    rw [walkItems, List.forall_mem_append] at h
    refine ensures_bind (evaluates_lowerExpr hc expr none h.1) fun value hvalue => ?_
    refine ensures_bind (ensures_rowValue hvalue) fun code hcode => ?_
    refine ensures_bind (ih h.2) fun values hvalues => ensures_pure ?_
    exact List.forall_mem_cons.mpr ⟨hcode, hvalues⟩

/-- A query without table. -/
theorem ensures_lowerValues {query : Select} (h : ∀ e ∈ query.walk, I.GrantsExpr true e) :
    (lowerValues query).Ensures I c fun _ => True := by
  have hitems : ∀ e ∈ walkItems query.items, I.GrantsExpr true e := by
    obtain ⟨top, distinct, items, source, joins, filter, groupBy, orderBy⟩ := query
    intro e he
    refine h e ?_
    rw [Select.walk, List.mem_append, List.mem_append]
    exact .inr (.inl he)
  have hcount : (do
      if (← read).survey.tracksRowCount then
        emitOneRow : Lower Unit).Ensures I c fun _ => True := by
    refine ensures_read_bind ?_
    rw [hc.survey]
    split
    next htracks => exact ensures_emitOneRow (I.rowCount htracks)
    next => exact ensures_pure trivial
  unfold lowerValues
  dsimp only
  split
  · exact ensures_bind (ensures_assignItems hc _ hitems) fun _ _ => hcount
  · refine ensures_bind (ensures_rowValues hc _ hitems) fun values hvalues => ?_
    have hargs : ∀ e ∈ [ctx, .spread values], I.IsValue e := by
      simpa [isValue_ctx] using hvalues
    refine ensures_bind (ensures_runtimeCall _ hargs) fun call hcall => ?_
    exact ensures_bind (ensures_emit (.run hcall.admits)) fun _ _ => hcount

/-- A query on the database. -/
theorem ensures_lowerQuery {query : Select} (hdatabase : I.Grants .database)
    (herr : I.allows (.name "err")) (h : ∀ e ∈ query.walk, I.GrantsExpr false e) :
    (lowerQuery query).Ensures I c fun _ => True := by
  refine ensures_bind (ensures_renderQuery hc (.select query) h) fun rendered hargs => ?_
  refine ensures_read_bind ?_
  rw [hc.survey]
  dsimp only
  split
  · refine ensures_when ensures_unsupported ?_
    refine ensures_bind (ensures_goNames _) fun targets htargets => ?_
    exact (uses_emitScan hc hdatabase herr hargs htargets I.rowCount).ensures
  · refine ensures_bind (ensures_handle hc hdatabase) fun owner howner => ?_
    have hvalues : ∀ e ∈ ctx :: owner :: .query rendered.sql :: rendered.args, I.IsValue e := by
      simpa [isValue_ctx, howner] using hargs
    refine ensures_bind (ensures_runtimeCall _ hvalues) fun call hcall => ?_
    refine ensures_emitGuarded hc herr (fun target htarget => ?_) hcall.admits
    simp only [List.mem_cons, List.not_mem_nil, or_false] at htarget
    rcases htarget with rfl | rfl
    · split
      next htracks => exact admits_name.mpr (I.rowCount htracks)
      next => exact admits_free (by decide)
    · exact admits_name.mpr herr

/-- A query whose needs are met. -/
theorem ensures_lowerSelect {query : Select} (h : I.GrantsSelect query) :
    (lowerSelect query).Ensures I c fun _ => True := by
  unfold lowerSelect
  cases hsource : query.source with
  | none =>
    refine ensures_lowerValues hc fun e he => ?_
    have hnode := h.exprs e he
    rwa [hsource, Option.isNone_none] at hnode
  | some table =>
    obtain ⟨herr, hneed, hnodes⟩ := h.of_source hsource
    refine ensures_bind (ensures_backendFor hc table) fun backend hbackend => ?_
    rw [← hbackend] at hneed
    have hserves : backend ∈ I.config.backends := hbackend ▸ I.config.backendOf_mem_backends _
    cases backend with
    | sql => exact ensures_lowerQuery hc hneed herr hnodes
    | mock => exact ensures_requestSelect hc hserves nofun herr hneed hnodes
    | rpc => exact ensures_requestSelect hc hserves nofun herr hneed hnodes

section Table

variable (herr : I.allows (.name "err"))

include herr

theorem ensures_lowerInsert {insert : Insert} (hneed : I.Grants (insert.table.need I.config))
    (h : ∀ e ∈ insert.source.walk, I.GrantsExpr false e) :
    (lowerInsert insert).Ensures I c fun _ => True := by
  refine ensures_bind (ensures_backendFor hc insert.table) fun backend hbackend => ?_
  rw [TableRef.need_eq, ← hbackend] at hneed
  cases backend with
  | sql =>
    refine ensures_bind (ensures_renderQuery hc (.insert insert) h) fun rendered hargs => ?_
    exact ensures_emitExec hc true hneed herr hargs
  | mock => exact ensures_requestInsert hc nofun herr hneed h
  | rpc => exact ensures_requestInsert hc nofun herr hneed h

theorem ensures_lowerUpdate {update : Update} (hneed : I.Grants (update.table.need I.config))
    (h : ∀ e ∈ (DataStatement.update update).walk, I.GrantsExpr false e) :
    (lowerUpdate update).Ensures I c fun _ => True := by
  refine ensures_bind (ensures_backendFor hc update.table) fun backend hbackend => ?_
  rw [TableRef.need_eq, ← hbackend] at hneed
  have hparts := h
  rw [DataStatement.walk, List.forall_mem_append] at hparts
  cases backend with
  | sql =>
    refine ensures_bind (ensures_renderQuery hc (.update update) h) fun rendered hargs => ?_
    exact ensures_emitExec hc false hneed herr hargs
  | mock => exact ensures_requestUpdate hc (by decide) herr hneed hparts.1 hparts.2
  | rpc => exact ensures_requestUpdate hc (by decide) herr hneed hparts.1 hparts.2

theorem ensures_lowerDelete {delete : Delete} (hneed : I.Grants (delete.table.need I.config))
    (h : ∀ e ∈ walkOption delete.filter, I.GrantsExpr false e) :
    (lowerDelete delete).Ensures I c fun _ => True := by
  refine ensures_bind (ensures_backendFor hc delete.table) fun backend hbackend => ?_
  rw [TableRef.need_eq, ← hbackend] at hneed
  cases backend with
  | sql =>
    refine ensures_bind (ensures_renderQuery hc (.delete delete) h) fun rendered hargs => ?_
    exact ensures_emitExec hc false hneed herr hargs
  | mock => exact ensures_requestDelete hc nofun herr hneed h
  | rpc => exact ensures_requestDelete hc nofun herr hneed h

omit hc herr in
theorem ensures_outputTargets (args : List ExecArg) :
    (outputTargets args).Ensures I c fun targets => ∀ target ∈ targets, target ∉ privateNames := by
  induction args with
  | nil => exact ensures_pure nofun
  | cons arg rest ih =>
    rw [outputTargets]
    split
    · refine ensures_bind (ensures_outputVariable arg) fun result hresult => ?_
      refine ensures_bind ih fun targets htargets => ensures_pure ?_
      exact List.forall_mem_cons.mpr ⟨hresult, htargets⟩
    · exact ih

/-- A procedure call on the database. -/
theorem ensures_callDatabase {exec : Exec} (hdatabase : I.Grants .database)
    (h : ∀ e ∈ exec.args.flatMap (·.value.walk), I.GrantsExpr false e) :
    (callDatabase exec).Ensures I c fun _ => True := by
  refine ensures_bind (ensures_renderQuery hc (.exec exec) h) fun rendered hargs => ?_
  refine ensures_bind (ensures_outputTargets exec.args) fun outputs houtputs => ?_
  have hstatus (status : String) : (do
      let symbol ← lookup status
      warn .approximation (s!"return status of {exec.baseName} is not reported by database/sql; " ++
        s!"{status} is set to its zero value")
      emitAssign symbol.goName (.zero symbol.type.go) : Lower Unit).Ensures I c fun _ => True := by
    refine ensures_bind (ensures_lookup _) fun symbol hsymbol => ?_
    refine ensures_bind (ensures_warn _ _) fun _ _ => ?_
    exact ensures_emitAssign_free hsymbol (isValue_zero _).admits
  dsimp only
  split
  · refine ensures_bind (ensures_emitExec hc false hdatabase herr hargs) fun _ _ => ?_
    split
    · exact ensures_pure trivial
    · exact hstatus _
  · have hscan : (emitScan rendered outputs false).Uses I c outputs fun _ => True :=
      uses_emitScan hc hdatabase herr hargs houtputs fun h => absurd h Bool.false_ne_true
    refine ensures_bind hscan.ensures fun _ _ => ?_
    split
    · exact ensures_pure trivial
    · exact hstatus _

theorem ensures_lowerExec {exec : Exec} (hneed : I.Grants (Statement.execNeed I.config))
    (h : ∀ e ∈ exec.args.flatMap (·.value.walk), I.GrantsExpr false e) :
    (lowerExec exec).Ensures I c fun _ => True := by
  refine ensures_read_bind ?_
  rw [Statement.execNeed_eq] at hneed
  rw [hc.config]
  have hserves : I.config.backend ∈ I.config.backends := List.mem_cons_self
  cases hbackend : I.config.backend with
  | sql =>
    rw [hbackend] at hneed
    exact ensures_callDatabase hc herr hneed h
  | mock =>
    rw [hbackend] at hneed hserves
    exact ensures_requestExec hc hserves nofun herr hneed h
  | rpc =>
    rw [hbackend] at hneed hserves
    exact ensures_requestExec hc hserves nofun herr hneed h

end Table

end Covered

end Lower

end Sproc
