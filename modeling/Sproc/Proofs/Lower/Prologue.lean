import Sproc.Proofs.Lower.Composition
import Sproc.Proofs.Lower.Frame

/-!
# Prologues and whole functions

A function starts with a prologue that declares what its statements share, goes on with the
statements, and ends with a return where control can get there. Where the needs of a procedure are
met, all of this belongs to one idiom.

## Main results

* `ensures_emitPrologue`, `ensures_emitFinalReturn`: the code around the statements
* `Procedure.exists_idiom`: every function that is generated is code of an idiom
-/

namespace Sproc

open Lower Idiom Permit

/-- Statements declare a name. -/
def Go.Introduces (body : List Go.Stmt) (name : String) : Prop :=
  ∃ type init, .declare name type init ∈ body

theorem Go.Introduces.append_left {body : List Go.Stmt} {name : String}
    (h : Go.Introduces body name) (front : List Go.Stmt) : Go.Introduces (front ++ body) name := by
  obtain ⟨type, init, hmem⟩ := h
  exact ⟨type, init, List.mem_append_right _ hmem⟩

theorem Go.Introduces.append_right {body : List Go.Stmt} {name : String}
    (h : Go.Introduces body name) (back : List Go.Stmt) : Go.Introduces (body ++ back) name := by
  obtain ⟨type, init, hmem⟩ := h
  exact ⟨type, init, List.mem_append_left _ hmem⟩

/-- Statements declare the counters that a function needs, and the handle of its transaction. -/
structure Survey.Counted (survey : Survey) (body : List Go.Stmt) : Prop where
  rowCount : survey.tracksRowCount = true → Go.Introduces body "rowCount"
  identity : survey.tracksIdentity = true → Go.Introduces body "lastInsertID"
  transaction : survey.hasTransaction = true → survey.usesDb = true → Go.Introduces body "tx"

/-- What stands around a declaration does not matter. -/
theorem Survey.Counted.within {survey : Survey} {body : List Go.Stmt} (h : survey.Counted body)
    (front back : List Go.Stmt) : survey.Counted (front ++ (body ++ back)) where
  rowCount hrows := ((h.rowCount hrows).append_right _).append_left _
  identity hkeys := ((h.identity hkeys).append_right _).append_left _
  transaction htransaction hdb := ((h.transaction htransaction hdb).append_right _).append_left _

namespace Lower

variable {I : Idiom} {c : Context}

/-! ## The prologue -/

/-- A step that is only taken where a test holds and then introduces a name, and what follows either
way. -/
theorem adds_when {α β : Type} {test : Prop} [Decidable test] {name : String} {step : Lower α}
    {next : Lower β} {P : β → List Go.Stmt → Prop} {scope : ExitScope}
    (hstep : step.Adds I c fun _ added => I.Code scope added ∧ Go.Introduces added name)
    (hnil : I.Code scope [])
    (hnext : ∀ written, I.Code scope written → (test → Go.Introduces written name) →
      next.Adds I c fun result added => P result (written ++ added)) :
    (if test then step >>= fun _ => next else next).Adds I c P := by
  split
  next htest =>
    exact adds_bind hstep fun _ written hwritten => hnext written hwritten.1 fun _ => hwritten.2
  next htest => exact hnext [] hnil fun h => absurd h htest

/-- A declaration of something that is excused from use. -/
theorem code_declare_excused {scope : ExitScope} {name : String} {type : Go.TypeExpr}
    (htype : type.isValue = false → IsLocalType I.config name type) (h : Excuse I.survey name) :
    I.Code scope [.declare name type none] :=
  .declare nofun htype .nil (.inr h)

theorem ensures_inputPairs (params : List Parameter) :
    (inputPairs params).Ensures I c fun pairs => ∀ e ∈ pairs, I.IsValue e := by
  induction params with
  | nil => exact ensures_pure nofun
  | cons param rest ih =>
    refine ensures_bind (ensures_lookup _) fun symbol hsymbol => ?_
    refine ensures_bind ih fun pairs hpairs => ensures_pure ?_
    exact List.forall_mem_cons.mpr
      ⟨isValue_str _, List.forall_mem_cons.mpr ⟨isValue_free hsymbol, hpairs⟩⟩

theorem ensures_emitEntry : emitEntry.Ensures I c fun _ => True := by
  refine ensures_read_bind (ensures_bind (ensures_importPath _) fun _ _ => ?_)
  refine ensures_bind (ensures_inputPairs _) fun pairs hpairs => ensures_emit (.run ?_)
  have hslog : I.IsValue (.name "slog") := isValue_free (by decide)
  have hcall : I.IsValue (.invoke (.name "slog") "DebugContext"
      (ctx :: .str (c.functionName ++ ": enter") :: pairs)) := by
    simpa [hslog, isValue_ctx] using hpairs
  exact hcall.admits

/-- The iterator of a cursor is released in a deferred function literal, which may stand in any
scope. -/
theorem ensures_emitRelease {iterator : String} (h : iterator ∉ privateNames) :
    (emitRelease iterator).Ensures I c fun _ => True := by
  have hvalue : I.IsValue (.name iterator) := isValue_free h
  have hclose : I.Code .catchHalf
      [.assign (assignTo [.name "_"] (.invoke (.name iterator) "Close" []))] :=
    code_assign (I.names _ (by decide)) (by decide) (admits_invoke _ hvalue.admits nofun)
  have htest : I.IsValue (.binary "!=" (.name iterator) .nil) := by simpa using hvalue
  have hbody : (emitIf none (.binary "!=" (.name iterator) .nil) (emit (.assign
      (assignTo [.name "_"] (.invoke (.name iterator) "Close" []))))).Adds I c
        fun _ added => I.Code .catchHalf added := by
    refine adds_bind (adds_block (P := I.Code .catchHalf) ?_) fun body written hwritten => ?_
    · exact (adds_emit _).mono fun _ _ hadded => hadded ▸ hclose
    · obtain ⟨rfl, hbody⟩ := hwritten
      exact (adds_emit _).mono fun _ _ hadded =>
        hadded ▸ code_if htest.admits htest.isFailureTest_eq hbody
  refine adds_bind (adds_block hbody) fun body written hwritten => ?_
  obtain ⟨rfl, hcode⟩ := hwritten
  exact ensures_emit (.deferred hcode)

section Covered

variable (hc : I.Covers c)

include hc

theorem ensures_emitDefaults {params : List Parameter}
    (h : ∀ param ∈ params, ∀ e ∈ walkOption param.default, I.GrantsExpr true e) :
    (emitDefaults params).Ensures I c fun _ => True := by
  induction params with
  | nil => exact ensures_pure trivial
  | cons param rest ih =>
    rw [List.forall_mem_cons] at h
    have hrest := ih h.2
    have hdefault := h.1
    rw [emitDefaults]
    cases hvalue : param.default with
    | none => exact hrest
    | some value =>
      rw [hvalue] at hdefault
      exact ensures_bind (ensures_assignVariable hc _ value hdefault) fun _ _ => hrest

/-- The counters that the survey asks for are declared whether or not they are used later. -/
theorem adds_emitCounters : emitCounters.Adds I c fun _ added =>
    I.Code c.exitScope added ∧ I.survey.Counted added := by
  have hdeclare (name : String) (hname : name ∈ ["rowCount", "lastInsertID", "tx"])
      {type : Go.TypeExpr} (htype : type.isValue = false → IsLocalType I.config name type) :
      (emit (.declare name type none)).Adds I c fun _ added =>
        I.Code c.exitScope added ∧ Go.Introduces added name := by
    refine (adds_emit _).mono fun _ added hadded => hadded ▸ ?_
    exact ⟨code_declare_excused htype (.counter hname), type, none, List.mem_cons_self⟩
  refine adds_read_bind ?_
  rw [hc.survey]
  dsimp only
  refine adds_when (hdeclare "rowCount" (by decide) .of_isValue) .nil fun first hfirst hrows => ?_
  refine adds_when (hdeclare "lastInsertID" (by decide) .of_isValue) .nil fun second hsecond hkeys => ?_
  split
  next htest =>
    refine adds_bind (ensures_importPath _) fun _ written hwritten => ?_
    refine (hdeclare "tx" (by decide) fun _ => .transaction).mono fun _ third hthird => ?_
    refine ⟨hfirst.append (hsecond.append (hwritten.1.append hthird.1)), ?_, ?_, ?_⟩
    · exact fun h => (hrows h).append_right _
    · exact fun h => ((hkeys h).append_right _).append_left _
    · exact fun _ _ => ((hthird.2.append_left _).append_left _).append_left _
  next htest =>
    refine adds_pure ⟨hfirst.append (hsecond.append .nil), ?_, ?_, ?_⟩
    · exact fun h => (hrows h).append_right _
    · exact fun h => ((hkeys h).append_right _).append_left _
    · exact fun htransaction hdb => absurd (Bool.and_eq_true_iff.mpr ⟨htransaction, hdb⟩) htest

/-- The variables that are declared at function entry. -/
theorem ensures_emitHoisted (names : List String) :
    (emitHoisted names).Ensures I c fun _ => True := by
  induction names with
  | nil => exact ensures_pure trivial
  | cons name rest ih =>
    refine ensures_get_bind fun p hsound => ?_
    cases hget : p.symbols.get? name with
    | none => exact ih
    | some symbol =>
      have hmem : symbol ∈ p.symbols.symbols := List.mem_of_find?_eq_some hget
      have hkey : symbol.key = foldName name := by
        simpa using List.find?_some hget
      obtain ⟨other, hother⟩ := hsound.named.made symbol hmem
      -- The survey knows a variable by its key, so the spelling of the declaration does not matter.
      have hread (h : I.survey.isRead name = true) : Excuse I.survey symbol.goName := by
        rw [hother]
        refine .variable other ?_
        rwa [Survey.isRead, ← Symbol.key, hkey]
      refine ensures_bind (ensures_importType _) fun _ _ => ?_
      refine ensures_declare_bind (fun _ h => absurd h (Option.not_mem_none _))
        IsLocalType.of_isValue ?_
      exact (uses_emitUse hc (hsound.named.free symbol hmem) hread).bind fun _ _ => ih

theorem ensures_hoistIterator (name : String) (query : Select) :
    (hoistIterator name query).Ensures I c fun _ => True := by
  refine ensures_read_bind ?_
  rw [hc.survey]
  dsimp only
  split
  next hhoists =>
    have hhoists : I.survey.hoistsCursor name = true := by
      simp only [Bool.and_eq_true] at hhoists
      exact hhoists.1.1
    refine ensures_bind (ensures_iteratorName name) fun iterator hiterator => ?_
    refine ensures_bind (ensures_iteratorType hc _) fun type htype => ?_
    have hserves : (c.config.backendOf query.source).1 ∈ I.config.backends :=
      hc.config ▸ c.config.backendOf_mem_backends _
    have htype (_ : type.isValue = false) : IsLocalType I.config iterator type :=
      htype ▸ .rows hserves hiterator
    have hbound : (modify fun p => { p with names := (p.names.bind iterator).2 } :
        Lower PUnit).Ensures I c fun _ => True :=
      adds_modify (fun p hp => hp.congr rfl rfl rfl) (fun _ => rfl) ⟨.nil, trivial⟩
    refine ensures_bind hbound fun _ _ => ?_
    refine ensures_bind (ensures_emit (code_declare_excused htype
      (.iterator (.inl hhoists) hiterator))) fun _ _ => ?_
    split
    · exact ensures_emitRelease (iteratorNames_free hiterator).1
    · exact ensures_pure trivial
  next => exact ensures_pure trivial

theorem ensures_hoistIterators (statements : List Statement) :
    (hoistIterators statements).Ensures I c fun _ => True := by
  induction statements with
  | nil => exact ensures_pure trivial
  | cons statement rest ih =>
    cases statement with
    | declareCursor name query =>
      exact ensures_bind (ensures_hoistIterator hc name query) fun _ _ => ih
    | _ => exact ih

/-- What the statements of a function share. -/
theorem adds_emitPrologue
    (h : ∀ param ∈ I.procedure.params, ∀ e ∈ walkOption param.default, I.GrantsExpr true e) :
    emitPrologue.Adds I c fun _ added =>
      I.Code c.exitScope added ∧ I.survey.Counted added := by
  have houtputs : ∀ param ∈ c.procedure.outputs, ∀ e ∈ walkOption param.default,
      I.GrantsExpr true e := by
    intro param hparam
    rw [hc.procedure] at hparam
    exact h param (List.mem_filter.mp hparam).1
  have hback : (do
      emitHoisted c.survey.hoisted
      hoistIterators c.procedure.statements : Lower Unit).Ensures I c fun _ => True :=
    ensures_bind (ensures_emitHoisted hc _) fun _ _ => ensures_hoistIterators hc _
  have hrest : (do
      emitDefaults c.procedure.outputs
      emitCounters
      emitHoisted c.survey.hoisted
      hoistIterators c.procedure.statements : Lower Unit).Adds I c fun _ added =>
        I.Code c.exitScope added ∧ I.survey.Counted added := by
    refine adds_bind (ensures_emitDefaults hc houtputs) fun _ front hfront => ?_
    refine adds_bind (adds_emitCounters hc) fun _ counters hcounters => ?_
    refine Adds.mono hback fun _ back hback => ?_
    exact ⟨hfront.1.append (hcounters.1.append hback.1), hcounters.2.within front back⟩
  refine adds_read_bind ?_
  split
  · refine adds_bind ensures_emitEntry fun _ front hfront => hrest.mono fun _ added hadded => ?_
    refine ⟨hfront.1.append hadded.1, ?_⟩
    simpa using hadded.2.within front []
  · exact hrest

theorem ensures_emitFinalReturn : emitFinalReturn.Ensures I c fun _ => True := by
  refine adds_bind (adds_resultValues hc _ _) fun values written hwritten => ?_
  obtain ⟨rfl, rfl⟩ := hwritten
  refine ensures_read_bind ?_
  split
  · refine ensures_emit (.ret (admits_results (fun _ => ?_) fun _ => isValue_nil.admits))
    exact (isValue_int 0).admits
  · exact ensures_pure trivial

end Covered

end Lower

/-! ## The variables at function entry -/

namespace SymbolTable

theorem named_start (config : Config) (survey : Survey) :
    (Progress.start config survey).symbols.Named := by
  have hfold (clients : List ClientRef) (table : SymbolTable) (h : table.Named) :
      (clients.foldl (fun table client => table.reserve client.var) table).Named := by
    induction clients generalizing table with
    | nil => exact h
    | cons client rest ih => exact ih _ (h.reserve _)
  refine ((hfold _ _ ?_).reserve _).reserve _
  exact ⟨by decide, nofun, nofun⟩

/-- Parameters get names of their own. -/
theorem Named.declareAll {table other : SymbolTable} {params : List Parameter} (h : table.Named)
    (hdeclare : table.declareAll params = .ok other) : other.Named := by
  induction params generalizing table with
  | nil =>
    obtain rfl := Except.ok.inj hdeclare
    exact h
  | cons param rest ih =>
    cases hfirst : table.declare param.name param.type param.kind with
    | error fault =>
      rw [SymbolTable.declareAll, hfirst] at hdeclare
      cases hdeclare
    | ok declared =>
      rw [SymbolTable.declareAll, hfirst] at hdeclare
      exact ih (h.declare hfirst).1 hdeclare

end SymbolTable

/-- Variables that are declared at function entry get names of their own. -/
theorem Lower.named_declareHoisted {c : Context} {before after : Progress}
    {statements : List Statement} {names : List String}
    (hruns : (declareHoisted statements names).Runs c before () after)
    (h : before.symbols.Named) :
    after.symbols.Named ∧ after.cursors = before.cursors ∧
      after.transaction = before.transaction := by
  induction names generalizing before with
  | nil =>
    obtain ⟨-, rfl⟩ := runs_pure.mp hruns
    exact ⟨h, rfl, rfl⟩
  | cons name rest ih =>
    rw [declareHoisted] at hruns
    cases htype : declaredType? statements name with
    | none =>
      rw [htype] at hruns
      exact ih hruns h
    | some type =>
      rw [htype] at hruns
      obtain ⟨symbol, middle, hfirst, hrest⟩ := runs_bind.mp hruns
      obtain ⟨symbols, hdeclare, rfl⟩ := runs_declare.mp hfirst
      obtain ⟨hnamed, hcursors, htransaction⟩ := ih hrest (h.declare hdeclare).1
      exact ⟨hnamed, hcursors, htransaction⟩

/-! ## Whole functions -/

/-- The names of the results of a function. -/
def Idiom.resultNames (I : Idiom) : List String :=
  I.procedure.outputNames I.table ++ (if I.survey.hasStatus then ["returnCode"] else []) ++
    (if I.survey.needsErr then ["err"] else [])

/-- The names of the handles that a function takes. -/
def Survey.handles (survey : Survey) : List String :=
  (if survey.usesDb then ["db"] else []) ++
    (survey.clients.map (·.var) ++ (if survey.usesStore then ["store"] else []))

/-- The parameters of a function: the context, the handles that the survey asks for, and the input
parameters. -/
theorem Lower.names_functionParams {c : Context} {before after : Progress}
    {params : List (String × Go.TypeExpr)} (hruns : functionParams.Runs c before params after) :
    params.map (·.1) = "ctx" :: (c.survey.handles ++
      (before.symbols.symbols.filter (·.kind = .input)).map (·.goName)) := by
  simp only [functionParams, runs_bind, runs_pure] at hruns
  obtain ⟨_, started, himport, database, opened, hdatabase, clients, served, hclients, store, stored,
    hstore, inputs, _, hinputs, rfl, rfl⟩ := hruns
  have hsymbols : stored.symbols = before.symbols := by
    have himport := (hasEffect_importPath _).annotated himport
    have hdatabase := hasEffect_databaseParams.annotated hdatabase
    have hclients := hasEffect_clientParams.annotated hclients
    have hstore := hasEffect_storeParams.annotated hstore
    exact (himport.trans (hdatabase.trans (hclients.trans hstore))).symbols
  obtain ⟨rfl, -⟩ := runs_symbolFields hinputs
  have hdatabase : database.map (·.1) = if c.survey.usesDb then ["db"] else [] := by
    simp only [databaseParams, runs_bind, runs_read] at hdatabase
    obtain ⟨_, _, ⟨rfl, rfl⟩, hruns⟩ := hdatabase
    split at hruns
    next huses =>
      obtain ⟨_, _, -, hpure⟩ := runs_bind.mp hruns
      obtain ⟨rfl, -⟩ := runs_pure.mp hpure
      rw [if_pos huses]
      rfl
    next huses =>
      obtain ⟨rfl, -⟩ := runs_pure.mp hruns
      rw [if_neg huses]
      rfl
  have hclients : clients.map (·.1) = c.survey.clients.map (·.var) := by
    simp only [clientParams, runs_bind, runs_read] at hclients
    obtain ⟨_, _, ⟨rfl, rfl⟩, hruns⟩ := hclients
    split at hruns
    next hempty =>
      obtain ⟨rfl, -⟩ := runs_pure.mp hruns
      rw [List.isEmpty_iff.mp hempty]
      rfl
    next =>
      obtain ⟨_, _, -, hpure⟩ := runs_bind.mp hruns
      obtain ⟨rfl, -⟩ := runs_pure.mp hpure
      exact List.map_map
  have hstore : store.map (·.1) = if c.survey.usesStore then ["store"] else [] := by
    simp only [storeParams, runs_bind, runs_read] at hstore
    obtain ⟨_, _, ⟨rfl, rfl⟩, hruns⟩ := hstore
    split at hruns
    next huses =>
      obtain ⟨_, _, -, hpure⟩ := runs_bind.mp hruns
      obtain ⟨rfl, -⟩ := runs_pure.mp hpure
      rw [if_pos huses]
      rfl
    next huses =>
      obtain ⟨rfl, -⟩ := runs_pure.mp hruns
      rw [if_neg huses]
      rfl
  simp [Survey.handles, ← hdatabase, ← hclients, ← hstore, hsymbols]

/-- A function is code of an idiom, from the frame of its statements on. -/
structure Idiom.Describes (I : Idiom) (frame : Frame) (function : Go.Func) : Prop where
  covers : I.Covers frame.context
  sound : I.Sound frame.progress
  params : I.survey.handles ⊆ function.params.map (·.1)
  results : function.results.map (·.1) = I.resultNames
  front : frame.progress.output <+: function.body
  counted : I.survey.Counted frame.progress.output
  code : I.Code .body function.body

/-- A function that is generated is code of an idiom, as long as the needs of its procedure are
met. -/
theorem Procedure.exists_idiom {procedure : Procedure} {config : Config}
    {lowered : LoweredProcedure} (h : procedure.lower config = .ok lowered) (permit : Permit)
    (hconfig : permit.config = config)
    (hsurvey : permit.survey = .ofProcedure config procedure)
    (hgrants : permit.GrantsProcedure procedure) :
    ∃ (I : Idiom) (frame : Frame), I.toPermit = permit ∧ I.procedure = procedure ∧
      procedure.Begins config frame ∧ I.Describes frame lowered.function := by
  obtain ⟨c, after, hstart, hruns⟩ := Procedure.lower_eq_ok h
  obtain ⟨functionName, verb, hcontext⟩ := Context.start_eq_ok hstart
  obtain ⟨declared, hoisted, hdeclared, hhoisted, middle, headed, hparams, hresults, entered,
    finished, hentered, hfinished, hfinal, hbody, -⟩ := Lower.runs_lowerProcedure hruns
  obtain ⟨table, htable, rfl⟩ := Lower.runs_declareParams hdeclared
  obtain ⟨hnames, hgrown, houtput⟩ := Lower.results_eq hhoisted hparams hresults
  have hbegins : procedure.Begins config ⟨c, 0, none, procedure.body, entered⟩ := by
    refine ⟨hstart, ?_, rfl, rfl, rfl⟩
    subst hcontext
    simp only [lowerEntry, runs_bind, runs_read]
    exact ⟨_, _, ⟨rfl, rfl⟩, (), _, hdeclared, (), hoisted, hhoisted, _, middle, hparams, _,
      headed, hresults, hentered⟩
  obtain ⟨added, hadded, hadds⟩ := SymbolTable.declareAll_eq_ok htable
  rw [Progress.start_symbols, List.nil_append] at hadded
  subst hcontext
  have houtputs := forall₂_outputs (fun _ _ hparam => hparam.2) hadds
  have hnamed : table.Named := (SymbolTable.named_start _ _).declareAll htable
  let I : Idiom :=
    { permit with
      procedure, functionName, table
      declared := isSome_get?_of_forall₂ houtputs
      outputs := by
        intro name hname
        rw [outputNames_eq houtputs, List.mem_map] at hname
        obtain ⟨symbol, hsymbol, rfl⟩ := hname
        exact hnamed.free symbol (hadded ▸ (List.mem_filter.mp hsymbol).1) }
  have hcovers : I.Covers
      { config, procedure, functionName, verb, survey := .ofProcedure config procedure } :=
    ⟨hconfig.symm, rfl, hsurvey.symm, rfl, nofun⟩
  -- The progress is sound when the variables are declared, and the triples keep it so.
  have hsound : I.Sound headed := by
    obtain ⟨hnamed, hcursors, htransaction⟩ := Lower.named_declareHoisted hhoisted hnamed
    have hmiddle : hoisted.Annotated middle := hasEffect_functionParams.annotated hparams
    have hannotated := hmiddle.trans (runs_functionResults hresults).2
    refine ⟨hgrown, hannotated.symbols ▸ hnamed, ?_, ?_⟩
    · rw [hannotated.cursors, hcursors]
      exact nofun
    · rw [hannotated.transaction, htransaction]
      rintro (hopen | hopen) <;> cases hopen
  have hfits : ∀ s ∈ procedure.body, s.Fits I := fun s hs =>
    s.fits fun inner hinner => hgrants.statements inner (Statement.mem_nestedList.mpr ⟨s, hs, hinner⟩)
  obtain ⟨hentered, front, hfront, hfrontCode, hcounted⟩ :=
    adds_emitPrologue hcovers hgrants.defaults hentered hsound
  obtain ⟨hfinished, main, hmain, hmainCode, -⟩ :=
    yields_lowerStatements hcovers hfits 0 none hfinished hentered
  obtain ⟨-, last, hlast, hlastCode, -⟩ := ensures_emitFinalReturn hcovers hfinal hfinished
  have hstart : headed.output = [] := houtput
  rw [hstart, List.nil_append] at hfront
  have hwhole : lowered.function.body = front ++ main ++ last := by
    rw [hbody, hlast, hmain, hfront]
  refine ⟨I, _, rfl, rfl, hbegins, hcovers, hentered, ?_, ?_, ?_, hfront ▸ hcounted, ?_⟩
  · rw [← hcovers.survey, names_functionParams hparams]
    exact fun name hname => List.mem_cons_of_mem _ (List.mem_append_left _ hname)
  · rw [hnames, hadded, resultNames, hsurvey, outputNames_eq houtputs]
    split <;> split <;> simp
  · rw [hwhole, hfront, List.append_assoc]
    exact List.prefix_append _ _
  · rw [hwhole]
    exact (hfrontCode.append hmainCode).append hlastCode

end Sproc
