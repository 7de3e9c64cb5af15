import Sproc.Proofs.Lower.Scheme
import Sproc.Proofs.Names
import Mathlib.Data.List.Forall2

/-!
# Returns of a function

Every return of a generated function that stands outside of all function literals has one value for
each result: the output parameters in the order of their declaration, then the status, then the
error. Inside a function literal, which has no results, a return has no values.

The returns are written in many places, so the statement is a scheme: in contexts outside of `TRY`
statements the values fit the results, in all others there are none.

## Main definitions

* `Go.Return`, `Go.Func.returns`: the returns of a function
* `Go.Return.Fits`: a return has the values that its place asks for
* `Procedure.parameterTable`: the variables of a procedure when its parameters are declared

## Main results

* `Procedure.returns_fit_results`: the returns of a function fit its results
-/

namespace Sproc

namespace Go

/-- A return, and whether it stands inside a function literal. -/
structure Return where
  inside : Bool
  values : List Expr

mutual

/-- The returns of a statement in the order of the text. -/
def Stmt.returns (inside : Bool) : Stmt → List Return
  | .ret values => [⟨inside, values⟩]
  | .branch (.mk _ _ body) others otherwise =>
    listReturns inside body ++ (armReturns inside others ++ elseReturns inside otherwise)
  | .loop _ body => listReturns inside body
  | .closure _ body => listReturns true body
  | .assign _ | .declare _ _ _ | .run _ | .deferCall _ | .panic _ | .breakLoop | .continueLoop => []

/-- The returns of a list of statements. -/
def listReturns (inside : Bool) : List Stmt → List Return
  | [] => []
  | s :: rest => s.returns inside ++ listReturns inside rest

/-- The returns of the arms behind the first one. -/
def armReturns (inside : Bool) : List Arm → List Return
  | [] => []
  | .mk _ _ body :: rest => listReturns inside body ++ armReturns inside rest

/-- The returns of an alternative. -/
def elseReturns (inside : Bool) : Option (List Stmt) → List Return
  | none => []
  | some body => listReturns inside body

end

/-- The returns of a function. -/
def Func.returns (f : Func) : List Return :=
  listReturns false f.body

/-- The line that a return is written as. -/
def Return.line (r : Return) : String :=
  renderReturn r.values

variable {inside : Bool} {r : Return}

theorem mem_listReturns {body : List Stmt} :
    r ∈ listReturns inside body ↔ ∃ s ∈ body, r ∈ s.returns inside := by
  induction body with
  | nil => simp [listReturns]
  | cons s rest ih => simp [listReturns, ih]

theorem mem_armReturns {arms : List Arm} :
    r ∈ armReturns inside arms ↔ ∃ arm ∈ arms, ∃ s ∈ arm.body, r ∈ s.returns inside := by
  induction arms with
  | nil => simp [armReturns]
  | cons arm rest ih =>
    obtain ⟨init, test, body⟩ := arm
    simp [armReturns, mem_listReturns, ih]

theorem mem_returns_branch {first : Arm} {others : List Arm} {otherwise : Option (List Stmt)} :
    r ∈ (Stmt.branch first others otherwise).returns inside ↔
      (∃ arm ∈ first :: others, ∃ s ∈ arm.body, r ∈ s.returns inside) ∨
        ∃ body ∈ otherwise, ∃ s ∈ body, r ∈ s.returns inside := by
  obtain ⟨init, test, body⟩ := first
  cases otherwise <;>
    simp [Stmt.returns, elseReturns, mem_listReturns, mem_armReturns, or_assoc]

theorem returns_eq_nil_of_isPlain {s : Stmt} (h : s.isPlain = true) : s.returns inside = [] := by
  cases s <;> first | rfl | cases h

/-- Plain statements and conditionals over them do not return. -/
theorem Stmt.Quiet.not_mem_returns {s : Stmt} (h : s.Quiet) : r ∉ s.returns inside := by
  induction h with
  | plain hplain => simp [returns_eq_nil_of_isPlain hplain]
  | branch _ _ harms hotherwise =>
    rw [mem_returns_branch]
    rintro (⟨arm, harm, s, hs, hr⟩ | ⟨body, hbody, s, hs, hr⟩)
    · exact harms arm harm s hs hr
    · exact hotherwise body hbody s hs hr

/-- A return has the values that its place asks for. Inside a function literal there are none;
elsewhere there are the output parameters, and a status and an error where the function has them. -/
def Return.Fits (outputs : List String) (survey : Survey) (r : Return) : Prop :=
  if r.inside then
    r.values = []
  else
    ∃ status error, r.values = outputs.map .name ++ (if survey.hasStatus then [status] else []) ++
      (if survey.needsErr then [error] else [])

/-- A return is written as the bare keyword exactly when it has no values. -/
theorem Return.line_eq_return_iff : r.line = "return" ↔ r.values = [] := by
  unfold Return.line renderReturn
  cases r.values with
  | nil => simp
  | cons value rest =>
    simp only [List.isEmpty_cons, Bool.false_eq_true, if_false, reduceCtorEq, iff_false]
    intro h
    have hlong : "return ".length = 7 := by decide
    have hshort : "return".length = 6 := by decide
    have hlength := congrArg String.length h
    rw [String.length_append, hlong, hshort] at hlength
    omega

end Go

namespace SymbolTable

variable {table other : SymbolTable}

/-- A variable is found in every larger table as well. -/
theorem get?_eq_some_of_grown {name : String} {symbol : Symbol}
    (hgrown : table.symbols <+: other.symbols) (h : table.get? name = some symbol) :
    other.get? name = some symbol := by
  obtain ⟨rest, hrest⟩ := hgrown
  unfold get? at h ⊢
  rw [← hrest, List.find?_append, h, Option.some_or]

/-- A declaration puts a variable of the given role behind the others and makes it known. -/
theorem declare_eq_ok {name type : String} {kind : SymbolKind} {symbol : Symbol}
    (h : table.declare name type kind = .ok (symbol, other)) :
    other.symbols = table.symbols ++ [symbol] ∧ other.get? name = some symbol ∧
      symbol.kind = kind := by
  obtain ⟨hcontains, ⟨info, -, rfl⟩, rfl⟩ := declare_eq_ok_iff.mp h
  have hnone : table.symbols.find? (·.key == foldName name) = none := by
    simpa [contains, get?] using hcontains
  refine ⟨rfl, ?_, rfl⟩
  unfold get?
  rw [List.find?_append, hnone]
  simp [Symbol.key]

end SymbolTable

/-! ## The scheme of returns -/

/-- The Go names of the output parameters of a procedure, for a table that knows them. -/
def Procedure.outputNames (procedure : Procedure) (table : SymbolTable) : List String :=
  procedure.outputs.filterMap fun param => (table.get? param.name).map (·.goName)

/-- Outside of `TRY` statements returns fit the results, inside of them they have no values. The
names of the output parameters are those of a table that later declarations only extend. -/
def returning (procedure : Procedure) (survey : Survey) (table : SymbolTable) : Scheme where
  covers c := c.procedure = procedure ∧ c.survey = survey
  keeps symbols := table.symbols <+: symbols.symbols
  writes c s := ∀ r ∈ s.returns (c.exitScope != .body),
    r.Fits (procedure.outputNames table) survey

namespace Lower

variable {procedure : Procedure} {survey : Survey} {table : SymbolTable} {c : Context}

/-- Which returns may be written depends on the innermost half of a `TRY` statement alone. -/
theorem writes_of_exits_eq {c' : Context} {s : Go.Stmt}
    (h : (returning procedure survey table).writes c' s) (hexits : c'.exits = c.exits) :
    (returning procedure survey table).writes c s := by
  have hscope : c'.exitScope = c.exitScope := congrArg (·.head?.getD .body) hexits
  intro r hr
  rw [← hscope] at hr
  exact h r hr

/-- A return without values may be written in both halves of a `TRY` statement. -/
theorem writes_bare_return (hscope : c.exitScope ≠ .body) :
    (returning procedure survey table).writes c (.ret []) := by
  intro r hr
  obtain rfl := List.mem_singleton.mp hr
  simp [Go.Return.Fits, hscope]

theorem hasEffect_emit_bare_return (hscope : c.exitScope ≠ .body) :
    (emit (.ret [])).HasEffect c ((returning procedure survey table).discipline c).effect :=
  hasEffect_emit_fresh (writes_bare_return hscope) rfl (fun _ => rfl) rfl

theorem opens_returning : ((returning procedure survey table).discipline c).AdmitsPlain := by
  intro s hplain r hr
  rw [Go.returns_eq_nil_of_isPlain hplain] at hr
  cases hr

theorem basic_returning : ((returning procedure survey table).discipline c).Basic where
  plain hplain _ := opens_returning hplain
  branch harms hotherwise r hr := by
    rcases Go.mem_returns_branch.mp hr with ⟨arm, harm, s, hs, hr⟩ | ⟨body, hbody, s, hs, hr⟩
    · exact harms arm harm s hs r hr
    · exact hotherwise body hbody s hs r hr

variable (hdeclared : ∀ param ∈ procedure.outputs, (table.get? param.name).isSome)

include hdeclared

/-- Later declarations do not change the values of a return. -/
theorem resultValues_eq {before after : Progress} {values : List Go.Expr} {status error : Go.Expr}
    (hc : (returning procedure survey table).covers c)
    (hkeeps : table.symbols <+: before.symbols.symbols)
    (hruns : (resultValues status error).Runs c before values after) :
    after = before ∧ values = (procedure.outputNames table).map .name ++
      (if survey.hasStatus then [status] else []) ++ (if survey.needsErr then [error] else []) := by
  obtain ⟨hprocedure, hsurvey⟩ := hc
  simp only [resultValues, runs_bind, runs_read, runs_get, runs_pure] at hruns
  obtain ⟨_, _, ⟨rfl, rfl⟩, _, _, ⟨rfl, rfl⟩, hvalues, rfl⟩ := hruns
  have hnames : procedure.outputs.filterMap
      (fun param => (after.symbols.get? param.name).map fun symbol => Go.Expr.name symbol.goName) =
        (procedure.outputNames table).map .name := by
    rw [Procedure.outputNames, List.map_filterMap]
    refine List.filterMap_congr fun param hparam => ?_
    obtain ⟨symbol, hsymbol⟩ := Option.isSome_iff_exists.mp (hdeclared param hparam)
    rw [hsymbol, SymbolTable.get?_eq_some_of_grown hkeeps hsymbol]
    rfl
  rw [hprocedure, hsurvey, hnames] at hvalues
  exact ⟨rfl, hvalues⟩

/-- Outside of `TRY` statements a return of the result values may be written. -/
theorem hasEffect_resultValues_bind (hc : (returning procedure survey table).covers c)
    (hscope : c.exitScope = .body) {status error : Go.Expr} {next : List Go.Expr → Lower Unit}
    (hnext : ∀ values, (returning procedure survey table).writes c (.ret values) →
      (next values).HasEffect c ((returning procedure survey table).discipline c).effect) :
    (resultValues status error >>= next).HasEffect c
      ((returning procedure survey table).discipline c).effect := by
  refine ⟨fun before result after hruns hkeeps => ?_, fun _ _ _ _ _ => trivial⟩
  obtain ⟨values, middle, hvalues, hrest⟩ := runs_bind.mp hruns
  obtain ⟨rfl, rfl⟩ := resultValues_eq hdeclared hc hkeeps hvalues
  refine hnext _ ?_ hrest hkeeps
  intro r hr
  obtain rfl := List.mem_singleton.mp hr
  simp only [Go.Return.Fits, hscope, bne_self_eq_false, Bool.false_eq_true, if_false]
  exact ⟨status, error, rfl⟩

theorem hasEffect_emitReturn (hc : (returning procedure survey table).covers c)
    (hscope : c.exitScope = .body) (status error : Go.Expr) :
    (emitReturn status error).HasEffect c
      ((returning procedure survey table).discipline c).effect :=
  hasEffect_resultValues_bind hdeclared hc hscope fun _ hwrites => hasEffect_emit_fresh hwrites rfl (fun _ => rfl) rfl

theorem hasEffect_emitFinalReturn (hc : (returning procedure survey table).covers c)
    (hscope : c.exitScope = .body) :
    emitFinalReturn.HasEffect c ((returning procedure survey table).discipline c).effect := by
  refine hasEffect_resultValues_bind hdeclared hc hscope fun values hwrites => ?_
  refine hasEffect_bind hasEffect_read fun _ => ?_
  split
  · exact hasEffect_emit_fresh hwrites rfl (fun _ => rfl) rfl
  · exact hasEffect_pure _

theorem hasEffect_errorExit_returning (hc : (returning procedure survey table).covers c) :
    errorExit.HasEffect c ((returning procedure survey table).discipline c).effect := by
  have hbasic : ((returning procedure survey table).discipline c).Basic := basic_returning
  refine hasEffect_read_bind ?_
  cases hscope : c.exitScope with
  | body => exact hasEffect_emitReturn hdeclared hc hscope _ _
  | tryHalf => exact hasEffect_emit_fresh (fun r hr => by cases hr) rfl (fun _ => rfl) rfl
  | catchHalf =>
    exact hasEffect_bind (hasEffect_emitAcknowledge hbasic) fun _ =>
      hasEffect_emit_plain hbasic rfl rfl (fun _ => rfl) rfl

theorem regular_returning (hc : (returning procedure survey table).covers c) :
    ((returning procedure survey table).discipline c).Regular c where
  toBasic := basic_returning
  exit := hasEffect_errorExit_returning hdeclared hc

omit hdeclared in
theorem hasEffect_propagateReturn (hscope : c.exitScope ≠ .body) :
    propagateReturn.HasEffect c ((returning procedure survey table).discipline c).effect := by
  have hbasic : ((returning procedure survey table).discipline c).Basic := basic_returning
  have hbare : (emit (.ret [])).HasEffect c
      ((returning procedure survey table).discipline c).effect :=
    hasEffect_emit_bare_return hscope
  refine hasEffect_bind hasEffect_read fun _ => ?_
  split
  · exact hasEffect_bind (hasEffect_emitAssign hbasic _ _) fun _ => hbare
  · exact hasEffect_bind (hasEffect_warn _ _ (by decide)) fun _ => hbare

/-- A `RETURN` fits the results outside of `TRY` statements, leaves a protected half without values,
and is dropped in a handler. -/
theorem hasEffect_lowerReturn (hc : (returning procedure survey table).covers c)
    (status : Option Go.Expr) :
    (lowerReturn status).HasEffect c ((returning procedure survey table).discipline c).effect := by
  have regular := regular_returning hdeclared hc
  refine hasEffect_read_bind ?_
  cases hscope : c.exitScope with
  | body => exact hasEffect_emitReturn hdeclared hc hscope _ _
  | tryHalf =>
    have hleave : propagateReturn.HasEffect c
        ((returning procedure survey table).discipline c).effect :=
      hasEffect_propagateReturn (by simp [hscope])
    cases status with
    | none => exact hleave
    | some value =>
      exact hasEffect_bind (hasEffect_emitAssign regular.toBasic _ _) fun _ => hleave
  | catchHalf =>
    exact hasEffect_bind (hasEffect_warn _ _ (by decide)) fun _ => regular.log _ _ _

/-- The returns of a function form a closed scheme. -/
theorem closed_returning : (returning procedure survey table).Closed where
  covers_of hprocedure hsurvey hc := ⟨hprocedure.trans hc.1, hsurvey.trans hc.2⟩
  declares hc _ := by
    have hregular : ((returning procedure survey table).discipline _).Regular _ :=
      ⟨basic_returning, hasEffect_errorExit_returning hdeclared hc⟩
    refine hasEffect_lowerDeclares hregular (fun _ _ _ _ _ _ hdeclare hkeeps => ?_) _
    have hsymbols := (SymbolTable.declare_eq_ok hdeclare).1
    exact hkeeps.trans (hsymbols ▸ List.prefix_append _ _)
  basic _ := basic_returning
  opens _ := opens_returning
  same hwrites hexits _ _ := writes_of_exits_eq hwrites hexits
  breakLoop _ := fun r hr => by cases hr
  continueLoop _ := fun r hr => by cases hr
  loop hbody hexits _ _ r hr := by
    obtain ⟨s, hs, hr⟩ := Go.mem_listReturns.mp hr
    exact writes_of_exits_eq (hbody s hs) hexits r hr
  releasing _ body hbody r hr := by
    obtain ⟨s, hs, hr⟩ := Go.mem_listReturns.mp hr
    exact absurd hr (hbody s hs).not_mem_returns
  handler hbody r hr := by
    obtain ⟨s, hs, hr⟩ := Go.mem_listReturns.mp hr
    exact hbody s hs r hr
  literal hbody r hr := by
    obtain ⟨s, hs, hr⟩ := Go.mem_listReturns.mp hr
    exact hbody s hs r hr
  exit hc := hasEffect_errorExit_returning hdeclared hc
  raise error hc := by
    refine hasEffect_read_bind ?_
    cases hscope : Context.exitScope _ with
    | body => exact hasEffect_emitReturn hdeclared hc hscope _ _
    | tryHalf => exact hasEffect_emit_fresh (fun r hr => by cases hr) rfl (fun _ => rfl) rfl
    | catchHalf =>
      exact hasEffect_bind (hasEffect_emit_plain basic_returning rfl rfl (fun _ => rfl) rfl) fun _ =>
        hasEffect_emit_bare_return (by simp [hscope])
  leave status hc := hasEffect_lowerReturn hdeclared hc status
  resume hc := by
    split
    next hscope => exact hasEffect_emitReturn hdeclared hc hscope _ _
    next hscope => exact hasEffect_propagateReturn hscope
  report hc := by
    split
    next hscope => exact hasEffect_emit_bare_return (by simp [hscope])
    next => exact hasEffect_errorExit_returning hdeclared hc

end Lower

/-! ## Parameters and results -/

/-- The role of a parameter. -/
def Parameter.kind (param : Parameter) : SymbolKind :=
  if param.isOutput then .output else .input

/-- Declares parameters in order. -/
def SymbolTable.declareAll (table : SymbolTable) : List Parameter → Except Fault SymbolTable
  | [] => .ok table
  | param :: rest => do
    let (_, table) ← table.declare param.name param.type param.kind
    table.declareAll rest

/-- The variables of a procedure when its parameters are declared. -/
def Procedure.parameterTable (procedure : Procedure) (config : Config) : Except Fault SymbolTable :=
  (Progress.start config (.ofProcedure config procedure)).symbols.declareAll procedure.params

/-- Each parameter becomes a variable of its role, in order, and is known by its name. -/
theorem SymbolTable.declareAll_eq_ok {table other : SymbolTable} {params : List Parameter}
    (h : table.declareAll params = .ok other) :
    ∃ added, other.symbols = table.symbols ++ added ∧
      List.Forall₂ (fun param symbol => other.get? param.name = some symbol ∧
        symbol.kind = param.kind) params added := by
  induction params generalizing table with
  | nil =>
    cases h
    exact ⟨[], by simp, .nil⟩
  | cons param rest ih =>
    cases hfirst : table.declare param.name param.type param.kind with
    | error fault =>
      rw [declareAll, hfirst] at h
      cases h
    | ok declared =>
      obtain ⟨symbol, middle⟩ := declared
      rw [declareAll, hfirst] at h
      obtain ⟨hsymbols, hget, hkind⟩ := declare_eq_ok hfirst
      obtain ⟨added, hadded, hrest⟩ := ih h
      have hgrown : middle.symbols <+: other.symbols := ⟨added, hadded.symm⟩
      refine ⟨symbol :: added, by rw [hadded, hsymbols]; simp, .cons ⟨?_, hkind⟩ hrest⟩
      exact get?_eq_some_of_grown hgrown hget

/-- The output parameters become the variables with the role of an output. -/
theorem forall₂_outputs {R : Parameter → Symbol → Prop} {params : List Parameter}
    {symbols : List Symbol} (hkind : ∀ param symbol, R param symbol → symbol.kind = param.kind)
    (h : List.Forall₂ R params symbols) :
    List.Forall₂ R (params.filter (·.isOutput)) (symbols.filter (·.kind = .output)) := by
  induction h with
  | nil => exact .nil
  | @cons param symbol _ _ hfirst _ ih =>
    have hfirstKind := hkind param symbol hfirst
    unfold Parameter.kind at hfirstKind
    by_cases houtput : param.isOutput
    · simp only [houtput, if_true] at hfirstKind
      simpa [houtput, hfirstKind] using ⟨hfirst, ih⟩
    · simp only [houtput, Bool.false_eq_true, if_false] at hfirstKind
      simpa [houtput, hfirstKind] using ih

theorem Progress.start_symbols (config : Config) (survey : Survey) :
    (Progress.start config survey).symbols.symbols = [] := by
  have hfold (clients : List ClientRef) (table : SymbolTable) :
      (clients.foldl (fun table client => table.reserve client.var) table).symbols =
        table.symbols := by
    induction clients generalizing table with
    | nil => rfl
    | cons client rest ih => exact ih _
  exact hfold _ _

namespace Lower

variable {c : Context} {before after : Progress}

/-- Declaring the parameters extends the table of variables and changes nothing else. -/
theorem runs_declareParams {params : List Parameter}
    (hruns : (declareParams params).Runs c before () after) :
    ∃ table, before.symbols.declareAll params = .ok table ∧
      after = { before with symbols := table } := by
  induction params generalizing before with
  | nil =>
    obtain ⟨-, rfl⟩ := runs_pure.mp hruns
    exact ⟨_, rfl, rfl⟩
  | cons param rest ih =>
    obtain ⟨symbol, middle, hfirst, hrest⟩ := runs_bind.mp hruns
    obtain ⟨symbols, hdeclare, rfl⟩ := runs_declare.mp hfirst
    obtain ⟨table, htable, rfl⟩ := ih hrest
    refine ⟨table, ?_, rfl⟩
    rw [SymbolTable.declareAll]
    exact hdeclare ▸ htable

/-- Parameters are inputs or outputs. -/
theorem kind_of_mem_declareParams {params : List Parameter} {config : Config} {survey : Survey}
    (hruns : (declareParams params).Runs c (.start config survey) () after) {symbol : Symbol}
    (hsymbol : symbol ∈ after.symbols.symbols) : symbol.kind = .input ∨ symbol.kind = .output := by
  obtain ⟨table, htable, rfl⟩ := runs_declareParams hruns
  obtain ⟨added, hadded, hforall⟩ := SymbolTable.declareAll_eq_ok htable
  rw [Progress.start_symbols, List.nil_append] at hadded
  obtain ⟨⟨i, hi⟩, rfl⟩ := List.get_of_mem (hadded ▸ hsymbol : symbol ∈ added)
  rw [(hforall.get (hforall.length_eq ▸ hi) hi).2, Parameter.kind]
  split
  · exact .inr rfl
  · exact .inl rfl

/-- Variables declared at function entry stand behind the parameters and have a role of their
own. -/
theorem symbols_declareHoisted {statements : List Statement} {names : List String}
    (hruns : (declareHoisted statements names).Runs c before () after) :
    (∃ added, after.symbols.symbols = before.symbols.symbols ++ added ∧
      ∀ symbol ∈ added, symbol.kind = .declared) ∧ after.output = before.output := by
  induction names generalizing before with
  | nil =>
    obtain ⟨-, rfl⟩ := runs_pure.mp hruns
    exact ⟨⟨[], by simp, by simp⟩, rfl⟩
  | cons name rest ih =>
    rw [declareHoisted] at hruns
    cases htype : declaredType? statements name with
    | none =>
      rw [htype] at hruns
      exact ih hruns
    | some type =>
      rw [htype] at hruns
      obtain ⟨symbol, middle, hfirst, hrest⟩ := runs_bind.mp hruns
      obtain ⟨symbols, hdeclare, rfl⟩ := runs_declare.mp hfirst
      obtain ⟨⟨added, hadded, hkinds⟩, houtput⟩ := ih hrest
      obtain ⟨hsymbols, -, hkind⟩ := SymbolTable.declare_eq_ok hdeclare
      refine ⟨⟨symbol :: added, by rw [hadded, hsymbols]; simp, ?_⟩, houtput⟩
      simpa [hkind] using hkinds

theorem runs_symbolFields {kind : SymbolKind} {fields : List (String × Go.TypeExpr)}
    (hruns : (symbolFields kind).Runs c before fields after) :
    fields = (before.symbols.symbols.filter (·.kind = kind)).map
      (fun symbol => (symbol.goName, .value symbol.type.go)) ∧ before.Annotated after := by
  have hannotated : before.Annotated after :=
    (hasEffect_symbolFields kind).annotated hruns
  simp only [symbolFields, runs_bind, runs_get, runs_pure] at hruns
  obtain ⟨_, _, ⟨rfl, rfl⟩, _, _, -, rfl, rfl⟩ := hruns
  exact ⟨rfl, hannotated⟩

/-- The results of a function: the output parameters, then the status and the error. -/
theorem runs_functionResults {results : List (String × Go.TypeExpr)}
    (hruns : functionResults.Runs c before results after) :
    results = (before.symbols.symbols.filter (·.kind = .output)).map
        (fun symbol => (symbol.goName, Go.TypeExpr.value symbol.type.go)) ++
      (if c.survey.hasStatus then [("returnCode", Go.TypeExpr.value .int32)] else []) ++
      (if c.survey.needsErr then [("err", Go.TypeExpr.builtin "error")] else []) ∧ before.Annotated after := by
  simp only [functionResults, runs_bind, runs_read, runs_pure] at hruns
  obtain ⟨_, _, ⟨rfl, rfl⟩, fields, _, hfields, rfl, rfl⟩ := hruns
  obtain ⟨rfl, hannotated⟩ := runs_symbolFields hfields
  exact ⟨rfl, hannotated⟩

end Lower

/-! ## The status -/

namespace Statement

variable {config : Config} {inBlock inClosure : Bool}

theorem mem_listNeeds {need : Need} {body : List Statement} :
    need ∈ listNeeds config inBlock inClosure body ↔
      ∃ s ∈ body, need ∈ s.needs config inBlock inClosure := by
  induction body with
  | nil => simp [listNeeds]
  | cons s rest ih => simp [listNeeds, ih]

theorem status_notMem_exprNeeds (config : Config) (s : Statement) :
    Need.status ∉ s.exprNeeds config := by
  have hexpr (inGo : Bool) (expr : Expr) : Need.status ∉ expr.needs config inGo := by
    unfold Expr.needs sourceNeeds TableRef.need
    grind
  simp [exprNeeds, hexpr]

/-- The needs of a statement without statements inside it. -/
theorem needs_of_children_eq_nil {s : Statement} (h : s.children = []) :
    s.needs config inBlock inClosure =
      s.exprNeeds config ++ s.ownNeeds config inBlock inClosure := by
  cases s with
  | ifElse | «while» | block | tryCatch => cases h
  | _ => rfl

theorem nested_of_children_eq_nil {s : Statement} (h : s.children = []) : s.nested = [s] := by
  cases s with
  | ifElse | «while» | block | tryCatch => cases h
  | _ => rfl

theorem status_mem_ownNeeds_iff {s : Statement} :
    Need.status ∈ s.ownNeeds config inBlock inClosure ↔ ∃ value, s = ret (some value) := by
  unfold ownNeeds sourceNeeds TableRef.need execNeed
  split <;> grind

/-- A `RETURN` with a value is what makes a function have a status. -/
theorem status_mem_needs_iff (s : Statement) : ∀ inBlock inClosure,
    Need.status ∈ s.needs config inBlock inClosure ↔ ∃ value, ret (some value) ∈ s.nested := by
  induction s using childInduction with
  | step s ih =>
    intro inBlock inClosure
    have hown := status_notMem_exprNeeds config s
    have hlist {body : List Statement} (hbody : body ∈ s.children) (inBlock inClosure : Bool) :
        Need.status ∈ listNeeds config inBlock inClosure body ↔
          ∃ value, ret (some value) ∈ nestedList body := by
      simp only [mem_listNeeds, mem_nestedList]
      constructor
      · rintro ⟨t, ht, hstatus⟩
        obtain ⟨value, hvalue⟩ := (ih body hbody t ht _ _).mp hstatus
        exact ⟨value, t, ht, hvalue⟩
      · rintro ⟨value, t, ht, hvalue⟩
        exact ⟨t, ht, (ih body hbody t ht _ _).mpr ⟨value, hvalue⟩⟩
    cases s with
    | ifElse condition thenBranch elseBranch =>
      have hthen := hlist List.mem_cons_self true inClosure
      cases elseBranch with
      | none => simp [needs, elseNeeds, nested, nestedElse, hown, hthen]
      | some body =>
        have helse := hlist (List.mem_cons_of_mem _ List.mem_cons_self) true inClosure
        simp [needs, elseNeeds, nested, nestedElse, hown, hthen, helse, exists_or]
    | «while» condition body => simp [needs, nested, hown, hlist List.mem_cons_self true inClosure]
    | block body => simp [needs, nested, hlist List.mem_cons_self inBlock inClosure]
    | tryCatch tryBody catchBody =>
      have htry := hlist List.mem_cons_self true true
      have hcatch := hlist (List.mem_cons_of_mem _ List.mem_cons_self) true true
      simp [needs, nested, htry, hcatch, exists_or]
    | _ =>
      rw [needs_of_children_eq_nil rfl, nested_of_children_eq_nil rfl, List.mem_append,
        status_mem_ownNeeds_iff]
      simp [hown, eq_comm]

end Statement

theorem Survey.hasStatus_iff {config : Config} {procedure : Procedure} :
    (Survey.ofProcedure config procedure).hasStatus = true ↔
      ∃ value, .ret (some value) ∈ procedure.statements := by
  have hdefault (param : Parameter) : Need.status ∉ defaultNeeds config param := by
    have hexprs := Statement.status_notMem_exprNeeds config (.ret param.default)
    exact hexprs
  have hparams : Need.status ∉ procedure.params.flatMap (defaultNeeds config) := by
    simp [hdefault]
  simp only [ofProcedure, ofNeeds, List.contains_iff_mem, List.mem_append, hparams, false_or,
    Procedure.statements, Statement.mem_listNeeds, Statement.mem_nestedList,
    Statement.status_mem_needs_iff]
  constructor
  · rintro ⟨s, hs, value, hvalue⟩
    exact ⟨value, s, hs, hvalue⟩
  · rintro ⟨value, s, hs, hvalue⟩
    exact ⟨s, hs, value, hvalue⟩

/-! ## The returns of a procedure -/

theorem outputNames_eq {procedure : Procedure} {table : SymbolTable} {outputs : List Symbol}
    (h : List.Forall₂ (fun param symbol => table.get? param.name = some symbol ∧
      symbol.kind = param.kind) procedure.outputs outputs) :
    procedure.outputNames table = outputs.map (·.goName) := by
  unfold Procedure.outputNames
  generalize procedure.outputs = params at h
  induction h with
  | nil => rfl
  | cons hfirst _ ih => simp [hfirst.1, ih]

theorem isSome_get?_of_forall₂ {table : SymbolTable} {params : List Parameter}
    {symbols : List Symbol} (h : List.Forall₂ (fun param symbol =>
      table.get? param.name = some symbol ∧ symbol.kind = param.kind) params symbols) :
    ∀ param ∈ params, (table.get? param.name).isSome := by
  induction h with
  | nil => simp
  | cons hfirst _ ih => simpa [hfirst.1] using ih

/-- The prologue and the statements of a function write returns that fit its results. -/
theorem Lower.returning_finished {c : Context} {before entered finished : Progress}
    {table : SymbolTable} (hdeclared : ∀ param ∈ c.procedure.outputs, (table.get? param.name).isSome)
    (hentered : emitPrologue.Runs c before () entered)
    (hfinished : (lowerStatements 0 none c.procedure.body).Runs c entered () finished) :
    ((returning c.procedure c.survey table).discipline c).effect before finished := by
  have hc : (returning c.procedure c.survey table).covers c := ⟨rfl, rfl⟩
  have closed : (returning c.procedure c.survey table).Closed := closed_returning hdeclared
  have hfirst := hasEffect_emitPrologue
    ((closed.regular hc).opening (closed.releasing c) And.left) hentered
  have hsecond := hasEffect_lowerStatements closed (fun _ => trivial) hc 0 none c.procedure.body hfinished
  exact Effect.Composable.trans hfirst hsecond

/-- The statements of a function are written by its prologue, by its statements and by its last
return, so their returns fit the results. -/
theorem Lower.returns_fit {c : Context} {before entered finished after : Progress}
    {table : SymbolTable} (hscope : c.exitScope = .body)
    (hdeclared : ∀ param ∈ c.procedure.outputs, (table.get? param.name).isSome)
    (hkeeps : table.symbols <+: before.symbols.symbols) (houtput : before.output = [])
    (hentered : emitPrologue.Runs c before () entered)
    (hfinished : (lowerStatements 0 none c.procedure.body).Runs c entered () finished)
    (hfinal : emitFinalReturn.Runs c finished () after) :
    ∀ r ∈ Go.listReturns false after.output,
      r.Fits (c.procedure.outputNames table) c.survey := by
  have hc : (returning c.procedure c.survey table).covers c := ⟨rfl, rfl⟩
  have hthird := hasEffect_emitFinalReturn hdeclared hc hscope hfinal
  have heffect :=
    Effect.Composable.trans (returning_finished hdeclared hentered hfinished) hthird
  obtain ⟨-, added, hadded, hwrites, -⟩ := heffect hkeeps
  rw [houtput, List.nil_append] at hadded
  intro r hr
  obtain ⟨s, hs, hr⟩ := Go.mem_listReturns.mp hr
  refine hwrites s (hadded ▸ hs) r ?_
  simpa [hscope] using hr

/-- The results of a function are its output parameters, its status and its error. -/
theorem Lower.results_eq {c : Context} {declared hoisted middle headed : Progress}
    {params results : List (String × Go.TypeExpr)}
    (hhoisted : (declareHoisted c.procedure.statements c.survey.hoisted).Runs c declared () hoisted)
    (hparams : functionParams.Runs c hoisted params middle)
    (hresults : functionResults.Runs c middle results headed) :
    results = (declared.symbols.symbols.filter (·.kind = .output)).map
        (fun symbol => (symbol.goName, Go.TypeExpr.value symbol.type.go)) ++
      (if c.survey.hasStatus then [("returnCode", Go.TypeExpr.value .int32)] else []) ++
      (if c.survey.needsErr then [("err", Go.TypeExpr.builtin "error")] else []) ∧
    declared.symbols.symbols <+: headed.symbols.symbols ∧ headed.output = declared.output := by
  obtain ⟨⟨added, hadded, hkinds⟩, houtput⟩ := symbols_declareHoisted hhoisted
  have hmiddle : hoisted.Annotated middle := hasEffect_functionParams.annotated hparams
  obtain ⟨rfl, hheaded⟩ := runs_functionResults hresults
  have hnone : added.filter (·.kind = .output) = [] := by
    rw [List.filter_eq_nil_iff]
    intro symbol hsymbol
    simp [hkinds symbol hsymbol]
  refine ⟨?_, ?_, ?_⟩
  · rw [hmiddle.symbols, hadded, List.filter_append, hnone, List.append_nil]
  · rw [hheaded.symbols, hmiddle.symbols, hadded]
    exact List.prefix_append _ _
  · rw [hheaded.output, hmiddle.output, houtput]

/-- A return has as many values as the function has results, unless it stands inside a function
literal. -/
theorem Go.Return.Fits.length_eq {outputs : List String} {survey : Survey} {r : Return}
    (h : r.Fits outputs survey) (hinside : r.inside = false) :
    r.values.length = outputs.length + survey.hasStatus.toNat + survey.needsErr.toNat := by
  simp only [Fits, hinside, Bool.false_eq_true, if_false] at h
  obtain ⟨status, error, hvalues⟩ := h
  rw [hvalues]
  cases survey.hasStatus <;> cases survey.needsErr <;> simp

/-- The returns of a generated function fit its results. The results are the output parameters in
the order of their declaration, by the names they were given, then a status if some `RETURN` has a
value, then an error if one is needed. A return outside of function literals has exactly one value
for each of them, and is the bare keyword only if there are none; a return inside a function literal
is always the bare keyword. -/
theorem Procedure.returns_fit_results {procedure : Procedure} {config : Config}
    {lowered : LoweredProcedure} (h : procedure.lower config = .ok lowered) :
    ∃ table outputs, procedure.parameterTable config = .ok table ∧
      List.Forall₂ (fun param symbol => table.get? param.name = some symbol ∧
        symbol.kind = param.kind) procedure.outputs outputs ∧
      lowered.function.results =
        outputs.map (fun symbol => (symbol.goName, .value symbol.type.go)) ++
        (if (Survey.ofProcedure config procedure).hasStatus then
          [("returnCode", .value .int32)] else []) ++
        (if (Survey.ofProcedure config procedure).needsErr then
          [("err", .builtin "error")] else []) ∧
      ((Survey.ofProcedure config procedure).hasStatus = true ↔
        ∃ value, .ret (some value) ∈ procedure.statements) ∧
      ∀ r ∈ lowered.function.returns,
        r.Fits (outputs.map (·.goName)) (Survey.ofProcedure config procedure) ∧
        (r.inside = false → r.values.length = lowered.function.results.length) ∧
        (r.line = "return" ↔ r.inside = true ∨ lowered.function.results = []) := by
  obtain ⟨c, after, hstart, hruns⟩ := Procedure.lower_eq_ok h
  obtain ⟨functionName, verb, hc⟩ := Context.start_eq_ok hstart
  obtain ⟨declared, hoisted, hdeclared, hhoisted, middle, headed, hparams, hresults, entered,
    finished, hentered, hfinished, hfinal, hbody, -⟩ := Lower.runs_lowerProcedure hruns
  obtain ⟨table, htable, rfl⟩ := Lower.runs_declareParams hdeclared
  obtain ⟨hresults, hgrown, houtput⟩ := Lower.results_eq hhoisted hparams hresults
  subst hc
  obtain ⟨added, hadded, hadds⟩ := SymbolTable.declareAll_eq_ok htable
  rw [Progress.start_symbols, List.nil_append] at hadded
  have houtputs := forall₂_outputs (fun _ _ hparam => hparam.2) hadds
  refine ⟨table, added.filter (·.kind = .output), htable, houtputs, ?_, Survey.hasStatus_iff, ?_⟩
  · rw [hresults, hadded]
  · intro r hr
    have hfits := Lower.returns_fit rfl (isSome_get?_of_forall₂ houtputs) hgrown houtput hentered
      hfinished hfinal r (hbody ▸ hr)
    rw [outputNames_eq houtputs] at hfits
    have hlength (hinside : r.inside = false) :
        r.values.length = lowered.function.results.length := by
      rw [hfits.length_eq hinside, hresults, hadded]
      cases (Survey.ofProcedure config procedure).hasStatus <;>
        cases (Survey.ofProcedure config procedure).needsErr <;> simp
    refine ⟨hfits, hlength, ?_⟩
    rw [Go.Return.line_eq_return_iff]
    cases hinside : r.inside with
    | true => simpa [Go.Return.Fits, hinside] using hfits
    | false =>
      rw [← List.length_eq_zero_iff, hlength hinside, List.length_eq_zero_iff]
      simp

/-- A procedure with an output parameter that returns a status from within `TRY` and raises the
error again in its handler. -/
def Procedure.pick : Procedure where
  name := "usp_Pick"
  params := [⟨"@n", "INT", .output, none⟩]
  body := [.tryCatch [.ret (some (.ofInt 1))] [.throw none]]

/-- Two bare returns inside the literals of `Procedure.pick`, and three behind them that have a value
for each of its three results. -/
theorem Procedure.pick_returns_fit_results :
    ∃ lowered, Procedure.pick.lower {} = .ok lowered ∧
      lowered.function.returns.map (fun r => (r.inside, r.line)) =
        [(true, "return"), (true, "return"), (false, "return n, returnCode, nil"),
          (false, "return n, returnCode, err"), (false, "return n, 0, nil")] ∧
      ∀ r ∈ lowered.function.returns,
        r.inside = false → r.values.length = lowered.function.results.length := by
  have hlines : (Procedure.pick.lower {}).toOption.map
      (fun lowered => lowered.function.returns.map fun r => (r.inside, r.line)) =
        some [(true, "return"), (true, "return"), (false, "return n, returnCode, nil"),
          (false, "return n, returnCode, err"), (false, "return n, 0, nil")] := by
    decide +kernel
  cases hlower : Procedure.pick.lower {} with
  | error error => simp [hlower, Except.toOption] at hlines
  | ok lowered =>
    rw [hlower] at hlines
    refine ⟨lowered, rfl, Option.some.inj hlines, ?_⟩
    obtain ⟨_, _, _, _, _, _, hreturns⟩ := Procedure.returns_fit_results hlower
    exact fun r hr => (hreturns r hr).2.1

end Sproc
