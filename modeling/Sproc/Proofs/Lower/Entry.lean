import Sproc.Proofs.Lower.Frame
import Sproc.Proofs.Lower.Returns

/-!
# Function entry

In front of the statements of a procedure stand the lines that declare what must be known in all of
them: the counters, the variables that some Go block declares, and the iterators of the cursors that
some Go block opens. None of these lines has been entered as a declaration when it is written, so the
lines are accounted for here one by one.

## Main definitions

* `Progress.Appends`: statements are written, and nothing is given a name
* `Symbol.line`, `Survey.useLines`: the line of a variable, and what follows it
* `lowerHead`: what comes before the lines of variables
* `Context.entryIterator?`: the iterator that is declared at function entry for a cursor

## Main results

* `runs_emitCounters`, `runs_emitHoisted`, `runs_hoistIterators`: the lines at function entry
* `runs_declareHoisted`: the variables at function entry
-/

namespace Sproc

open Lower

/-- Statements have been written, while the names and the variables have stayed as they are. -/
structure Progress.Appends (before after : Progress) (written : List Go.Stmt) : Prop where
  symbols : after.symbols = before.symbols
  names : after.names = before.names
  output : after.output = before.output ++ written

namespace Progress

variable {before middle after p : Progress} {written more : List Go.Stmt}

theorem Appends.trans (h : before.Appends middle written) (h' : middle.Appends after more) :
    before.Appends after (written ++ more) :=
  ⟨h'.symbols.trans h.symbols, h'.names.trans h.names, by rw [h'.output, h.output, List.append_assoc]⟩

theorem Annotated.appends (h : before.Annotated after) : before.Appends after [] :=
  ⟨h.symbols, h.names, by rw [h.output, List.append_nil]⟩

theorem appends_wrote (p : Progress) (s : Go.Stmt) : p.Appends (p.wrote s) [s] :=
  ⟨rfl, rfl, rfl⟩

end Progress

theorem SymbolTable.key_eq_of_get? {table : SymbolTable} {name : String} {symbol : Symbol}
    (h : table.get? name = some symbol) : foldName name = symbol.key := by
  have hfound := List.find?_some h
  rw [beq_iff_eq] at hfound
  exact hfound.symm

/-- The line that declares a variable. -/
def Symbol.line (symbol : Symbol) (value : Option Go.Expr) : Go.Stmt :=
  .declare symbol.goName (.value symbol.type.go) value

/-- What follows the line of a variable: a use, if nothing reads the variable. -/
def Survey.useLines (survey : Survey) (name goName : String) : List Go.Stmt :=
  if survey.isRead name then [] else [.assign (assignTo [.name "_"] (.name goName))]

/-- A use introduces nothing. -/
theorem Survey.introduces_useLines (survey : Survey) (name goName : String) :
    (survey.useLines name goName).flatMap Go.Stmt.introduces = [] := by
  unfold useLines
  split <;> rfl

namespace Lower

variable {c : Context} {p after : Progress}

theorem runs_emitUse {name goName : String} (h : (emitUse name goName).Runs c p () after) :
    p.Appends after (c.survey.useLines name goName) := by
  simp only [emitUse, runs_bind, runs_read] at h
  obtain ⟨c, _, ⟨rfl, rfl⟩, h⟩ := h
  cases hread : c.survey.isRead name with
  | true =>
    simp only [hread, Bool.not_true, Bool.false_eq_true, if_false, runs_pure] at h
    obtain ⟨-, rfl⟩ := h
    rw [Survey.useLines, if_pos hread]
    exact (Progress.Annotated.refl _).appends
  | false =>
    simp only [hread, Bool.not_false, if_true, emitAssign, runs_emit] at h
    subst h
    rw [Survey.useLines, if_neg (by simp [hread])]
    exact Progress.appends_wrote _ _

/-! ## Counters -/

/-- The names of the counters, and of the transaction. -/
def counterNames : List String := ["rowCount", "lastInsertID", "tx"]

/-- A line that is only written where a test holds, and what follows either way. -/
theorem runs_optional {test : Prop} [Decidable test] {step : Lower Unit} {next : Lower Unit}
    {written : List Go.Stmt}
    (hstep : ∀ ⦃middle⦄, step.Runs c p () middle → p.Appends middle written)
    (h : (if test then step >>= fun _ => next else next).Runs c p () after) :
    ∃ middle, p.Appends middle (if test then written else []) ∧ next.Runs c middle () after := by
  split at h
  next htest =>
    obtain ⟨_, middle, hfirst, hrest⟩ := runs_bind.mp h
    rw [if_pos htest]
    exact ⟨middle, hstep hfirst, hrest⟩
  next htest =>
    rw [if_neg htest]
    exact ⟨p, (Progress.Annotated.refl p).appends, h⟩

theorem runs_emitCounters (h : emitCounters.Runs c p () after) :
    ∃ written, p.Appends after written ∧
      List.Sublist (written.flatMap Go.Stmt.introduces) counterNames := by
  have hline {name : String} {type : Go.TypeExpr} {p middle : Progress}
      (h : (emit (.declare name type none)).Runs c p () middle) :
      p.Appends middle [.declare name type none] := by
    rw [runs_emit.mp h]
    exact Progress.appends_wrote _ _
  simp only [emitCounters, runs_bind, runs_read] at h
  obtain ⟨_, _, ⟨rfl, rfl⟩, h⟩ := h
  obtain ⟨_, hrows, h⟩ := runs_optional (fun _ => hline) h
  obtain ⟨_, hidentity, h⟩ := runs_optional (fun _ => hline) h
  split at h
  next htransaction =>
    simp only [importPath, runs_bind, runs_modify] at h
    obtain ⟨_, _, rfl, hlast⟩ := h
    obtain ⟨hsymbols, hnames, houtput⟩ := hline hlast
    refine ⟨_, hrows.trans (hidentity.trans ⟨hsymbols, hnames, houtput⟩), ?_⟩
    split <;> split <;> decide
  next htransaction =>
    obtain ⟨-, rfl⟩ := runs_pure.mp h
    refine ⟨_, hrows.trans hidentity, ?_⟩
    split <;> split <;> decide

/-! ## Variables -/

/-- The Go names of the variables that some names refer to. -/
def goNamesOf (table : SymbolTable) (names : List String) : List String :=
  names.filterMap fun name => (table.get? name).map (·.goName)

/-- What is done for the first of some names, and for the others. -/
theorem runs_emitHoisted_cons {name : String} {rest : List String} :
    (emitHoisted (name :: rest)).Runs c p () after ↔
      ∃ middle, (emitHoisted [name]).Runs c p () middle ∧
        (emitHoisted rest).Runs c middle () after := by
  simp only [emitHoisted, runs_bind, runs_get]
  cases hsymbol : p.symbols.get? name with
  | none =>
    constructor
    · rintro ⟨_, _, ⟨rfl, rfl⟩, hrest⟩
      rw [hsymbol] at hrest
      refine ⟨_, ⟨_, _, ⟨rfl, rfl⟩, ?_⟩, hrest⟩
      rw [hsymbol]
      exact runs_pure.mpr ⟨rfl, rfl⟩
    · rintro ⟨_, ⟨_, _, ⟨rfl, rfl⟩, hnone⟩, hrest⟩
      rw [hsymbol] at hnone
      obtain ⟨-, rfl⟩ := runs_pure.mp hnone
      refine ⟨_, _, ⟨rfl, rfl⟩, ?_⟩
      rwa [hsymbol]
  | some symbol =>
    constructor
    · rintro ⟨_, _, ⟨rfl, rfl⟩, h⟩
      rw [hsymbol] at h
      simp only [runs_bind, runs_emit] at h
      obtain ⟨_, _, himport, _, _, rfl, _, middle, huse, hrest⟩ := h
      refine ⟨middle, ⟨_, _, ⟨rfl, rfl⟩, ?_⟩, hrest⟩
      rw [hsymbol]
      simp only [runs_bind, runs_emit, runs_pure]
      exact ⟨_, _, himport, (), _, rfl, (), middle, huse, trivial, rfl⟩
    · rintro ⟨middle, ⟨_, _, ⟨rfl, rfl⟩, h⟩, hrest⟩
      rw [hsymbol] at h
      simp only [runs_bind, runs_emit, runs_pure] at h
      obtain ⟨_, _, himport, _, _, rfl, _, _, huse, -, rfl⟩ := h
      refine ⟨_, _, ⟨rfl, rfl⟩, ?_⟩
      rw [hsymbol]
      simp only [runs_bind, runs_emit]
      exact ⟨_, _, himport, (), _, rfl, (), _, huse, hrest⟩

theorem runs_emitHoisted_append {names rest : List String}
    (h : (emitHoisted (names ++ rest)).Runs c p () after) :
    ∃ middle, (emitHoisted names).Runs c p () middle ∧
      (emitHoisted rest).Runs c middle () after := by
  induction names generalizing p with
  | nil => exact ⟨p, runs_pure.mpr ⟨rfl, rfl⟩, h⟩
  | cons name names ih =>
    obtain ⟨first, hfirst, hrest⟩ := runs_emitHoisted_cons.mp h
    obtain ⟨middle, hmiddle, hlast⟩ := ih hrest
    exact ⟨middle, runs_emitHoisted_cons.mpr ⟨first, hfirst, hmiddle⟩, hlast⟩

/-- The line of one variable. -/
theorem runs_emitHoisted_singleton {name : String} {symbol : Symbol}
    (hsymbol : p.symbols.get? name = some symbol) (h : (emitHoisted [name]).Runs c p () after) :
    p.Appends after (symbol.line none :: c.survey.useLines name symbol.goName) := by
  simp only [emitHoisted, runs_bind, runs_get] at h
  obtain ⟨_, _, ⟨rfl, rfl⟩, h⟩ := h
  rw [hsymbol] at h
  simp only [runs_bind, runs_emit, runs_pure] at h
  obtain ⟨_, imported, himport, _, _, rfl, _, _, huse, -, rfl⟩ := h
  have himported := (hasEffect_importType symbol.type.go).annotated himport
  exact himported.appends.trans ((Progress.appends_wrote _ _).trans (runs_emitUse huse))

/-- The lines of some variables. -/
theorem runs_emitHoisted {names : List String} (h : (emitHoisted names).Runs c p () after) :
    ∃ written, p.Appends after written ∧
      written.flatMap Go.Stmt.introduces = goNamesOf p.symbols names := by
  induction names generalizing p with
  | nil =>
    obtain ⟨-, rfl⟩ := runs_pure.mp h
    exact ⟨[], (Progress.Annotated.refl _).appends, rfl⟩
  | cons name rest ih =>
    obtain ⟨middle, hfirst, hrest⟩ := runs_emitHoisted_cons.mp h
    obtain ⟨written, hwritten, hnames⟩ := ih hrest
    cases hsymbol : p.symbols.get? name with
    | none =>
      simp only [emitHoisted, runs_bind, runs_get] at hfirst
      obtain ⟨_, _, ⟨rfl, rfl⟩, hfirst⟩ := hfirst
      rw [hsymbol] at hfirst
      obtain ⟨-, rfl⟩ := runs_pure.mp hfirst
      exact ⟨written, hwritten, by simp [hnames, goNamesOf, hsymbol]⟩
    | some symbol =>
      have hline := runs_emitHoisted_singleton hsymbol hfirst
      refine ⟨_, hline.trans hwritten, ?_⟩
      rw [List.flatMap_append, List.flatMap_cons, Survey.introduces_useLines, hnames, hline.symbols]
      simp [goNamesOf, hsymbol, Symbol.line, Go.Stmt.introduces]

/-- The line of a variable that is declared at function entry. -/
theorem output_emitHoisted {name : String} {rest : List String} {symbol : Symbol}
    (hsymbol : p.symbols.get? name = some symbol)
    (h : (emitHoisted (name :: rest)).Runs c p () after) :
    p.output ++ [symbol.line none] <+: after.output := by
  obtain ⟨middle, hfirst, hrest⟩ := runs_emitHoisted_cons.mp h
  obtain ⟨written, hwritten, -⟩ := runs_emitHoisted hrest
  rw [hwritten.output, (runs_emitHoisted_singleton hsymbol hfirst).output, List.append_assoc]
  exact List.prefix_append_right_inj _ |>.mpr (List.prefix_append _ _)

/-! ## Iterators -/

end Lower

/-- The iterator that is declared at function entry for a cursor that some Go block opens. -/
def Context.entryIterator? (c : Context) (table : SymbolTable) : Statement → Option String
  | .declareCursor cursor query =>
    let base := Identifier.camelCase cursor ++ "Rows"
    if c.survey.hoistsCursor cursor && query.source.isSome &&
        (c.config.backendOf query.source).1 ≠ .rpc then
      some (if table.isTaken base then base ++ "Gen" else base)
    else
      none
  | _ => none

namespace Lower

variable {c : Context} {p after : Progress}

/-- The release of an iterator introduces nothing. -/
theorem runs_emitRelease {iterator : String} {test : Prop} [Decidable test]
    (h : (if test then emitRelease iterator else pure ()).Runs c p () after) :
    ∃ released, p.Appends after released ∧ released.flatMap Go.Stmt.introduces = [] := by
  split at h
  · simp only [emitRelease, emitIf, runs_bind, runs_block, runs_emit] at h
    obtain ⟨body, _, ⟨_, ⟨_, _, ⟨_, rfl, rfl, rfl⟩, rfl⟩, rfl, rfl⟩, rfl⟩ := h
    exact ⟨_, ⟨rfl, rfl, rfl⟩, rfl⟩
  · obtain ⟨-, rfl⟩ := runs_pure.mp h
    exact ⟨[], (Progress.Annotated.refl _).appends, rfl⟩

theorem runs_hoistIterator {name : String} {query : Select}
    (h : (hoistIterator name query).Runs c p () after) :
    after.symbols = p.symbols ∧ p.names.Grows after.names ∧
      (∀ iterator ∈ c.entryIterator? p.symbols (.declareCursor name query),
        after.names.isBound iterator = true) ∧
      ∃ written, after.output = p.output ++ written ∧ written.flatMap Go.Stmt.introduces =
        (c.entryIterator? p.symbols (.declareCursor name query)).toList := by
  simp only [hoistIterator, runs_bind, runs_read] at h
  obtain ⟨_, _, ⟨rfl, rfl⟩, h⟩ := h
  rw [Context.entryIterator?]
  split at h
  next htest =>
    rw [if_pos (by simpa using htest)]
    simp only [runs_bind, runs_modify, runs_emit, iteratorName] at h
    obtain ⟨iterator, _, hname, type, typed, htype, _, _, rfl, _, _, rfl, hrest⟩ := h
    obtain ⟨rfl, rfl⟩ := runs_localName hname
    have htyped := (hasEffect_iteratorType _).annotated htype
    obtain ⟨released, hreleased, hnone⟩ := runs_emitRelease hrest
    rw [hreleased.symbols, hreleased.names, hreleased.output]
    simp only [Progress.wrote, htyped.symbols, htyped.names, htyped.output, Option.mem_def,
      Option.some.injEq, forall_eq', NameScope.isBound_bind, Option.toList_some, true_and]
    refine ⟨.bind _ _, _, List.append_assoc _ _ _, ?_⟩
    simp [hnone, Go.Stmt.introduces]
  next htest =>
    obtain ⟨-, rfl⟩ := runs_pure.mp h
    rw [if_neg (by simpa using htest)]
    refine ⟨rfl, .refl _, fun _ h => absurd h (Option.not_mem_none _), [], ?_, rfl⟩
    exact (List.append_nil _).symm

theorem runs_hoistIterators {statements : List Statement}
    (h : (hoistIterators statements).Runs c p () after) :
    after.symbols = p.symbols ∧ p.names.Grows after.names ∧
      (∀ iterator ∈ statements.filterMap (c.entryIterator? p.symbols),
        after.names.isBound iterator = true) ∧
      ∃ written, after.output = p.output ++ written ∧ written.flatMap Go.Stmt.introduces =
        statements.filterMap (c.entryIterator? p.symbols) := by
  induction statements generalizing p with
  | nil =>
    obtain ⟨-, rfl⟩ := runs_pure.mp h
    exact ⟨rfl, .refl _, nofun, [], (List.append_nil _).symm, rfl⟩
  | cons statement rest ih =>
    cases statement with
    | declareCursor name query =>
      obtain ⟨_, middle, hfirst, hrest⟩ := runs_bind.mp h
      obtain ⟨hsymbols, hgrows, hbound, written, hwritten, hnames⟩ := runs_hoistIterator hfirst
      obtain ⟨hsymbols', hgrows', hbound', more, hmore, hnames'⟩ := ih hrest
      rw [hsymbols] at hbound' hnames'
      refine ⟨hsymbols'.trans hsymbols, hgrows.trans hgrows', ?_, written ++ more,
        by rw [hmore, hwritten, List.append_assoc], ?_⟩
      · intro iterator hiterator
        rcases List.mem_filterMap.mp hiterator with ⟨statement, hmem, hstatement⟩
        rcases List.mem_cons.mp hmem with rfl | hmem
        · exact hgrows'.isBound (hbound iterator hstatement)
        · exact hbound' iterator (List.mem_filterMap.mpr ⟨statement, hmem, hstatement⟩)
      · rw [List.flatMap_append, hnames, hnames', List.filterMap_cons]
        split <;> simp_all
    | _ => exact ih h

/-! ## The stages -/

/-- What the function starts with. -/
def emitOpening : Lower Unit := do
  let context ← read
  if context.config.logHook then
    emitEntry
  emitDefaults context.procedure.outputs

/-- What stands in front of the lines of the variables that are declared at function entry. -/
def lowerHead : Lower Unit := do
  let context ← read
  declareParams context.procedure.params
  declareHoisted context.procedure.statements context.survey.hoisted
  let _ ← functionParams
  let _ ← functionResults
  emitOpening
  emitCounters

theorem runs_emitPrologue (h : emitPrologue.Runs c p () after) :
    ∃ opened counted lined, emitOpening.Runs c p () opened ∧ emitCounters.Runs c opened () counted ∧
      (emitHoisted c.survey.hoisted).Runs c counted () lined ∧
      (hoistIterators c.procedure.statements).Runs c lined () after := by
  simp only [emitPrologue, runs_bind, runs_read] at h
  obtain ⟨_, _, ⟨rfl, rfl⟩, h⟩ := h
  simp only [emitOpening, runs_bind, runs_read]
  split at h
  next hlog =>
    simp only [runs_bind] at h
    obtain ⟨_, entered, hentry, _, opened, hdefaults, _, counted, hcounters, _, lined, hlines,
      hiterators⟩ := h
    refine ⟨opened, counted, lined, ⟨_, _, ⟨rfl, rfl⟩, ?_⟩, hcounters, hlines, hiterators⟩
    rw [if_pos hlog]
    exact runs_bind.mpr ⟨(), entered, hentry, hdefaults⟩
  next hlog =>
    simp only [runs_bind] at h
    obtain ⟨_, opened, hdefaults, _, counted, hcounters, _, lined, hlines, hiterators⟩ := h
    refine ⟨opened, counted, lined, ⟨_, _, ⟨rfl, rfl⟩, ?_⟩, hcounters, hlines, hiterators⟩
    rwa [if_neg hlog]

theorem runs_lowerEntry (h : lowerEntry.Runs c p () after) :
    ∃ headed lined, lowerHead.Runs c p () headed ∧
      (emitHoisted c.survey.hoisted).Runs c headed () lined ∧
      (hoistIterators c.procedure.statements).Runs c lined () after := by
  simp only [lowerEntry, runs_bind, runs_read] at h
  obtain ⟨_, _, ⟨rfl, rfl⟩, _, declared, hdeclared, _, moved, hmoved, _, middle, hparams, _, headed,
    hresults, hprologue⟩ := h
  obtain ⟨opened, counted, lined, hopening, hcounters, hlines, hiterators⟩ :=
    runs_emitPrologue hprologue
  refine ⟨counted, lined, ?_, hlines, hiterators⟩
  simp only [lowerHead, runs_bind, runs_read]
  exact ⟨_, _, ⟨rfl, rfl⟩, (), declared, hdeclared, (), moved, hmoved, _, middle, hparams, _, headed,
    hresults, (), opened, hopening, hcounters⟩

/-- The parameters are declared first, and then the variables that are declared at function entry.
What the function starts with may use all of them. -/
theorem runs_lowerHead (h : lowerHead.Runs c p () after) :
    ∃ declared moved headed opened, (declareParams c.procedure.params).Runs c p () declared ∧
      (declareHoisted c.procedure.statements c.survey.hoisted).Runs c declared () moved ∧
      moved.Annotated headed ∧ emitOpening.Runs c headed () opened ∧
      emitCounters.Runs c opened () after := by
  simp only [lowerHead, runs_bind, runs_read] at h
  obtain ⟨c, _, ⟨rfl, rfl⟩, _, declared, hdeclared, _, moved, hmoved, _, middle, hparams, _, headed,
    hresults, _, opened, hopening, hcounters⟩ := h
  have hparams := hasEffect_functionParams.annotated hparams
  have hresults := hasEffect_functionResults.annotated hresults
  exact ⟨declared, moved, headed, opened, hdeclared, hmoved, hparams.trans hresults, hopening,
    hcounters⟩

theorem hasEffect_emitOpening {D : Discipline} (regular : D.Regular c) :
    emitOpening.HasEffect c D.effect := by
  refine hasEffect_bind hasEffect_read fun _ => ?_
  exact hasEffect_when (hasEffect_emitEntry regular.toBasic) (hasEffect_emitDefaults regular.forms _)

theorem hasEffect_lowerHead {D : Discipline} (regular : D.Regular c) (hcounts : ¬D.counts)
    (lasting : D.Lasting) : lowerHead.HasEffect c D.effect := by
  refine hasEffect_bind hasEffect_read fun _ => ?_
  refine hasEffect_bind (hasEffect_declareParams (hasEffect_declare lasting) _) fun _ => ?_
  refine hasEffect_bind (hasEffect_declareHoisted (hasEffect_declare lasting) _ _) fun _ => ?_
  refine hasEffect_bind hasEffect_functionParams fun _ => ?_
  refine hasEffect_bind hasEffect_functionResults fun _ => ?_
  refine hasEffect_bind (hasEffect_emitOpening regular) fun _ => ?_
  exact hasEffect_emitCounters regular.toBasic hcounts

/-- What stands in front of the statements of a procedure respects a regular discipline that does
not count names. -/
theorem hasEffect_lowerEntry {D : Discipline} (regular : D.Regular c) (releasing : D.Releasing)
    (hcounts : ¬D.counts) (lasting : D.Lasting) : lowerEntry.HasEffect c D.effect := by
  refine hasEffect_bind hasEffect_read fun _ => ?_
  refine hasEffect_bind (hasEffect_declareParams (hasEffect_declare lasting) _) fun _ => ?_
  refine hasEffect_bind (hasEffect_declareHoisted (hasEffect_declare lasting) _ _) fun _ => ?_
  refine hasEffect_bind hasEffect_functionParams fun _ => ?_
  refine hasEffect_bind hasEffect_functionResults fun _ => ?_
  exact hasEffect_emitPrologue (regular.opening releasing hcounts)

/-- Each name is declared once, and becomes known. -/
theorem runs_declareHoisted {statements : List Statement} {names : List String}
    (htypes : ∀ name ∈ names, (declaredType? statements name).isSome)
    (h : (declareHoisted statements names).Runs c p () after) :
    (∀ symbol ∈ after.symbols.symbols, symbol ∈ p.symbols.symbols ∨
        ∃ name ∈ names, after.symbols.get? name = some symbol) ∧
      (∀ name ∈ names, p.symbols.contains name = false ∧
        ∃ symbol, after.symbols.get? name = some symbol ∧ symbol.kind = .declared) ∧
      (names.map foldName).Nodup := by
  induction names generalizing p with
  | nil =>
    obtain ⟨-, rfl⟩ := runs_pure.mp h
    exact ⟨fun symbol hmem => .inl hmem, nofun, .nil⟩
  | cons name rest ih =>
    rw [List.forall_mem_cons] at htypes
    obtain ⟨type, htype⟩ := Option.isSome_iff_exists.mp htypes.1
    rw [declareHoisted, htype] at h
    obtain ⟨symbol, middle, hfirst, hrest⟩ := runs_bind.mp h
    obtain ⟨symbols, hdeclare, rfl⟩ := runs_declare.mp hfirst
    obtain ⟨hsymbols, hget, hkind⟩ := SymbolTable.declare_eq_ok hdeclare
    obtain ⟨hnew, -, -⟩ := SymbolTable.declare_eq_ok_iff.mp hdeclare
    obtain ⟨hmembers, hnames, hnodup⟩ := ih htypes.2 hrest
    have hgrown : symbols.symbols <+: after.symbols.symbols := by
      obtain ⟨⟨added, hadded, -⟩, -⟩ := symbols_declareHoisted hrest
      exact ⟨added, hadded.symm⟩
    -- A name behind the first one is not known yet when the first one is.
    have hfree {other : String} (hother : other ∈ rest) :
        p.symbols.contains other = false ∧ foldName other ≠ foldName name := by
      obtain ⟨hunknown, -⟩ := hnames other hother
      obtain ⟨-, ⟨info, -, hsymbol⟩, -⟩ := SymbolTable.declare_eq_ok_iff.mp hdeclare
      have hnone : symbols.symbols.find? (·.key == foldName other) = none := by
        simpa [SymbolTable.contains, SymbolTable.get?] using hunknown
      rw [hsymbols, List.find?_append, Option.or_eq_none_iff, List.find?_singleton] at hnone
      refine ⟨by simp [SymbolTable.contains, SymbolTable.get?, hnone.1], fun hkey => ?_⟩
      simp [hsymbol, Symbol.key, hkey] at hnone
    refine ⟨fun s hs => ?_, List.forall_mem_cons.mpr ⟨⟨hnew, symbol, ?_, hkind⟩, ?_⟩, ?_⟩
    · rcases hmembers s hs with hmem | ⟨other, hother, hsymbol⟩
      · rw [show ({ p with symbols } : Progress).symbols.symbols = _ from hsymbols] at hmem
        rcases List.mem_append.mp hmem with hold | hmem
        · exact .inl hold
        · obtain rfl := List.mem_singleton.mp hmem
          refine .inr ⟨name, List.mem_cons_self, ?_⟩
          exact SymbolTable.get?_eq_some_of_grown hgrown hget
      · exact .inr ⟨other, List.mem_cons_of_mem _ hother, hsymbol⟩
    · exact SymbolTable.get?_eq_some_of_grown hgrown hget
    · exact fun other hother => ⟨(hfree hother).1, (hnames other hother).2⟩
    · refine List.nodup_cons.mpr ⟨fun hmem => ?_, hnodup⟩
      obtain ⟨other, hother, hkey⟩ := List.mem_map.mp hmem
      exact (hfree hother).2 hkey

end Lower

end Sproc
