import Sproc.Proofs.Lower.Entry
import Sproc.Proofs.Lower.Nesting
import Sproc.Proofs.Lower.Provision

/-!
# The outermost scope

The parameters and the results of a function, and the names that the statements of its body introduce,
share one scope, in which Go allows each name once. The names come from allocators that do not know
of one another: a variable takes a name that no variable and no client has, a numbered name skips the
variables that are known when it is given out, and a variable for what a call yields is marked when a
variable has its name. So a variable that is declared later can still take the name of one of them.

Everything that is introduced is accounted for here, which leaves three ways in which a name can be
introduced twice.

## Main definitions

* `Go.Func.names`: the names of the outermost scope of a function
* `Procedure.finalTable`: the variables of a procedure in the end
* `Procedure.Clash`: the ways in which a name can be introduced twice

## Main results

* `Frame.Accounted`, `Procedure.Begins.accounted`: what is introduced at function entry
* `Procedure.repeated_names_clash`
-/

namespace Sproc

open Lower

/-- The names of the outermost scope of a function: its parameters, its results, and what the
statements of its body introduce. -/
def Go.Func.names (function : Func) : List String :=
  function.params.map (·.1) ++ function.results.map (·.1) ++ function.body.flatMap Stmt.introduces

/-- What statements introduce, by the two ways to do so. -/
theorem Go.count_introduces (body : List Stmt) (name : String) :
    (body.flatMap Stmt.introduces).count name =
      (body.flatMap Stmt.declares).count name + (body.flatMap Stmt.defines).count name := by
  induction body with
  | nil => rfl
  | cons s rest ih =>
    simp only [List.flatMap_cons, List.count_append, ih, s.introduces_eq]
    omega

/-- The variables of a procedure when its function has been generated. -/
def Procedure.finalTable (procedure : Procedure) (config : Config) : SymbolTable :=
  let survey := Survey.ofProcedure config procedure
  match Context.start config survey procedure with
  | .error _ => {}
  | .ok context => (lowerProcedure.execute context (Progress.start config survey)).2.symbols

theorem Procedure.finalTable_eq {procedure : Procedure} {config : Config} {c : Context}
    {function : Go.Func} {final : Progress}
    (hstart : Context.start config (.ofProcedure config procedure) procedure = .ok c)
    (h : lowerProcedure.Runs c (Progress.start config (.ofProcedure config procedure)) function
      final) : procedure.finalTable config = final.symbols := by
  unfold finalTable
  extract_lets survey
  split
  next error hfails => cases hstart.symm.trans hfails
  next context hcontext =>
    obtain rfl := Except.ok.inj (hstart.symm.trans hcontext)
    exact congrArg (fun run => run.2.symbols) h

/-! ## Variables -/

namespace SymbolTable

/-- The roles of the variables share them out. -/
theorem count_goName (symbols : List Symbol) (name : String) :
    (symbols.map (·.goName)).count name =
      ((symbols.filter (·.kind = .input)).map (·.goName)).count name +
      ((symbols.filter (·.kind = .output)).map (·.goName)).count name +
      ((symbols.filter (·.kind = .declared)).map (·.goName)).count name := by
  induction symbols with
  | nil => rfl
  | cons symbol rest ih =>
    obtain ⟨source, goName, type, kind⟩ := symbol
    cases kind <;> simp [List.count_cons, ih] <;> omega

/-- Different names that refer to declared variables refer to different ones. -/
theorem count_goNamesOf_le {table : SymbolTable} {names : List String}
    (hnodup : (names.map foldName).Nodup)
    (hknown : ∀ name ∈ names, ∃ symbol, table.get? name = some symbol ∧ symbol.kind = .declared)
    (x : String) : (goNamesOf table names).count x ≤ table.declaredNames.count x := by
  have hkeys : (names.filterMap table.get?).map Symbol.key = names.map foldName := by
    clear hnodup
    induction names with
    | nil => rfl
    | cons name rest ih =>
      rw [List.forall_mem_cons] at hknown
      obtain ⟨⟨symbol, hsymbol, -⟩, hrest⟩ := hknown
      simp [hsymbol, ih hrest, key_eq_of_get? hsymbol]
  have hsymbols : (names.filterMap table.get?).Nodup := (hkeys ▸ hnodup).of_map
  have hsubset : names.filterMap table.get? ⊆ table.symbols.filter (·.kind = .declared) := by
    intro symbol hsymbol
    obtain ⟨name, hname, hget⟩ := List.mem_filterMap.mp hsymbol
    obtain ⟨symbol', hget', hkind⟩ := hknown name hname
    obtain rfl := Option.some.inj (hget.symm.trans hget')
    exact List.mem_filter.mpr ⟨List.mem_of_find?_eq_some hget, by simpa using hkind⟩
  obtain ⟨symbols, hperm, hsublist⟩ := List.subperm_of_subset hsymbols hsubset
  calc
    (goNamesOf table names).count x
    _ = ((names.filterMap table.get?).map (·.goName)).count x := by
      rw [goNamesOf, ← List.map_filterMap]
    _ = (symbols.map (·.goName)).count x := (hperm.map _).symm.count_eq x
    _ ≤ table.declaredNames.count x := (hsublist.map _).count_le x

end SymbolTable

/-! ## The names of assignments -/

/-- Code introduces no other names by assignments than those for what calls yield. -/
theorem Idiom.Code.isLocalName {I : Idiom} {scope : ExitScope} {code : List Go.Stmt}
    (h : I.Code scope code) : ∀ name ∈ code.flatMap Go.Stmt.defines, IsLocalName name := by
  have hnone {a : Go.Assign} (hdefine : a.define = false) (name : String) :
      name ∈ (Go.Stmt.assign a).defines → IsLocalName name := by
    intro hname
    obtain ⟨hdefine', -⟩ := Go.mem_introduces hname
    exact absurd (hdefine.symm.trans hdefine') Bool.false_ne_true
  induction h with
  | nil => nofun
  | append _ _ ihfront ihback =>
    rw [List.flatMap_append]
    exact List.forall_mem_append.mpr ⟨ihfront, ihback⟩
  | assign hdefine => simpa using hnone hdefine
  | declare _ _ _ _ ih => simpa [Go.Stmt.defines] using ih
  | call _ _ _ hlocal _ _ _ _ _ ihrest =>
    refine List.forall_mem_append.mpr ⟨fun v hv => ?_, ihrest⟩
    obtain ⟨hdefine, hmem, -, hne⟩ := Go.mem_introduces hv
    obtain rfl : v = _ := by simpa [err, hne] using hmem
    exact hlocal hdefine
  | caught _ _ _ =>
    refine List.forall_mem_append.mpr ⟨fun v hv => ?_, by simp [Go.Stmt.defines]⟩
    obtain ⟨-, hmem, -⟩ := Go.mem_introduces hv
    exact .call (.caught (by simpa using hmem))
  | _ => simp [Go.Stmt.defines]

/-! ## Function entry -/

/-- The discipline of what stands in front of the lines at function entry: the variables stay as they
are, and assignments introduce no iterators. -/
def Discipline.calling (table : SymbolTable) : Discipline where
  keeps p := p.symbols = table
  writes s := ∀ name ∈ s.defines, IsCallName name
  counts := True
  stable _ _ hsymbols _ _ hkeeps := hsymbols ▸ hkeeps

theorem Discipline.regular_calling (table : SymbolTable) (c : Context) :
    (calling table).Regular c where
  plain _ hdefines := hdefines
  branch _ _ := nofun
  exit := by
    have hbasic : (calling table).Basic := ⟨fun _ hdefines => hdefines, fun _ _ => nofun⟩
    refine hasEffect_bind hasEffect_read fun _ => ?_
    split
    · exact hasEffect_bind (hasEffect_resultValues _ _) fun _ => hasEffect_emit_fresh nofun rfl (fun _ => rfl) rfl
    · exact hasEffect_emit_fresh nofun rfl (fun _ => rfl) rfl
    · exact hasEffect_bind (hasEffect_emitAcknowledge hbasic) fun _ =>
        hasEffect_emit_plain hbasic rfl rfl (fun _ => rfl) rfl

/-- The iterators that are declared at function entry. -/
def Context.entryIterators (c : Context) (table : SymbolTable) : List String :=
  c.procedure.statements.filterMap (c.entryIterator? table)

namespace Lower

variable {c : Context} {p after : Progress}

/-- What is introduced at function entry is accounted for: a declaration in front of the lines has a
number, and the lines declare counters, variables and iterators. -/
structure Accounted (c : Context) (p after : Progress) (opening lines : List Go.Stmt)
    (counters : List String) : Prop where
  output : after.output = p.output ++ (opening ++ lines)
  symbols : after.symbols = p.symbols
  names : p.names.Grows after.names
  declared (x : String) : (opening.flatMap Go.Stmt.declares).count x + p.names.numbered.count x ≤
    after.names.numbered.count x
  defined (x : String) : (opening.flatMap Go.Stmt.defines).count x + p.names.current.count x ≤
    after.names.current.count x
  calls : ∀ name ∈ opening.flatMap Go.Stmt.defines, IsCallName name
  counted : List.Sublist counters counterNames
  introduced : lines.flatMap Go.Stmt.introduces =
    counters ++ goNamesOf p.symbols c.survey.hoisted ++ c.entryIterators p.symbols
  bound : ∀ name ∈ c.entryIterators p.symbols, name ∈ after.names.current

theorem exists_accounted (h : emitPrologue.Runs c p () after) (houter : p.names.outer = []) :
    ∃ opening lines counters, Accounted c p after opening lines counters := by
  obtain ⟨opened, counted, lined, hopening, hcounters, hlines, hiterators⟩ := runs_emitPrologue h
  obtain ⟨hopened, opening, hopeningOutput, hcalls, hextends⟩ :=
    hasEffect_emitOpening (Discipline.regular_calling p.symbols c) hopening rfl
  have hopened : opened.symbols = p.symbols := hopened
  have hentered := hextends.entered trivial houter
  obtain ⟨counters, hcounted, hsublist⟩ := runs_emitCounters hcounters
  obtain ⟨written, hlined, hwritten⟩ := runs_emitHoisted hlines
  obtain ⟨hsymbols, hgrows, hbound, iterators, houtput, hnames⟩ := runs_hoistIterators hiterators
  have happends : opened.Appends lined (counters ++ written) := hcounted.trans hlined
  rw [happends.symbols, hopened] at hsymbols hbound hnames
  rw [happends.names] at hgrows
  refine ⟨opening, counters ++ written ++ iterators, counters.flatMap Go.Stmt.introduces, ?_,
    hsymbols, hextends.grows.names.trans hgrows, fun x => ?_, fun x => ?_, ?_, hsublist, ?_, ?_⟩
  · rw [houtput, happends.output, hopeningOutput]
    simp
  · have hdeclared := hentered.declared x
    have hnumbered := NameScope.count_numbered_le hgrows.counter x
    rw [hopened] at hdeclared
    omega
  · have hdefined := hentered.defined x
    have hcurrent := hgrows.current.sublist.count_le x
    omega
  · intro name hname
    obtain ⟨s, hs, hname⟩ := List.mem_flatMap.mp hname
    exact hcalls s hs name hname
  · rw [List.flatMap_append, List.flatMap_append, hwritten, hnames, hcounted.symbols, hopened]
    rfl
  · intro name hname
    have hname := hbound name hname
    rw [NameScope.isBound, hgrows.outer, hextends.grows.names.outer, houter] at hname
    simpa using hname

end Lower

/-! ## Names of different sources -/

/-- A name has one of some endings. -/
def HasEnding (endings : List String) (name : String) : Prop :=
  ∃ ending ∈ endings, ending.toList <:+ name.toList

theorem HasEnding.of_mem {names : List String} {name : String} (h : name ∈ names) :
    HasEnding names name :=
  ⟨name, h, List.suffix_refl _⟩

theorem HasEnding.mono {endings endings' : List String} {name : String}
    (h : HasEnding endings name) (hsubset : endings ⊆ endings') : HasEnding endings' name := by
  obtain ⟨ending, hending, hsuffix⟩ := h
  exact ⟨ending, hsubset hending, hsuffix⟩

/-- A name does not have two endings none of which ends in the other. -/
theorem HasEnding.not_of_apart {endings endings' : List String} {name : String}
    (h : HasEnding endings name)
    (hapart : ∀ ending ∈ endings, ∀ ending' ∈ endings',
      ¬ending.toList <:+ ending'.toList ∧ ¬ending'.toList <:+ ending.toList) :
    ¬HasEnding endings' name := by
  rintro ⟨ending', hending', hsuffix'⟩
  obtain ⟨ending, hending, hsuffix⟩ := h
  obtain ⟨hleft, hright⟩ := hapart ending hending ending' hending'
  exact (List.suffix_or_suffix_of_suffix hsuffix hsuffix').elim hleft hright

/-- The endings of the names that are introduced for what calls yield. -/
def callEndings : List String := ["res", "resGen", "Resp", "RespGen", "caught", "ok"]

/-- The endings of the names of iterators. -/
def iteratorEndings : List String := ["Rows", "RowsGen"]

theorem IsCallName.hasEnding {name : String} (h : IsCallName name) : HasEnding callEndings name := by
  cases h with
  | result hname => exact (HasEnding.of_mem hname).mono (by decide)
  | caught hname => exact (HasEnding.of_mem hname).mono (by decide)
  | response hname =>
    rcases List.mem_pair.mp hname with rfl | rfl
    · exact ⟨"Resp", by decide, _, String.toList_append.symm⟩
    · exact ⟨"RespGen", by decide, _, String.toList_append.symm⟩

theorem hasEnding_of_mem_iteratorNames {name cursor : String} (h : name ∈ iteratorNames cursor) :
    HasEnding iteratorEndings name := by
  rcases List.mem_pair.mp h with rfl | rfl
  · exact ⟨"Rows", by decide, _, String.toList_append.symm⟩
  · exact ⟨"RowsGen", by decide, _, String.toList_append.symm⟩

theorem IsLocalName.hasEnding {name : String} (h : IsLocalName name) :
    HasEnding (callEndings ++ iteratorEndings) name := by
  cases h with
  | call h => exact h.hasEnding.mono (List.subset_append_left _ _)
  | iterator h => exact (hasEnding_of_mem_iteratorNames h).mono (List.subset_append_right _ _)

/-- The names that a function uses for its handles, its results and its counters. -/
def fixedNames : List String :=
  "ctx" :: handleNames

/-- The names that a function makes up for what it introduces: numbered names, and those of
assignments. -/
inductive IsMadeName : String → Prop
  | numbered {base : String} (n : Nat) : base ∈ NameScope.bases →
    IsMadeName (NameScope.numberedName base n)
  | assigned {name : String} : IsLocalName name → IsMadeName name

namespace NameScope

theorem isMadeName_of_mem_numbered {scope : NameScope} {name : String}
    (h : name ∈ scope.numbered) : IsMadeName name := by
  obtain ⟨base, hbase, hname⟩ := List.mem_flatMap.mp h
  obtain ⟨n, -, rfl⟩ := List.mem_map.mp hname
  exact .numbered (n + 1) hbase

/-- A numbered name has none of some endings in letters. -/
theorem not_hasEnding_numberedName {endings : List String} (base : String) (n : Nat)
    (h : ∀ ending ∈ endings, ¬ending.toList <:+ "returned".toList ∧ ending.toList ≠ [] ∧
      ending.toList.getLast?.any (·.isDigit) = false) : ¬HasEnding endings (numberedName base n) := by
  rintro ⟨ending, hending, hsuffix⟩
  obtain ⟨hfirst, hne, hdigit⟩ := h ending hending
  rcases getLast?_numberedName base n with heq | heq
  · exact hfirst (heq ▸ hsuffix)
  · obtain ⟨front, hfront⟩ := hsuffix
    rw [← hfront, List.getLast?_append_of_ne_nil _ hne, hdigit] at heq
    cases heq

/-- A numbered name begins as its base does. -/
theorem take_numberedName {base : String} (hbase : base ∈ bases) (n : Nat) :
    (numberedName base n).toList.take 2 = base.toList.take 2 := by
  have hlong : ∀ base ∈ bases, 2 ≤ base.toList.length := by decide
  have htake : (base ++ toString n).toList.take 2 = base.toList.take 2 := by
    rw [String.toList_append, List.take_append_of_le_length (hlong base hbase)]
  unfold numberedName
  split
  next hfirst =>
    rw [← htake, eq_of_beq hfirst]
    rfl
  next => exact htake

/-- A numbered name is not one that an assignment introduces. -/
theorem not_isLocalName_of_mem_numbered {scope : NameScope} {name : String}
    (h : name ∈ scope.numbered) : ¬IsLocalName name := by
  obtain ⟨base, -, hname⟩ := List.mem_flatMap.mp h
  obtain ⟨n, -, rfl⟩ := List.mem_map.mp hname
  exact fun hlocal => not_hasEnding_numberedName base (n + 1) (by decide) hlocal.hasEnding

end NameScope

namespace IsMadeName

variable {name : String}

theorem notMem_fixedNames (h : IsMadeName name) : name ∉ fixedNames := by
  intro hname
  have hself : HasEnding fixedNames name := ⟨name, hname, List.suffix_refl _⟩
  cases h with
  | numbered n => exact NameScope.not_hasEnding_numberedName _ n (by decide) hself
  | assigned h => exact h.hasEnding.not_of_apart (by decide) hself

theorem not_client (h : IsMadeName name) : ¬HasEnding ["Client"] name := by
  cases h with
  | numbered n => exact NameScope.not_hasEnding_numberedName _ n (by decide)
  | assigned h => exact h.hasEnding.not_of_apart (by decide)

end IsMadeName

/-! ## The variables in the end -/

namespace SymbolTable

theorem built_start (config : Config) (survey : Survey) :
    (Progress.start config survey).symbols.Built := by
  have hfold (clients : List ClientRef) (table : SymbolTable) (h : table.Built) :
      (clients.foldl (fun table client => table.reserve client.var) table).Built := by
    induction clients generalizing table with
    | nil => exact h
    | cons client rest ih => exact ih _ (.reserve _ h)
  exact .reserve _ (.reserve _ (hfold _ _ .start))

/-- The names that generated code uses are kept from being taken, and so are those of clients. -/
theorem reserved_start (config : Config) (survey : Survey) :
    generatedNames ++ survey.clients.map (·.var) ⊆
      (Progress.start config survey).symbols.reserved := by
  have hfold (clients : List ClientRef) (table : SymbolTable) :
      (clients.foldl (fun table client => table.reserve client.var) table).reserved =
        table.reserved ++ clients.map (·.var) := by
    induction clients generalizing table with
    | nil => exact (List.append_nil _).symm
    | cons client rest ih =>
      rw [List.foldl_cons, ih, reserve, List.append_assoc]
      rfl
  intro name hname
  refine List.mem_append_left _ (List.mem_append_left _ ?_)
  rwa [hfold]

/-- There are no variables at the start, so names that are kept from being taken are avoided. -/
theorem avoids_start (config : Config) (survey : Survey) {names : List String}
    (hkept : names ⊆ generatedNames ++ survey.clients.map (·.var)) :
    (Progress.start config survey).symbols.Avoids names := by
  refine ⟨List.Subset.trans hkept (reserved_start _ _), ?_⟩
  rw [Progress.start_symbols]
  nofun

end SymbolTable

namespace Procedure

variable {procedure : Procedure} {config : Config} {lowered : LoweredProcedure}

/-- What holds of the names that are kept for clients and packages, and what every declaration keeps,
holds of the variables in the end. -/
theorem finalTable_induction (hlower : procedure.lower config = .ok lowered)
    {K : SymbolTable → Prop} (hstart : K (Progress.start config (.ofProcedure config procedure)).symbols)
    (hdeclare : ∀ {table other : SymbolTable} {name type : String} {kind : SymbolKind}
      {symbol : Symbol}, K table → table.declare name type kind = .ok (symbol, other) → K other) :
    K (procedure.finalTable config) := by
  obtain ⟨c, final, hcontext, hruns⟩ := Procedure.lower_eq_ok hlower
  obtain ⟨first, finished, hbegins, hfinished, hfinal, -⟩ :=
    Procedure.exists_begins_of_runs hcontext hruns
  have hpermissive := Scheme.permissive_keeping K first.context
  have hentry := hasEffect_lowerEntry (c := first.context) hpermissive.regular
    hpermissive.releasing (fun h => h.1) (Scheme.lasting_keeping hdeclare first.context)
  have hbody := hasEffect_lowerStatements (Scheme.closed_keeping hdeclare) (fun _ => trivial)
    trivial first.index first.prepared first.statements (c := first.context)
  obtain ⟨hfirst, -⟩ := hentry hbegins.2.1 hstart
  obtain ⟨hfinished, -⟩ := hbody hfinished hfirst
  obtain ⟨hkeeps, -⟩ := hpermissive.emitFinalReturn hfinal hfinished
  rw [finalTable_eq hcontext hruns]
  exact hkeeps

theorem built_finalTable (hlower : procedure.lower config = .ok lowered) :
    (procedure.finalTable config).Built :=
  finalTable_induction hlower (SymbolTable.built_start _ _) .declare

/-- No variable has a name that was kept from being taken, as long as neither the mark nor a number
can lead to it. -/
theorem avoids_finalTable (hlower : procedure.lower config = .ok lowered) {names : List String}
    (hkept : names ⊆ generatedNames ++ (Survey.ofProcedure config procedure).clients.map (·.var))
    (hmark : ∀ name ∈ names, ¬"Var".toList <:+ name.toList)
    (hnumber : ∀ name ∈ names, name.toList.getLast?.all (!·.isDigit) = true) :
    (procedure.finalTable config).Avoids names :=
  finalTable_induction (K := (SymbolTable.Avoids · names)) hlower
    (SymbolTable.avoids_start _ _ hkept) fun h hdeclare => h.declare hmark hnumber hdeclare

end Procedure

/-! ## The whole function -/

/-- Two cursors that some Go block opens have iterators of one name. -/
def Procedure.SharesIterator (procedure : Procedure) (config : Config) (name : String) : Prop :=
  ∃ first second query query',
    List.Sublist [.declareCursor first query, .declareCursor second query'] procedure.statements ∧
      (Survey.ofProcedure config procedure).hoistsCursor first = true ∧
      (Survey.ofProcedure config procedure).hoistsCursor second = true ∧
      name ∈ iteratorNames first ∧ name ∈ iteratorNames second

/-- The names of the outermost scope of a function are accounted for: there are the clients, the fixed
names, the variables, the numbered names, the iterators that are declared at function entry, and what
assignments introduce. -/
structure Procedure.Accounts (procedure : Procedure) (config : Config) (function : Go.Func)
    (scope : NameScope) (iterators defined : List String) : Prop where
  count_le (x : String) : function.names.count x ≤
    ((Survey.ofProcedure config procedure).clients.map (·.var)).count x + fixedNames.count x +
      ((procedure.finalTable config).symbols.map (·.goName)).count x + scope.numbered.count x +
      (iterators.count x + defined.count x)
  isLocalName : ∀ name ∈ iterators ++ defined, IsLocalName name
  shared {name : String} : 1 < iterators.count name → procedure.SharesIterator config name
  nodup : defined.Nodup
  apart : ∀ name ∈ iterators, name ∉ defined

theorem Context.exists_cursor_of_entryIterator? {c : Context} {table : SymbolTable}
    {statement : Statement} {name : String} (h : c.entryIterator? table statement = some name) :
    ∃ cursor query, statement = .declareCursor cursor query ∧
      c.survey.hoistsCursor cursor = true ∧ name ∈ iteratorNames cursor := by
  cases statement with
  | declareCursor cursor query =>
    rw [entryIterator?] at h
    split at h
    next htest =>
      obtain rfl := Option.some.inj h
      simp only [Bool.and_eq_true] at htest
      refine ⟨cursor, query, rfl, htest.1.1, List.mem_pair.mpr ?_⟩
      split
      · exact .inr String.append_assoc
      · exact .inl rfl
    next => cases h
  | _ => cases h

/-- A name of two iterators is that of two cursors. -/
theorem Context.sharesIterator {c : Context} {table : SymbolTable} {config : Config} {name : String}
    (hsurvey : c.survey = .ofProcedure config c.procedure)
    (h : 1 < (c.entryIterators table).count name) : c.procedure.SharesIterator config name := by
  have hpair : List.Sublist [name, name] (c.entryIterators table) :=
    List.replicate_sublist_iff.mpr h
  obtain ⟨statements, hsublist, hnames⟩ := List.sublist_filterMap_iff.mp hpair
  obtain ⟨front, first, back, rfl, -, hfirst, hrest⟩ := List.filterMap_eq_cons_iff.mp hnames.symm
  obtain ⟨middle, second, last, rfl, -, hsecond, -⟩ := List.filterMap_eq_cons_iff.mp hrest
  obtain ⟨cursor, query, rfl, hhoists, hname⟩ := exists_cursor_of_entryIterator? hfirst
  obtain ⟨cursor', query', rfl, hhoists', hname'⟩ := exists_cursor_of_entryIterator? hsecond
  rw [hsurvey] at hhoists hhoists'
  refine ⟨cursor, cursor', query, query', .trans ?_ hsublist, hhoists, hhoists', hname, hname'⟩
  refine .trans (.cons_cons _ ?_) (List.sublist_append_right front _)
  exact .trans (.cons_cons _ (List.nil_sublist _)) (List.sublist_append_right middle _)

/-- The fixed names of a function are in its header, and those of its counters in its body. -/
theorem Survey.count_fixedNames (survey : Survey) {counters : List String}
    (h : List.Sublist counters counterNames) (x : String) :
    ["ctx"].count x + (if survey.usesDb then ["db"] else []).count x +
      (if survey.usesStore then ["store"] else []).count x +
      (if survey.hasStatus then ["returnCode"] else []).count x +
      (if survey.needsErr then ["err"] else []).count x + counters.count x ≤
        fixedNames.count x := by
  have hcounters := h.count_le x
  have hfixed : fixedNames.count x = ["ctx"].count x + ["db"].count x + ["store"].count x +
      ["returnCode"].count x + ["err"].count x + counterNames.count x := by
    simp only [← List.count_append]
    exact List.Perm.count_eq (by decide) x
  have hoptional (test : Bool) (names : List String) :
      (if test then names else []).count x ≤ names.count x := by
    split
    · exact Nat.le_refl _
    · exact Nat.zero_le _
  have hdb := hoptional survey.usesDb ["db"]
  have hstore := hoptional survey.usesStore ["store"]
  have hstatus := hoptional survey.hasStatus ["returnCode"]
  have herr := hoptional survey.needsErr ["err"]
  omega

namespace Lower

variable {c : Context} {p middle after : Progress}

/-- The names in the header of a function. -/
theorem count_header {params results : List (String × Go.TypeExpr)}
    (hparams : functionParams.Runs c p params middle)
    (hresults : functionResults.Runs c middle results after) (x : String) :
    (params.map (·.1)).count x + (results.map (·.1)).count x =
      (c.survey.clients.map (·.var)).count x +
      ((p.symbols.symbols.filter (·.kind = .input)).map (·.goName)).count x +
      ((p.symbols.symbols.filter (·.kind = .output)).map (·.goName)).count x +
      (["ctx"].count x + (if c.survey.usesDb then ["db"] else []).count x +
        (if c.survey.usesStore then ["store"] else []).count x +
        (if c.survey.hasStatus then ["returnCode"] else []).count x +
        (if c.survey.needsErr then ["err"] else []).count x) := by
  have hmiddle : p.Annotated middle := hasEffect_functionParams.annotated hparams
  obtain ⟨rfl, -⟩ := runs_functionResults hresults
  have hoptional (test : Bool) (name : String) (type : Go.TypeExpr) :
      (if test then [(name, type)] else []).map (·.1) = if test then [name] else [] := by
    cases test <;> rfl
  rw [names_functionParams hparams, hmiddle.symbols, ← List.singleton_append]
  simp only [List.map_append, List.map_map, hoptional, Survey.handles, List.count_append,
    Function.comp_def]
  omega

/-- The statements of a procedure and the return at the end. -/
theorem extends_body {statements : List Statement} {index : Nat} {prepared : Option Fetch}
    (h : (lowerStatements index prepared statements).Runs c p () middle)
    (hfinal : emitFinalReturn.Runs c middle () after) :
    ∃ added, after.output = p.output ++ added ∧ p.Extends (c.exits = []) after added := by
  obtain ⟨main, hmain, hextends⟩ := extends_lowerStatements h
  obtain ⟨last, hlast, hextends'⟩ :=
    HasEffect.exists_extends (Scheme.permissive_free c).emitFinalReturn hfinal
  exact ⟨main ++ last, by rw [hlast, hmain, List.append_assoc], hextends.trans hextends'⟩

namespace Accounted

variable {opening lines added : List Go.Stmt} {counters : List String} {final : Progress}

/-- Assignments introduce no name twice. -/
theorem nodup_defined (h : Accounted c p after opening lines counters)
    (hentered : after.Entered final added) (hnodup : final.names.current.Nodup) :
    (opening.flatMap Go.Stmt.defines ++ added.flatMap Go.Stmt.defines).Nodup := by
  rw [List.nodup_iff_count_le_one] at hnodup ⊢
  intro x
  have hopening := h.defined x
  have hadded := hentered.defined x
  have honce := hnodup x
  rw [List.count_append]
  omega

/-- Assignments introduce no iterator that is declared at function entry. -/
theorem apart (h : Accounted c p after opening lines counters)
    (hentered : after.Entered final added) (hnodup : final.names.current.Nodup) :
    ∀ name ∈ c.entryIterators p.symbols,
      name ∉ opening.flatMap Go.Stmt.defines ++ added.flatMap Go.Stmt.defines := by
  intro name hname hdefined
  rcases List.mem_append.mp hdefined with hopening | hadded
  · obtain ⟨statement, -, hstatement⟩ := List.mem_filterMap.mp hname
    obtain ⟨cursor, -, -, -, hiterator⟩ := Context.exists_cursor_of_entryIterator? hstatement
    exact (hasEnding_of_mem_iteratorNames hiterator).not_of_apart (by decide)
      (h.calls name hopening).hasEnding
  · have hbound := List.count_pos_iff.mpr (h.bound name hname)
    have hdefined := List.count_pos_iff.mpr hadded
    have hcount := hentered.defined name
    have honce := List.nodup_iff_count_le_one.mp hnodup name
    omega

end Accounted

end Lower

namespace Procedure

variable {procedure : Procedure} {config : Config} {lowered : LoweredProcedure}

/-- What assignments introduce in the body of a function. -/
theorem isLocalName_of_mem_defines (hlower : procedure.lower config = .ok lowered) :
    ∀ name ∈ lowered.function.body.flatMap Go.Stmt.defines, IsLocalName name := by
  let permit : Permit := .liberal config (.ofProcedure config procedure)
  have hgrants : permit.GrantsProcedure procedure :=
    Permit.grantsProcedure rfl (fun _ _ => trivial) fun _ _ _ _ => trivial
  obtain ⟨I, _, -, -, -, hdescribes⟩ := Procedure.exists_idiom hlower permit rfl rfl hgrants
  exact hdescribes.code.isLocalName

/-- The names of a function are accounted for. -/
theorem exists_accounts (hlower : procedure.lower config = .ok lowered) :
    ∃ scope iterators defined,
      procedure.Accounts config lowered.function scope iterators defined := by
  obtain ⟨c, final, hcontext, hruns⟩ := Procedure.lower_eq_ok hlower
  obtain ⟨functionName, verb, hfields⟩ := Context.start_eq_ok hcontext
  obtain ⟨declared, hoisted, hdeclared, hhoisted, middle, headed, hparams, hresults, entered,
    finished, hentered, hfinished, hfinal, hbody, -⟩ := runs_lowerProcedure hruns
  have htable : procedure.finalTable config = final.symbols := finalTable_eq hcontext hruns
  have hprocedure : c.procedure = procedure := by rw [hfields]
  have hsurvey : c.survey = .ofProcedure config procedure := by rw [hfields]
  have hexits : c.exits = [] := by rw [hfields]
  -- In front of the header only variables are declared.
  have hlasting := Scheme.lasting_free c
  have hdeclare (name type : String) (kind : SymbolKind) :
      (declare name type kind).HasEffect c (Scheme.free.discipline c).effect :=
    hasEffect_declare hlasting name type kind
  obtain ⟨_, -, hfirst⟩ := (hasEffect_declareParams hdeclare _).exists_extends hdeclared
  obtain ⟨_, -, hsecond⟩ := (hasEffect_declareHoisted hdeclare _ _).exists_extends hhoisted
  have hheaded : hoisted.Annotated headed := by
    have hmiddle : hoisted.Annotated middle := hasEffect_functionParams.annotated hparams
    exact hmiddle.trans (runs_functionResults hresults).2
  have hgrows := (hfirst.grows.trans hsecond.grows).trans hheaded.grows
  have houtput : headed.output = [] := by
    obtain ⟨table, -, rfl⟩ := runs_declareParams hdeclared
    exact (results_eq hhoisted hparams hresults).2.2
  have houter : headed.names.outer = [] := hgrows.names.outer
  have hvariables (x : String) : (goNamesOf headed.symbols c.survey.hoisted).count x ≤
      headed.symbols.declaredNames.count x := by
    have htypes : ∀ name ∈ c.survey.hoisted,
        (declaredType? c.procedure.statements name).isSome := by
      rw [hsurvey, hprocedure]
      exact fun name => isSome_declaredType?
    obtain ⟨-, hknown, hnodup⟩ := runs_declareHoisted htypes hhoisted
    rw [hheaded.symbols]
    exact SymbolTable.count_goNamesOf_le hnodup (fun name hname => (hknown name hname).2) x
  obtain ⟨opening, lines, counters, haccounted⟩ := exists_accounted hentered houter
  obtain ⟨added, hadded, hextends⟩ := extends_body hfinished hfinal
  have hadds := hextends.entered hexits (haccounted.names.outer.trans houter)
  have hknown : hoisted.symbols.symbols <+: final.symbols.symbols := by
    have hgrown := hextends.grows.symbols
    rwa [haccounted.symbols, hheaded.symbols] at hgrown
  have hnodup : final.names.current.Nodup :=
    hextends.grows.names.nodup (haccounted.names.nodup (hgrows.names.nodup .nil))
  have hwhole : lowered.function.body = opening ++ lines ++ added := by
    rw [hbody, hadded, haccounted.output, houtput]
    rfl
  refine ⟨final.names, c.entryIterators headed.symbols,
    opening.flatMap Go.Stmt.defines ++ added.flatMap Go.Stmt.defines, ?_, ?_, ?_, ?_, ?_⟩
  · intro x
    have hheader := count_header hparams hresults x
    have hfixed := c.survey.count_fixedNames haccounted.counted x
    have hdeclared := haccounted.declared x
    have hadded := hadds.declared x
    have hlines := hvariables x
    have htotal := SymbolTable.count_goName final.symbols.symbols x
    have hrole (kind : SymbolKind) :
        ((hoisted.symbols.symbols.filter (·.kind = kind)).map (·.goName)).count x ≤
          ((final.symbols.symbols.filter (·.kind = kind)).map (·.goName)).count x :=
      ((hknown.sublist.filter _).map _).count_le x
    have hinputs := hrole .input
    have houtputs := hrole .output
    have hbody : (lowered.function.body.flatMap Go.Stmt.introduces).count x =
        (opening.flatMap Go.Stmt.introduces).count x + (counters.count x +
          (goNamesOf headed.symbols c.survey.hoisted).count x +
          (c.entryIterators headed.symbols).count x) +
        (added.flatMap Go.Stmt.introduces).count x := by
      rw [hwhole, List.flatMap_append, List.flatMap_append, haccounted.introduced]
      simp only [List.count_append]
    rw [Go.count_introduces opening, Go.count_introduces added] at hbody
    rw [haccounted.symbols] at hadded
    rw [Go.Func.names, List.count_append, List.count_append, hheader, hbody, htable, htotal,
      List.count_append, hsurvey]
    rw [hsurvey] at hfixed hlines
    simp only [SymbolTable.declaredNames] at *
    omega
  · rintro name hname
    rcases List.mem_append.mp hname with hiterator | hdefined
    · obtain ⟨statement, -, hstatement⟩ := List.mem_filterMap.mp hiterator
      obtain ⟨cursor, -, -, -, hname⟩ := Context.exists_cursor_of_entryIterator? hstatement
      exact .iterator hname
    · refine isLocalName_of_mem_defines hlower name ?_
      rw [hwhole, List.flatMap_append, List.flatMap_append, List.append_assoc]
      rcases List.mem_append.mp hdefined with hopening | hadded
      · exact List.mem_append_left _ hopening
      · exact List.mem_append_right _ (List.mem_append_right _ hadded)
  · intro name hshared
    rw [← hprocedure] at hsurvey ⊢
    exact Context.sharesIterator hsurvey hshared
  · exact haccounted.nodup_defined hadds hnodup
  · exact haccounted.apart hadds hnodup

end Procedure

/-- The ways in which a name can be introduced twice into the outermost scope of a function. -/
inductive Procedure.Clash (procedure : Procedure) (config : Config) (name : String) : Prop
  /-- Two clients have one name. -/
  | clients : 1 < ((Survey.ofProcedure config procedure).clients.map (·.var)).count name →
    Clash procedure config name
  /-- A client whose name does not come from that of its service has the name of something else. -/
  | client : name ∈ (Survey.ofProcedure config procedure).clients.map (·.var) →
    ¬HasEnding ["Client"] name →
    (name ∈ fixedNames ∨ IsMadeName name ∨
      name ∈ (procedure.finalTable config).symbols.map (·.goName)) →
    Clash procedure config name
  /-- Two iterators have one name. -/
  | iterators : procedure.SharesIterator config name → Clash procedure config name
  /-- A variable has a name that the function makes up. -/
  | made : name ∈ (procedure.finalTable config).symbols.map (·.goName) → IsMadeName name →
    Clash procedure config name

namespace Procedure

variable {procedure : Procedure} {config : Config} {lowered : LoweredProcedure}

/-- No variable has one of the fixed names. -/
theorem goName_notMem_fixedNames (hlower : procedure.lower config = .ok lowered) {name : String}
    (h : name ∈ (procedure.finalTable config).symbols.map (·.goName)) : name ∉ fixedNames := by
  have hgenerated : fixedNames ⊆ generatedNames := by decide
  have havoids : (procedure.finalTable config).Avoids fixedNames :=
    avoids_finalTable hlower (List.subset_append_of_subset_left _ hgenerated) (by decide) (by decide)
  obtain ⟨symbol, hsymbol, rfl⟩ := List.mem_map.mp h
  exact havoids.free symbol hsymbol

/-- No variable has the name of a client that comes from the name of its service. -/
theorem goName_ne_client (hlower : procedure.lower config = .ok lowered) {name : String}
    (h : name ∈ (procedure.finalTable config).symbols.map (·.goName))
    (hclient : HasEnding ["Client"] name) :
    name ∉ (Survey.ofProcedure config procedure).clients.map (·.var) := by
  intro hmem
  have hself (ending : String) : HasEnding [ending] name ↔ ending.toList <:+ name.toList := by
    simp [HasEnding]
  obtain ⟨front, hfront⟩ := (hself "Client").mp hclient
  have hmark : ¬"Var".toList <:+ name.toList := fun hmark =>
    hclient.not_of_apart (by decide) ((hself "Var").mpr hmark)
  have hletter : name.toList.getLast?.all (!·.isDigit) = true := by
    rw [← hfront, List.getLast?_append_of_ne_nil _ (by decide)]
    decide
  have havoids : (procedure.finalTable config).Avoids [name] :=
    avoids_finalTable hlower
      (List.cons_subset.mpr ⟨List.mem_append_right _ hmem, List.nil_subset _⟩)
      (List.forall_mem_singleton.mpr hmark) (List.forall_mem_singleton.mpr hletter)
  obtain ⟨symbol, hsymbol, hname⟩ := List.mem_map.mp h
  exact havoids.free symbol hsymbol (List.mem_singleton.mpr hname)

theorem count_names_le_one (hlower : procedure.lower config = .ok lowered) {name : String}
    (h : ¬procedure.Clash config name) : lowered.function.names.count name ≤ 1 := by
  obtain ⟨scope, iterators, defined, haccounts⟩ := exists_accounts hlower
  have htotal := haccounts.count_le name
  have hclients : ((Survey.ofProcedure config procedure).clients.map (·.var)).count name ≤ 1 :=
    Nat.le_of_not_lt fun hlt => h (.clients hlt)
  have hfixed := List.nodup_iff_count_le_one.mp (by decide : fixedNames.Nodup) name
  have hvariables := List.nodup_iff_count_le_one.mp (built_finalTable hlower).nodup name
  have hnumbered := List.nodup_iff_count_le_one.mp scope.nodup_numbered name
  have hiterators : iterators.count name ≤ 1 :=
    Nat.le_of_not_lt fun hlt => h (.iterators (haccounts.shared hlt))
  have hdefined := List.nodup_iff_count_le_one.mp haccounts.nodup name
  have hapart : iterators.count name = 0 ∨ defined.count name = 0 := by
    simp only [List.count_eq_zero]
    exact Decidable.or_iff_not_imp_left.mpr fun hmem =>
      haccounts.apart name (Decidable.not_not.mp hmem)
  have hlocal (hmem : 0 < iterators.count name + defined.count name) : IsLocalName name := by
    rw [← List.count_append, List.count_pos_iff] at hmem
    exact haccounts.isLocalName name hmem
  by_cases hmade : IsMadeName name
  · have hnotFixed := List.count_eq_zero.mpr hmade.notMem_fixedNames
    have hnotVariable := List.count_eq_zero.mpr fun hmem => h (.made hmem hmade)
    have hnotClient := List.count_eq_zero.mpr fun hmem =>
      h (.client hmem hmade.not_client (.inr (.inl hmade)))
    have hnotBoth (hpos : 0 < scope.numbered.count name) :
        iterators.count name + defined.count name = 0 := by
      by_contra hne
      exact NameScope.not_isLocalName_of_mem_numbered (List.count_pos_iff.mp hpos)
        (hlocal (Nat.pos_of_ne_zero hne))
    omega
  · have hnotNumbered : scope.numbered.count name = 0 :=
      List.count_eq_zero.mpr fun hmem => hmade (NameScope.isMadeName_of_mem_numbered hmem)
    have hnotLocal : ¬0 < iterators.count name + defined.count name :=
      fun hpos => hmade (.assigned (hlocal hpos))
    by_cases hclient : name ∈ (Survey.ofProcedure config procedure).clients.map (·.var)
    · have hfree : name ∉ fixedNames ∧
          name ∉ (procedure.finalTable config).symbols.map (·.goName) := by
        by_cases hending : HasEnding ["Client"] name
        · refine ⟨fun hmem => ?_, fun hmem => goName_ne_client hlower hmem hending hclient⟩
          exact hending.not_of_apart (by decide) ⟨name, hmem, List.suffix_refl _⟩
        · exact ⟨fun hmem => h (.client hclient hending (.inl hmem)),
            fun hmem => h (.client hclient hending (.inr (.inr hmem)))⟩
      have hnotFixed := List.count_eq_zero.mpr hfree.1
      have hnotVariable := List.count_eq_zero.mpr hfree.2
      omega
    · have hnotClient := List.count_eq_zero.mpr hclient
      have hnotBoth (hpos : 0 < ((procedure.finalTable config).symbols.map (·.goName)).count name) :
          fixedNames.count name = 0 :=
        List.count_eq_zero.mpr (goName_notMem_fixedNames hlower (List.count_pos_iff.mp hpos))
      omega

end Procedure

/-- The names in the outermost scope of a generated function differ, but for a few reasons: two clients
have one name, or a client has been configured to have the name of something else; two cursors that
some Go block opens have names with the same words; or a variable of the procedure has a name of the
kind that the function makes up for what it introduces. -/
theorem Procedure.repeated_names_clash {procedure : Procedure} {config : Config}
    {lowered : LoweredProcedure} (h : procedure.lower config = .ok lowered) {name : String}
    (hrepeated : 1 < lowered.function.names.count name) : procedure.Clash config name := by
  by_contra hclash
  exact Nat.not_lt.mpr (Procedure.count_names_le_one h hclash) hrepeated

open Build in
/-- A procedure that declares a variable behind a condition that depends on a query. The variable has
the name of the flag for the condition. -/
def Procedure.probe : Procedure where
  name := "usp_Probe"
  params := []
  body := [
    ifThen (.exists { select [col "id"] with source := some ⟨"orders", none⟩ }) [.print (text "found")],
    declareInit "exists1" "INT" (int 0), .print (var "exists1")]

/-- The function of `Procedure.probe` declares the flag and the variable under one name. -/
theorem Procedure.probe_repeated_names_clash :
    ∃ lowered, Procedure.probe.lower {} = .ok lowered ∧
      lowered.function.names = ["ctx", "db", "err", "exists1", "exists1"] ∧
      Procedure.probe.Clash {} "exists1" := by
  have hnames : (Procedure.probe.lower {}).toOption.map (·.function.names) =
      some ["ctx", "db", "err", "exists1", "exists1"] := by
    decide +kernel
  cases hlower : Procedure.probe.lower {} with
  | error error => simp [hlower, Except.toOption] at hnames
  | ok lowered =>
    rw [hlower] at hnames
    have hnames : lowered.function.names = ["ctx", "db", "err", "exists1", "exists1"] :=
      Option.some.inj hnames
    refine ⟨lowered, rfl, hnames, Procedure.repeated_names_clash hlower ?_⟩
    rw [hnames]
    decide

end Sproc
