import Sproc.Proofs.Go.Unused
import Sproc.Proofs.Lower.Fetch
import Sproc.Proofs.Lower.Posting

/-!
# Select lists that mix assignments and columns

A select list either assigns variables or names the columns of a result, and T-SQL refuses one that
does both. So do the statements that are evaluated in Go or by the database. A request, however,
reads the items that assign something and passes over the others: a query that is sent to a service
or to the store is treated as if its columns had not been written.

Every item that does assign a variable is kept: the code sets the variable, or a warning says that
no field of the response can.

## Main definitions

* `Go.Stmt.sets`: the variables that a statement sets
* `Select.Mixed`: a select list with assignments and columns
* `Select.Direct`: a query that is evaluated in Go or by the database
* `SelectItem.Kept`: an item that the code or a warning accounts for

## Main results

* `Lower.assigns_of_runs`: direct queries refuse mixed lists
* `Lower.requestSelect_assignments`: requests pass over columns
* `Lower.mixed_selects_refused_iff`: what becomes of the items of a query that assigns variables
-/

namespace Sproc

/-! ## Variables that code sets -/

namespace Go

/-- The variable that an argument gives the address of. -/
def Expr.addressed? : Expr → Option String
  | .unary .address (.name id) => some id
  | _ => none

/-- The variables that a call gets the addresses of. -/
def Expr.fills : Expr → List String
  | .call _ args => args.filterMap Expr.addressed?
  | _ => []

/-- The variables that an assignment sets, by itself or through the call whose results it takes. -/
def Assign.sets (a : Assign) : List String :=
  a.targets.filterMap Expr.variable? ++ a.value.fills

mutual

/-- The variables that a statement sets, perhaps only where it branches. -/
def Stmt.sets : Stmt → List String
  | .assign a => a.sets
  | .branch (.mk init _ body) others otherwise =>
    (init.elim [] Assign.sets ++ listSets body) ++ (armSets others ++ elseSets otherwise)
  | .loop _ body => listSets body
  | .closure _ body => listSets body
  | _ => []

/-- The same for a list of statements. -/
def listSets : List Stmt → List String
  | [] => []
  | s :: rest => s.sets ++ listSets rest

/-- The same for the arms of a chain. -/
def armSets : List Arm → List String
  | [] => []
  | .mk init _ body :: rest => (init.elim [] Assign.sets ++ listSets body) ++ armSets rest

/-- The same for an alternative. -/
def elseSets : Option (List Stmt) → List String
  | none => []
  | some body => listSets body

end

@[simp]
theorem mem_listSets_append {name : String} (front back : List Stmt) :
    name ∈ listSets (front ++ back) ↔ name ∈ listSets front ∨ name ∈ listSets back := by
  induction front with
  | nil => simp [listSets]
  | cons s rest ih => simp [listSets, ih, or_assoc]

end Go

/-! ## Select lists -/

/-- A select list assigns some variables and yields columns as well. -/
def Select.Mixed (query : Select) : Prop :=
  query.assignsVariables = true ∧ ∃ item ∈ query.items, item.assignTo = none

/-- The query without the items that assign nothing. -/
def Select.assignments (query : Select) : Select :=
  { query with items := query.items.filter (·.assignTo.isSome) }

/-- A query is evaluated in Go, because it has no table, or by the database. -/
def Select.Direct (config : Config) (query : Select) : Prop :=
  ∀ table, query.source = some table → (config.backendOf (some table)).1 = .sql

/-- Between two moments of a generation, code has been added that sets the variable of an item, or a
warning that no field can be read into it. -/
def SelectItem.Kept (item : SelectItem) (before after : Progress) : Prop :=
  ∃ target symbol, item.assignTo = some target ∧ before.symbols.lookup target = .ok symbol ∧
    ((∃ code, after.output = before.output ++ code ∧ symbol.goName ∈ Go.listSets code) ∨
      ∃ notes note, skips after.warnings = skips before.warnings ++ notes ∧
        Lower.itemNote? item = some note ∧ note ∈ notes)

theorem Select.not_mixed_iff {query : Select} (hassigns : query.assignsVariables = true) :
    ¬query.Mixed ↔ ∀ item ∈ query.items, item.assignTo.isSome = true := by
  simp [Mixed, hassigns, Option.isSome_iff_ne_none]

/-- A column is never kept. -/
theorem Select.not_mixed_of_kept {query : Select} {before after : Progress}
    (h : ∀ item ∈ query.items, item.Kept before after) : ¬query.Mixed := by
  rintro ⟨-, item, hitem, hnone⟩
  obtain ⟨target, symbol, htarget, -⟩ := h item hitem
  cases hnone.symm.trans htarget

namespace Lower

variable {α β : Type} {c : Context} {before after : Progress} {targets : List String}

/-! ## Steps that set variables -/

/-- A step adds code that sets the given variables. -/
def SetsAll (step : Lower α) (c : Context) (targets : List String) : Prop :=
  ∀ ⦃before value after⦄, step.Runs c before value after →
    ∃ code, after.output = before.output ++ code ∧ ∀ target ∈ targets, target ∈ Go.listSets code

/-- A step that adds nothing. -/
theorem setsAll_of_output {step : Lower α}
    (h : ∀ {before value after}, step.Runs c before value after → after.output = before.output) :
    step.SetsAll c [] := fun _ _ _ hruns =>
  ⟨[], (h hruns).trans (List.append_nil _).symm, fun _ htarget => absurd htarget List.not_mem_nil⟩

theorem setsAll_annotated {step : Lower α} (h : step.HasEffect c Progress.Annotated) :
    step.SetsAll c [] :=
  setsAll_of_output fun hruns => (h.annotated hruns).output

theorem setsAll_emit {s : Go.Stmt} (h : ∀ target ∈ targets, target ∈ s.sets) :
    (emit s).SetsAll c targets := by
  intro before value after hruns
  obtain rfl := runs_emit.mp hruns
  exact ⟨[s], rfl, fun target htarget => by simp [Go.listSets, h target htarget]⟩

/-- A sequence sets what both of its steps set. -/
theorem setsAll_bind {step : Lower α} {next : α → Lower β} {others : List String}
    (h : step.SetsAll c targets) (hnext : ∀ value, (next value).SetsAll c others) :
    (step >>= next).SetsAll c (targets ++ others) := by
  intro before value after hruns
  obtain ⟨first, middle, hfirst, hrest⟩ := runs_bind.mp hruns
  obtain ⟨front, hfront, hsets⟩ := h hfirst
  obtain ⟨back, hback, hsets'⟩ := hnext first hrest
  refine ⟨front ++ back, by rw [hback, hfront, List.append_assoc], fun target htarget => ?_⟩
  rw [Go.mem_listSets_append]
  exact (List.mem_append.mp htarget).imp (hsets target) (hsets' target)

/-- What is set behind a step. -/
theorem setsAll_first_bind {step : Lower α} {next : α → Lower β} (h : step.SetsAll c [])
    (hnext : ∀ value, (next value).SetsAll c targets) : (step >>= next).SetsAll c targets :=
  setsAll_bind h hnext

theorem setsAll_read_bind {next : Context → Lower α} (h : (next c).SetsAll c targets) :
    (read >>= next).SetsAll c targets := by
  intro before value after hruns
  obtain ⟨_, _, hread, hnext⟩ := runs_bind.mp hruns
  obtain ⟨rfl, rfl⟩ := runs_read.mp hread
  exact h hnext

/-- A block is not written yet. -/
theorem setsAll_block (step : Lower Unit) : (block step).SetsAll c [] := by
  refine setsAll_of_output fun hruns => ?_
  obtain ⟨_, -, -, rfl⟩ := runs_block.mp hruns
  rfl

theorem setsAll_emitAssign (target : String) (value : Go.Expr) :
    (emitAssign target value).SetsAll c [target] :=
  setsAll_emit (by simp [Go.Stmt.sets, Go.Assign.sets, assignTo, Go.Expr.variable?])

/-- The count of rows is kept where something reads it. -/
theorem setsAll_countRow {track : Bool} :
    (if track then emitOneRow else pure () : Lower Unit).SetsAll c [] := by
  cases track with
  | false => exact setsAll_annotated (hasEffect_pure ())
  | true => exact setsAll_emit fun _ htarget => absurd htarget List.not_mem_nil

theorem setsAll_bindLocal (name : String) (type : Go.TypeExpr) :
    (bindLocal name type).SetsAll c [] := by
  intro before define after hruns
  obtain ⟨-, -, rfl⟩ | ⟨-, -, -, rfl⟩ | ⟨-, -, rfl⟩ := runs_bindLocal hruns
  · exact ⟨[], (List.append_nil _).symm, by simp⟩
  · exact ⟨[], (List.append_nil _).symm, by simp⟩
  · exact ⟨[_], rfl, by simp⟩

theorem setsAll_emitReads (response : Go.Expr) (reads : Reads) :
    (emitReads response reads).SetsAll c (reads.map (·.1)) := by
  induction reads with
  | nil => exact setsAll_annotated (hasEffect_pure ())
  | cons read rest ih => exact setsAll_bind (setsAll_emitAssign _ _) fun _ => ih

/-- What follows a checked call is written behind the check or as its alternative. -/
theorem setsAll_emitChecked {success : Lower Unit} (h : success.SetsAll c targets) :
    (emitChecked success).SetsAll c targets := by
  refine setsAll_first_bind (setsAll_block _) fun failure => setsAll_read_bind ?_
  split
  · intro before value after hruns
    obtain ⟨rest, continued, hrest, hemit⟩ := runs_bind.mp hruns
    obtain ⟨finished, hsuccess, rfl, rfl⟩ := runs_block.mp hrest
    obtain rfl := runs_emit.mp hemit
    obtain ⟨inner, hinner, hsets⟩ := h hsuccess
    obtain rfl : finished.output = inner := hinner
    refine ⟨[_], rfl, fun target htarget => ?_⟩
    simp [Go.listSets, Go.Stmt.sets, Go.elseSets, hsets target htarget]
  · exact setsAll_first_bind (setsAll_emit (by simp)) fun _ => h

theorem setsAll_emitCallWith (backend : Backend) (client : ClientRef) (method : String)
    (fields : Fields) {onResponse : Go.Expr → Lower Unit}
    (h : ∀ response, (onResponse response).SetsAll c targets) :
    (emitCallWith backend client method fields onResponse).SetsAll c targets := by
  refine setsAll_first_bind (setsAll_annotated (hasEffect_remoteCall ..)) fun call => ?_
  refine setsAll_first_bind (setsAll_annotated (hasEffect_localName _)) fun response => ?_
  refine setsAll_first_bind (setsAll_bindLocal _ _) fun define => ?_
  exact setsAll_first_bind (setsAll_emit (by simp)) fun _ => setsAll_emitChecked (h _)

theorem mem_addresses {target : String} (h : target ∈ targets) :
    target ∈ (addresses targets).filterMap Go.Expr.addressed? :=
  List.mem_filterMap.mpr ⟨_, List.mem_map_of_mem h, rfl⟩

/-- A query for a single row sets all the variables it reads into. -/
theorem setsAll_emitScan (query : Query Go.Expr) (trackRows : Bool) :
    (emitScan query targets trackRows).SetsAll c targets := by
  refine setsAll_first_bind (setsAll_annotated hasEffect_handle) fun receiver => ?_
  refine setsAll_first_bind (setsAll_annotated (hasEffect_importPath _)) fun _ => ?_
  refine setsAll_first_bind (setsAll_annotated (hasEffect_importPath _)) fun _ => ?_
  refine setsAll_first_bind (setsAll_block _) fun missing => ?_
  refine setsAll_first_bind (setsAll_block _) fun failure => ?_
  -- The call with the addresses is the first thing that the statement does.
  have hsets {noRow : Go.Expr} {others : List Go.Arm} {otherwise : Option (List Go.Stmt)} :
      ∀ target ∈ targets, target ∈ (Go.Stmt.branch (.mk (some (assignTo [err]
        (.invoke (dataCall receiver "QueryRowContext" query) "Scan" (addresses targets))))
        noRow missing) others otherwise).sets := by
    intro target htarget
    have hmem := mem_addresses htarget
    simp [Go.Stmt.sets, Go.Assign.sets, Go.Expr.invoke, Go.Expr.fills, assignTo, hmem]
  cases trackRows with
  | false => exact setsAll_emit hsets
  | true => exact setsAll_first_bind (setsAll_block _) fun found => setsAll_emit hsets

/-! ## Queries that are evaluated in Go or by the database -/

theorem lookup_of_runs {name : String} {symbol : Symbol}
    (h : (lookup name).Runs c before symbol after) :
    before.symbols.lookup name = .ok symbol ∧ after = before := by
  simpa [lookup, runs_bind, and_comm] using h

/-- Code sets the variables of select items, all of which have one. -/
def SetsItems (symbols : SymbolTable) (items : List SelectItem) (code : List Go.Stmt) : Prop :=
  ∀ item ∈ items, ∃ target symbol, item.assignTo = some target ∧
    symbols.lookup target = .ok symbol ∧ symbol.goName ∈ Go.listSets code

theorem SetsItems.kept {items : List SelectItem} {code : List Go.Stmt}
    (h : SetsItems before.symbols items code) (houtput : after.output = before.output ++ code) :
    ∀ item ∈ items, item.Kept before after := by
  intro item hitem
  obtain ⟨target, symbol, htarget, hlookup, hsets⟩ := h item hitem
  exact ⟨target, symbol, htarget, hlookup, .inl ⟨code, houtput, hsets⟩⟩

/-- An assignment leaves the variables as they are and sets one of them. -/
theorem sets_assignVariable {name : String} {value : Expr}
    (h : (assignVariable name value).Runs c before () after) :
    after.symbols = before.symbols ∧ ∃ symbol code, before.symbols.lookup name = .ok symbol ∧
      after.output = before.output ++ code ∧ symbol.goName ∈ Go.listSets code := by
  obtain ⟨hsymbols, -⟩ := hasEffect_assignVariable
    (Scheme.permissive_keeping (· = before.symbols) c).regular.forms name value h rfl
  obtain ⟨symbol, found, hlookup, hassign⟩ := runs_bind.mp h
  obtain ⟨hsymbol, rfl⟩ := lookup_of_runs hlookup
  obtain ⟨evaluated, middle, hvalue, hemit⟩ := runs_bind.mp hassign
  obtain ⟨front, hfront, -⟩ := (hasEffect_lowerValue_regular
    (Scheme.permissive_free c).regular.forms value _).exists_extends hvalue
  obtain ⟨back, hback, hset⟩ := setsAll_emitAssign _ _ hemit
  refine ⟨hsymbols, symbol, front ++ back, hsymbol, ?_, ?_⟩
  · rw [hback, hfront, List.append_assoc]
  · exact (Go.mem_listSets_append _ _).mpr (.inr (hset _ List.mem_cons_self))

/-- A select list without table sets a variable for each of its items. -/
theorem sets_assignItems {items : List SelectItem}
    (h : (assignItems items).Runs c before () after) :
    after.symbols = before.symbols ∧ ∃ code, after.output = before.output ++ code ∧
      SetsItems before.symbols items code := by
  induction items generalizing before with
  | nil =>
    obtain ⟨-, rfl⟩ := runs_pure.mp h
    exact ⟨rfl, [], (List.append_nil _).symm, fun _ hitem => absurd hitem List.not_mem_nil⟩
  | cons item rest ih =>
    obtain ⟨expr, aliasName, target⟩ := item
    cases target with
    | none => exact absurd h not_runs_unsupported
    | some target =>
      obtain ⟨_, middle, hfirst, hrest⟩ := runs_bind.mp h
      obtain ⟨hsymbols, symbol, front, hlookup, hfront, hset⟩ := sets_assignVariable hfirst
      obtain ⟨hsymbols', back, hback, hsets⟩ := ih hrest
      refine ⟨hsymbols'.trans hsymbols, front ++ back, ?_, ?_⟩
      · rw [hback, hfront, List.append_assoc]
      · intro item hitem
        rcases List.mem_cons.mp hitem with rfl | hitem
        · exact ⟨target, symbol, rfl, hlookup, Go.mem_listSets_append _ _ |>.mpr (.inl hset)⟩
        · obtain ⟨target', symbol', htarget, hlookup', hset'⟩ := hsets item hitem
          exact ⟨target', symbol', htarget, hsymbols ▸ hlookup',
            Go.mem_listSets_append _ _ |>.mpr (.inr hset')⟩

theorem SetsItems.append_right {symbols : SymbolTable} {items : List SelectItem}
    {code : List Go.Stmt} (h : SetsItems symbols items code) (more : List Go.Stmt) :
    SetsItems symbols items (code ++ more) := by
  intro item hitem
  obtain ⟨target, symbol, htarget, hlookup, hset⟩ := h item hitem
  exact ⟨target, symbol, htarget, hlookup, (Go.mem_listSets_append _ _).mpr (.inl hset)⟩

/-- A query without table that assigns variables sets one for each of its items. -/
theorem sets_lowerValues {query : Select} (hassigns : query.assignsVariables = true)
    (h : (lowerValues query).Runs c before () after) :
    ∃ code, after.output = before.output ++ code ∧ SetsItems before.symbols query.items code := by
  simp only [lowerValues, hassigns, if_true, runs_bind, runs_read] at h
  obtain ⟨_, middle, hitems, _, _, ⟨rfl, rfl⟩, hcount⟩ := h
  obtain ⟨-, code, hcode, hsets⟩ := sets_assignItems hitems
  obtain ⟨more, hmore, -⟩ := setsAll_countRow hcount
  exact ⟨code ++ more, by rw [hmore, hcode, List.append_assoc], hsets.append_right more⟩

/-- Each variable that is named has its Go name among the names that are found. -/
theorem mem_of_runs_goNames {names targets : List String}
    (h : (goNames names).Runs c before targets after) :
    after = before ∧ ∀ name ∈ names, ∃ symbol, before.symbols.lookup name = .ok symbol ∧
      symbol.goName ∈ targets := by
  obtain ⟨rfl, hfound⟩ := runs_goNames h
  refine ⟨rfl, fun name hname => ?_⟩
  obtain ⟨target, htarget, symbol, hlookup, rfl⟩ := exists_of_forall₂ hfound hname
  exact ⟨symbol, SymbolTable.lookup_eq_ok_iff.mpr hlookup, htarget⟩

/-- A query that is read from the database sets a variable for each item. -/
theorem sets_lowerQuery {query : Select} (hassigns : query.assignsVariables = true)
    (h : (lowerQuery query).Runs c before () after) :
    ∃ code, after.output = before.output ++ code ∧ SetsItems before.symbols query.items code := by
  obtain ⟨rendered, queried, hrender, h⟩ := runs_bind.mp h
  have hqueried := (hasEffect_renderQuery (plainBuild_ofSelect query)).annotated hrender
  simp only [hassigns, if_true, runs_bind, runs_read] at h
  obtain ⟨_, _, ⟨rfl, rfl⟩, h⟩ := h
  split at h
  next =>
    obtain ⟨_, _, hfail, -⟩ := runs_bind.mp h
    exact absurd hfail not_runs_unsupported
  next hall =>
    obtain ⟨targets, named, hnames, hscan⟩ := runs_bind.mp h
    obtain ⟨rfl, hfound⟩ := mem_of_runs_goNames hnames
    obtain ⟨code, hcode, hsets⟩ := setsAll_emitScan _ _ hscan
    refine ⟨code, by rw [hcode, hqueried.output], fun item hitem => ?_⟩
    obtain ⟨target, htarget⟩ : ∃ target, item.assignTo = some target := by
      rw [← Option.ne_none_iff_exists']
      simpa using List.any_eq_false.mp (Bool.eq_false_iff.mpr hall) item hitem
    obtain ⟨symbol, hlookup, hmem⟩ :=
      hfound target (List.mem_filterMap.mpr ⟨item, hitem, htarget⟩)
    exact ⟨target, symbol, htarget, hqueried.symbols ▸ hlookup, hsets _ hmem⟩

/-! ## Queries that are sent away -/

/-- Reading the items of a select list passes over those that assign nothing. -/
theorem itemReads_filter (items : List SelectItem) :
    itemReads (items.filter (·.assignTo.isSome)) = itemReads items := by
  induction items with
  | nil => rfl
  | cons item rest ih =>
    obtain ⟨expr, aliasName, target⟩ := item
    cases target with
    | none => simpa [itemReads] using ih
    | some target => simp [itemReads, ih]

theorem assignsVariables_assignments {query : Select} (h : query.assignsVariables = true) :
    query.assignments.assignsVariables = true := by
  simpa [Select.assignsVariables, Select.assignments] using h

/-- A request for a query that assigns variables is made as if the query had no columns. -/
theorem requestSelect_assignments {query : Select} (hassigns : query.assignsVariables = true)
    (backend : Backend) (table : TableRef) :
    requestSelect backend query.assignments table = requestSelect backend query table := by
  have hitems : itemReads query.assignments.items = itemReads query.items :=
    itemReads_filter query.items
  simp only [requestSelect, hassigns, assignsVariables_assignments hassigns, Bool.true_or, if_true,
    hitems]
  rfl

/-- Each variable is read from a field, or a note says that it is not. -/
theorem kept_itemReads {items : List SelectItem} {reads : Reads}
    (h : (itemReads items).Runs c before reads after) :
    ∀ item ∈ items, ∀ target, item.assignTo = some target →
      ∃ symbol, before.symbols.lookup target = .ok symbol ∧
        (symbol.goName ∈ reads.map (·.1) ∨ ∃ note, itemNote? item = some note) := by
  induction items generalizing before reads with
  | nil => exact fun _ hitem => absurd hitem List.not_mem_nil
  | cons item rest ih =>
    obtain ⟨expr, aliasName, target⟩ := item
    cases target with
    | none =>
      intro item hitem target htarget
      rcases List.mem_cons.mp hitem with rfl | hitem
      · cases htarget
      · exact ih h item hitem target htarget
    | some target =>
      unfold itemReads at h
      obtain ⟨symbol, found, hlookup, hitem⟩ := runs_bind.mp h
      obtain ⟨hsymbol, rfl⟩ := lookup_of_runs hlookup
      cases hcolumn : columnName? expr with
      | some column =>
        rw [hcolumn] at hitem
        obtain ⟨others, middle, hrest, hpure⟩ := runs_bind.mp hitem
        obtain ⟨rfl, rfl⟩ := runs_pure.mp hpure
        intro item hitem target' htarget
        rcases List.mem_cons.mp hitem with rfl | hitem
        · obtain rfl := Option.some.inj htarget
          exact ⟨symbol, hsymbol, .inl (by simp)⟩
        · obtain ⟨symbol', hlookup', hkept⟩ := ih hrest item hitem target' htarget
          exact ⟨symbol', hlookup', hkept.imp_left (List.mem_cons_of_mem _)⟩
      | none =>
        rw [hcolumn] at hitem
        obtain ⟨_, warned, hwarn, hrest⟩ := runs_bind.mp hitem
        have hsymbols := ((hasEffect_warnSkipped _).annotated hwarn).symbols
        intro item hitem target' htarget
        rcases List.mem_cons.mp hitem with rfl | hitem
        · obtain rfl := Option.some.inj htarget
          exact ⟨symbol, hsymbol, .inr ⟨_, by simp [itemNote?, hcolumn]; rfl⟩⟩
        · obtain ⟨symbol', hlookup', hkept⟩ := ih hrest item hitem target' htarget
          exact ⟨symbol', hsymbols ▸ hlookup', hkept⟩

/-- Each variable that a request for a query assigns is read from the response, or a note says that
it is not. -/
theorem kept_requestSelect {backend : Backend} {query : Select} {table : TableRef}
    (hassigns : query.assignsVariables = true)
    (h : (requestSelect backend query table).Runs c before () after) :
    ∀ item ∈ query.items, item.assignTo.isSome = true → item.Kept before after := by
  obtain ⟨_, requests, -, -, -, hskips⟩ := requested_requestSelect h
  rw [if_pos hassigns] at hskips
  obtain ⟨_, joined, hjoins, hquery⟩ := runs_bind.mp h
  have hjoined := (hasEffect_warnJoins _).annotated hjoins
  obtain ⟨⟨client, method⟩, found, hmethod, hquery⟩ := runs_bind.mp hquery
  obtain ⟨fields, filtered, hfilter, hcall⟩ := runs_bind.mp hquery
  rw [runs_tableMethod hmethod] at hfilter
  have hfiltered := (hasEffect_filterFields _).annotated hfilter
  simp only [hassigns, if_true] at hcall
  obtain ⟨reads, started, hreads, hcall⟩ := runs_bind.mp hcall
  have hstarted := (hasEffect_itemReads _).annotated hreads
  obtain ⟨code, hcode, hsets⟩ := setsAll_emitCallWith _ _ _ _ (fun response =>
    setsAll_bind (setsAll_emitReads response reads) fun _ =>
      setsAll_read_bind setsAll_countRow) hcall
  have hearlier := hjoined.trans hfiltered
  intro item hitem hsome
  obtain ⟨target, htarget⟩ := Option.isSome_iff_exists.mp hsome
  obtain ⟨symbol, hlookup, hkept⟩ := kept_itemReads hreads item hitem target htarget
  refine ⟨target, symbol, htarget, hearlier.symbols ▸ hlookup, ?_⟩
  rcases hkept with hread | ⟨note, hnote⟩
  · exact .inl ⟨code, by rw [hcode, hstarted.output, hearlier.output],
      hsets _ (List.mem_append_left [] hread)⟩
  · refine .inr ⟨_, note, hskips, hnote, ?_⟩
    simp only [List.mem_append, List.mem_filterMap]
    exact .inr ⟨item, hitem, hnote⟩

/-! ## Both kinds -/

/-- A query without table is evaluated in Go, and any other goes to the backend of its table. -/
theorem runs_lowerSelect {query : Select} (h : (lowerSelect query).Runs c before () after) :
    (query.source = none ∧ (lowerValues query).Runs c before () after) ∨
      ∃ table backend chosen, query.source = some table ∧
        backend = (c.config.backendOf (some table)).1 ∧ before.Annotated chosen ∧
        skips chosen.warnings = skips before.warnings ∧
        ((backend = .sql ∧ (lowerQuery query).Runs c chosen () after) ∨
          (backend ≠ .sql ∧ (requestSelect backend query table).Runs c chosen () after)) := by
  unfold lowerSelect at h
  split at h
  next hsource => exact .inl ⟨hsource, h⟩
  next table hsource =>
    obtain ⟨backend, chosen, hbackend, hquery⟩ := runs_bind.mp h
    obtain ⟨hchoice, hannotated, -⟩ := runs_backendFor hbackend
    refine .inr ⟨table, backend, chosen, hsource, hchoice, hannotated,
      Statement.skips_backendFor hbackend, ?_⟩
    cases backend with
    | sql => exact .inl ⟨rfl, hquery⟩
    | rpc | mock => exact .inr ⟨by decide, hquery⟩

/-- What a query that assigns variables keeps: every item that assigns one, and where it is
evaluated in Go or by the database, every item has to. -/
theorem kept_lowerSelect {query : Select} (hassigns : query.assignsVariables = true)
    (h : (lowerSelect query).Runs c before () after) :
    (query.Direct c.config → ∀ item ∈ query.items, item.Kept before after) ∧
      ∀ item ∈ query.items, item.assignTo.isSome = true → item.Kept before after := by
  obtain ⟨-, hvalues⟩ | ⟨table, backend, chosen, hsource, hchoice, hchosen, hskips,
    ⟨-, hquery⟩ | ⟨hsql, hquery⟩⟩ := runs_lowerSelect h
  · obtain ⟨code, hcode, hsets⟩ := sets_lowerValues hassigns hvalues
    exact ⟨fun _ => hsets.kept hcode, fun item hitem _ => hsets.kept hcode item hitem⟩
  · obtain ⟨code, hcode, hsets⟩ := sets_lowerQuery hassigns hquery
    rw [hchosen.symbols] at hsets
    rw [hchosen.output] at hcode
    exact ⟨fun _ => hsets.kept hcode, fun item hitem _ => hsets.kept hcode item hitem⟩
  · refine ⟨fun hdirect => absurd (hdirect table hsource) (hchoice ▸ hsql),
      fun item hitem hsome => ?_⟩
    obtain ⟨target, symbol, htarget, hlookup, hkept⟩ :=
      kept_requestSelect hassigns hquery item hitem hsome
    rw [hchosen.output, hskips] at hkept
    exact ⟨target, symbol, htarget, hchosen.symbols ▸ hlookup, hkept⟩

/-- A query that is sent away is treated as if its columns had not been written. -/
theorem lowerSelect_assignments {query : Select} (hassigns : query.assignsVariables = true)
    (hdirect : ¬query.Direct c.config) :
    (lowerSelect query.assignments).execute c before = (lowerSelect query).execute c before := by
  obtain ⟨table, hsource, hsql⟩ : ∃ table, query.source = some table ∧
      (c.config.backendOf (some table)).1 ≠ .sql := by
    simpa [Select.Direct] using hdirect
  have hsource' : query.assignments.source = some table := hsource
  unfold lowerSelect
  simp only [hsource, hsource', execute_bind]
  rcases hbackend : (backendFor table).execute c before with ⟨error | backend, chosen⟩
  · rfl
  · obtain ⟨hchoice, -⟩ := runs_backendFor hbackend
    cases backend with
    | sql => exact absurd hchoice.symm hsql
    | rpc | mock => simp only [requestSelect_assignments hassigns]

/-- What becomes of the items of a query that assigns variables. Where the query is evaluated in Go
or by the database, a column among its items makes it fail. Where it is sent away, it is treated as
if its columns had not been written. So a query that does not fail keeps all its items exactly when
it has no column among them. -/
theorem mixed_selects_refused_iff {query : Select} (hassigns : query.assignsVariables = true)
    (rest : List Statement) (prepared : Option Fetch) (c : Context) (before : Progress) :
    (query.Mixed → query.Direct c.config →
      ∃ error after, (lowerStatement rest prepared (.select query)).Fails c before error after) ∧
    (¬query.Direct c.config →
      (lowerStatement rest prepared (.select query)).execute c before =
        (lowerStatement rest prepared (.select query.assignments)).execute c before) ∧
    ∀ result after, (lowerStatement rest prepared (.select query)).Runs c before result after →
      ((∀ item ∈ query.items, item.Kept before after) ↔ ¬query.Mixed) := by
  have hselect {query : Select} {result : Option Fetch} {after : Progress}
      (h : (lowerStatement rest prepared (.select query)).Runs c before result after) :
      (lowerSelect query).Runs c before () after := by
    rw [lowerStatement] at h
    exact Statement.runs_of_runs_return h
  refine ⟨fun hmixed hdirect => ?_, fun hdirect => ?_, fun result after hruns => ?_⟩
  · obtain ⟨result, after, hruns⟩ | hfails :=
      runs_or_fails (lowerStatement rest prepared (.select query)) c before
    · exact absurd hmixed
        (Select.not_mixed_of_kept ((kept_lowerSelect hassigns (hselect hruns)).1 hdirect))
    · exact hfails
  · rw [lowerStatement, lowerStatement, execute_bind, execute_bind,
      lowerSelect_assignments hassigns hdirect]
  · refine ⟨Select.not_mixed_of_kept, fun hmixed item hitem => ?_⟩
    exact (kept_lowerSelect hassigns (hselect hruns)).2 item hitem
      ((Select.not_mixed_iff hassigns).mp hmixed item hitem)

open Build in
/-- Reads the number of an order into a variable and yields its total. -/
def halfAssigned : Select :=
  ((select []).assign "id" (col "id") |>.addColumn (col "total")).readFrom ⟨"Orders", none⟩

/-- What is known where the variable has been declared. -/
def idDeclared : Progress :=
  ((declare "@id" "INT" .declared).execute Statement.serviceContext {}).2

/-- A service is asked for `halfAssigned` as if the total had not been written, without a
warning. -/
theorem half_assigned_loses_total :
    halfAssigned.assignsVariables = true ∧ halfAssigned.Mixed ∧
      ∃ result after,
        (lowerStatement [] none (.select halfAssigned)).Runs Statement.serviceContext idDeclared
          result after ∧
        after.warnings = [] ∧ (¬∀ item ∈ halfAssigned.items, item.Kept idDeclared after) ∧
        (lowerStatement [] none (.select halfAssigned.assignments)).Runs Statement.serviceContext
          idDeclared result after := by
  have hmixed : halfAssigned.Mixed :=
    ⟨rfl, ⟨Build.col "total", none, none⟩, List.mem_cons_of_mem _ List.mem_cons_self, rfl⟩
  have hassigns : halfAssigned.assignsVariables = true := rfl
  obtain ⟨-, hsent, hkept⟩ :=
    mixed_selects_refused_iff hassigns [] none Statement.serviceContext idDeclared
  have hok : ((lowerStatement [] none (.select halfAssigned)).execute Statement.serviceContext
      idDeclared).1.isOk = true := by
    decide +kernel
  have hquiet : ((lowerStatement [] none (.select halfAssigned)).execute Statement.serviceContext
      idDeclared).2.warnings.isEmpty = true := by
    decide +kernel
  have hdirect : ¬halfAssigned.Direct Statement.serviceContext.config := fun h =>
    absurd (h _ rfl) (by decide +kernel)
  obtain ⟨result, after, hruns⟩ | ⟨error, after, hfails⟩ :=
    runs_or_fails (lowerStatement [] none (.select halfAssigned)) Statement.serviceContext
      idDeclared
  · refine ⟨rfl, hmixed, result, after, hruns, ?_, fun hall => (hkept _ _ hruns).mp hall hmixed,
      (hsent hdirect).symm.trans hruns⟩
    rw [hruns] at hquiet
    exact List.isEmpty_iff.mp hquiet
  · rw [hfails] at hok
    cases hok

end Lower

end Sproc
