import Sproc.Proofs.Lower.Provision
import Sproc.Proofs.Lower.Regular
import Sproc.Proofs.Lower.Stocking

/-!
# Imports that are used

Go refuses a file with an import that it does not name. An import is a debt of the step that asks
for it, and code that names the package pays the debt: the code that the step writes itself, or else
code that is written with the value that the step yields. Only the packages of computations need not
be paid for, since a value may be dropped, or become a constant, when its imports are made already.

## Main definitions

* `Config.Names`: qualifiers name a package
* `Progress.Paid`, `Context.paid`: the code that has been written names the packages that have been
  imported
* `Lower.Pays`: a step pays what is due in front of it, and owes what its value has to pay

## Main results

* `pays_bind`: what the first of two steps owes is due in front of the second
* `regular_paid`: the forms that data statements are written in pay for their imports
* `solvent`, `paid_lowerStatements`: so do all statements
* `names_of_runs_lowerProcedure`: a function names each package that is imported for it, unless
  computations import the package
-/

namespace Sproc

open Lower

/-- The packages that code selects from, apart from those of computations. -/
def selectedPackages : List String :=
  ["sql", "errors", "log", "slog"]

/-- The qualifiers name the package of an import specification. Those that select from a handle of
the database stand for the package that the handle has its type from. -/
def Config.Names (config : Config) (qualifiers : List Go.Qualifier) (spec : String) : Prop :=
  (∃ name, (name, spec) ∈ config.packages ∧
      (.package name ∈ qualifiers ∨ name ∈ selectedPackages ∧ .owner name ∈ qualifiers)) ∨
    spec = Text.pathLiteral "database/sql" ∧ ∃ id ∈ ["db", "tx"], .owner id ∈ qualifiers

namespace Config

variable {config : Config} {name spec : String} {qualifiers more : List Go.Qualifier}

theorem Names.mono (h : config.Names qualifiers spec) (hsubset : qualifiers ⊆ more) :
    config.Names more spec := by
  rcases h with ⟨name, hname, hpackage | ⟨hselected, howner⟩⟩ | ⟨hspec, id, hid, howner⟩
  · exact .inl ⟨name, hname, .inl (hsubset hpackage)⟩
  · exact .inl ⟨name, hname, .inr ⟨hselected, hsubset howner⟩⟩
  · exact .inr ⟨hspec, id, hid, hsubset howner⟩

theorem names_package (h : (name, spec) ∈ config.packages) : config.Names [.package name] spec :=
  .inl ⟨name, h, .inl List.mem_cons_self⟩

theorem names_owner (h : (name, spec) ∈ config.packages) (hselected : name ∈ selectedPackages) :
    config.Names [.owner name] spec :=
  .inl ⟨name, h, .inr ⟨hselected, List.mem_cons_self⟩⟩

theorem names_sql : config.Names [.package "sql"] (Text.pathLiteral "database/sql") :=
  names_package (by simp [packages])

theorem names_errors : config.Names [.owner "errors"] (Text.pathLiteral "errors") :=
  names_owner (by simp [packages]) (by decide)

theorem names_handle {id : String} (h : id ∈ ["db", "tx"]) :
    config.Names [.owner id] (Text.pathLiteral "database/sql") :=
  .inr ⟨rfl, id, h, List.mem_cons_self⟩

end Config

namespace Progress

variable {config : Config} {qualifiers more : List Go.Qualifier} {before middle after : Progress}

/-- The packages that have been imported between two moments of a generation, and are not imported
by computations, are named by some qualifiers. -/
def Named (config : Config) (qualifiers : List Go.Qualifier) (before after : Progress) : Prop :=
  ∀ spec ∈ after.imports.specs, spec ∈ before.imports.specs ∨ spec ∈ config.computingSpecs ∨
    config.Names qualifiers spec

theorem Named.of_eq (h : after.imports = before.imports) :
    before.Named config qualifiers after :=
  fun _ hspec => .inl (h ▸ hspec)

theorem Named.mono (h : before.Named config qualifiers after) (hsubset : qualifiers ⊆ more) :
    before.Named config more after :=
  fun spec hspec => (h spec hspec).imp_right fun h => h.imp_right fun h => h.mono hsubset

theorem Named.trans (h : before.Named config qualifiers middle)
    (h' : middle.Named config qualifiers after) : before.Named config qualifiers after := by
  intro spec hspec
  rcases h' spec hspec with hmiddle | hnew
  · exact h spec hmiddle
  · exact .inr hnew

/-- The code that has been written between two moments of a generation names the packages that have
been imported there. -/
def Paid (config : Config) (before after : Progress) : Prop :=
  ∃ added, after.output = before.output ++ added ∧
    before.Named config (Go.listQualifiers added) after

/-- Where nothing is imported, nothing is to be paid. -/
theorem Paid.of_imports {added : List Go.Stmt} (houtput : after.output = before.output ++ added)
    (himports : after.imports = before.imports) : before.Paid config after :=
  ⟨added, houtput, .of_eq himports⟩

end Progress

/-- The effect of what is written in a context and pays for its imports. -/
abbrev Context.paid (context : Context) : Effect :=
  Progress.Paid context.config

instance (config : Config) : Effect.Composable (Progress.Paid config) where
  refl _ := .of_imports (List.append_nil _).symm rfl
  trans := by
    rintro before middle after ⟨added, houtput, hnamed⟩ ⟨added', houtput', hnamed'⟩
    refine ⟨added ++ added', by rw [houtput', houtput, List.append_assoc], ?_⟩
    rw [Go.listQualifiers_append]
    exact (hnamed.mono (List.subset_append_left _ _)).trans
      (hnamed'.mono (List.subset_append_right _ _))
  behind _ _ := trivial
  plain _ := trivial

instance (context : Context) : Effect.Sparing context.paid context where
  computed hcomputed _ hborrowed := by
    refine ⟨[], by rw [List.append_nil]; exact hcomputed.output, fun spec hspec => ?_⟩
    exact (hborrowed spec hspec).imp_right .inl

namespace Lower

variable {α β : Type} {c : Context} {due more : List Go.Qualifier}
  {owed : α → List Go.Qualifier} {owed' : β → List Go.Qualifier}

/-- What is due in front of a step, and what its imports cost, is paid by the code that it writes or
owed for the value that it yields. -/
def Pays (step : Lower α) (c : Context) (due : List Go.Qualifier) (owed : α → List Go.Qualifier) :
    Prop :=
  ∀ ⦃before value after⦄, step.Runs c before value after →
    ∃ added, after.output = before.output ++ added ∧
      due ⊆ owed value ++ Go.listQualifiers added ∧
      before.Named c.config (owed value ++ Go.listQualifiers added) after

/-- Nothing is owed in the end. -/
theorem Pays.hasEffect {step : Lower α} (h : step.Pays c [] fun _ => []) :
    step.HasEffect c c.paid :=
  HasEffect.of_runs fun hruns => by
    obtain ⟨added, houtput, -, hnamed⟩ := h hruns
    exact ⟨added, houtput, hnamed⟩

/-- A step that pays for its own imports may leave all else due. -/
theorem HasEffect.pays {step : Lower α} (h : step.HasEffect c c.paid) :
    step.Pays c due fun _ => due := by
  intro before value after hruns
  obtain ⟨added, houtput, hnamed⟩ : Progress.Paid c.config before after := h hruns
  exact ⟨added, houtput, List.subset_append_left _ _,
    hnamed.mono (List.subset_append_right _ _)⟩

/-- What is due may stay due. -/
theorem Pays.behind {step : Lower α} (h : step.Pays c [] owed) :
    step.Pays c due fun value => due ++ owed value := by
  intro before value after hruns
  obtain ⟨added, houtput, -, hnamed⟩ := h hruns
  refine ⟨added, houtput, ?_, hnamed.mono ?_⟩
  · exact List.subset_append_of_subset_left _ (List.subset_append_left _ _)
  · rw [List.append_assoc]
    exact List.subset_append_right _ _

/-! ## Sequences and primitive steps -/

theorem pays_bind_of_runs {step : Lower α} {next : α → Lower β} (hstep : step.Pays c due owed)
    (hnext : ∀ {before value after}, step.Runs c before value after →
      (next value).Pays c (owed value) owed') : (step >>= next).Pays c due owed' := by
  intro before result after hruns
  obtain ⟨value, middle, hfirst, hsecond⟩ := runs_bind.mp hruns
  obtain ⟨added, houtput, hdue, hnamed⟩ := hstep hfirst
  obtain ⟨added', houtput', hdue', hnamed'⟩ := hnext hfirst hsecond
  have howed : owed value ++ Go.listQualifiers added ⊆
      owed' result ++ Go.listQualifiers (added ++ added') := by
    rw [Go.listQualifiers_append]
    refine List.append_subset.mpr ⟨List.Subset.trans hdue' ?_, ?_⟩
    · refine List.append_subset.mpr ⟨List.subset_append_left _ _, ?_⟩
      exact List.subset_append_of_subset_right _ (List.subset_append_right _ _)
    · exact List.subset_append_of_subset_right _ (List.subset_append_left _ _)
  have howed' : owed' result ++ Go.listQualifiers added' ⊆
      owed' result ++ Go.listQualifiers (added ++ added') := by
    rw [Go.listQualifiers_append]
    refine List.append_subset.mpr ⟨List.subset_append_left _ _, ?_⟩
    exact List.subset_append_of_subset_right _ (List.subset_append_right _ _)
  exact ⟨added ++ added', by rw [houtput', houtput, List.append_assoc],
    List.Subset.trans hdue howed, (hnamed.mono howed).trans (hnamed'.mono howed')⟩

theorem pays_bind {step : Lower α} {next : α → Lower β} (hstep : step.Pays c due owed)
    (hnext : ∀ value, (next value).Pays c (owed value) owed') : (step >>= next).Pays c due owed' :=
  pays_bind_of_runs hstep fun {_ value _} _ => hnext value

theorem pays_pure {value : α} (h : due ⊆ owed value) : (pure value : Lower α).Pays c due owed := by
  intro before _ after hruns
  obtain ⟨rfl, rfl⟩ := runs_pure.mp hruns
  exact ⟨[], (List.append_nil _).symm, List.subset_append_of_subset_left _ h, .of_eq rfl⟩

/-- What is done with the context is done with the one at hand. -/
theorem pays_read_bind {next : Context → Lower α} (h : (next c).Pays c due owed) :
    (read >>= next).Pays c due owed := by
  intro before value after hruns
  obtain ⟨_, _, hread, hnext⟩ := runs_bind.mp hruns
  obtain ⟨rfl, rfl⟩ := runs_read.mp hread
  exact h hnext

theorem pays_fail {fault : Fault} : (fail fault : Lower α).Pays c due owed :=
  fun _ _ _ hruns => absurd hruns not_runs_fail

/-- A package is imported for code that is still to be written. -/
theorem pays_importSpec {spec : String} (h : c.config.Names more spec) :
    (importSpec spec).Pays c due fun _ => due ++ more := by
  intro before value after hruns
  obtain rfl := runs_modify.mp hruns
  refine ⟨[], (List.append_nil _).symm, ?_, fun other hother => ?_⟩
  · exact List.subset_append_of_subset_left _ (List.subset_append_left _ _)
  · rcases Go.mem_insertText.mp hother with rfl | hold
    · refine .inr (.inr (h.mono ?_))
      exact List.subset_append_of_subset_left _ (List.subset_append_right _ _)
    · exact .inl hold

theorem pays_importPath {path : String} (h : c.config.Names more (Text.pathLiteral path)) :
    (importPath path).Pays c due fun _ => due ++ more :=
  pays_importSpec h

/-- A statement pays with what it names. -/
theorem pays_emit {s : Go.Stmt} (h : due ⊆ s.qualifiers) : (emit s).Pays c due fun _ => [] := by
  intro before value after hruns
  obtain rfl := runs_emit.mp hruns
  refine ⟨[s], rfl, ?_, .of_eq rfl⟩
  rwa [List.nil_append, Go.listQualifiers, Go.listQualifiers, List.append_nil]

theorem pays_block {step : Lower Unit} (h : step.HasEffect c c.paid) :
    (block step).Pays c due fun body => due ++ Go.listQualifiers body := by
  intro before body after hruns
  obtain ⟨inner, hinner, rfl, rfl⟩ := runs_block.mp hruns
  obtain ⟨added, houtput, hnamed⟩ : Progress.Paid c.config before.opened inner := h hinner
  have hbody : inner.output = added := by rw [houtput]; rfl
  refine ⟨[], (List.append_nil _).symm, ?_, ?_⟩
  · exact List.subset_append_of_subset_left _ (List.subset_append_left _ _)
  · have hopened : before.Named c.config (Go.listQualifiers inner.output) (before.closed inner) :=
      hbody ▸ hnamed
    exact hopened.mono (List.subset_append_of_subset_left _ (List.subset_append_right _ _))

theorem pays_within {change : Context → Context} {step : Lower α}
    (hconfig : (change c).config = c.config) (h : step.Pays (change c) due owed) :
    (within change step).Pays c due owed := by
  intro before value after hruns
  rw [← hconfig]
  exact h (runs_within.mp hruns)

theorem pays_located {step : Lower α} (h : step.Pays c due owed) : (located step).Pays c due owed :=
  fun _ _ _ hruns => h (runs_located.mp hruns)

/-! ## Steps without imports -/

theorem paid_emit (s : Go.Stmt) : (emit s).HasEffect c c.paid :=
  (pays_emit (List.nil_subset _)).hasEffect

/-- A step that neither imports nor writes. -/
theorem paid_of_eq {step : Lower α} (h : ∀ {before value after}, step.Runs c before value after →
      after.imports = before.imports ∧ after.output = before.output) :
    step.HasEffect c c.paid :=
  HasEffect.of_runs fun hruns =>
    .of_imports (by rw [List.append_nil]; exact (h hruns).2) (h hruns).1

theorem paid_modify {change : Progress → Progress}
    (h : ∀ p, (change p).imports = p.imports ∧ (change p).output = p.output) :
    (modify change : Lower PUnit).HasEffect c c.paid :=
  paid_of_eq fun {before _ _} hruns => by rw [runs_modify.mp hruns]; exact h before

theorem paid_fresh (base : String) : (fresh base).HasEffect c c.paid :=
  paid_of_eq fun hruns => by
    obtain ⟨n, -, -, rfl⟩ := runs_fresh hruns
    exact ⟨rfl, rfl⟩

theorem paid_bindLocal (name : String) (type : Go.TypeExpr) :
    (bindLocal name type).HasEffect c c.paid :=
  HasEffect.of_runs fun hruns => by
    obtain ⟨-, -, rfl⟩ | ⟨-, -, -, rfl⟩ | ⟨-, -, rfl⟩ := runs_bindLocal hruns
    · exact .of_imports (List.append_nil _).symm rfl
    · exact .of_imports (List.append_nil _).symm rfl
    · exact .of_imports rfl rfl

theorem paid_declare (name type : String) (kind : SymbolKind) :
    (declare name type kind).HasEffect c c.paid :=
  paid_of_eq fun hruns => by
    obtain ⟨symbols, -, rfl⟩ := runs_declare.mp hruns
    exact ⟨rfl, rfl⟩

theorem paid_anyWarning (kind : WarningKind) (message : String) :
    (warn kind message).HasEffect c c.paid :=
  paid_of_eq fun hruns => by
    rw [runs_warn hruns]
    exact ⟨rfl, rfl⟩

theorem paid_backendFor (table : TableRef) :
    (backendFor table).HasEffect c c.paid :=
  hasEffect_bind hasEffect_read fun _ =>
    hasEffect_when (paid_anyWarning _ _) (hasEffect_pure _)

/-! ## Ways out and calls that can fail -/

theorem pays_emitIf {init : Option Go.Assign} {test : Go.Expr} {step : Lower Unit}
    (h : step.HasEffect c c.paid)
    (hdue : due ⊆ Go.initQualifiers init ++ test.qualifiers) :
    (emitIf init test step).Pays c due fun _ => [] := by
  refine pays_bind (pays_block h) fun body => pays_emit ?_
  have hbranch : (Go.Stmt.branch (.mk init test body) [] none).qualifiers =
      Go.initQualifiers init ++ test.qualifiers ++ Go.listQualifiers body := by
    simp [Go.Stmt.qualifiers, Go.armQualifiers, Go.elseQualifiers]
  rw [hbranch]
  exact List.append_subset.mpr
    ⟨List.subset_append_of_subset_left _ hdue, List.subset_append_right _ _⟩

theorem paid_emitIf (init : Option Go.Assign) (test : Go.Expr) {step : Lower Unit}
    (h : step.HasEffect c c.paid) :
    (emitIf init test step).HasEffect c c.paid :=
  (pays_emitIf h (List.nil_subset _)).hasEffect

theorem paid_emitReturn (status error : Go.Expr) :
    (emitReturn status error).HasEffect c c.paid :=
  hasEffect_bind (hasEffect_resultValues _ _) fun _ => paid_emit _

/-- A call of a function of a package that is imported for it. -/
theorem paid_package (name : String) {path : String} {function : String} {args : List Go.Expr}
    (h : (name, Text.pathLiteral path) ∈ c.config.packages) (hselected : name ∈ selectedPackages)
    (hrequest : Go.request? (.member (.name name) function) args = none) : (do
      importPath path
      emit (.run (.invoke (.name name) function args)) : Lower Unit).HasEffect c c.paid := by
  have hnames : c.config.Names [.owner name] (Text.pathLiteral path) :=
    Config.names_owner h hselected
  refine (pays_bind (pays_importPath hnames) fun _ => pays_emit ?_).hasEffect
  simp [Go.Stmt.qualifiers, Go.Expr.invoke, Go.Expr.qualifiers, hrequest]

theorem paid_emitAcknowledge : emitAcknowledge.HasEffect c c.paid := by
  refine hasEffect_bind hasEffect_read fun _ => ?_
  dsimp only
  split
  · exact paid_package "slog" (by simp [Config.packages]) (by decide) rfl
  · exact paid_package "log" (by simp [Config.packages]) (by decide) rfl

/-- A line for a log. The message is none that is sent to a service. -/
theorem paid_emitLog (hooked plain : String) {message : Go.Expr}
    (h : ∀ package type fields, message ≠ .message package type fields) :
    (emitLog hooked plain message).HasEffect c c.paid := by
  have hrequest (function : String) :
      Go.request? (.member (.name "slog") function) [ctx, message] = none := by
    cases message with
    | message package type fields => exact absurd rfl (h package type fields)
    | _ => rfl
  refine hasEffect_bind hasEffect_read fun _ => ?_
  split
  · exact paid_package "slog" (by simp [Config.packages]) (by decide) (hrequest _)
  · exact paid_package "log" (by simp [Config.packages]) (by decide) rfl

theorem paid_errorExit : errorExit.HasEffect c c.paid := by
  refine hasEffect_bind hasEffect_read fun _ => ?_
  split
  · exact paid_emitReturn _ _
  · exact paid_emit _
  · exact hasEffect_bind paid_emitAcknowledge fun _ => paid_emit _

/-- A call whose failure leaves at once pays with the call. -/
theorem pays_emitGuarded {init : Go.Assign} (h : due ⊆ init.qualifiers) :
    (emitGuarded init).Pays c due fun _ => [] :=
  pays_emitIf paid_errorExit (List.subset_append_of_subset_left _ h)

theorem paid_emitChecked {success : Lower Unit}
    (h : success.HasEffect c c.paid) :
    (emitChecked success).HasEffect c c.paid := by
  refine (pays_bind (pays_block paid_errorExit) fun failure => pays_read_bind ?_).hasEffect
  split
  · refine pays_bind (pays_block h) fun rest => pays_emit ?_
    intro q
    simp only [Go.Stmt.qualifiers, Go.elseQualifiers, List.nil_append, List.mem_append]
    tauto
  · refine pays_bind (pays_emit fun q => ?_) fun _ => h.pays
    simp only [Go.Stmt.qualifiers, List.nil_append, List.mem_append]
    tauto

/-! ## Calls of the database -/

/-- A handle of the database is one of two variables. -/
theorem exists_of_runs_handle {before after : Progress} {owner : Go.Expr}
    (h : handle.Runs c before owner after) : ∃ id ∈ ["db", "tx"], owner = .name id := by
  simp only [handle, runs_bind, runs_read, runs_get, runs_pure] at h
  obtain ⟨_, _, ⟨rfl, rfl⟩, _, _, ⟨rfl, rfl⟩, rfl, rfl⟩ := h
  refine ⟨_, ?_, rfl⟩
  unfold sqlHandle
  split <;> simp

/-- A call of the database selects from its handle. -/
theorem owner_mem_dataCall (id method : String) (query : Query Go.Expr) :
    .owner id ∈ (dataCall (.name id) method query).qualifiers := by
  simp [dataCall, Go.Expr.invoke, Go.Expr.qualifiers, Go.request?]

/-- The package of the database is named by its calls. -/
theorem names_dataCall {before after : Progress} {owner : Go.Expr}
    (h : handle.Runs c before owner after) (method : String) (query : Query Go.Expr) :
    c.config.Names (dataCall owner method query).qualifiers (Text.pathLiteral "database/sql") := by
  obtain ⟨id, hid, rfl⟩ := exists_of_runs_handle h
  exact (Config.names_handle hid).mono
    (List.cons_subset.mpr ⟨owner_mem_dataCall id method query, List.nil_subset _⟩)

theorem paid_emitScan (query : Query Go.Expr) (targets : List String) (trackRows : Bool) :
    (emitScan query targets trackRows).HasEffect c c.paid := by
  have hsql : c.config.Names [.owner "sql"] (Text.pathLiteral "database/sql") :=
    Config.names_owner (by simp [Config.packages]) (by decide)
  have htest : (Go.Expr.invoke (.name "errors") "Is"
      [err, .member (.name "sql") "ErrNoRows"]).qualifiers = [.owner "errors", .owner "sql"] := rfl
  have hmissing : (do
      emit (.assign (assignTo [err] .nil))
      if trackRows then
        emitAssign "rowCount" (.int 0) : Lower Unit).HasEffect c c.paid := by
    refine hasEffect_bind (paid_emit _) fun _ => ?_
    split
    · exact paid_emit _
    · exact hasEffect_pure _
  refine hasEffect_bind hasEffect_handle fun owner => ?_
  refine Pays.hasEffect (pays_bind (pays_importPath Config.names_errors) fun _ => ?_)
  refine pays_bind (pays_importPath hsql) fun _ => ?_
  refine pays_bind (pays_block hmissing) fun missing => ?_
  refine pays_bind (pays_block paid_errorExit) fun failure => ?_
  split
  · refine pays_bind (pays_block (paid_emit _)) fun found => pays_emit fun q => ?_
    simp only [Go.Stmt.qualifiers, Go.armQualifiers, Go.elseQualifiers, htest, List.nil_append,
      List.mem_append, List.mem_cons]
    tauto
  · refine pays_emit fun q => ?_
    simp only [Go.Stmt.qualifiers, Go.armQualifiers, Go.elseQualifiers, htest, List.nil_append,
      List.mem_append, List.mem_cons]
    tauto

theorem paid_emitExec (query : Query Go.Expr) (identity : Bool) :
    (emitExec query identity).HasEffect c c.paid := by
  refine (pays_bind_of_runs hasEffect_handle.pays fun {_ owner _} howner => ?_).hasEffect
  have hnames := names_dataCall howner "ExecContext" query
  refine pays_read_bind ?_
  dsimp only
  split
  · exact pays_emitGuarded (List.nil_subset _)
  · refine pays_bind (pays_importPath hnames) fun _ => ?_
    refine pays_bind (hasEffect_localName _).pays fun _ => ?_
    refine pays_bind (paid_bindLocal _ _).pays fun _ => ?_
    refine pays_bind (pays_emit ?_) fun _ => (paid_emitChecked ?_).pays
    · simp [Go.Stmt.qualifiers, Go.Assign.qualifiers]
    · refine hasEffect_when (paid_emit _) ?_
      split
      · exact paid_emit _
      · exact hasEffect_pure _

/-! ## Requests -/

theorem pays_rpcPackage : rpcPackage.Pays c due fun package => due ++ [.package package] :=
  pays_read_bind <| pays_bind
    (pays_importSpec (Config.names_package (by simp [Config.packages]))) fun _ =>
      pays_pure (List.Subset.refl _)

theorem pays_mockPackage : mockPackage.Pays c due fun package => due ++ [.package package] :=
  pays_read_bind <| pays_bind
    (pays_importSpec (Config.names_package (by simp [Config.packages]))) fun _ =>
      pays_pure (List.Subset.refl _)

/-- A request is paid for with its message. -/
theorem pays_remoteCall (backend : Backend) (client : ClientRef) (method : String)
    (fields : Fields) :
    (remoteCall backend client method fields).Pays c [] fun call => call.1.qualifiers := by
  have hcall (receiver package : String) : (pure (Go.Expr.invoke (.name receiver) method
      [ctx, .message package (method ++ "Request") fields], package) :
        Lower (Go.Expr × String)).Pays c [.package package] fun call => call.1.qualifiers :=
    pays_pure (by simp [Go.Expr.invoke, Go.Expr.qualifiers, Go.exprQualifiers])
  unfold remoteCall
  dsimp only
  split
  · refine pays_bind pays_mockPackage fun package => ?_
    exact pays_bind (pays_pure (List.Subset.refl _)) fun _ => hcall _ _
  · refine pays_bind pays_rpcPackage fun package => ?_
    exact pays_bind (pays_pure (List.Subset.refl _)) fun _ => hcall _ _

/-- The message of a request to the store names the package of the store. -/
theorem package_mem_mockCall {client : ClientRef} {method : String} {fields : Fields}
    {before after : Progress} {call : Go.Expr × String}
    (h : (remoteCall .mock client method fields).Runs c before call after) :
    .package c.config.mockPackage.aliasName ∈ call.1.qualifiers := by
  have hstore {p q : Progress} {package : String} (hruns : mockPackage.Runs c p package q) :
      package = c.config.mockPackage.aliasName := by
    simp only [mockPackage, runs_bind, runs_read, runs_pure] at hruns
    obtain ⟨_, _, ⟨rfl, rfl⟩, _, _, -, rfl, rfl⟩ := hruns
    rfl
  obtain ⟨package, _, hpackage, hrest⟩ := runs_bind.mp h
  obtain ⟨_, _, hpair, hcall⟩ := runs_bind.mp hrest
  obtain ⟨rfl, rfl⟩ := runs_pure.mp hpair
  obtain ⟨rfl, rfl⟩ := runs_pure.mp hcall
  rw [← hstore hpackage]
  simp [Go.Expr.invoke, Go.Expr.qualifiers, Go.exprQualifiers]

theorem paid_emitCallWith (backend : Backend) (client : ClientRef) (method : String)
    (fields : Fields) {onResponse : Go.Expr → Lower Unit}
    (h : ∀ response, (onResponse response).HasEffect c c.paid) :
    (emitCallWith backend client method fields onResponse).HasEffect c c.paid := by
  refine (pays_bind (pays_remoteCall ..) fun call => ?_).hasEffect
  refine pays_bind (hasEffect_localName _).pays fun _ => ?_
  refine pays_bind (paid_bindLocal _ _).pays fun _ => ?_
  refine pays_bind (pays_emit ?_) fun _ => (paid_emitChecked (h _)).pays
  simp [Go.Stmt.qualifiers, Go.Assign.qualifiers]

theorem paid_emitCall (backend : Backend) (client : ClientRef) (method : String) (fields : Fields) :
    (emitCall backend client method fields).HasEffect c c.paid := by
  refine (pays_bind (pays_remoteCall ..) fun call => pays_read_bind ?_).hasEffect
  split
  · refine pays_bind (pays_emit ?_) fun _ => (paid_emitChecked (paid_emit _)).pays
    simp [Go.Stmt.qualifiers, Go.Assign.qualifiers, assignTo]
  · refine pays_emitGuarded ?_
    simp [Go.Assign.qualifiers, assignTo]

theorem paid_requestExists (backend : Backend) (query : Select) (table : TableRef)
    (target : String) :
    (requestExists backend query table target).HasEffect c c.paid := by
  refine hasEffect_bind (hasEffect_tableMethod ..) fun _ => ?_
  refine hasEffect_bind (hasEffect_filterFields _) fun _ => ?_
  split
  · refine (pays_bind (pays_remoteCall ..) fun call => pays_emitGuarded ?_).hasEffect
    simp [Go.Assign.qualifiers, assignTo]
  · exact paid_emitCallWith _ _ _ _ fun _ => paid_emit _

/-- The forms that data statements are written in pay for their imports. -/
theorem regular_paid : Effect.Regular c.paid c where
  plain _ _ _ _ := paid_emit _
  numbered _ _ hnext := hasEffect_bind (paid_fresh _) fun target =>
    hasEffect_bind (paid_emit _) fun _ => hnext target
  conditional init test _ := paid_emitIf init test
  exit := paid_errorExit
  checked := paid_emitChecked
  backend := paid_backendFor
  scan := paid_emitScan
  exec := paid_emitExec
  call := paid_emitCall
  callWith := paid_emitCallWith
  probe := paid_requestExists

/-! ## Returns and errors -/

theorem paid_propagateReturn : propagateReturn.HasEffect c c.paid := by
  refine hasEffect_bind hasEffect_read fun _ => ?_
  split
  · exact hasEffect_bind (paid_emit _) fun _ => paid_emit _
  · exact hasEffect_bind (paid_anyWarning _ _) fun _ => paid_emit _

theorem paid_lowerReturn (status : Option Go.Expr) :
    (lowerReturn status).HasEffect c c.paid := by
  refine hasEffect_bind hasEffect_read fun _ => ?_
  dsimp only
  split
  · exact paid_emitReturn _ _
  · cases status with
    | none => exact paid_propagateReturn
    | some value => exact hasEffect_bind (paid_emit _) fun _ => paid_propagateReturn
  · refine hasEffect_bind (paid_anyWarning _ _) fun _ => ?_
    exact paid_emitLog _ _ fun _ _ _ heq => by cases heq

/-- A value that is printed is no message to a service. -/
theorem paid_print (message : Expr) : (do
    emitPrint (← lowerValue message .string) : Lower Unit).HasEffect c c.paid := by
  have hvalue : (lowerValue message .string).HasEffect c c.paid :=
    hasEffect_lowerValue_regular regular_paid message .string
  refine hasEffect_bind_of_runs hvalue fun hruns => ?_
  refine paid_emitLog _ _ fun package type fields heq => ?_
  have hcode := (drawsOn_lowerValue Go.Stock.own_everything message .string).holds hruns
  exact hcode.ne_message package type fields heq

theorem jumping_paid : Effect.Jumping c.paid c where
  toRegular := regular_paid
  breakLoop _ := paid_emit _
  continueLoop _ := paid_emit _
  leave := paid_lowerReturn
  print := paid_print

/-- A raised error is written, wherever the function may fail. -/
theorem pays_raise (herr : c.survey.needsErr = true) {error : Go.Expr}
    (h : due ⊆ error.qualifiers) : (raise error).Pays c due fun _ => [] := by
  refine pays_read_bind ?_
  split
  · refine pays_bind_of_runs (hasEffect_resultValues _ _).pays fun hruns => pays_emit ?_
    simp only [resultValues, runs_bind, runs_read, runs_get, runs_pure] at hruns
    obtain ⟨_, _, ⟨rfl, rfl⟩, _, _, ⟨rfl, rfl⟩, rfl, -⟩ := hruns
    rw [if_pos herr]
    exact fun q hq => Go.mem_exprQualifiers.mpr ⟨error, by simp, h hq⟩
  · exact pays_emit h
  · refine pays_bind (pays_emit ?_) fun _ => (paid_emit _).pays
    exact List.subset_append_of_subset_right _ h

theorem raising_paid (herr : c.survey.needsErr = true) :
    Effect.Raising c.paid c where
  raise _ := (pays_raise herr (List.nil_subset _)).hasEffect
  raiseNew message := by
    refine (pays_bind (pays_importPath Config.names_errors) fun _ => pays_raise herr ?_).hasEffect
    simp [Go.Expr.invoke, Go.Expr.qualifiers, Go.request?]

/-! ## Cursors and transactions -/

/-- A function literal pays for the imports of its body. -/
theorem paid_closure (deferred : Bool) {step : Lower Unit}
    (h : step.HasEffect c c.paid) :
    (block step >>= fun body => emit (.closure deferred body)).HasEffect c c.paid :=
  (pays_bind (pays_block h) fun _ => pays_emit (List.Subset.refl _)).hasEffect

theorem allowsTransactions_paid : Effect.AllowsTransactions c.paid c where
  sets _ := paid_modify fun _ => ⟨rfl, rfl⟩
  begins := by
    refine hasEffect_bind (hasEffect_emitGuarded regular_paid _) fun _ => ?_
    refine paid_closure true (paid_emitIf _ _ ?_)
    exact hasEffect_bind (paid_emit _) fun _ => paid_emit _

/-- The package that the iterators of a backend are from. -/
def iteratorSpec (config : Config) (backend : Backend) : String :=
  if backend = .mock then config.mockPackage.importSpec else Text.pathLiteral "database/sql"

theorem pays_rowsCall (cursor : Cursor) :
    (rowsCall cursor).Pays c [] fun call => call.qualifiers := by
  unfold rowsCall
  split
  · refine pays_bind (hasEffect_filterFields _).pays fun _ => pays_read_bind ?_
    exact pays_bind (pays_remoteCall ..) fun _ => pays_pure (List.Subset.refl _)
  · exact pays_fail
  · refine pays_bind (hasEffect_renderQuery (plainBuild_ofSelect _)).pays fun _ => ?_
    exact pays_bind hasEffect_handle.pays fun _ => pays_pure (List.nil_subset _)

/-- The call that yields the rows of a cursor names the package of their iterator. -/
theorem names_rowsCall {cursor : Cursor} {before after : Progress} {call : Go.Expr}
    (h : (rowsCall cursor).Runs c before call after) :
    c.config.Names call.qualifiers (iteratorSpec c.config cursor.backend) := by
  unfold rowsCall at h
  split at h
  next table hmock hsource =>
    obtain ⟨fields, filtered, -, hrest⟩ := runs_bind.mp h
    obtain ⟨_, _, hread, hrest⟩ := runs_bind.mp hrest
    obtain ⟨remote, _, hremote, hpure⟩ := runs_bind.mp hrest
    obtain ⟨rfl, -⟩ := runs_pure.mp hpure
    have hpackage := package_mem_mockCall hremote
    rw [iteratorSpec, if_pos hmock]
    exact (Config.names_package (by simp [Config.packages])).mono
      (List.cons_subset.mpr ⟨hpackage, List.nil_subset _⟩)
  next => exact absurd h not_runs_unsupported
  next hsome hnone =>
    have hdatabase : cursor.backend ≠ .mock := fun hmock => by
      cases hsource : cursor.query.source with
      | none => exact hnone hmock hsource
      | some table => exact hsome table hmock hsource
    obtain ⟨query, _, -, hcall⟩ := runs_bind.mp h
    obtain ⟨owner, _, howner, hpure⟩ := runs_bind.mp hcall
    obtain ⟨rfl, -⟩ := runs_pure.mp hpure
    rw [iteratorSpec, if_neg hdatabase]
    exact names_dataCall howner _ query

/-- The type of an iterator is imported for code that names its package. -/
theorem pays_iteratorType_for {backend : Backend}
    (h : c.config.Names due (iteratorSpec c.config backend)) :
    (iteratorType backend).Pays c due fun _ => due := by
  have hdue : due ++ due ⊆ due := by simp
  unfold iteratorType
  unfold iteratorSpec at h
  split
  next hmock =>
    rw [if_pos hmock] at h
    simp only [mockPackage, bind_assoc]
    exact pays_read_bind (pays_bind (pays_importSpec h) fun _ => pays_pure hdue)
  next hdatabase =>
    rw [if_neg hdatabase] at h
    exact pays_bind (pays_importPath h) fun _ => pays_pure hdue

theorem pays_iteratorType (backend : Backend) :
    (iteratorType backend).Pays c [] fun type => type.qualifiers := by
  unfold iteratorType
  split
  · exact pays_bind pays_mockPackage fun _ => pays_pure (List.Subset.refl _)
  · exact pays_bind (pays_importPath Config.names_sql) fun _ => pays_pure (List.Subset.refl _)

theorem allowsCursors_paid : Effect.AllowsCursors c.paid c where
  admits _ _ _ := trivial
  put _ _ := paid_modify fun _ => ⟨rfl, rfl⟩
  remove _ := paid_modify fun _ => ⟨rfl, rfl⟩
  opens name := by
    refine hasEffect_bind (hasEffect_getCursor (fun _ _ _ => trivial) name) fun cursor => ?_
    refine hasEffect_when (hasEffect_cursorFault (fun _ _ _ => trivial) name _) ?_
    refine (pays_bind_of_runs (pays_rowsCall cursor) fun hcall => ?_).hasEffect
    refine pays_bind (pays_iteratorType_for (names_rowsCall hcall)) fun _ => ?_
    refine pays_bind (paid_bindLocal _ _).pays fun _ => ?_
    refine pays_bind (pays_emit ?_) fun _ =>
      HasEffect.pays (hasEffect_bind hasEffect_read fun _ => ?_)
    · simp [Go.Stmt.qualifiers, Go.Assign.qualifiers]
    · have hput : (putCursor name { cursor with state := .opened }).HasEffect c c.paid :=
        paid_modify fun _ => ⟨rfl, rfl⟩
      split
      · exact hasEffect_bind (paid_emitIf _ _ paid_errorExit) fun _ => hput
      · exact hasEffect_bind (paid_emitChecked (paid_emit _)) fun _ => hput

/-! ## Declarations -/

theorem paid_lowerDeclares (vars : List VarDecl) :
    (lowerDeclares vars).HasEffect c c.paid := by
  refine hasEffect_lowerDeclares_of (fun var => ?_) vars
  refine hasEffect_lowerDeclare_of regular_paid var fun type value => ?_
  refine hasEffect_bind (paid_declare _ _ _) fun _ => ?_
  refine hasEffect_bind (hasEffect_importType type) fun _ => ?_
  exact hasEffect_bind (paid_emit _) fun _ => hasEffect_emitUse regular_paid _ _

theorem paid_emitEntry : emitEntry.HasEffect c c.paid := by
  have hslog : c.config.Names [.owner "slog"] (Text.pathLiteral "log/slog") :=
    Config.names_owner (by simp [Config.packages]) (by decide)
  refine (pays_read_bind (pays_bind (pays_importPath hslog) fun _ => ?_)).hasEffect
  refine pays_bind (hasEffect_inputPairs _).pays fun pairs => pays_emit ?_
  simp [Go.Stmt.qualifiers, Go.Expr.invoke, Go.Expr.qualifiers, Go.request?]

theorem paid_emitCounters : emitCounters.HasEffect c c.paid := by
  refine hasEffect_bind hasEffect_read fun _ => ?_
  refine hasEffect_when (paid_emit _) (hasEffect_when (paid_emit _) ?_)
  split
  · refine (pays_bind (pays_importPath Config.names_sql) fun _ => pays_emit ?_).hasEffect
    exact List.Subset.refl _
  · exact hasEffect_pure _

theorem paid_hoistIterator (name : String) (query : Select) :
    (hoistIterator name query).HasEffect c c.paid := by
  refine hasEffect_bind hasEffect_read fun _ => ?_
  dsimp only
  split
  · refine hasEffect_bind (hasEffect_iteratorName _) fun iterator => ?_
    refine (pays_bind (pays_iteratorType _) fun type => ?_).hasEffect
    refine pays_bind (HasEffect.pays ?_) fun _ =>
      pays_bind (pays_emit ?_) fun _ => HasEffect.pays ?_
    · exact paid_modify fun _ => ⟨rfl, rfl⟩
    · simp [Go.Stmt.qualifiers]
    · split
      · exact paid_closure true (paid_emitIf _ _ (paid_emit _))
      · exact hasEffect_pure _
  · exact hasEffect_pure _

/-- What stands in front of the statements pays for its imports. -/
theorem opening_paid : Effect.Opening c.paid c where
  toRegular := regular_paid
  entry := paid_emitEntry
  counters := paid_emitCounters
  line _ _ := paid_emit _
  iterator := paid_hoistIterator

/-! ## Statements that hold others -/

theorem paid_lowerWhile (condition : Expr) {body : Lower Unit}
    (hbody : body.HasEffect c.enterLoop c.paid) :
    (lowerWhile condition body).HasEffect c c.paid := by
  unfold lowerWhile
  split
  · have hround : (do emitLoopTest condition; body).HasEffect c.enterLoop c.paid :=
      hasEffect_bind (hasEffect_emitLoopTest regular_paid condition (paid_emit _)) fun _ => hbody
    refine (pays_bind (pays_within rfl (pays_block hround)) fun _ => pays_emit ?_).hasEffect
    exact List.subset_append_right _ _
  · refine hasEffect_bind (hasEffect_lowerCondition regular_paid condition) fun test => ?_
    refine (pays_bind (pays_within rfl (pays_block hbody)) fun _ => pays_emit ?_).hasEffect
    exact List.subset_append_right _ _

theorem paid_lowerCursorLoop (fetch : Fetch) (rest : Option Expr) {body : Lower Unit}
    (hbody : body.HasEffect (inCursorLoop fetch c) c.paid) :
    (lowerCursorLoop fetch rest body).HasEffect c c.paid := by
  refine hasEffect_bind (hasEffect_fetchIterator (fun _ _ _ => trivial) fetch) fun iterator => ?_
  refine hasEffect_bind (hasEffect_goNames _) fun targets => ?_
  have hround : (do emitRound iterator targets rest; body).HasEffect (inCursorLoop fetch c)
      c.paid :=
    hasEffect_bind (hasEffect_emitRound regular_paid iterator targets rest (paid_emit _)) fun _ =>
      hbody
  refine (pays_bind (pays_within rfl (pays_block hround)) fun _ => ?_).hasEffect
  refine pays_bind (pays_emit ?_) fun _ => (hasEffect_emitGuarded regular_paid _).pays
  exact List.subset_append_right _ _

theorem paid_lowerFetchLoop (prepared : Option Fetch) (rest : Option Expr)
    (statements : List Statement) {body : Lower Unit}
    (hbody : ∀ fetch, body.HasEffect (inCursorLoop fetch (c.enter 0)) c.paid) :
    (lowerFetchLoop prepared rest statements body).HasEffect c c.paid := by
  unfold lowerFetchLoop
  split
  · exact hasEffect_unsupported _ _
  · exact hasEffect_within (paid_lowerCursorLoop _ rest (hbody _))

theorem paid_emitHandlerStart (catchBody : List Statement) :
    (emitHandlerStart catchBody).HasEffect c c.paid := by
  have hcaught : emitCaught.HasEffect c c.paid := by
    refine hasEffect_bind (hasEffect_computingPath (by simp)) fun _ => ?_
    exact hasEffect_bind (paid_emit _) fun _ => paid_emitIf _ _ (paid_emit _)
  refine hasEffect_when hcaught (hasEffect_bind hasEffect_read fun _ => ?_)
  split
  · exact paid_emit _
  · exact hasEffect_pure _

/-- A `TRY` statement pays for its imports if its halves do. -/
theorem paid_lowerTryCatch (tryBody catchBody : List Statement) {attempt handler : Lower Unit}
    (hattempt : ∀ flag, attempt.HasEffect (inTry flag c) c.paid)
    (hhandler : handler.HasEffect (inHandler c) c.paid) :
    (lowerTryCatch tryBody catchBody attempt handler).HasEffect c c.paid := by
  have hset (transaction : TransactionState) :
      (setTransaction transaction).HasEffect c c.paid :=
    paid_modify fun _ => ⟨rfl, rfl⟩
  have hrecover : (emitRecover catchBody handler).HasEffect c c.paid := by
    refine paid_closure true (paid_emitIf _ _ ?_)
    exact hasEffect_bind (paid_emitHandlerStart catchBody) fun _ => hasEffect_within hhandler
  have hresume : (if c.exitScope = .body then emitReturn (.name "returnCode") .nil
      else propagateReturn).HasEffect c c.paid := by
    split
    · exact paid_emitReturn _ _
    · exact paid_propagateReturn
  have hreport : (if c.exitScope = .catchHalf then emit (.ret [])
      else errorExit).HasEffect c c.paid := by
    split
    · exact paid_emit _
    · exact paid_errorExit
  refine hasEffect_bind hasEffect_get fun p => ?_
  refine hasEffect_bind (hasEffect_returnFlag? regular_paid _) fun flag => ?_
  refine hasEffect_bind (hset _) fun _ => ?_
  have hliteral : (do
      emitRecover catchBody handler
      let afterCatch := (← get).transaction
      setTransaction p.transaction
      within (inTry flag) attempt
      setTransaction ((← get).transaction.join afterCatch) : Lower Unit).HasEffect c c.paid := by
    refine hasEffect_bind hrecover fun _ => hasEffect_bind hasEffect_get fun _ => ?_
    refine hasEffect_bind (hset _) fun _ => ?_
    refine hasEffect_bind (hasEffect_within (hattempt flag)) fun _ => ?_
    exact hasEffect_bind hasEffect_get fun _ => hset _
  refine (pays_bind (pays_block hliteral) fun _ => ?_).hasEffect
  refine pays_bind (pays_emit (List.Subset.refl _)) fun _ => HasEffect.pays ?_
  exact hasEffect_emitWayOut regular_paid flag catchBody hresume hreport

/-! ## Lists of statements -/

/-- A statement pays for its imports, wherever it stands. A conditional that is not yet written owes
them, since it may become a part of another one. -/
structure Solvent (survey : Survey) (s : Statement) : Prop where
  statement {c : Context} (rest : List Statement) (prepared : Option Fetch) : c.survey = survey →
    (lowerStatement rest prepared s).HasEffect c c.paid
  chain {c : Context} {condition : Expr} {thenBranch : List Statement}
    {elseBranch : Option (List Statement)} : s = .ifElse condition thenBranch elseBranch →
    c.survey = survey → (lowerChain condition thenBranch elseBranch).Pays c [] fun chain =>
      (Go.Stmt.branch chain.1 chain.2.1 chain.2.2).qualifiers

variable {survey : Survey}

theorem paid_lowerStatements_of {statements : List Statement}
    (h : ∀ s ∈ statements, Solvent survey s) (hc : c.survey = survey) (index : Nat)
    (prepared : Option Fetch) :
    (lowerStatements index prepared statements).HasEffect c c.paid := by
  induction statements generalizing index prepared with
  | nil => exact hasEffect_pure _
  | cons statement rest ih =>
    rw [List.forall_mem_cons] at h
    rw [lowerStatements]
    refine hasEffect_bind (hasEffect_within (hasEffect_located ?_ fun _ => trivial)) fun _ =>
      ih h.2 _ _
    exact h.1.statement _ _ hc

/-- A branch is due to the statement that it is a part of. -/
theorem pays_branch {statements : List Statement} (h : ∀ s ∈ statements, Solvent survey s)
    (hc : c.survey = survey) (index : Nat) :
    (block (within (Context.enter index) (lowerStatements 0 none statements))).Pays c due
      fun body => due ++ Go.listQualifiers body := by
  have hinner : (c.enter index).survey = survey := hc
  exact pays_block (hasEffect_within (paid_lowerStatements_of h hinner 0 none))

theorem pays_lowerElse {elseBranch : Option (List Statement)}
    (h : ∀ body ∈ elseBranch, ∀ s ∈ body, Solvent survey s) (hc : c.survey = survey) :
    (lowerElse elseBranch).Pays c [] fun chain =>
      Go.armQualifiers chain.1 ++ Go.elseQualifiers chain.2 := by
  cases elseBranch with
  | none =>
    rw [lowerElse]
    exact pays_pure (List.nil_subset _)
  | some body =>
    have hbody := h body rfl
    cases hchain : Statement.continuesChain body with
    | false =>
      rw [lowerElse_of_not_continuesChain hchain]
      exact pays_bind (pays_branch hbody hc 1) fun _ => pays_pure (List.Subset.refl _)
    | true =>
      obtain ⟨condition, thenBranch, otherwise, rfl, hhoist⟩ :=
        Statement.continuesChain_iff.mp hchain
      rw [lowerElse_of_continuesChain hhoist]
      refine pays_within rfl (pays_located ?_)
      refine pays_bind ((hbody _ List.mem_cons_self).chain rfl hc) fun chain => ?_
      obtain ⟨⟨init, test, body⟩, others, last⟩ := chain
      refine pays_pure fun q hq => ?_
      simpa [Go.Stmt.qualifiers, Go.armQualifiers, or_assoc] using hq

theorem pays_lowerChain (condition : Expr) {thenBranch : List Statement}
    {elseBranch : Option (List Statement)} (hthen : ∀ s ∈ thenBranch, Solvent survey s)
    (helse : ∀ body ∈ elseBranch, ∀ s ∈ body, Solvent survey s) (hc : c.survey = survey) :
    (lowerChain condition thenBranch elseBranch).Pays c [] fun chain =>
      (Go.Stmt.branch chain.1 chain.2.1 chain.2.2).qualifiers := by
  refine pays_bind (hasEffect_lowerCondition regular_paid condition).pays fun test => ?_
  refine pays_bind (pays_branch hthen hc 0) fun body => ?_
  refine pays_bind (pays_lowerElse helse hc).behind fun chain => pays_pure fun q hq => ?_
  simp only [List.nil_append, List.mem_append] at hq
  simp only [Go.Stmt.qualifiers, List.mem_append]
  tauto

/-- Every statement pays for its imports, if there is an error where it raises one. -/
theorem solvent (s : Statement)
    (herr : ∀ inner ∈ s.nested, inner.raises = true → survey.needsErr = true) :
    Solvent survey s := by
  induction s using Statement.childInduction with
  | step s ih =>
    have ih : ∀ body ∈ s.children, ∀ t ∈ body, Solvent survey t := by
      refine fun body hbody t ht => ih body hbody t ht fun inner hinner => herr inner ?_
      exact Statement.mem_nested_of_mem_children hbody ht hinner
    have hlist {body : List Statement} (hbody : body ∈ s.children) {c : Context}
        (hc : c.survey = survey) :
        (lowerStatements 0 none body).HasEffect c c.paid :=
      paid_lowerStatements_of (ih body hbody) hc 0 none
    have hchain {c : Context} {condition : Expr} {thenBranch : List Statement}
        {elseBranch : Option (List Statement)} (hs : s = .ifElse condition thenBranch elseBranch)
        (hc : c.survey = survey) : (lowerChain condition thenBranch elseBranch).Pays c []
          fun chain => (Go.Stmt.branch chain.1 chain.2.1 chain.2.2).qualifiers := by
      subst hs
      refine pays_lowerChain condition (ih _ List.mem_cons_self) (fun body hbody => ?_) hc
      exact ih body (List.mem_cons_of_mem _ (Option.mem_toList.mpr hbody))
    refine ⟨fun {c} rest prepared hc => ?_, hchain⟩
    cases s with
    | ifElse condition thenBranch elseBranch =>
      rw [lowerStatement_ifElse]
      refine (pays_bind (hchain rfl hc) fun chain => ?_).hasEffect
      exact pays_bind (pays_emit (List.Subset.refl _)) fun _ => pays_pure (List.Subset.refl _)
    | «while» condition body =>
      have hbody {c : Context} (hc : c.survey = survey) := hlist (List.mem_singleton_self body) hc
      rw [lowerStatement]
      cases sentinelRest? condition with
      | none =>
        refine hasEffect_bind (paid_lowerWhile condition ?_) fun _ => hasEffect_pure _
        exact hasEffect_within (hbody hc)
      | some more =>
        refine hasEffect_bind ?_ fun _ => hasEffect_pure _
        exact paid_lowerFetchLoop prepared more body fun fetch => hbody hc
    | block body =>
      rw [lowerStatement]
      exact hasEffect_bind (hlist List.mem_cons_self hc) fun _ => hasEffect_pure _
    | tryCatch tryBody catchBody =>
      rw [lowerStatement]
      refine hasEffect_bind (paid_lowerTryCatch tryBody catchBody (fun flag => ?_) ?_) fun _ =>
        hasEffect_pure _
      · exact hlist List.mem_cons_self hc
      · exact hlist (List.mem_cons_of_mem _ List.mem_cons_self) hc
    | _ =>
      refine hasEffect_leaf jumping_paid rest prepared (fun vars _ => paid_lowerDeclares vars)
        (fun hraises => raising_paid ?_) (fun _ => allowsCursors_paid)
        (fun _ => allowsTransactions_paid) rfl
      exact hc ▸ herr _ (Statement.mem_nested_self _) hraises

theorem paid_lowerStatements {statements : List Statement}
    (herr : ∀ s ∈ Statement.nestedList statements, s.raises = true → c.survey.needsErr = true)
    (index : Nat) (prepared : Option Fetch) :
    (lowerStatements index prepared statements).HasEffect c c.paid := by
  refine paid_lowerStatements_of (fun s hs => solvent s fun inner hinner => ?_) rfl index prepared
  exact herr inner (Statement.mem_nestedList.mpr ⟨s, hs, hinner⟩)

/-! ## Functions -/

/-- The qualifiers of the types of parameters or results. -/
def fieldQualifiers (fields : List (String × Go.TypeExpr)) : List Go.Qualifier :=
  fields.flatMap (·.2.qualifiers)

theorem pays_databaseParams : databaseParams.Pays c [] fieldQualifiers := by
  refine pays_read_bind ?_
  split
  · exact pays_bind (pays_importPath Config.names_sql) fun _ => pays_pure (List.Subset.refl _)
  · exact pays_pure (List.nil_subset _)

theorem pays_clientParams : clientParams.Pays c [] fieldQualifiers := by
  refine pays_read_bind ?_
  dsimp only
  cases hclients : c.survey.clients with
  | nil => exact pays_pure (List.nil_subset _)
  | cons client rest =>
    refine pays_bind pays_rpcPackage fun package => pays_pure ?_
    simp [fieldQualifiers, ClientRef.type, Go.TypeExpr.qualifiers]

theorem pays_storeParams : storeParams.Pays c [] fieldQualifiers := by
  refine pays_read_bind ?_
  split
  · exact pays_bind pays_mockPackage fun _ => pays_pure (List.Subset.refl _)
  · exact pays_pure (List.nil_subset _)

/-- The handle of the database is a parameter where the function needs it, and so is its type. -/
theorem package_mem_functionParams {before after : Progress} {fields : List (String × Go.TypeExpr)}
    (hdb : c.survey.usesDb = true) (h : functionParams.Runs c before fields after) :
    .package "sql" ∈ fieldQualifiers fields := by
  obtain ⟨_, _, -, hrest⟩ := runs_bind.mp h
  obtain ⟨database, _, hdatabase, hrest⟩ := runs_bind.mp hrest
  obtain ⟨_, _, -, hrest⟩ := runs_bind.mp hrest
  obtain ⟨_, _, -, hrest⟩ := runs_bind.mp hrest
  obtain ⟨_, _, -, hpure⟩ := runs_bind.mp hrest
  obtain ⟨rfl, -⟩ := runs_pure.mp hpure
  obtain ⟨_, _, hread, hchoice⟩ := runs_bind.mp hdatabase
  obtain ⟨rfl, rfl⟩ := runs_read.mp hread
  rw [if_pos hdb] at hchoice
  obtain ⟨_, _, -, hpure⟩ := runs_bind.mp hchoice
  obtain ⟨rfl, -⟩ := runs_pure.mp hpure
  simp [fieldQualifiers, Go.TypeExpr.qualifiers]

/-- The types of the parameters pay for the imports of the head. -/
theorem pays_functionParams : functionParams.Pays c [] fieldQualifiers := by
  have hcontext : c.config.Names [.package "context"] (Text.pathLiteral "context") :=
    Config.names_package (by simp [Config.packages])
  refine pays_bind (pays_importPath hcontext) fun _ => ?_
  refine pays_bind pays_databaseParams.behind fun database => ?_
  refine pays_bind pays_clientParams.behind fun clients => ?_
  refine pays_bind pays_storeParams.behind fun store => ?_
  refine pays_bind (hasEffect_symbolFields .input).pays fun inputs => pays_pure fun q hq => ?_
  simp only [fieldQualifiers, List.cons_append, List.flatMap_cons, List.flatMap_append,
    List.nil_append, List.mem_append, Go.TypeExpr.qualifiers, List.mem_cons] at hq ⊢
  tauto

/-- A function names each package that is imported for it, apart from those of computations. -/
theorem names_of_runs_lowerProcedure {survey : Survey} {function : Go.Func} {after : Progress}
    (herr : ∀ s ∈ Statement.nestedList c.procedure.body, s.raises = true →
      c.survey.needsErr = true)
    (h : lowerProcedure.Runs c (.start c.config survey) function after) :
    ∀ spec ∈ after.imports.specs, spec ∈ c.config.computingSpecs ∨
      c.config.Names function.qualifiers spec := by
  obtain ⟨declared, hoisted, hdeclared, hhoisted, middle, headed, hparams, hresults, entered,
    finished, hentered, hfinished, hfinal, hbody, -⟩ := runs_lowerProcedure h
  have hfinalReturn : emitFinalReturn.HasEffect c c.paid := by
    refine hasEffect_bind (hasEffect_resultValues _ _) fun values => ?_
    refine hasEffect_bind hasEffect_read fun _ => ?_
    split
    · exact paid_emit _
    · exact hasEffect_pure _
  have hpays : (do
      declareParams c.procedure.params
      declareHoisted c.procedure.statements c.survey.hoisted
      let params ← functionParams
      let _ ← functionResults
      emitPrologue
      lowerStatements 0 none c.procedure.body
      emitFinalReturn
      return params : Lower _).Pays c [] fieldQualifiers := by
    refine pays_bind (hasEffect_declareParams paid_declare _).pays fun _ => ?_
    refine pays_bind (hasEffect_declareHoisted paid_declare _ _).pays fun _ => ?_
    refine pays_bind pays_functionParams fun params => ?_
    refine pays_bind hasEffect_functionResults.pays fun _ => ?_
    refine pays_bind (hasEffect_emitPrologue opening_paid).pays fun _ => ?_
    refine pays_bind (paid_lowerStatements herr _ _).pays fun _ => ?_
    exact pays_bind hfinalReturn.pays fun _ => pays_pure (List.Subset.refl _)
  obtain ⟨added, houtput, -, hnamed⟩ := hpays <| hdeclared.bind <| hhoisted.bind <| hparams.bind <|
    hresults.bind <| hentered.bind <| hfinished.bind <| hfinal.bind <| runs_pure.mpr ⟨rfl, rfl⟩
  have hqualifiers : fieldQualifiers function.params ++ Go.listQualifiers added ⊆
      function.qualifiers := by
    have hadded : function.body = added := by rw [hbody, houtput]; rfl
    rw [Go.Func.qualifiers, hadded, List.flatMap_append]
    exact List.append_subset.mpr
      ⟨List.subset_append_of_subset_left _ (List.subset_append_left _ _),
        List.subset_append_right _ _⟩
  intro spec hspec
  rcases hnamed.mono hqualifiers spec hspec with hstart | hspec
  · cases hstart
  · exact hspec

end Lower

end Sproc
