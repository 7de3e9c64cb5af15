import Sproc.Proofs.Go.Composed
import Sproc.Proofs.Lower.Idiom

/-!
# What code draws on

Code that a step of the generation yields or writes names variables and packages. They are supplied
by what the generation has reached in the end: its variables, and the packages that are imported. A
triple says so for a step: what it yields, and what it writes, is in stock if the stock serves the
progress behind it. Whether that needs something of what the step is given is a precondition, since
the stock is only known to serve once the whole generation has been seen.

## Main definitions

* `Config.packages`: the names of packages and their import specifications
* `Progress.Provides`: the types of new variables have been imported
* `Go.Stock.Serves`: the variables and imports of a progress are in stock
* `Go.Stock.Own`: so are the names that values use without a variable of the procedure
* `Lower.DrawsOn`: a step yields and writes code that is in stock

## Main results

* `drawsOn_bind`, `drawsOn_block`, `drawsOn_within`: sequences, blocks and inner contexts
* `drawsOn_importSpec`, `drawsOn_importType`: what an import makes available
-/

namespace Sproc

open Lower

/-- The packages that generated code may use, by the names that it uses them by, with their import
specifications. -/
def Config.packages (config : Config) : List (String × String) :=
  ([("context", "context"), ("sql", "database/sql"), ("errors", "errors"), ("fmt", "fmt"),
    ("log", "log"), ("slog", "log/slog"), ("math", "math"), ("strings", "strings"),
    ("utf8", "unicode/utf8"), ("time", "time"), ("decimal", decimalPackage)].map fun entry =>
      (entry.1, Text.pathLiteral entry.2)) ++
    [("tsqlrt", config.runtimeSpec),
      (config.rpcPackage.aliasName, config.rpcPackage.importSpec),
      (config.mockPackage.aliasName, config.mockPackage.importSpec)]

/-- The package of a type, if it has one, is imported. -/
def GoType.Imported (type : GoType) (imports : Go.Imports) : Prop :=
  ∀ path ∈ type.importPath?, Text.pathLiteral path ∈ imports.specs

theorem GoType.Imported.mono {type : GoType} {imports imports' : Go.Imports}
    (h : type.Imported imports) (hsubset : imports.specs ⊆ imports'.specs) :
    type.Imported imports' :=
  fun path hpath => hsubset (h path hpath)

/-- The iterators of all cursors are in stock. -/
def Go.Stock.Iterates (stock : Go.Stock) (p : Progress) : Prop :=
  ∀ entry ∈ p.cursors, stock.Covers (.owner entry.2.iterator)

namespace Progress

/-- A progress has grown out of another. The types of new variables have been imported, and the
iterators of new cursors are in stock. -/
structure Provides (stock : Go.Stock) (before after : Progress) : Prop extends
    before.Grows after where
  imported : ∀ symbol ∈ after.symbols.symbols, symbol ∈ before.symbols.symbols ∨
    symbol.type.go.Imported after.imports
  iterates : stock.Iterates before → stock.Iterates after

variable {stock : Go.Stock} {before middle after : Progress}

namespace Provides

theorem trans (h : before.Provides stock middle) (h' : middle.Provides stock after) :
    before.Provides stock after where
  toGrows := h.toGrows.trans h'.toGrows
  imported symbol hsymbol := by
    rcases h'.imported symbol hsymbol with hmiddle | himported
    · exact (h.imported symbol hmiddle).imp_right fun himported => himported.mono h'.imports
    · exact .inr himported
  iterates hbefore := h'.iterates (h.iterates hbefore)

/-- Growth that leaves variables and cursors alone. -/
theorem of_grows (h : before.Grows after) (hsymbols : after.symbols = before.symbols)
    (hcursors : after.cursors = before.cursors) : before.Provides stock after where
  toGrows := h
  imported symbol hsymbol := .inl (hsymbols ▸ hsymbol)
  iterates hbefore := by rwa [Go.Stock.Iterates, hcursors]

theorem refl (p : Progress) : p.Provides stock p :=
  of_grows (.refl p) rfl rfl

end Provides

theorem Annotated.provides (h : before.Annotated after) : before.Provides stock after :=
  .of_grows h.grows h.symbols h.cursors

end Progress

namespace Go.Stock

variable {stock : Stock} {config : Config} {before after : Progress}

/-- The stock has the variables of a progress with their types, and the packages that it imports. -/
structure Serves (stock : Stock) (config : Config) (progress : Progress) : Prop where
  names : ∀ symbol ∈ progress.symbols.symbols, stock.names symbol.goName
  types : ∀ symbol ∈ progress.symbols.symbols, stock.HasType symbol.type.go
  packages : ∀ entry ∈ config.packages, entry.2 ∈ progress.imports.specs → stock.packages entry.1

/-- What serves a progress serves what it has grown out of. -/
theorem Serves.of_grows (h : stock.Serves config after) (hgrows : before.Grows after) :
    stock.Serves config before where
  names symbol hsymbol := h.names symbol (hgrows.symbols.subset hsymbol)
  types symbol hsymbol := h.types symbol (hgrows.symbols.subset hsymbol)
  packages entry hentry himport := h.packages entry hentry (hgrows.imports himport)

/-- The stock has the names that code uses without a variable of the procedure: those that the
function keeps for itself, numbered ones, and those of the results of calls. -/
structure Own (stock : Stock) : Prop where
  kept : ∀ id ∈ ["rowCount", "lastInsertID", "tx", "caught"], stock.names id
  numbered : ∀ base ∈ ["exists", "scalar"], ∀ n : Nat, stock.names (base ++ toString n)
  database : stock.Covers (.owner "db")
  results : ∀ id, IsLocalName id → stock.Covers (.owner id)

/-- A stock that lacks nothing. -/
def everything : Stock where
  names _ := True
  packages _ := True

theorem own_everything : everything.Own where
  kept _ _ := trivial
  numbered _ _ _ := trivial
  database := .inl trivial
  results _ _ := .inl trivial

end Go.Stock

namespace Lower

variable {α β : Type} {stock : Go.Stock} {c : Context} {pre : Prop}

/-- A step, taken in a context where iterators are in stock, only names what is in stock: in the
statements that it writes, and in its result as `P` says. -/
def DrawsOn (step : Lower α) (stock : Go.Stock) (c : Context) (pre : Prop) (P : α → Prop) : Prop :=
  ∀ ⦃before value after⦄, step.Runs c before value after → stock.Iterates before →
    before.Provides stock after ∧ ∃ added, after.output = before.output ++ added ∧
      (stock.Serves c.config after → pre → (∀ s ∈ added, stock.Has s.qualifiers) ∧ P value)

variable {P : α → Prop} {Q : β → Prop}

/-- Where nothing is lacking, the result of a step is as its triple says. -/
theorem DrawsOn.holds {step : Lower α} {before after : Progress} {value : α}
    (h : step.DrawsOn .everything c True P) (hruns : step.Runs c before value after) : P value := by
  obtain ⟨-, _, -, hserves⟩ := h hruns fun _ _ => .inl trivial
  exact (hserves ⟨fun _ _ => trivial, fun _ _ _ _ => trivial, fun _ _ _ => trivial⟩ trivial).2

theorem DrawsOn.mono {step : Lower α} {P' : α → Prop} (h : step.DrawsOn stock c pre P)
    (hP : ∀ value, pre → P value → P' value) : step.DrawsOn stock c pre P' := by
  intro before value after hruns hiterates
  obtain ⟨hprovides, added, houtput, hadded⟩ := h hruns hiterates
  refine ⟨hprovides, added, houtput, fun hserves hpre => ?_⟩
  obtain ⟨hstatements, hvalue⟩ := hadded hserves hpre
  exact ⟨hstatements, hP value hpre hvalue⟩

theorem DrawsOn.of_pre {step : Lower α} {pre' : Prop} (h : step.DrawsOn stock c pre P)
    (hpre : pre' → pre) : step.DrawsOn stock c pre' P := by
  intro before value after hruns hiterates
  obtain ⟨hprovides, added, houtput, hadded⟩ := h hruns hiterates
  exact ⟨hprovides, added, houtput, fun hserves hpre' => hadded hserves (hpre hpre')⟩

/-! ## Primitive steps -/

theorem drawsOn_pure {value : α} (h : pre → P value) :
    (pure value : Lower α).DrawsOn stock c pre P := by
  intro before _ after hruns _
  obtain ⟨rfl, rfl⟩ := runs_pure.mp hruns
  exact ⟨.refl _, [], (List.append_nil _).symm, fun _ hpre => ⟨List.forall_mem_nil _, h hpre⟩⟩

theorem drawsOn_bind {step : Lower α} {next : α → Lower β} (hstep : step.DrawsOn stock c pre P)
    (hnext : ∀ value, (next value).DrawsOn stock c (pre ∧ P value) Q) :
    (step >>= next).DrawsOn stock c pre Q := by
  intro before result after hruns hiterates
  obtain ⟨value, middle, hfirst, hsecond⟩ := runs_bind.mp hruns
  obtain ⟨hprovides, added, houtput, hadded⟩ := hstep hfirst hiterates
  obtain ⟨hprovides', added', houtput', hadded'⟩ :=
    hnext value hsecond (hprovides.iterates hiterates)
  refine ⟨hprovides.trans hprovides', added ++ added', ?_, fun hserves hpre => ?_⟩
  · rw [houtput', houtput, List.append_assoc]
  · obtain ⟨hstatements, hvalue⟩ := hadded (hserves.of_grows hprovides'.toGrows) hpre
    obtain ⟨hstatements', hresult⟩ := hadded' hserves ⟨hpre, hvalue⟩
    exact ⟨List.forall_mem_append.mpr ⟨hstatements, hstatements'⟩, hresult⟩

/-- A step may rely on what only follows it: the stock serves the progress behind both. -/
theorem drawsOn_bind_later {R : Prop} {step : Lower α} {next : α → Lower β}
    (hstep : step.DrawsOn stock c (pre ∧ R) P)
    (hlater : ∀ value, (next value).DrawsOn stock c pre fun _ => R)
    (hnext : ∀ value, (next value).DrawsOn stock c (pre ∧ P value) Q) :
    (step >>= next).DrawsOn stock c pre Q := by
  intro before result after hruns hiterates
  obtain ⟨value, middle, hfirst, hsecond⟩ := runs_bind.mp hruns
  obtain ⟨hprovides, added, houtput, hadded⟩ := hstep hfirst hiterates
  have hmiddle := hprovides.iterates hiterates
  obtain ⟨hprovides', added', houtput', hadded'⟩ := hnext value hsecond hmiddle
  obtain ⟨-, _, -, hreached⟩ := hlater value hsecond hmiddle
  refine ⟨hprovides.trans hprovides', added ++ added', ?_, fun hserves hpre => ?_⟩
  · rw [houtput', houtput, List.append_assoc]
  · have hR := (hreached hserves hpre).2
    obtain ⟨hstatements, hvalue⟩ := hadded (hserves.of_grows hprovides'.toGrows) ⟨hpre, hR⟩
    obtain ⟨hstatements', hresult⟩ := hadded' hserves ⟨hpre, hvalue⟩
    exact ⟨List.forall_mem_append.mpr ⟨hstatements, hstatements'⟩, hresult⟩

/-- What is done with the context is done with the one at hand. -/
theorem drawsOn_read_bind {next : Context → Lower α} (h : (next c).DrawsOn stock c pre P) :
    (read >>= next).DrawsOn stock c pre P := by
  intro before value after hruns
  obtain ⟨_, _, hread, hnext⟩ := runs_bind.mp hruns
  obtain ⟨rfl, rfl⟩ := runs_read.mp hread
  exact h hnext

theorem drawsOn_get_bind {next : Progress → Lower α}
    (h : ∀ p, (next p).DrawsOn stock c pre P) : (get >>= next).DrawsOn stock c pre P := by
  intro before value after hruns
  obtain ⟨_, _, hget, hnext⟩ := runs_bind.mp hruns
  obtain ⟨rfl, rfl⟩ := runs_get.mp hget
  exact h _ hnext

/-- A step that never succeeds. -/
theorem drawsOn_of_not_runs {step : Lower α}
    (h : ∀ {before value after}, ¬step.Runs c before value after) : step.DrawsOn stock c pre P :=
  fun _ _ _ hruns => absurd hruns h

theorem drawsOn_unsupported {construct detail : String} :
    (unsupported construct detail : Lower α).DrawsOn stock c pre P :=
  drawsOn_of_not_runs not_runs_unsupported

/-- What stands behind a failure is never done. -/
theorem drawsOn_unsupported_bind {construct detail : String} {next : α → Lower β} :
    (unsupported construct detail >>= next).DrawsOn stock c pre Q := by
  refine drawsOn_of_not_runs fun hruns => ?_
  obtain ⟨_, _, hfailure, -⟩ := runs_bind.mp hruns
  exact not_runs_unsupported hfailure

theorem drawsOn_fail {fault : Fault} : (fail fault : Lower α).DrawsOn stock c pre P :=
  drawsOn_of_not_runs not_runs_fail

/-- A step that writes no statement. -/
theorem drawsOn_of_annotated {step : Lower α} (h : step.HasEffect c Progress.Annotated)
    (hP : ∀ {before value after}, step.Runs c before value after →
      stock.Serves c.config after → pre → P value) :
    step.DrawsOn stock c pre P := by
  intro before value after hruns _
  have hannotated := h.annotated hruns
  refine ⟨hannotated.provides, [], ?_, fun hserves hpre =>
    ⟨List.forall_mem_nil _, hP hruns hserves hpre⟩⟩
  rw [List.append_nil]
  exact hannotated.output

/-- A step that writes no statement and whose result does not matter. -/
theorem drawsOn_annotated {step : Lower α} (h : step.HasEffect c Progress.Annotated) :
    step.DrawsOn stock c pre fun _ => True :=
  drawsOn_of_annotated h fun _ _ _ => trivial

/-- A step that is only taken where a test holds, and what follows either way. -/
theorem drawsOn_when {test : Prop} [Decidable test] {step : Lower β} {next : Lower α}
    (hstep : step.DrawsOn stock c pre fun _ => True) (hnext : next.DrawsOn stock c pre P) :
    (if test then step >>= fun _ => next else next).DrawsOn stock c pre P := by
  have hafter : next.DrawsOn stock c (pre ∧ True) P := by rwa [and_true]
  split
  · exact drawsOn_bind hstep fun _ => hafter
  · exact hnext

theorem drawsOn_ofExcept {outcome : Except Fault α} (h : ∀ value, outcome = .ok value → P value) :
    (ofExcept outcome).DrawsOn stock c pre P := by
  cases outcome with
  | ok value => exact drawsOn_pure fun _ => h value rfl
  | error fault => exact drawsOn_fail

theorem drawsOn_warn (kind : WarningKind) (message : String) :
    (warn kind message).DrawsOn stock c pre fun _ => True :=
  drawsOn_annotated (hasEffect_anyWarning kind message)

/-! ## Imports -/

/-- An import makes the package available by its name. -/
theorem drawsOn_importSpec {name spec : String} (h : (name, spec) ∈ c.config.packages) :
    (importSpec spec).DrawsOn stock c pre fun _ => stock.packages name := by
  refine drawsOn_of_annotated (hasEffect_importSpec spec) fun hruns hserves _ => ?_
  obtain rfl := runs_modify.mp hruns
  exact hserves.packages _ h (Go.mem_insertText.mpr (.inl rfl))

theorem drawsOn_importPath (name : String) {path : String}
    (h : (name, Text.pathLiteral path) ∈ c.config.packages) :
    (importPath path).DrawsOn stock c pre fun _ => stock.packages name :=
  drawsOn_importSpec h

theorem drawsOn_importRuntime :
    importRuntime.DrawsOn stock c pre fun _ => stock.packages "tsqlrt" :=
  drawsOn_read_bind (drawsOn_importSpec (by simp [Config.packages]))

theorem hasType_of_packages {type : GoType} {package : String} (h : type.package? = some package)
    (hpackage : stock.packages package) : stock.HasType type := by
  simpa [Go.Stock.HasType, h] using hpackage

theorem drawsOn_importType (type : GoType) :
    (importType type).DrawsOn stock c pre fun _ => stock.HasType type := by
  cases type with
  | decimal =>
    have hpackage : (importPath decimalPackage).DrawsOn stock c pre fun _ =>
        stock.packages "decimal" :=
      drawsOn_importPath "decimal" (by simp [Config.packages])
    exact hpackage.mono fun _ _ => hasType_of_packages rfl
  | time =>
    have hpackage : (importPath "time").DrawsOn stock c pre fun _ => stock.packages "time" :=
      drawsOn_importPath "time" (by simp [Config.packages])
    exact hpackage.mono fun _ _ => hasType_of_packages rfl
  | _ => exact drawsOn_pure fun _ => by simp [Go.Stock.HasType, GoType.package?]

theorem drawsOn_rpcPackage :
    rpcPackage.DrawsOn stock c pre stock.packages := by
  refine drawsOn_read_bind ?_
  have hpackage : (c.config.rpcPackage.aliasName, c.config.rpcPackage.importSpec) ∈
      c.config.packages := by
    simp [Config.packages]
  exact drawsOn_bind (drawsOn_importSpec hpackage) fun _ => drawsOn_pure And.right

theorem drawsOn_mockPackage :
    mockPackage.DrawsOn stock c pre stock.packages := by
  refine drawsOn_read_bind ?_
  have hpackage : (c.config.mockPackage.aliasName, c.config.mockPackage.importSpec) ∈
      c.config.packages := by
    simp [Config.packages]
  exact drawsOn_bind (drawsOn_importSpec hpackage) fun _ => drawsOn_pure And.right

/-! ## Names -/

/-- A variable of the procedure is in stock, and so is its type. -/
theorem drawsOn_lookup (name : String) : (lookup name).DrawsOn stock c pre fun symbol =>
    stock.names symbol.goName ∧ stock.HasType symbol.type.go := by
  refine drawsOn_of_annotated (hasEffect_lookup name) fun hruns hserves _ => ?_
  obtain ⟨p, _, hget, hlookup⟩ := runs_bind.mp hruns
  obtain ⟨rfl, rfl⟩ := runs_get.mp hget
  obtain ⟨hsymbol, rfl⟩ := runs_ofExcept.mp hlookup
  have hmem := List.mem_of_find?_eq_some (SymbolTable.lookup_eq_ok_iff.mp hsymbol)
  exact ⟨hserves.names _ hmem, hserves.types _ hmem⟩

theorem drawsOn_fresh {base : String} {P : String → Prop} (h : ∀ n : Nat, P (base ++ toString n)) :
    (fresh base).DrawsOn stock c pre P := by
  intro before name after hruns _
  obtain ⟨n, hcounter, rfl, rfl⟩ := runs_fresh hruns
  have hgrows := Progress.Grows.of_names (.setCounter (Nat.le_of_lt hcounter))
  exact ⟨.of_grows hgrows rfl rfl, [], (List.append_nil _).symm, fun _ _ =>
    ⟨List.forall_mem_nil _, h n⟩⟩

/-! ## Statements -/

theorem drawsOn_emit {s : Go.Stmt} (h : pre → stock.Has s.qualifiers) :
    (emit s).DrawsOn stock c pre fun _ => True := by
  intro before _ after hruns _
  obtain rfl := runs_emit.mp hruns
  exact ⟨.of_grows ((Progress.Grows.refl before).wrote s) rfl rfl, [s], rfl, fun _ hpre =>
    ⟨List.forall_mem_singleton.mpr (h hpre), trivial⟩⟩

theorem drawsOn_within {change : Context → Context} {step : Lower α}
    (hconfig : (change c).config = c.config) (h : step.DrawsOn stock (change c) pre P) :
    (within change step).DrawsOn stock c pre P := by
  intro before value after hruns
  have hinner := h (runs_within.mp hruns)
  rwa [hconfig] at hinner

theorem drawsOn_located {step : Lower α} (h : step.DrawsOn stock c pre P) :
    (located step).DrawsOn stock c pre P :=
  fun _ _ _ hruns => h (runs_located.mp hruns)

/-- The statements of a block only name what is in stock. -/
theorem drawsOn_block {step : Lower Unit} (h : step.DrawsOn stock c pre fun _ => True) :
    (block step).DrawsOn stock c pre fun body => ∀ s ∈ body, stock.Has s.qualifiers := by
  intro before body after hruns hiterates
  obtain ⟨inner, hinner, rfl, rfl⟩ := runs_block.mp hruns
  obtain ⟨hprovides, added, houtput, hadded⟩ := h hinner hiterates
  have hclosed : before.Provides stock (before.closed inner) :=
    ⟨hprovides.toGrows.closed.toGrows, hprovides.imported, hprovides.iterates⟩
  refine ⟨hclosed, [], (List.append_nil _).symm, fun hserves hpre =>
    ⟨List.forall_mem_nil _, ?_⟩⟩
  obtain rfl : inner.output = added := houtput
  exact (hadded ⟨hserves.names, hserves.types, hserves.packages⟩ hpre).1

end Lower

end Sproc
