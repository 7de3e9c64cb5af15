import Sproc.Proofs.Lower.Scope
import Sproc.Proofs.Lower.Stocking

/-!
# Imports

All packages that a generated function names are imported. What the function draws on is supplied by
the variables that it has in the end and by the packages that are imported in the end: each
statement imports what it names, and the head and the first lines of the function import the types
of its variables.

## Main definitions

* `Procedure.HasName`: the names that a function uses for its variables
* `Procedure.stock`: what the function of a procedure may draw on

## Main results

* `drawsOn_lowerStatements`: statements only name what is in stock
* `Procedure.serves_stock`: the stock of a procedure serves the generation from start to end
* `Procedure.qualifiers_imported`: each package that a function names is imported
-/

namespace Sproc

namespace Lower

open Go Go.Stock

variable {stock : Stock} {c : Context} {pre : Prop} {before after : Progress}

/-- What is done with the outcome of a check is done with what it yields. -/
theorem drawsOn_ofExcept_bind {α β : Type} {P : β → Prop} {outcome : Except Fault α}
    {next : α → Lower β} (h : ∀ value, outcome = .ok value → (next value).DrawsOn stock c pre P) :
    (ofExcept outcome >>= next).DrawsOn stock c pre P := by
  intro before result after hruns
  obtain ⟨value, _, hcheck, hnext⟩ := runs_bind.mp hruns
  obtain ⟨hvalue, rfl⟩ := runs_ofExcept.mp hcheck
  exact h value hvalue hnext

/-! ## Declarations -/

theorem imported_of_runs_importType {type : GoType} (h : (importType type).Runs c before () after) :
    type.Imported after.imports := by
  intro path hpath
  rw [importType, Option.mem_def.mp hpath] at h
  obtain rfl := runs_modify.mp h
  exact mem_insertText.mpr (.inl rfl)

/-- The type of a new variable is imported behind its declaration. -/
theorem drawsOn_declare_bind {α : Type} {P : α → Prop} {name source : String} {kind : SymbolKind}
    {type : GoType} (htype : ∀ info, TypeName.classify source = .ok info → info.go = type)
    {next : Symbol → Lower α} (h : ∀ symbol, (next symbol).DrawsOn stock c (pre ∧ stock.HasType type) P) :
    (declare name source kind >>= fun symbol => importType type >>= fun _ => next symbol).DrawsOn
      stock c pre P := by
  intro before value after hruns hiterates
  obtain ⟨symbol, _, hdeclare, hrest⟩ := runs_bind.mp hruns
  obtain ⟨_, imported, himport, hnext⟩ := runs_bind.mp hrest
  obtain ⟨symbols, hsymbols, rfl⟩ := runs_declare.mp hdeclare
  obtain ⟨-, ⟨info, hinfo, rfl⟩, rfl⟩ := SymbolTable.declare_eq_ok_iff.mp hsymbols
  have hannotated := (hasEffect_importType type).annotated himport
  have hfirst : before.Provides stock imported := by
    refine ⟨(Progress.Grows.of_symbols (List.prefix_append _ _)).trans hannotated.grows,
      fun other hother => ?_, fun hbefore => ?_⟩
    · rw [hannotated.symbols] at hother
      rcases List.mem_append.mp hother with hold | hnew
      · exact .inl hold
      · obtain rfl := List.mem_singleton.mp hnew
        exact .inr (htype info hinfo ▸ imported_of_runs_importType himport)
    · rwa [Iterates, hannotated.cursors]
  obtain ⟨hprovides, added, houtput, hadded⟩ := h _ hnext (hfirst.iterates hiterates)
  refine ⟨hfirst.trans hprovides, added, ?_, fun hserves hpre => hadded hserves ⟨hpre, ?_⟩⟩
  · rw [houtput, hannotated.output]
  · have himports : (importType type).DrawsOn stock c True fun _ => stock.HasType type :=
      drawsOn_importType type
    obtain ⟨-, _, -, himported⟩ := himports himport
      (hiterates : stock.Iterates { before with symbols := _ })
    exact (himported (hserves.of_grows hprovides.toGrows) trivial).2

theorem drawsOn_emitUse (name goName : String) :
    (emitUse name goName).DrawsOn stock c pre fun _ => True := by
  refine drawsOn_read_bind ?_
  split
  · exact drawsOn_emitAssign _ fun _ => has_nil
  · exact drawsOn_pure fun _ => trivial

/-- The declaration of a variable, with the value that it starts with. -/
theorem has_declare {name : String} {type : GoType} {value : Option Go.Expr}
    (htype : stock.HasType type) (hvalue : ∀ e ∈ value, stock.Has e.qualifiers) :
    stock.Has (Stmt.declare name (.value type) value).qualifiers := by
  simp only [Stmt.qualifiers, TypeExpr.qualifiers, has_append, has_typeQualifiers]
  refine ⟨htype, ?_⟩
  cases value with
  | none => exact has_nil
  | some e => exact hvalue e rfl

section Own

variable (hown : stock.Own)

include hown

theorem drawsOn_lowerDeclare (var : VarDecl) :
    (lowerDeclare var).DrawsOn stock c pre fun _ => True := by
  refine drawsOn_read_bind ?_
  split
  · cases var.init with
    | none => exact drawsOn_pure fun _ => trivial
    | some init => exact drawsOn_assignVariable hown var.name init
  refine drawsOn_ofExcept_bind fun info hclassify => ?_
  have hdeclared {value : Option Go.Expr} {pre : Prop}
      (h : pre → ∀ e ∈ value, stock.Has e.qualifiers) : (do
        let symbol ← declare var.name var.type .declared
        importType info.go
        emit (.declare symbol.goName (.value info.go) value)
        emitUse var.name symbol.goName : Lower Unit).DrawsOn stock c pre fun _ => True := by
    refine drawsOn_declare_bind (fun other hother => ?_) fun symbol => ?_
    · rw [Except.ok.inj (hother.symm.trans hclassify)]
    · exact drawsOn_bind (drawsOn_emit fun hpre => has_declare hpre.2 (h hpre.1)) fun _ =>
        drawsOn_emitUse _ _
  dsimp only
  split
  · have hvalue {init : Expr} : (some <$> lowerValue init info.go).DrawsOn stock c pre fun value =>
        ∀ e ∈ value, stock.Has e.qualifiers := by
      refine drawsOn_bind (drawsOn_lowerValue hown _ info.go) fun e => drawsOn_pure ?_
      rintro ⟨-, hcode⟩ _ ⟨⟩
      exact hcode.qualified
    exact drawsOn_bind hvalue fun value => hdeclared And.right
  · have hnone : (pure none : Lower (Option Go.Expr)).DrawsOn stock c pre fun value =>
        ∀ e ∈ value, stock.Has e.qualifiers :=
      drawsOn_pure fun _ => by simp
    exact drawsOn_bind hnone fun value => hdeclared And.right

theorem drawsOn_lowerDeclares (vars : List VarDecl) :
    (lowerDeclares vars).DrawsOn stock c pre fun _ => True := by
  induction vars generalizing pre with
  | nil => exact drawsOn_pure fun _ => trivial
  | cons var rest ih => exact drawsOn_bind (drawsOn_lowerDeclare hown var) fun _ => ih

theorem drawsOn_lowerSet (target : String) (value : Expr) :
    (lowerSet target value).DrawsOn stock c pre fun _ => True := by
  unfold lowerSet
  split
  · exact drawsOn_bind (drawsOn_lookup target) fun _ => drawsOn_lowerSelect hown _
  · exact drawsOn_assignVariable hown target value

/-! ## Statements that hold others -/

theorem drawsOn_lowerWhile (condition : Expr) {body : Lower Unit}
    (hbody : ∀ pre : Prop, body.DrawsOn stock c.enterLoop pre fun _ => True) :
    (lowerWhile condition body).DrawsOn stock c pre fun _ => True := by
  have hloop {test : Option Go.Expr} {statements : List Stmt} {pre : Prop}
      (htest : pre → stock.Has (optionQualifiers test))
      (hstatements : pre → ∀ s ∈ statements, stock.Has s.qualifiers) :
      (emit (.loop test statements)).DrawsOn stock c pre fun _ => True := by
    refine drawsOn_emit fun hpre => ?_
    simp only [Stmt.qualifiers, has_append, has_listQualifiers]
    exact ⟨htest hpre, hstatements hpre⟩
  unfold lowerWhile
  split
  · have hround : (do emitLoopTest condition; body).DrawsOn stock c.enterLoop pre fun _ => True :=
      drawsOn_bind (drawsOn_emitLoopTest hown condition) fun _ => hbody _
    refine drawsOn_bind (drawsOn_within rfl (drawsOn_block hround)) fun statements => ?_
    exact hloop (fun _ => has_nil) And.right
  · refine drawsOn_bind (drawsOn_lowerCondition hown condition) fun test => ?_
    refine drawsOn_bind (drawsOn_within rfl (drawsOn_block (hbody _))) fun statements => ?_
    exact hloop (fun hpre => hpre.1.2.qualified) And.right

theorem drawsOn_lowerFetchLoop (prepared : Option Fetch) (rest : Option Expr)
    (statements : List Statement) {body : Lower Unit}
    (hbody : ∀ (c : Context) (pre : Prop), body.DrawsOn stock c pre fun _ => True) :
    (lowerFetchLoop prepared rest statements body).DrawsOn stock c pre fun _ => True := by
  unfold lowerFetchLoop
  split
  · exact drawsOn_unsupported
  · exact drawsOn_within rfl (drawsOn_lowerCursorLoop hown _ rest fun pre => hbody _ pre)

end Own

/-- A statement only names what is in stock, wherever it stands. A conditional does so before it is
written, too, since it may become a part of another one. -/
structure Draws (stock : Stock) (s : Statement) : Prop where
  statement (c : Context) (rest : List Statement) (prepared : Option Fetch) (pre : Prop) :
    (lowerStatement rest prepared s).DrawsOn stock c pre fun _ => True
  chain {condition : Expr} {thenBranch : List Statement} {elseBranch : Option (List Statement)} :
    s = .ifElse condition thenBranch elseBranch → ∀ (c : Context) (pre : Prop),
      (lowerChain condition thenBranch elseBranch).DrawsOn stock c pre fun chain =>
        stock.Has (Stmt.branch chain.1 chain.2.1 chain.2.2).qualifiers

theorem drawsOn_lowerStatements_of {statements : List Statement}
    (h : ∀ s ∈ statements, Draws stock s) (index : Nat) (prepared : Option Fetch) :
    (lowerStatements index prepared statements).DrawsOn stock c pre fun _ => True := by
  induction statements generalizing index prepared pre with
  | nil => exact drawsOn_pure fun _ => trivial
  | cons statement rest ih =>
    rw [List.forall_mem_cons] at h
    rw [lowerStatements]
    refine drawsOn_bind (drawsOn_within rfl (drawsOn_located (h.1.statement _ _ _ _))) fun _ => ?_
    exact ih h.2 _ _

theorem drawsOn_branch {statements : List Statement} (h : ∀ s ∈ statements, Draws stock s)
    (index : Nat) :
    (block (within (Context.enter index) (lowerStatements 0 none statements))).DrawsOn stock c pre
      fun body => ∀ s ∈ body, stock.Has s.qualifiers :=
  drawsOn_block (drawsOn_within rfl (drawsOn_lowerStatements_of h 0 none))

/-- The branches behind the first one. -/
theorem drawsOn_lowerElse {elseBranch : Option (List Statement)}
    (h : ∀ body ∈ elseBranch, ∀ s ∈ body, Draws stock s) :
    (lowerElse elseBranch).DrawsOn stock c pre fun chain =>
      stock.Has (armQualifiers chain.1 ++ elseQualifiers chain.2) := by
  cases elseBranch with
  | none =>
    rw [lowerElse]
    exact drawsOn_pure fun _ => has_nil
  | some body =>
    have hbody := h body rfl
    cases hchain : Statement.continuesChain body with
    | false =>
      rw [lowerElse_of_not_continuesChain hchain]
      refine drawsOn_bind (drawsOn_branch hbody 1) fun body => drawsOn_pure fun hpre => ?_
      simpa [armQualifiers, elseQualifiers] using hpre.2
    | true =>
      obtain ⟨condition, thenBranch, otherwise, rfl, hhoist⟩ := Statement.continuesChain_iff.mp hchain
      rw [lowerElse_of_continuesChain hhoist]
      have hnested := (hbody _ List.mem_cons_self).chain rfl
      refine drawsOn_within rfl (drawsOn_located (drawsOn_bind (hnested _ _) fun chain => ?_))
      obtain ⟨⟨init, test, body⟩, others, last⟩ := chain
      refine drawsOn_pure fun hpre => ?_
      simpa [Stmt.qualifiers, armQualifiers] using hpre.2

section Own

variable (hown : stock.Own)

include hown

theorem drawsOn_lowerChain (condition : Expr) {thenBranch : List Statement}
    {elseBranch : Option (List Statement)} (hthen : ∀ s ∈ thenBranch, Draws stock s)
    (helse : ∀ body ∈ elseBranch, ∀ s ∈ body, Draws stock s) :
    (lowerChain condition thenBranch elseBranch).DrawsOn stock c pre fun chain =>
      stock.Has (Stmt.branch chain.1 chain.2.1 chain.2.2).qualifiers := by
  refine drawsOn_bind (drawsOn_lowerCondition hown condition) fun test => ?_
  refine drawsOn_bind (drawsOn_branch hthen 0) fun body => ?_
  refine drawsOn_bind (drawsOn_lowerElse helse) fun chain => drawsOn_pure fun hpre => ?_
  simp only [Stmt.qualifiers, initQualifiers, has_append, has_nil, true_and, has_listQualifiers]
  exact ⟨hpre.1.1.2.qualified, hpre.1.2, has_append.mp hpre.2⟩

omit hown in
theorem drawsOn_checkJump (keyword : String) :
    (checkJump keyword).DrawsOn stock c pre fun _ => True :=
  drawsOn_annotated (hasEffect_checkJump keyword)

/-- A statement that holds no others only names what is in stock. -/
theorem drawsOn_lowerLeaf {s : Statement} (h : s.children = []) (rest : List Statement)
    (prepared : Option Fetch) :
    (lowerStatement rest prepared s).DrawsOn stock c pre fun _ => True := by
  have hreturn {step : Lower Unit} {pre : Prop} (hstep : step.DrawsOn stock c pre fun _ => True)
      (result : Option Fetch) :
      (step >>= fun _ => pure result).DrawsOn stock c pre fun _ => True :=
    drawsOn_bind hstep fun _ => drawsOn_pure fun _ => trivial
  cases s with
  | ifElse _ _ _ | «while» _ _ | block _ | tryCatch _ _ => cases h
  | declare vars =>
    rw [lowerStatement]
    exact hreturn (drawsOn_lowerDeclares hown vars) _
  | declareCursor name query =>
    rw [lowerStatement]
    exact hreturn (drawsOn_declareCursor hown name query) _
  | set target value =>
    rw [lowerStatement]
    exact hreturn (drawsOn_lowerSet hown target value) _
  | ret value =>
    rw [lowerStatement]
    refine drawsOn_bind (drawsOn_lowerStatus hown value) fun status => ?_
    exact hreturn (drawsOn_lowerReturn And.right) _
  | print value =>
    rw [lowerStatement]
    refine drawsOn_bind (drawsOn_lowerValue hown value .string) fun message => ?_
    exact hreturn (drawsOn_emitLog _ _ fun hpre => hpre.2.qualified) _
  | breakLoop | continueLoop =>
    rw [lowerStatement]
    exact drawsOn_bind (drawsOn_checkJump _) fun _ => hreturn (drawsOn_emit fun _ => has_nil) _
  | select query =>
    rw [lowerStatement]
    exact hreturn (drawsOn_lowerSelect hown query) _
  | insert insert =>
    rw [lowerStatement]
    exact hreturn (drawsOn_lowerInsert hown insert) _
  | update update =>
    rw [lowerStatement]
    exact hreturn (drawsOn_lowerUpdate hown update) _
  | delete delete =>
    rw [lowerStatement]
    exact hreturn (drawsOn_lowerDelete hown delete) _
  | exec exec =>
    rw [lowerStatement]
    exact hreturn (drawsOn_lowerExec hown exec) _
  | execDynamic text =>
    rw [lowerStatement]
    exact drawsOn_unsupported
  | openCursor name =>
    rw [lowerStatement]
    exact hreturn (drawsOn_openCursor hown name) _
  | fetch fetch =>
    rw [lowerStatement]
    refine drawsOn_ofExcept_bind fun primes _ => ?_
    split
    · exact drawsOn_pure fun _ => trivial
    · exact hreturn (drawsOn_fetchRow fetch) _
  | closeCursor name =>
    rw [lowerStatement]
    exact hreturn (drawsOn_closeCursor name) _
  | deallocate name =>
    rw [lowerStatement]
    exact hreturn (drawsOn_deallocateCursor name) _
  | beginTransaction name =>
    rw [lowerStatement]
    exact hreturn (drawsOn_beginTransaction hown name) _
  | commit name | rollback name =>
    rw [lowerStatement]
    exact hreturn (drawsOn_endTransaction hown _ _) _
  | savepoint name =>
    rw [lowerStatement]
    exact hreturn (drawsOn_transactionFault _) _
  | raiserror message severity state =>
    rw [lowerStatement]
    exact hreturn (drawsOn_lowerRaiserror hown message severity) _
  | throw args =>
    rw [lowerStatement]
    exact hreturn (drawsOn_lowerThrow hown args) _

/-- Every statement only names what is in stock. -/
theorem draws (s : Statement) : Draws stock s := by
  induction s using Statement.childInduction with
  | step s ih =>
    have hlist {body : List Statement} (hbody : body ∈ s.children) (c : Context) (pre : Prop) :
        (lowerStatements 0 none body).DrawsOn stock c pre fun _ => True :=
      drawsOn_lowerStatements_of (ih body hbody) 0 none
    have hchain {condition : Expr} {thenBranch : List Statement}
        {elseBranch : Option (List Statement)} (hs : s = .ifElse condition thenBranch elseBranch)
        (c : Context) (pre : Prop) :
        (lowerChain condition thenBranch elseBranch).DrawsOn stock c pre fun chain =>
          stock.Has (Stmt.branch chain.1 chain.2.1 chain.2.2).qualifiers := by
      subst hs
      refine drawsOn_lowerChain hown condition (ih _ List.mem_cons_self) fun body hbody => ?_
      exact ih body (List.mem_cons_of_mem _ (Option.mem_toList.mpr hbody))
    refine ⟨fun c rest prepared pre => ?_, hchain⟩
    have hreturn {step : Lower Unit} {pre : Prop} (hstep : step.DrawsOn stock c pre fun _ => True)
        (result : Option Fetch) :
        (step >>= fun _ => pure result).DrawsOn stock c pre fun _ => True :=
      drawsOn_bind hstep fun _ => drawsOn_pure fun _ => trivial
    cases s with
    | ifElse condition thenBranch elseBranch =>
      rw [lowerStatement_ifElse]
      refine drawsOn_bind (hchain rfl c pre) fun chain => ?_
      exact hreturn (drawsOn_emit And.right) _
    | «while» condition body =>
      have hbody := hlist (List.mem_singleton_self body)
      rw [lowerStatement]
      cases sentinelRest? condition with
      | none =>
        exact hreturn (drawsOn_lowerWhile hown condition fun _ => drawsOn_within rfl (hbody _ _)) _
      | some more => exact hreturn (drawsOn_lowerFetchLoop hown prepared more body hbody) _
    | block body =>
      rw [lowerStatement]
      exact hreturn (hlist List.mem_cons_self c pre) _
    | tryCatch tryBody catchBody =>
      rw [lowerStatement]
      refine hreturn (drawsOn_lowerTryCatch tryBody catchBody (fun _ _ => ?_) fun _ => ?_) _
      · exact hlist List.mem_cons_self _ _
      · exact hlist (List.mem_cons_of_mem _ List.mem_cons_self) _ _
    | _ => exact drawsOn_lowerLeaf hown rfl rest prepared

theorem drawsOn_lowerStatements (statements : List Statement) (index : Nat)
    (prepared : Option Fetch) :
    (lowerStatements index prepared statements).DrawsOn stock c pre fun _ => True :=
  drawsOn_lowerStatements_of (fun s _ => draws hown s) index prepared

/-! ## The head of a function -/

omit hown in
theorem drawsOn_symbolFields (kind : SymbolKind) :
    (symbolFields kind).DrawsOn stock c pre fun fields =>
      ∀ field ∈ fields, stock.Has field.2.qualifiers := by
  refine drawsOn_of_annotated (hasEffect_symbolFields kind) fun hruns hserves _ => ?_
  obtain ⟨rfl, hannotated⟩ := runs_symbolFields hruns
  intro field hfield
  obtain ⟨symbol, hsymbol, rfl⟩ := List.mem_map.mp hfield
  rw [← hannotated.symbols] at hsymbol
  simpa [TypeExpr.qualifiers] using hserves.types symbol (List.mem_of_mem_filter hsymbol)

omit hown in
/-- A type of an imported package. -/
theorem has_named {package : String} (type : String) (h : stock.packages package) :
    stock.Has (TypeExpr.named package type).qualifiers := by
  simpa [TypeExpr.qualifiers, Stock.Covers] using h

omit hown in
theorem drawsOn_databaseParams : databaseParams.DrawsOn stock c pre fun fields =>
    ∀ field ∈ fields, stock.Has field.2.qualifiers := by
  refine drawsOn_read_bind ?_
  split
  · refine drawsOn_bind (drawsOn_importPath "sql" (by simp [Config.packages])) fun _ => ?_
    exact drawsOn_pure fun hpre => List.forall_mem_singleton.mpr (has_named "DB" hpre.2)
  · exact drawsOn_pure fun _ => List.forall_mem_nil _

omit hown in
theorem drawsOn_clientParams : clientParams.DrawsOn stock c pre fun fields =>
    ∀ field ∈ fields, stock.Has field.2.qualifiers := by
  refine drawsOn_read_bind ?_
  dsimp only
  split
  · exact drawsOn_pure fun _ => List.forall_mem_nil _
  · refine drawsOn_bind drawsOn_rpcPackage fun package => drawsOn_pure fun hpre field hfield => ?_
    obtain ⟨client, -, rfl⟩ := List.mem_map.mp hfield
    exact has_named _ hpre.2

omit hown in
theorem drawsOn_storeParams : storeParams.DrawsOn stock c pre fun fields =>
    ∀ field ∈ fields, stock.Has field.2.qualifiers := by
  refine drawsOn_read_bind ?_
  split
  · exact drawsOn_bind drawsOn_mockPackage fun package => drawsOn_pure fun hpre =>
      List.forall_mem_singleton.mpr (has_named "Store" hpre.2)
  · exact drawsOn_pure fun _ => List.forall_mem_nil _

omit hown in
theorem drawsOn_functionParams : functionParams.DrawsOn stock c pre fun fields =>
    ∀ field ∈ fields, stock.Has field.2.qualifiers := by
  refine drawsOn_bind (drawsOn_importPath "context" (by simp [Config.packages])) fun _ => ?_
  refine drawsOn_bind drawsOn_databaseParams fun database => ?_
  refine drawsOn_bind drawsOn_clientParams fun clients => ?_
  refine drawsOn_bind drawsOn_storeParams fun store => ?_
  refine drawsOn_bind (drawsOn_symbolFields .input) fun inputs => drawsOn_pure ?_
  rintro ⟨⟨⟨⟨⟨-, hcontext⟩, hdatabase⟩, hclients⟩, hstore⟩, hinputs⟩
  simp only [List.cons_append, List.forall_mem_cons, List.forall_mem_append]
  exact ⟨has_named "Context" hcontext, ⟨⟨hdatabase, hclients⟩, hstore⟩, hinputs⟩

omit hown in
theorem drawsOn_functionResults : functionResults.DrawsOn stock c pre fun fields =>
    ∀ field ∈ fields, stock.Has field.2.qualifiers := by
  have hfixed {name : String} {type : TypeExpr} (test : Bool) (h : type.qualifiers = []) :
      ∀ field ∈ (if test then [(name, type)] else []), stock.Has field.2.qualifiers := by
    cases test with
    | false => exact List.forall_mem_nil _
    | true => exact List.forall_mem_singleton.mpr (h ▸ has_nil)
  refine drawsOn_read_bind (drawsOn_bind (drawsOn_symbolFields .output) fun outputs => ?_)
  refine drawsOn_pure fun hpre => List.forall_mem_append.mpr ⟨List.forall_mem_append.mpr ⟨hpre.2, ?_⟩, ?_⟩
  · exact hfixed _ rfl
  · exact hfixed _ rfl

/-! ## The first lines of a function -/

omit hown in
theorem drawsOn_inputPairs (params : List Parameter) :
    (inputPairs params).DrawsOn stock c pre fun pairs => ∀ e ∈ pairs, stock.Has e.qualifiers := by
  induction params generalizing pre with
  | nil => exact drawsOn_pure fun _ => List.forall_mem_nil _
  | cons param rest ih =>
    refine drawsOn_bind (drawsOn_lookup _) fun symbol => drawsOn_bind ih fun pairs => ?_
    refine drawsOn_pure fun hpre => List.forall_mem_cons.mpr ⟨has_nil, ?_⟩
    exact List.forall_mem_cons.mpr ⟨has_nil, hpre.2⟩

omit hown in
theorem drawsOn_emitEntry : emitEntry.DrawsOn stock c pre fun _ => True := by
  refine drawsOn_read_bind ?_
  refine drawsOn_bind (drawsOn_importPath "slog" (by simp [Config.packages])) fun _ => ?_
  refine drawsOn_bind (drawsOn_inputPairs _) fun pairs => drawsOn_emit fun hpre => ?_
  refine has_invoke (covers_package hpre.1.2) _ ?_
  simpa [Expr.qualifiers] using hpre.2

theorem drawsOn_emitDefaults (params : List Parameter) :
    (emitDefaults params).DrawsOn stock c pre fun _ => True := by
  induction params generalizing pre with
  | nil => exact drawsOn_pure fun _ => trivial
  | cons param rest ih =>
    unfold emitDefaults
    split
    · exact drawsOn_bind (drawsOn_assignVariable hown _ _) fun _ => ih
    · exact ih

omit hown in
theorem drawsOn_emitCounters : emitCounters.DrawsOn stock c pre fun _ => True := by
  have hcounter (name : String) {pre : Prop} :
      (emit (.declare name (.value .int64) none)).DrawsOn stock c pre fun _ => True :=
    drawsOn_emit fun _ => has_declare (hasType_of_package? rfl) (by simp)
  refine drawsOn_read_bind ?_
  refine drawsOn_when (hcounter _) (drawsOn_when (hcounter _) ?_)
  split
  · refine drawsOn_bind (drawsOn_importPath "sql" (by simp [Config.packages])) fun _ => ?_
    refine drawsOn_emit fun hpre => ?_
    simpa [Stmt.qualifiers, TypeExpr.qualifiers, optionQualifiers] using has_named "Tx" hpre.2
  · exact drawsOn_pure fun _ => trivial

omit hown in
theorem drawsOn_emitHoisted (names : List String) :
    (emitHoisted names).DrawsOn stock c pre fun _ => True := by
  induction names generalizing pre with
  | nil => exact drawsOn_pure fun _ => trivial
  | cons name rest ih =>
    refine drawsOn_get_bind fun p => ?_
    split
    next symbol _ =>
      refine drawsOn_bind (drawsOn_importType symbol.type.go) fun _ => ?_
      refine drawsOn_bind (drawsOn_emit fun hpre => has_declare hpre.2 (by simp)) fun _ => ?_
      exact drawsOn_bind (drawsOn_emitUse _ _) fun _ => ih
    next => exact ih

theorem drawsOn_emitOpening : emitOpening.DrawsOn stock c pre fun _ => True :=
  drawsOn_read_bind (drawsOn_when drawsOn_emitEntry (drawsOn_emitDefaults hown _))

theorem drawsOn_emitPrologue : emitPrologue.DrawsOn stock c pre fun _ => True := by
  refine drawsOn_read_bind (drawsOn_when drawsOn_emitEntry ?_)
  refine drawsOn_bind (drawsOn_emitDefaults hown _) fun _ => ?_
  refine drawsOn_bind drawsOn_emitCounters fun _ => ?_
  exact drawsOn_bind (drawsOn_emitHoisted _) fun _ => drawsOn_hoistIterators hown _

omit hown in
theorem drawsOn_emitFinalReturn : emitFinalReturn.DrawsOn stock c pre fun _ => True := by
  refine drawsOn_bind (drawsOn_resultValues (fun _ => has_nil) fun _ => has_nil) fun values => ?_
  refine drawsOn_read_bind ?_
  split
  · exact drawsOn_emit fun hpre => by simpa [Stmt.qualifiers] using hpre.2
  · exact drawsOn_pure fun _ => trivial

end Own

/-! ## The types of the variables -/

/-- The types of the parameters of a role are imported by the head of the function. -/
theorem imported_symbolFields {kind : SymbolKind} {fields : List (String × TypeExpr)}
    (h : (symbolFields kind).Runs c before fields after) {symbol : Symbol}
    (hsymbol : symbol ∈ before.symbols.symbols) (hkind : symbol.kind = kind) :
    symbol.type.go.Imported after.imports := by
  have hall {symbols : List Symbol} {p q : Progress}
      (hruns : (symbols.forM fun symbol => importType symbol.type.go).Runs c p () q) :
      p.imports.specs ⊆ q.imports.specs ∧ ∀ symbol ∈ symbols, symbol.type.go.Imported q.imports := by
    induction symbols generalizing p with
    | nil =>
      obtain ⟨-, rfl⟩ := runs_pure.mp hruns
      exact ⟨List.Subset.refl _, List.forall_mem_nil _⟩
    | cons first rest ih =>
      obtain ⟨_, middle, hfirst, hrest⟩ := runs_bind.mp hruns
      obtain ⟨hgrows, hothers⟩ := ih hrest
      have himports := ((hasEffect_importType first.type.go).annotated hfirst).imports
      refine ⟨List.Subset.trans himports hgrows, List.forall_mem_cons.mpr ⟨?_, hothers⟩⟩
      exact (imported_of_runs_importType hfirst).mono hgrows
  simp only [symbolFields, runs_bind, runs_get, runs_pure] at h
  obtain ⟨_, _, ⟨rfl, rfl⟩, _, _, himports, -, rfl⟩ := h
  exact (hall himports).2 symbol (List.mem_filter.mpr ⟨hsymbol, by simpa using hkind⟩)

theorem imported_functionParams {fields : List (String × TypeExpr)}
    (h : functionParams.Runs c before fields after) {symbol : Symbol}
    (hsymbol : symbol ∈ before.symbols.symbols) (hkind : symbol.kind = .input) :
    symbol.type.go.Imported after.imports := by
  simp only [functionParams, runs_bind, runs_pure] at h
  obtain ⟨_, _, hcontext, _, _, hdatabase, _, _, hclients, _, _, hstore, _, _, hinputs, -, rfl⟩ := h
  have hfront := ((((hasEffect_importPath _).annotated hcontext).trans
    (hasEffect_databaseParams.annotated hdatabase)).trans
    (hasEffect_clientParams.annotated hclients)).trans (hasEffect_storeParams.annotated hstore)
  exact imported_symbolFields hinputs (hfront.symbols ▸ hsymbol) hkind

theorem imported_functionResults {fields : List (String × TypeExpr)}
    (h : functionResults.Runs c before fields after) {symbol : Symbol}
    (hsymbol : symbol ∈ before.symbols.symbols) (hkind : symbol.kind = .output) :
    symbol.type.go.Imported after.imports := by
  simp only [functionResults, runs_bind, runs_read, runs_pure] at h
  obtain ⟨_, _, ⟨rfl, rfl⟩, _, _, houtputs, -, rfl⟩ := h
  exact imported_symbolFields houtputs hsymbol hkind

/-- A step provides for its variables, whatever is in stock. -/
theorem DrawsOn.provides {α : Type} {step : Lower α} {P : α → Prop} {value : α}
    (h : step.DrawsOn everything c True P) (hruns : step.Runs c before value after) :
    before.Provides everything after :=
  (h hruns fun _ _ => .inl trivial).1

/-- The types of the variables that are declared at function entry are imported there. -/
theorem imported_emitHoisted {names : List String} (h : (emitHoisted names).Runs c before () after)
    {name : String} (hname : name ∈ names) {symbol : Symbol}
    (hsymbol : before.symbols.get? name = some symbol) : symbol.type.go.Imported after.imports := by
  induction names generalizing before with
  | nil => cases hname
  | cons first rest ih =>
    obtain ⟨middle, hfirst, hrest⟩ := runs_emitHoisted_cons.mp h
    rcases List.mem_cons.mp hname with rfl | hname
    · simp only [emitHoisted, runs_bind, runs_get] at hfirst
      obtain ⟨_, _, ⟨rfl, rfl⟩, hfirst⟩ := hfirst
      rw [hsymbol] at hfirst
      simp only [runs_bind, runs_emit, runs_pure] at hfirst
      obtain ⟨_, imported, himport, _, _, rfl, _, _, huse, -, rfl⟩ := hfirst
      have hused := (drawsOn_emitUse name symbol.goName).provides huse
      have hothers := (drawsOn_emitHoisted rest).provides hrest
      exact ((imported_of_runs_importType himport).mono hused.imports).mono hothers.imports
    · obtain ⟨_, hline, -⟩ := runs_emitHoisted hfirst
      exact ih hrest hname (hline.symbols ▸ hsymbol)

theorem imported_emitPrologue (h : emitPrologue.Runs c before () after)
    {name : String} (hname : name ∈ c.survey.hoisted) {symbol : Symbol}
    (hsymbol : before.symbols.get? name = some symbol) : symbol.type.go.Imported after.imports := by
  obtain ⟨opened, counted, lined, hopened, hcounted, hlined, hiterators⟩ := runs_emitPrologue h
  have hopening := (drawsOn_emitOpening own_everything).provides hopened
  have hcounters := drawsOn_emitCounters.provides hcounted
  have hknown := SymbolTable.get?_eq_some_of_grown (hopening.trans hcounters).symbols hsymbol
  have hlast := (drawsOn_hoistIterators own_everything _).provides hiterators
  exact (imported_emitHoisted hlined hname hknown).mono hlast.imports

/-- Variables that are declared at function entry leave everything else alone. -/
theorem eq_of_runs_declareHoisted {statements : List Statement} {names : List String}
    (h : (declareHoisted statements names).Runs c before () after) :
    after = { before with symbols := after.symbols } := by
  induction names generalizing before with
  | nil =>
    obtain ⟨-, rfl⟩ := runs_pure.mp h
    rfl
  | cons name rest ih =>
    rw [declareHoisted] at h
    cases htype : declaredType? statements name with
    | none =>
      rw [htype] at h
      exact ih h
    | some type =>
      rw [htype] at h
      obtain ⟨symbol, middle, hfirst, hrest⟩ := runs_bind.mp h
      obtain ⟨symbols, -, rfl⟩ := runs_declare.mp hfirst
      have hothers := ih hrest
      exact hothers

/-- When the variables are declared, there is no cursor, no code and no warning yet. -/
theorem nothing_at_head {procedure : Procedure} {config : Config} {survey : Survey}
    {declared hoisted : Progress} {names : List String}
    (hdeclared : (declareParams procedure.params).Runs c (.start config survey) () declared)
    (hhoisted : (declareHoisted procedure.statements names).Runs c declared () hoisted) :
    hoisted.cursors = [] ∧ hoisted.output = [] ∧ hoisted.warnings = [] := by
  obtain ⟨table, -, rfl⟩ := runs_declareParams hdeclared
  rw [eq_of_runs_declareHoisted hhoisted]
  exact ⟨rfl, rfl, rfl⟩

end Lower

open Lower Go

variable {procedure : Procedure} {config : Config} {lowered : LoweredProcedure}

/-- An import makes a package available by a name. -/
def Config.Imports (config : Config) (imports : Go.Imports) (name : String) : Prop :=
  ∃ spec ∈ imports.specs, (name, spec) ∈ config.packages

namespace Procedure

/-- The lines of a function are written where there is no cursor, no code and no warning about a
forced backend yet. -/
theorem exists_lines (h : procedure.lower config = .ok lowered) :
    ∃ c headed entered finished after,
      Context.start config (.ofProcedure config procedure) procedure = .ok c ∧
      headed.cursors = [] ∧ headed.output = [] ∧ forcings headed.warnings = [] ∧
      emitPrologue.Runs c headed () entered ∧
      (lowerStatements 0 none c.procedure.body).Runs c entered () finished ∧
      emitFinalReturn.Runs c finished () after ∧
      lowered.function.body = after.output ∧ lowered.warnings = after.warnings := by
  obtain ⟨-, c, function, after, hstart, hruns, rfl⟩ := lower_eq_ok_iff.mp h
  obtain ⟨declared, hoisted, hdeclared, hhoisted, middle, headed, hparams, hresults, entered,
    finished, hentered, hfinished, hfinal, hbody, -⟩ := runs_lowerProcedure hruns
  obtain ⟨hcursors, houtput, hwarnings⟩ := nothing_at_head hdeclared hhoisted
  have hhead : hoisted.Computed headed :=
    (hasEffect_functionParams.computes hparams).trans (hasEffect_functionResults.computes hresults)
  refine ⟨c, headed, entered, finished, after, hstart, ?_, ?_, ?_, hentered, hfinished, hfinal,
    hbody, rfl⟩
  · rw [hhead.cursors, hcursors]
  · rw [hhead.output, houtput]
  · rw [hhead.forcings, hwarnings]
    rfl

/-- The names that the function of a procedure uses for its variables: those of the variables of the
procedure, and those that the function keeps or makes up for itself. -/
def HasName (procedure : Procedure) (config : Config) (id : String) : Prop :=
  id ∈ (procedure.finalTable config).symbols.map (·.goName) ∨ id ∈ fixedNames ∨ IsMadeName id

/-- What the function of a procedure may draw on: its variables, and what it has imported. -/
def stock (procedure : Procedure) (config : Config) (imports : Go.Imports) : Go.Stock where
  names := procedure.HasName config
  packages := config.Imports imports

theorem own_stock (procedure : Procedure) (config : Config) (imports : Go.Imports) :
    (procedure.stock config imports).Own where
  kept id hid := by
    have hall : ∀ id ∈ ["rowCount", "lastInsertID", "tx", "caught"],
        id ∈ fixedNames ∨ id ∈ ["caught", "ok"] := by
      decide
    rcases hall id hid with hfixed | hcaught
    · exact .inr (.inl hfixed)
    · exact .inr (.inr (.assigned (.call (.caught hcaught))))
  numbered base hbase n := by
    have hbases : ∀ base ∈ ["exists", "scalar"],
        base ∈ NameScope.bases ∧ base.toList.head?.any (· != 'r') = true := by
      decide
    obtain ⟨hmem, hfirst⟩ := hbases base hbase
    have hmade := IsMadeName.numbered n hmem
    rw [NameScope.numberedName_eq hfirst] at hmade
    exact .inr (.inr hmade)
  database := .inl (.inr (.inl (by decide)))
  results id hid := .inl (.inr (.inr (.assigned hid)))

/-- The types of all variables are imported in the end. -/
theorem imported_finalTable {c : Context} {function : Go.Func} {after : Progress}
    (hstart : Context.start config (.ofProcedure config procedure) procedure = .ok c)
    (hruns : lowerProcedure.Runs c (Progress.start config (.ofProcedure config procedure)) function
      after) :
    ∀ symbol ∈ after.symbols.symbols, symbol.type.go.Imported after.imports := by
  obtain ⟨declared, hoisted, hdeclared, hhoisted, middle, headed, hparams, hresults, entered,
    finished, hentered, hfinished, hfinal, -⟩ := runs_lowerProcedure hruns
  have hinputs := drawsOn_functionParams.provides hparams
  have houtputs := drawsOn_functionResults.provides hresults
  have hprologue := (drawsOn_emitPrologue Stock.own_everything).provides hentered
  have hrest := ((drawsOn_lowerStatements Stock.own_everything _ _ _).provides hfinished).trans
    (drawsOn_emitFinalReturn.provides hfinal)
  have hlines := hprologue.trans hrest
  have hmiddle : middle.symbols = hoisted.symbols :=
    (hasEffect_functionParams.annotated hparams).symbols
  have hheaded : headed.symbols = hoisted.symbols :=
    ((hasEffect_functionResults.annotated hresults).symbols).trans hmiddle
  have htypes : ∀ name ∈ c.survey.hoisted, (declaredType? c.procedure.statements name).isSome := by
    obtain ⟨functionName, verb, rfl⟩ := Context.start_eq_ok hstart
    exact fun name => isSome_declaredType?
  obtain ⟨hmembers, -, -⟩ := runs_declareHoisted htypes hhoisted
  intro symbol hsymbol
  rcases ((hinputs.trans houtputs).trans hlines).imported symbol hsymbol with hmem | himported
  · rcases hmembers symbol hmem with hparam | ⟨name, hname, hget⟩
    · rcases kind_of_mem_declareParams hdeclared hparam with hkind | hkind
      · exact (imported_functionParams hparams hmem hkind).mono (houtputs.trans hlines).imports
      · rw [← hmiddle] at hmem
        exact (imported_functionResults hresults hmem hkind).mono hlines.imports
    · rw [← hheaded] at hget
      exact (imported_emitPrologue hentered hname hget).mono hrest.imports
  · exact himported

/-- The stock of a procedure serves the generation of its function. -/
theorem serves_stock {c : Context} {function : Go.Func} {after : Progress}
    (hstart : Context.start config (.ofProcedure config procedure) procedure = .ok c)
    (hruns : lowerProcedure.Runs c (Progress.start config (.ofProcedure config procedure)) function
      after) : (procedure.stock config after.imports).Serves config after where
  names symbol hsymbol := by
    refine .inl (List.mem_map_of_mem ?_)
    rwa [finalTable_eq hstart hruns]
  types symbol hsymbol package hpackage := by
    have himported := imported_finalTable hstart hruns symbol hsymbol
    cases htype : symbol.type.go with
    | decimal =>
      rw [htype] at himported hpackage
      cases hpackage
      exact ⟨_, himported decimalPackage rfl, by simp [Config.packages]⟩
    | time =>
      rw [htype] at himported hpackage
      cases hpackage
      exact ⟨_, himported "time" rfl, by simp [Config.packages]⟩
    | _ =>
      rw [htype] at hpackage
      cases hpackage
  packages entry hentry himported := ⟨entry.2, himported, hentry⟩

/-- A function only names its variables and what it has imported. -/
theorem has_stock {c : Context} {function : Go.Func} {after : Progress}
    (hstart : Context.start config (.ofProcedure config procedure) procedure = .ok c)
    (hruns : lowerProcedure.Runs c (Progress.start config (.ofProcedure config procedure)) function
      after) : (procedure.stock config after.imports).Has function.qualifiers := by
  have hown := own_stock procedure config after.imports
  have hconfig : c.config = config := by
    obtain ⟨functionName, verb, rfl⟩ := Context.start_eq_ok hstart
    rfl
  have hserves : (procedure.stock config after.imports).Serves c.config after := by
    rw [hconfig]
    exact serves_stock hstart hruns
  obtain ⟨declared, hoisted, hdeclared, hhoisted, middle, headed, hparams, hresults, entered,
    finished, hentered, hfinished, hfinal, hbody, -⟩ := runs_lowerProcedure hruns
  obtain ⟨hcursors, hoistedOutput, -⟩ := nothing_at_head hdeclared hhoisted
  -- There is no cursor yet, so no iterator is missing.
  have hiterates : (procedure.stock config after.imports).Iterates hoisted := by
    rw [Go.Stock.Iterates, hcursors]
    exact List.forall_mem_nil _
  obtain ⟨hhead, _, -, hinputs⟩ := drawsOn_functionParams hparams hiterates
  have hmiddle := hhead.iterates hiterates
  obtain ⟨htypes, _, -, houtputs⟩ := drawsOn_functionResults hresults hmiddle
  have hlines : (emitPrologue >>= fun _ => lowerStatements 0 none c.procedure.body >>= fun _ =>
      emitFinalReturn).DrawsOn (procedure.stock config after.imports) c True fun _ => True :=
    drawsOn_bind (drawsOn_emitPrologue hown) fun _ =>
      drawsOn_bind (drawsOn_lowerStatements hown _ _ _) fun _ => drawsOn_emitFinalReturn
  obtain ⟨hgrows, added, hadded, hbodyHas⟩ := hlines
    (runs_bind.mpr ⟨(), entered, hentered, runs_bind.mpr ⟨(), finished, hfinished, hfinal⟩⟩)
    (htypes.iterates hmiddle)
  have hnoLines : headed.output = [] := by
    rw [(hasEffect_functionResults.annotated hresults).output,
      (hasEffect_functionParams.annotated hparams).output, hoistedOutput]
  have hheaded := hserves.of_grows hgrows.toGrows
  have hparamsHas := (hinputs (hheaded.of_grows htypes.toGrows) trivial).2
  have hresultsHas := (houtputs hheaded trivial).2
  rw [Func.qualifiers, Go.Stock.has_append, Go.Stock.has_listQualifiers, hbody, hadded, hnoLines,
    List.nil_append]
  refine ⟨fun q hq => ?_, (hbodyHas hserves trivial).1⟩
  obtain ⟨field, hfield, hq⟩ := List.mem_flatMap.mp hq
  rcases List.mem_append.mp hfield with hfield | hfield
  · exact hparamsHas field hfield q hq
  · exact hresultsHas field hfield q hq

/-- The names of the packages that are the same in all configurations. -/
def packageNames : List String :=
  ["context", "sql", "errors", "fmt", "log", "slog", "math", "strings", "utf8", "time", "decimal",
    "tsqlrt"]

/-- A function keeps none of these names for a variable of its own. -/
theorem notMem_fixedNames_of_mem_packageNames {id : String} (h : id ∈ packageNames) :
    id ∉ fixedNames := by
  have hall : ∀ id ∈ packageNames, id ∉ fixedNames := by decide
  exact hall id h

/-- Nor does it make one of them up. -/
theorem not_isMadeName_of_mem_packageNames {id : String} (h : id ∈ packageNames) :
    ¬IsMadeName id := by
  intro hmade
  cases hmade with
  | numbered n hbase =>
    have hapart : ∀ base ∈ NameScope.bases, ∀ id ∈ packageNames,
        base.toList.take 2 ≠ id.toList.take 2 := by
      decide
    exact hapart _ hbase _ h (NameScope.take_numberedName hbase n).symm
  | assigned hlocal =>
    have hself : HasEnding packageNames id := ⟨id, h, List.suffix_refl _⟩
    exact hlocal.hasEnding.not_of_apart (by decide) hself

/-- Nor can a variable have one of them, apart from the one that a number can lead to. -/
theorem eq_of_mem_packageNames (hlower : procedure.lower config = .ok lowered) {id : String}
    (h : id ∈ packageNames)
    (hvariable : id ∈ (procedure.finalTable config).symbols.map (·.goName)) : id = "utf8" := by
  have hgenerated : packageNames.erase "utf8" ⊆ generatedNames := by decide
  have havoids : (procedure.finalTable config).Avoids (packageNames.erase "utf8") :=
    avoids_finalTable hlower (List.subset_append_of_subset_left _ hgenerated) (by decide) (by decide)
  obtain ⟨symbol, hsymbol, rfl⟩ := List.mem_map.mp hvariable
  by_contra hne
  exact havoids.free symbol hsymbol ((List.mem_erase_of_ne hne).mpr h)

/-- **Imports.** Each package that stands in front of a type or a message is imported. So is what
stands in front of anything else, unless it is the name of a variable. The names of packages are not
such names, so all packages are imported that the function names. Only a number can lead to `utf8`
for a variable. -/
theorem qualifiers_imported (hlower : procedure.lower config = .ok lowered) :
    (∀ name, .package name ∈ lowered.function.qualifiers → config.Imports lowered.imports name) ∧
      (∀ id, .owner id ∈ lowered.function.qualifiers →
        config.Imports lowered.imports id ∨ procedure.HasName config id) ∧
      ∀ id ∈ packageNames, .owner id ∈ lowered.function.qualifiers →
        config.Imports lowered.imports id ∨
          id = "utf8" ∧ id ∈ (procedure.finalTable config).symbols.map (·.goName) := by
  obtain ⟨-, c, function, after, hstart, hruns, rfl⟩ := Procedure.lower_eq_ok_iff.mp hlower
  have hhas := has_stock hstart hruns
  have howner (id : String) (hid : .owner id ∈ function.qualifiers) :
      config.Imports after.imports id ∨ procedure.HasName config id :=
    Or.symm (hhas (.owner id) hid)
  refine ⟨fun name hname => hhas _ hname, howner, fun id hid hqualifier => ?_⟩
  refine (howner id hqualifier).imp_right fun hname => ?_
  rcases hname with hvariable | hfixed | hmade
  · exact ⟨eq_of_mem_packageNames hlower hid hvariable, hvariable⟩
  · exact absurd hfixed (notMem_fixedNames_of_mem_packageNames hid)
  · exact absurd hmade (not_isMadeName_of_mem_packageNames hid)

open Build in
/-- A procedure that measures a text, compares a date and a price, and raises an error. -/
def invoice : Procedure where
  name := "usp_Invoice"
  params := [input "price" "DECIMAL(10,2)" none, input "due" "DATETIME" none,
    input "name" "NVARCHAR(50)" none]
  body := [declare "size" "INT", set "size" (.function "LEN" [var "name"]),
    .ifElse (and (gt (var "price") (dec "9.99")) (lt (var "due") (.function "GETDATE" [])))
      [.raiserror (text "late") (int 16) (int 1)] none,
    .select ((select []).assign "size" (col "id") |>.readFrom ⟨"Invoices", none⟩)]

/-- The function of `Procedure.invoice` selects from six packages. All of them are imported. -/
theorem invoice_imports : ∃ lowered, invoice.lower {} = .ok lowered ∧
    ∀ id ∈ ["utf8", "strings", "decimal", "time", "errors", "sql"],
      .owner id ∈ lowered.function.qualifiers ∧ Config.Imports {} lowered.imports id := by
  obtain ⟨lowered, hlower⟩ := exists_lower_eq_ok
    (by decide +kernel : (invoice.lower {}).isOk = true)
  have hnames : ["utf8", "strings", "decimal", "time", "errors", "sql"] ⊆ packageNames := by decide
  have hselects : (invoice.lower {}).toOption.any (fun lowered =>
      ["utf8", "strings", "decimal", "time", "errors", "sql"].all fun id =>
        decide (.owner id ∈ lowered.function.qualifiers)) = true := by
    decide +kernel
  have hvariables : "utf8" ∉ (invoice.finalTable {}).symbols.map (·.goName) := by decide +kernel
  rw [hlower] at hselects
  simp only [Except.toOption, Option.any_some, List.all_eq_true, decide_eq_true_eq] at hselects
  refine ⟨lowered, hlower, fun id hid => ⟨hselects id hid, ?_⟩⟩
  refine ((qualifiers_imported hlower).2.2 id (hnames hid) (hselects id hid)).resolve_right ?_
  rintro ⟨rfl, hvariable⟩
  exact hvariables hvariable

end Procedure

end Sproc
