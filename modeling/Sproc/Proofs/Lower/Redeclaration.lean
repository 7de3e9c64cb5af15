import Sproc.Proofs.Lower.Locals
import Sproc.Proofs.Text.Folding

/-!
# Declarations of one variable

The variables of a procedure are its parameters, then the variables of the declarations that have been
moved to function entry, then those of the declarations that stay, in the order of the source. The table
of variables refuses a name that it knows, whatever its case. But a declaration that stays is passed
over when a declaration of the same variable has been moved: it is taken for that one. So two
declarations of a variable are noticed unless one of them is moved and the other one stays, and then
the variable has the type of the one that comes first.

## Main definitions

* `Declaration`, `SymbolTable.declareEach`: declarations and the table that they lead to
* `Procedure.vars`, `Procedure.movedVars`, `Procedure.keptVars`: the declared variables of a body
* `Procedure.declarations`: the declarations that a procedure makes

## Main results

* `Procedure.declareEach_declarations`: the table of a procedure is made by these declarations
* `Procedure.redeclared_unnoticed_iff`
-/

namespace Sproc

open Lower

/-! ## Tables that declarations lead to -/

/-- A name that is declared, with its type and its role. -/
structure Declaration where
  name : String
  type : String
  kind : SymbolKind

def Declaration.key (declaration : Declaration) : String :=
  foldName declaration.name

/-- A variable is what a declaration makes. -/
structure Declaration.Makes (declaration : Declaration) (symbol : Symbol) : Prop where
  source : symbol.source = declaration.name
  type : TypeName.classify declaration.type = .ok symbol.type
  kind : symbol.kind = declaration.kind

theorem Declaration.map_key_eq {declarations : List Declaration} {symbols : List Symbol}
    (h : List.Forall₂ Makes declarations symbols) :
    declarations.map Declaration.key = symbols.map Symbol.key := by
  induction h with
  | nil => rfl
  | cons hmakes _ ih => rw [List.map_cons, List.map_cons, ih, key, Symbol.key, hmakes.source]

def Parameter.declaration (param : Parameter) : Declaration :=
  ⟨param.name, param.type, param.kind⟩

def VarDecl.declaration (var : VarDecl) : Declaration :=
  ⟨var.name, var.type, .declared⟩

namespace SymbolTable

variable {table other middle : SymbolTable} {declaration : Declaration}
  {declarations rest : List Declaration}

/-- The table behind some declarations, if none of them is refused. -/
def declareEach (table : SymbolTable) : List Declaration → Except Fault SymbolTable
  | [] => .ok table
  | declaration :: rest => do
    let (_, next) ← table.declare declaration.name declaration.type declaration.kind
    next.declareEach rest

theorem declareEach_cons_eq_ok : table.declareEach (declaration :: rest) = .ok other ↔
    ∃ symbol next, table.declare declaration.name declaration.type declaration.kind =
      .ok (symbol, next) ∧ next.declareEach rest = .ok other := by
  rw [declareEach]
  cases table.declare declaration.name declaration.type declaration.kind with
  | error fault => simp [bind, Except.bind]
  | ok pair => simp [bind, Except.bind, Prod.ext_iff]

theorem declareEach_append (h : table.declareEach declarations = .ok middle)
    (hrest : middle.declareEach rest = .ok other) :
    table.declareEach (declarations ++ rest) = .ok other := by
  induction declarations generalizing table with
  | nil =>
    obtain rfl := Except.ok.inj h
    exact hrest
  | cons declaration declarations ih =>
    obtain ⟨symbol, next, hdeclare, hothers⟩ := declareEach_cons_eq_ok.mp h
    exact declareEach_cons_eq_ok.mpr ⟨symbol, next, hdeclare, ih hothers⟩

/-- Each declaration makes a variable, in order. -/
theorem makes_declareEach (h : table.declareEach declarations = .ok other) :
    ∃ added, other.symbols = table.symbols ++ added ∧
      List.Forall₂ Declaration.Makes declarations added := by
  induction declarations generalizing table with
  | nil =>
    obtain rfl := Except.ok.inj h
    exact ⟨[], (List.append_nil _).symm, .nil⟩
  | cons declaration rest ih =>
    obtain ⟨symbol, next, hdeclare, hrest⟩ := declareEach_cons_eq_ok.mp h
    obtain ⟨added, hadded, hmakes⟩ := ih hrest
    obtain ⟨-, ⟨info, hinfo, rfl⟩, rfl⟩ := declare_eq_ok_iff.mp hdeclare
    exact ⟨_ :: added, by rw [hadded, List.append_assoc]; rfl, .cons ⟨rfl, hinfo, rfl⟩ hmakes⟩

/-- No two variables of a table have one key. -/
theorem nodup_key_declareEach (hnodup : (table.symbols.map Symbol.key).Nodup)
    (h : table.declareEach declarations = .ok other) : (other.symbols.map Symbol.key).Nodup := by
  induction declarations generalizing table with
  | nil =>
    obtain rfl := Except.ok.inj h
    exact hnodup
  | cons declaration rest ih =>
    obtain ⟨symbol, next, hdeclare, hrest⟩ := declareEach_cons_eq_ok.mp h
    refine ih ?_ hrest
    obtain ⟨hnew, ⟨info, -, rfl⟩, rfl⟩ := declare_eq_ok_iff.mp hdeclare
    rw [List.map_append, List.nodup_append]
    refine ⟨hnodup, List.pairwise_singleton _ _, ?_⟩
    rintro key hkey _ hfresh rfl
    obtain rfl := List.mem_singleton.mp hfresh
    obtain ⟨symbol, hsymbol, hsame⟩ := List.mem_map.mp hkey
    have hnone : table.symbols.find? (·.key == foldName declaration.name) = none := by
      simpa [contains, get?] using hnew
    have hother := List.find?_eq_none.mp hnone symbol hsymbol
    exact hother (beq_iff_eq.mpr hsame)

theorem declareAll_eq_declareEach (params : List Parameter) :
    table.declareAll params = table.declareEach (params.map Parameter.declaration) := by
  induction params generalizing table with
  | nil => rfl
  | cons param rest ih =>
    rw [declareAll, List.map_cons, declareEach]
    cases hdeclare : table.declare param.name param.type param.kind with
    | error fault => simp [Parameter.declaration, hdeclare, bind, Except.bind]
    | ok pair => simpa [Parameter.declaration, hdeclare, bind, Except.bind] using ih

end SymbolTable

/-! ## The declarations of a body -/

namespace Statement

/-- The variables that a statement declares by itself. -/
def vars : Statement → List VarDecl
  | declare vars => vars
  | _ => []

mutual

/-- The variables that are declared in a statement, each with whether its declaration stands in a Go
block. -/
def placed (inBlock : Bool) : Statement → List (Bool × VarDecl)
  | declare vars => vars.map (inBlock, ·)
  | ifElse _ thenBranch elseBranch => listPlaced true thenBranch ++ elsePlaced elseBranch
  | .while _ body => listPlaced true body
  | block body => listPlaced inBlock body
  | tryCatch tryBody catchBody => listPlaced true tryBody ++ listPlaced true catchBody
  | _ => []

/-- The variables that are declared in a list of statements. -/
def listPlaced (inBlock : Bool) : List Statement → List (Bool × VarDecl)
  | [] => []
  | statement :: rest => placed inBlock statement ++ listPlaced inBlock rest

/-- The variables that are declared in an optional branch. -/
def elsePlaced : Option (List Statement) → List (Bool × VarDecl)
  | none => []
  | some body => listPlaced true body

end

/-- The variables among some whose declarations stand in Go blocks, or those of the others. -/
def pick (inBlock : Bool) (placed : List (Bool × VarDecl)) : List VarDecl :=
  (placed.filter (·.1 == inBlock)).map (·.2)

@[simp]
theorem pick_append {inBlock : Bool} {front back : List (Bool × VarDecl)} :
    pick inBlock (front ++ back) = pick inBlock front ++ pick inBlock back := by
  simp [pick]

@[simp]
theorem pick_nil {inBlock : Bool} : pick inBlock [] = [] := rfl

theorem pick_map {inBlock inBlock' : Bool} {vars : List VarDecl} :
    pick inBlock (vars.map (inBlock', ·)) = if inBlock' = inBlock then vars else [] := by
  induction vars with
  | nil => simp
  | cons var rest ih => cases inBlock <;> cases inBlock' <;> simp_all [pick]

theorem pick_flatMap {α : Type} {inBlock : Bool} {list : List α} {f : α → List (Bool × VarDecl)} :
    pick inBlock (list.flatMap f) = list.flatMap fun a => pick inBlock (f a) := by
  simp [pick, List.filter_flatMap, List.map_flatMap]

theorem listPlaced_eq {inBlock : Bool} {body : List Statement} :
    listPlaced inBlock body = body.flatMap (placed inBlock) := by
  induction body with
  | nil => rfl
  | cons s rest ih => rw [listPlaced, ih, List.flatMap_cons]

theorem listNeeds_eq {config : Config} {inBlock inClosure : Bool} {body : List Statement} :
    listNeeds config inBlock inClosure body = body.flatMap (needs config inBlock inClosure) := by
  induction body with
  | nil => rfl
  | cons s rest ih => rw [listNeeds, ih, List.flatMap_cons]

theorem nestedList_eq {body : List Statement} : nestedList body = body.flatMap nested := by
  induction body with
  | nil => rfl
  | cons s rest ih => rw [nestedList, ih, List.flatMap_cons]

/-- The variables of a statement are those of the statements inside it. -/
theorem map_placed (s : Statement) (inBlock : Bool) :
    (s.placed inBlock).map (·.2) = s.nested.flatMap vars := by
  induction s using childInduction generalizing inBlock with
  | step s ih =>
    have hlist (body : List Statement) (hbody : body ∈ s.children) (inBlock : Bool) :
        (listPlaced inBlock body).map (·.2) = (nestedList body).flatMap vars := by
      rw [listPlaced_eq, nestedList_eq, List.map_flatMap, List.flatMap_assoc]
      exact List.flatMap_congr fun t ht => ih body hbody t ht inBlock
    cases s with
    | ifElse condition thenBranch elseBranch =>
      have hthen := hlist thenBranch (by simp [children]) true
      cases elseBranch with
      | none => simp [placed, elsePlaced, nested, nestedElse, vars, hthen]
      | some elseBranch =>
        have helse := hlist elseBranch (by simp [children]) true
        simp [placed, elsePlaced, nested, nestedElse, vars, hthen, helse]
    | «while» condition body =>
      simp [placed, nested, vars, hlist body (by simp [children])]
    | block body => simp [placed, nested, vars, hlist body (by simp [children])]
    | tryCatch tryBody catchBody =>
      have htry := hlist tryBody (by simp [children]) true
      have hcatch := hlist catchBody (by simp [children]) true
      simp [placed, nested, vars, htry, hcatch]
    | _ => simp [placed, nested, vars, Function.comp_def]

/-- All declarations inside a Go block stand in one. -/
theorem fst_of_mem_placed {s : Statement} {pair : Bool × VarDecl} (h : pair ∈ s.placed true) :
    pair.1 = true := by
  induction s using childInduction with
  | step s ih =>
    have hlist (body : List Statement) (hbody : body ∈ s.children)
        (hmem : pair ∈ listPlaced true body) : pair.1 = true := by
      rw [listPlaced_eq, List.mem_flatMap] at hmem
      obtain ⟨t, ht, hpair⟩ := hmem
      exact ih body hbody t ht hpair
    cases s with
    | declare vars =>
      obtain ⟨var, -, rfl⟩ := List.mem_map.mp h
      rfl
    | ifElse condition thenBranch elseBranch =>
      rcases List.mem_append.mp h with hthen | helse
      · exact hlist thenBranch (by simp [children]) hthen
      · cases elseBranch with
        | none => cases helse
        | some elseBranch => exact hlist elseBranch (by simp [children]) helse
    | «while» condition body => exact hlist body (by simp [children]) h
    | block body => exact hlist body (by simp [children]) h
    | tryCatch tryBody catchBody =>
      rcases List.mem_append.mp h with htry | hcatch
      · exact hlist tryBody (by simp [children]) htry
      · exact hlist catchBody (by simp [children]) hcatch
    | _ => cases h

theorem pick_false_listPlaced_true (body : List Statement) :
    pick false (listPlaced true body) = [] := by
  simp only [pick, List.map_eq_nil_iff, List.filter_eq_nil_iff, listPlaced_eq, List.mem_flatMap]
  rintro pair ⟨s, -, hpair⟩
  simp [fst_of_mem_placed hpair]

/-- Of all statements outside of Go blocks, only declarations and `BEGIN … END` hold declarations
that stay. -/
theorem pick_false_placed {s : Statement} (hdeclare : ∀ vars, s ≠ declare vars)
    (hblock : ∀ body, s ≠ block body) : pick false (s.placed false) = [] := by
  cases s with
  | declare vars => exact absurd rfl (hdeclare vars)
  | block body => exact absurd rfl (hblock body)
  | ifElse condition thenBranch elseBranch =>
    cases elseBranch <;> simp [placed, elsePlaced, pick_false_listPlaced_true]
  | «while» | tryCatch => simp [placed, pick_false_listPlaced_true]
  | _ => rfl

/-- The name of a variable that a need has declared at function entry. -/
def hoistName? : Need → Option String
  | .hoist name => some name
  | _ => none

theorem filterMap_exprNeeds (config : Config) (s : Statement) :
    (s.exprNeeds config).filterMap hoistName? = [] := by
  simp only [List.filterMap_eq_nil_iff]
  intro need hneed
  cases need with
  | hoist name => exact absurd hneed (hoist_notMem_exprNeeds config name s)
  | _ => rfl

theorem filterMap_ownNeeds (config : Config) (inBlock inClosure : Bool) (s : Statement) :
    (s.ownNeeds config inBlock inClosure).filterMap hoistName? =
      if inBlock then s.vars.map (·.name) else [] := by
  by_cases hdeclare : ∃ vars, s = declare vars
  · obtain ⟨vars, rfl⟩ := hdeclare
    cases inBlock with
    | false => rfl
    | true => simp [ownNeeds, Statement.vars, hoistName?, List.filterMap_map, Function.comp_def]
  · have hnone : s.vars = [] := by
      cases s with
      | declare vars => exact absurd ⟨vars, rfl⟩ hdeclare
      | _ => rfl
    rw [hnone, List.map_nil, ite_self, List.filterMap_eq_nil_iff]
    intro need hneed
    cases need with
    | hoist name =>
      obtain ⟨-, vars, heq, -⟩ := hoist_mem_ownNeeds_iff.mp hneed
      exact absurd ⟨vars, heq⟩ hdeclare
    | _ => rfl

/-- The survey lists the variables that are declared in Go blocks, in the order of the source. -/
theorem filterMap_needs (config : Config) (s : Statement) (inBlock inClosure : Bool) :
    (s.needs config inBlock inClosure).filterMap hoistName? =
      (pick true (s.placed inBlock)).map (·.name) := by
  induction s using childInduction generalizing inBlock inClosure with
  | step s ih =>
    have hlist (body : List Statement) (hbody : body ∈ s.children) (inBlock inClosure : Bool) :
        (listNeeds config inBlock inClosure body).filterMap hoistName? =
          (pick true (listPlaced inBlock body)).map (·.name) := by
      rw [listNeeds_eq, listPlaced_eq, pick_flatMap, List.filterMap_flatMap, List.map_flatMap]
      exact List.flatMap_congr fun t ht => ih body hbody t ht inBlock inClosure
    have hexprs := filterMap_exprNeeds config s
    cases s with
    | ifElse condition thenBranch elseBranch =>
      have hthen := hlist thenBranch (by simp [children]) true inClosure
      cases elseBranch with
      | none => simp [needs, elseNeeds, placed, elsePlaced, hexprs, hthen]
      | some elseBranch =>
        have helse := hlist elseBranch (by simp [children]) true inClosure
        simp [needs, elseNeeds, placed, elsePlaced, hexprs, hthen, helse]
    | «while» condition body =>
      simp [needs, placed, hexprs, hlist body (by simp [children])]
    | block body => simp [needs, placed, hlist body (by simp [children])]
    | tryCatch tryBody catchBody =>
      have htry := hlist tryBody (by simp [children]) true true
      have hcatch := hlist catchBody (by simp [children]) true true
      simp [needs, placed, htry, hcatch]
    | declare vars =>
      rw [needs_of_children_eq_nil rfl, List.filterMap_append, hexprs, filterMap_ownNeeds]
      cases inBlock <;> simp [placed, pick_map, Statement.vars]
    | _ =>
      rw [needs_of_children_eq_nil rfl, List.filterMap_append, hexprs, filterMap_ownNeeds]
      cases inBlock <;> rfl

end Statement

namespace Procedure

variable (procedure : Procedure)

/-- The variables that the body declares, in the order of the source. -/
def vars : List VarDecl :=
  (Statement.listPlaced false procedure.body).map (·.2)

/-- The variables that are declared in Go blocks. -/
def movedVars : List VarDecl :=
  Statement.pick true (Statement.listPlaced false procedure.body)

/-- The variables that are declared outside of all Go blocks. -/
def keptVars : List VarDecl :=
  Statement.pick false (Statement.listPlaced false procedure.body)

/-- The declaration at function entry of a variable that is declared in a Go block. Its type is that
of the first declaration of the variable. -/
def entryDeclaration (var : VarDecl) : Declaration where
  name := var.name
  type :=
    ((procedure.vars.find? (Text.toLower ·.name == Text.toLower var.name)).map (·.type)).getD var.type
  kind := .declared

/-- The declarations that a procedure makes: the parameters, what is declared at function entry, and
the declarations that stay and are not taken for one of those. -/
def declarations : List Declaration :=
  procedure.params.map Parameter.declaration ++ procedure.movedVars.map procedure.entryDeclaration ++
    (procedure.keptVars.filter fun var =>
      !procedure.movedVars.any (foldName ·.name == foldName var.name)).map VarDecl.declaration

variable {procedure : Procedure} {config : Config}

/-- The survey lists the names of the variables that are declared in Go blocks. -/
theorem hoisted_eq : (Survey.ofProcedure config procedure).hoisted =
    procedure.movedVars.map (·.name) := by
  have hbody : (Statement.listNeeds config false false procedure.body).filterMap
      Statement.hoistName? = procedure.movedVars.map (·.name) := by
    rw [movedVars, Statement.listNeeds_eq, Statement.listPlaced_eq, Statement.pick_flatMap,
      List.filterMap_flatMap, List.map_flatMap]
    exact List.flatMap_congr fun s _ => s.filterMap_needs config false false
  have hparams : (procedure.params.flatMap (Survey.defaultNeeds config)).filterMap
      Statement.hoistName? = [] := by
    rw [List.filterMap_flatMap, List.flatMap_eq_nil_iff]
    exact fun param _ => Statement.filterMap_exprNeeds config (.ret param.default)
  calc
    (Survey.ofProcedure config procedure).hoisted
    _ = (procedure.params.flatMap (Survey.defaultNeeds config) ++
          Statement.listNeeds config false false procedure.body).filterMap Statement.hoistName? := rfl
    _ = procedure.movedVars.map (·.name) := by
      rw [List.filterMap_append, hparams, hbody, List.nil_append]

theorem isHoisted_eq (name : String) : (Survey.ofProcedure config procedure).isHoisted name =
    procedure.movedVars.any (foldName ·.name == foldName name) := by
  rw [Survey.isHoisted, hoisted_eq, List.any_map]
  rfl

theorem vars_eq : procedure.vars = procedure.statements.flatMap Statement.vars := by
  rw [vars, statements, Statement.listPlaced_eq, Statement.nestedList_eq, List.map_flatMap,
    List.flatMap_assoc]
  exact List.flatMap_congr fun s _ => s.map_placed false

/-- The type of a variable that is declared at function entry is looked up among all declarations. -/
theorem declaredType?_eq {statements : List Statement} {name : String} :
    declaredType? statements name =
      ((statements.flatMap Statement.vars).find? (Text.toLower ·.name == Text.toLower name)).map
        (·.type) := by
  induction statements with
  | nil => rfl
  | cons s rest ih =>
    rw [declaredType?] at ih ⊢
    rw [List.findSome?_cons, ih, List.flatMap_cons, List.find?_append]
    cases s with
    | declare vars =>
      dsimp only [Statement.vars]
      cases vars.find? (Text.toLower ·.name == Text.toLower name) <;> simp
    | _ => simp [Statement.vars]

/-- The declarations that a survey leaves in place. -/
def remaining (survey : Survey) (vars : List VarDecl) : List Declaration :=
  (vars.filter (!survey.isHoisted ·.name)).map VarDecl.declaration

/-- Declarations that have not been moved are made in order. -/
theorem declareEach_lowerDeclares {c : Context} {p after : Progress} {vars : List VarDecl}
    (h : (lowerDeclares vars).Runs c p () after) :
    p.symbols.declareEach (remaining c.survey vars) = .ok after.symbols := by
  induction vars generalizing p with
  | nil =>
    obtain ⟨-, rfl⟩ := runs_pure.mp h
    rfl
  | cons var rest ih =>
    obtain ⟨_, middle, hvar, hrest⟩ := runs_bind.mp h
    have hothers := ih hrest
    cases hmoved : c.survey.isHoisted var.name with
    | true =>
      rw [symbols_lowerDeclare hmoved hvar] at hothers
      simpa [remaining, hmoved] using hothers
    | false =>
      obtain ⟨_, _, symbol, hdeclare, -⟩ := runs_lowerDeclare hmoved hvar
      have hsplit : remaining c.survey (var :: rest) =
          var.declaration :: remaining c.survey rest := by
        simp [remaining, hmoved]
      rw [hsplit]
      exact SymbolTable.declareEach_cons_eq_ok.mpr ⟨symbol, _, hdeclare, hothers⟩

/-- The variables at function entry are declared in order. -/
theorem declareEach_declareHoisted {c : Context} {p after : Progress} {vars : List VarDecl}
    (hvars : vars ⊆ procedure.vars)
    (h : (declareHoisted procedure.statements (vars.map (·.name))).Runs c p () after) :
    p.symbols.declareEach (vars.map procedure.entryDeclaration) = .ok after.symbols := by
  induction vars generalizing p with
  | nil =>
    obtain ⟨-, rfl⟩ := runs_pure.mp h
    rfl
  | cons var rest ih =>
    obtain ⟨hvar, hrest⟩ := List.cons_subset.mp hvars
    have htype : declaredType? procedure.statements var.name =
        some (procedure.entryDeclaration var).type := by
      rw [declaredType?_eq, ← vars_eq, entryDeclaration]
      cases hfound : procedure.vars.find? (Text.toLower ·.name == Text.toLower var.name) with
      | none => exact absurd (List.find?_eq_none.mp hfound var hvar) (by simp)
      | some first => rfl
    rw [List.map_cons, declareHoisted, htype] at h
    obtain ⟨symbol, middle, hfirst, hothers⟩ := runs_bind.mp h
    obtain ⟨symbols, hdeclare, rfl⟩ := runs_declare.mp hfirst
    exact SymbolTable.declareEach_cons_eq_ok.mpr ⟨symbol, symbols, hdeclare, ih hrest hothers⟩

/-! ## The statements of a body -/

namespace Stands

variable {lowered : LoweredProcedure} {frame : Frame} {spot : Go.Spot}

/-- A list of statements outside of all Go blocks makes the declarations that stay, if its members
do. -/
theorem declareEach_list {after : Progress} (h : procedure.Stands config frame spot)
    (hlayers : spot.layers = [])
    (hmembers : ∀ s ∈ frame.statements, ∀ (frame next : Frame) (spot : Go.Spot)
      (rest : List Statement), procedure.Stands config frame spot → spot.layers = [] →
      frame.statements = s :: rest → frame.Step next →
      frame.progress.symbols.declareEach (remaining (.ofProcedure config procedure)
        (Statement.pick false (s.placed false))) = .ok next.progress.symbols)
    (hends : frame.Ends after) :
    frame.progress.symbols.declareEach (remaining (.ofProcedure config procedure)
      (Statement.pick false (Statement.listPlaced false frame.statements))) = .ok after.symbols := by
  induction hstatements : frame.statements generalizing frame spot with
  | nil =>
    rw [hends.eq_of_nil hstatements]
    rfl
  | cons s rest ih =>
    obtain ⟨next, hstep, hrest⟩ := hends.step hstatements
    obtain ⟨written, hwritten, -⟩ := hstep.exists_extends
    have hfirst := hmembers s (hstatements ▸ List.mem_cons_self) frame next spot rest h hlayers
      hstatements hstep
    have hothers := hstep.statements_eq hstatements
    have hlast := ih (h.behind hstep hwritten) hlayers (fun t ht => hmembers t (by
      rw [hothers] at ht
      exact hstatements ▸ List.mem_cons_of_mem _ ht)) hrest hothers
    have hsplit : remaining (.ofProcedure config procedure)
        (Statement.pick false (Statement.listPlaced false (s :: rest))) =
        remaining (.ofProcedure config procedure) (Statement.pick false (s.placed false)) ++
          remaining (.ofProcedure config procedure)
            (Statement.pick false (Statement.listPlaced false rest)) := by
      simp [remaining, Statement.listPlaced]
    rw [hsplit]
    exact SymbolTable.declareEach_append hfirst hlast

/-- A statement outside of all Go blocks makes the declarations that stay. -/
theorem declareEach_step (hlower : procedure.lower config = .ok lowered) (s : Statement) :
    ∀ (frame next : Frame) (spot : Go.Spot) (rest : List Statement),
      procedure.Stands config frame spot → spot.layers = [] →
      frame.statements = s :: rest → frame.Step next →
      frame.progress.symbols.declareEach (remaining (.ofProcedure config procedure)
        (Statement.pick false (s.placed false))) = .ok next.progress.symbols := by
  induction s using Statement.childInduction with
  | step s ih =>
    intro frame next spot rest h hlayers hstatements hstep
    by_cases hdeclare : ∃ vars, s = .declare vars
    · obtain ⟨vars, rfl⟩ := hdeclare
      have hvars := declareEach_lowerDeclares (hstep.runs_declares hstatements)
      have hpick : Statement.pick false ((Statement.declare vars).placed false) = vars := by
        simp [Statement.placed, Statement.pick_map]
      rw [hpick, ← h.survey_eq]
      exact hvars
    · by_cases hblock : ∃ body, s = .block body
      · obtain ⟨body, rfl⟩ := hblock
        obtain ⟨spot', hinner, hlayers'⟩ := h.into_block hlayers (h.succeeds hlower) hstatements
        exact hinner.declareEach_list hlayers' (fun t ht => ih body List.mem_cons_self t ht)
          (hstep.ends_block hstatements)
      · have hmoved := h.moved_inside (hstatements ▸ List.mem_cons_self)
          (fun body heq => hblock ⟨body, heq⟩) fun vars heq => hdeclare ⟨vars, heq⟩
        rw [hstep.symbols_eq hstatements hmoved, Statement.pick_false_placed
          (fun vars heq => hdeclare ⟨vars, heq⟩) fun body heq => hblock ⟨body, heq⟩]
        rfl

end Stands

theorem movedVars_subset : procedure.movedVars ⊆ procedure.vars := by
  intro var hvar
  obtain ⟨pair, hpair, rfl⟩ := List.mem_map.mp hvar
  exact List.mem_map_of_mem (List.mem_filter.mp hpair).1

/-- The variables at function entry are the parameters and the variables that have been moved. -/
theorem Begins.declareEach {first : Frame} (hbegins : procedure.Begins config first) :
    (Progress.start config (.ofProcedure config procedure)).symbols.declareEach
      (procedure.params.map Parameter.declaration ++
        procedure.movedVars.map procedure.entryDeclaration) = .ok first.progress.symbols := by
  obtain ⟨headed, lined, hhead, hlines, hiterators⟩ := runs_lowerEntry hbegins.2.1
  obtain ⟨declared, moved, hparams, hmoved, hheaded⟩ := hbegins.declares_head hhead
  obtain ⟨_, hlined, -⟩ := runs_emitHoisted hlines
  obtain ⟨hsymbols, -⟩ := runs_hoistIterators hiterators
  obtain ⟨table, htable, rfl⟩ := runs_declareParams hparams
  rw [hoisted_eq] at hmoved
  rw [SymbolTable.declareAll_eq_declareEach] at htable
  rw [hsymbols, hlined.symbols, hheaded]
  exact SymbolTable.declareEach_append htable
    (declareEach_declareHoisted movedVars_subset hmoved)

/-- The variables of a procedure are what its declarations make. -/
theorem declareEach_declarations {lowered : LoweredProcedure}
    (hlower : procedure.lower config = .ok lowered) :
    (Progress.start config (.ofProcedure config procedure)).symbols.declareEach
      procedure.declarations = .ok (procedure.finalTable config) := by
  obtain ⟨c, final, hstart, hruns⟩ := Procedure.lower_eq_ok hlower
  obtain ⟨first, finished, hbegins, hends, hfinal, -⟩ :=
    Procedure.exists_begins_of_runs hstart hruns
  have hpermissive : ((Scheme.constant first.context.survey finished.symbols).discipline
      first.context).Permissive := Scheme.permissive_constant _ _ _
  obtain ⟨hsymbols, back, hback, -⟩ := hpermissive.emitFinalReturn hfinal rfl
  have hsymbols : final.symbols = finished.symbols := hsymbols
  have hstands : procedure.Stands config first ⟨first.progress.output, back, []⟩ :=
    .body hbegins hends hfinal hback
  have hbody := hstands.declareEach_list rfl (fun s _ => Stands.declareEach_step hlower s) hends
  have hkept : remaining (.ofProcedure config procedure)
      (Statement.pick false (Statement.listPlaced false first.statements)) =
      (procedure.keptVars.filter fun var =>
        !procedure.movedVars.any (foldName ·.name == foldName var.name)).map VarDecl.declaration := by
    simp only [remaining, isHoisted_eq, hbegins.2.2.2.2, keptVars]
  rw [finalTable_eq hstart hruns, hsymbols, declarations, ← hkept]
  exact SymbolTable.declareEach_append hbegins.declareEach hbody

/-! ## Declarations of one variable -/

/-- The keys of everything that a procedure declares. -/
def keys (procedure : Procedure) : List String :=
  procedure.params.map (foldName ·.name) ++ procedure.vars.map (foldName ·.name)

/-- A declaration of a variable is moved to function entry, and another one stays. -/
def Merges (procedure : Procedure) : Prop :=
  ∃ kept ∈ procedure.keptVars, ∃ moved ∈ procedure.movedVars,
    foldName kept.name = foldName moved.name

/-- The declared variables are those that are moved and those that are not. -/
theorem perm_vars : (procedure.movedVars ++ procedure.keptVars).Perm procedure.vars := by
  have hsplit := List.filter_append_perm (·.1 == true) (Statement.listPlaced false procedure.body)
  have hkept : procedure.keptVars =
      ((Statement.listPlaced false procedure.body).filter (!·.1 == true)).map (·.2) := by
    simp [keptVars, Statement.pick]
  rw [hkept, movedVars, Statement.pick, ← List.map_append]
  exact hsplit.map _

theorem perm_keys : (procedure.params.map (foldName ·.name) ++
    (procedure.movedVars.map (foldName ·.name) ++ procedure.keptVars.map (foldName ·.name))).Perm
      procedure.keys := by
  rw [← List.map_append]
  exact (perm_vars.map _).append_left _

theorem map_key_declarations : procedure.declarations.map Declaration.key =
    procedure.params.map (foldName ·.name) ++ (procedure.movedVars.map (foldName ·.name) ++
      (procedure.keptVars.filter fun var =>
        !procedure.movedVars.any (foldName ·.name == foldName var.name)).map (foldName ·.name)) := by
  simp only [declarations, List.map_append, List.map_map, List.append_assoc]
  rfl

/-- Without declarations that are taken for others, all declarations are made. -/
theorem filter_keptVars (h : ¬procedure.Merges) : (procedure.keptVars.filter fun var =>
    !procedure.movedVars.any (foldName ·.name == foldName var.name)) = procedure.keptVars := by
  refine List.filter_eq_self.mpr fun kept hkept => ?_
  rw [Bool.not_eq_true', List.any_eq_false]
  exact fun moved hmoved heq => h ⟨kept, hkept, moved, hmoved, (beq_iff_eq.mp heq).symm⟩

/-- The keys of a procedure whose own declarations are of different variables. -/
theorem nodup_keys_iff (hnodup : (procedure.declarations.map Declaration.key).Nodup) :
    procedure.keys.Nodup ↔ ¬procedure.Merges := by
  rw [← perm_keys.nodup_iff]
  constructor
  · rintro hkeys ⟨kept, hkept, moved, hmoved, heq⟩
    have hapart := (List.nodup_append.mp (List.nodup_append.mp hkeys).2.1).2.2
    exact hapart _ (List.mem_map_of_mem hmoved) _ (List.mem_map_of_mem hkept) heq.symm
  · intro hmerges
    rwa [map_key_declarations, filter_keptVars hmerges] at hnodup

/-- A variable with one declaration is declared at function entry as it is declared. -/
theorem entryDeclaration_eq {var : VarDecl} (hkeys : procedure.keys.Nodup)
    (hvar : var ∈ procedure.vars) : procedure.entryDeclaration var = var.declaration := by
  rw [entryDeclaration, VarDecl.declaration]
  cases hfound : procedure.vars.find? (Text.toLower ·.name == Text.toLower var.name) with
  | none => rfl
  | some first =>
    have hsame : Text.toLower first.name = Text.toLower var.name := by
      simpa using List.find?_some hfound
    have hvars : (procedure.vars.map (foldName ·.name)).Nodup := (List.nodup_append.mp hkeys).2.1
    obtain rfl : first = var := List.inj_on_of_nodup_map hvars (List.mem_of_find?_eq_some hfound) hvar
      (foldName_eq_of_toLower_eq hsame)
    rfl

/-- The variables of a procedure that is turned into Go are what its declarations make, and these are
of different variables. So each declaration of the source makes a variable of its own, which has its
type, exactly when no declaration that stays is of a variable that another declaration has at function
entry. -/
theorem redeclared_unnoticed_iff {lowered : LoweredProcedure}
    (hlower : procedure.lower config = .ok lowered) :
    let symbols := (procedure.finalTable config).symbols
    List.Forall₂ Declaration.Makes procedure.declarations symbols ∧
      (procedure.declarations.map Declaration.key).Nodup ∧
      (procedure.keys.Nodup ↔ ¬procedure.Merges) ∧
      (symbols.length = procedure.params.length + procedure.vars.length ↔ ¬procedure.Merges) ∧
      (¬procedure.Merges → ∀ var ∈ procedure.vars, ∃ symbol ∈ symbols,
        var.declaration.Makes symbol) := by
  intro symbols
  have hdeclared := declareEach_declarations hlower
  obtain ⟨added, hadded, hmakes⟩ := SymbolTable.makes_declareEach hdeclared
  rw [Progress.start_symbols, List.nil_append] at hadded
  obtain rfl : symbols = added := hadded
  have hnodup : (procedure.declarations.map Declaration.key).Nodup := by
    rw [Declaration.map_key_eq hmakes]
    refine SymbolTable.nodup_key_declareEach ?_ hdeclared
    rw [Progress.start_symbols]
    exact List.nodup_nil
  have hiff := nodup_keys_iff hnodup
  refine ⟨hmakes, hnodup, hiff, ?_, fun hmerges var hvar => ?_⟩
  · have hvars := procedure.perm_vars.length_eq
    rw [List.length_append] at hvars
    rw [← hmakes.length_eq, declarations]
    simp only [List.length_append, List.length_map]
    constructor
    · intro hlength hmerges
      have hall : (procedure.keptVars.filter fun var =>
          !procedure.movedVars.any (foldName ·.name == foldName var.name)).length =
            procedure.keptVars.length := by
        omega
      obtain ⟨kept, hkept, moved, hmoved, heq⟩ := hmerges
      have hnone := List.length_filter_eq_length_iff.mp hall kept hkept
      simp only [Bool.not_eq_true', List.any_eq_false, beq_iff_eq] at hnone
      exact hnone moved hmoved heq.symm
    · intro hmerges
      rw [filter_keptVars hmerges]
      omega
  · have hmem : var.declaration ∈ procedure.declarations := by
      rw [declarations, filter_keptVars hmerges]
      rcases List.mem_append.mp (perm_vars.mem_iff.mpr hvar) with hmoved | hkept
      · rw [← entryDeclaration_eq (hiff.mpr hmerges) hvar]
        simp [List.mem_map_of_mem hmoved]
      · simp [List.mem_map_of_mem hkept]
    exact exists_of_forall₂ hmakes hmem

open Build in
/-- A procedure that declares a variable of one type, and again of another one in a conditional. -/
def retyped : Procedure where
  name := "usp_Retyped"
  body := [declareInit "x" "INT" (int 1),
    ifThen (eq (var "x") (int 1)) [declare "x" "VARCHAR(10)"],
    .print (var "x")]

/-- The second declaration of `retyped` is not noticed: there is one variable, which has the type of
the first one. -/
theorem retyped_unnoticed : ∃ lowered, retyped.lower {} = .ok lowered ∧ retyped.Merges ∧
    ¬retyped.keys.Nodup ∧ (retyped.finalTable {}).symbols.length ≠ retyped.vars.length ∧
    (retyped.finalTable {}).symbols.map (·.type) = [⟨.int32, "INT"⟩] := by
  have hok : (retyped.lower {}).isOk = true := by decide +kernel
  obtain ⟨lowered, hlower⟩ := Procedure.exists_lower_eq_ok hok
  have hmerges : retyped.Merges := by
    refine ⟨⟨"@x", "INT", some (.literal (.int 1))⟩, ?_, ⟨"@x", "VARCHAR(10)", none⟩, ?_, rfl⟩
    · exact List.mem_singleton.mpr rfl
    · exact List.mem_singleton.mpr rfl
  obtain ⟨-, -, hkeys, hlength, -⟩ := redeclared_unnoticed_iff hlower
  refine ⟨lowered, hlower, hmerges, fun h => hkeys.mp h hmerges, fun h => ?_, by decide +kernel⟩
  exact hlength.mp (h.trans (Nat.zero_add _).symm) hmerges

end Procedure

end Sproc
