import Mathlib.Data.List.Induction
import Sproc.Proofs.Lower.Scope

/-!
# Declarations of local variables

A local variable is declared by one line of Go, which stands in the outermost block of the function:
at function entry if some declaration of the variable stands in a Go block, and at its declaration
otherwise. Whenever a variable can be looked up, this line has been written.

The moments at which lines are written are found along the frames of a procedure. Two of them never
coincide in a variable, since the first one makes the variable known and the second one would refuse
to declare it again.

## Main definitions

* `Procedure.Declares`: the line of a variable is written behind some code
* `Procedure.Reached`: what is written and known at the moments of a generation

## Main results

* `Procedure.Stands.known`: the variables that are known have their lines above
* `Procedure.Declares.unique`: a variable has one line
* `Procedure.locals_are_declared_once`
-/

namespace Sproc

open Lower

/-- A list is split in one way at an entry whose key no other entry has. -/
theorem List.eq_of_nodup_map {α β : Type} {f : α → β} {l front front' back back' : List α} {a b : α}
    (hnodup : (l.map f).Nodup) (h : l = front ++ a :: back) (h' : l = front' ++ b :: back')
    (heq : f a = f b) : front = front' := by
  have hlength : front.length = front'.length := by
    refine (List.getElem?_inj (by simp [h]) hnodup).mp ?_
    trans some (f a)
    · simp [h]
    · simp [h', heq]
  exact (List.append_inj (h.symm.trans h') hlength).1

namespace Lower

variable {c : Context} {p after : Progress}

/-! ## Steps that declare variables -/

/-- A value leaves the variables as they are. -/
theorem runs_lowerValue {e : Expr} {type : GoType} {value : Go.Expr}
    (h : (lowerValue e type).Runs c p value after) :
    after.symbols = p.symbols ∧ ∃ written, after.output = p.output ++ written := by
  have hregular := (Scheme.permissive_constant c.survey p.symbols c).regular (c := c)
  obtain ⟨hsymbols, written, hwritten, -⟩ := hasEffect_lowerValue_regular hregular.forms e type h rfl
  exact ⟨hsymbols, written, hwritten⟩

/-- A declaration that has not been moved writes the line of its variable behind the code of the
initial value, and makes the variable known. -/
theorem runs_lowerDeclare {var : VarDecl} (hmoved : c.survey.isHoisted var.name = false)
    (h : (lowerDeclare var).Runs c p () after) :
    ∃ value written symbol,
      p.symbols.declare var.name var.type .declared = .ok (symbol, after.symbols) ∧
      after.output = p.output ++
        (written ++ symbol.line value :: c.survey.useLines var.name symbol.goName) := by
  have hrest {info : TypeInfo} (hinfo : TypeName.classify var.type = .ok info)
      {value : Option Go.Expr} {valued : Progress} (hsymbols : valued.symbols = p.symbols)
      {written : List Go.Stmt} (hwritten : valued.output = p.output ++ written)
      (hruns : (do
        let symbol ← declare var.name var.type .declared
        importType info.go
        emit (.declare symbol.goName (.value info.go) value)
        emitUse var.name symbol.goName : Lower Unit).Runs c valued () after) :
      ∃ value written symbol,
        p.symbols.declare var.name var.type .declared = .ok (symbol, after.symbols) ∧
        after.output = p.output ++
          (written ++ symbol.line value :: c.survey.useLines var.name symbol.goName) := by
    simp only [runs_bind, runs_emit] at hruns
    obtain ⟨symbol, _, hdeclare, _, imported, himport, _, _, rfl, huse⟩ := hruns
    obtain ⟨symbols, hsymbol, rfl⟩ := runs_declare.mp hdeclare
    have himported : Progress.Annotated { valued with symbols } imported :=
      (hasEffect_importType info.go).annotated himport
    obtain ⟨hused, -, houtput⟩ := runs_emitUse huse
    have hafter : after.symbols = symbols := hused.trans himported.symbols
    obtain ⟨-, ⟨info', hinfo', hsame⟩, -⟩ := SymbolTable.declare_eq_ok_iff.mp hsymbol
    obtain rfl : info = info' := Except.ok.inj (hinfo.symm.trans hinfo')
    refine ⟨value, written, symbol, by rw [hafter, ← hsymbols, hsymbol], ?_⟩
    have hline : symbol.line value = .declare symbol.goName (.value info.go) value := by
      rw [Symbol.line, hsame]
    rw [houtput, hline, Progress.wrote, himported.output, hwritten]
    simp
  simp only [lowerDeclare, runs_bind, runs_read] at h
  obtain ⟨c, _, ⟨rfl, rfl⟩, h⟩ := h
  rw [hmoved] at h
  simp only [Bool.false_eq_true, if_false, runs_bind, runs_ofExcept] at h
  obtain ⟨info, _, ⟨hinfo, rfl⟩, h⟩ := h
  cases hinit : var.init with
  | none =>
    rw [hinit] at h
    obtain ⟨value, _, hvalue, h⟩ := runs_bind.mp h
    obtain ⟨rfl, rfl⟩ := runs_pure.mp hvalue
    exact hrest hinfo rfl (List.append_nil _).symm h
  | some init =>
    rw [hinit] at h
    obtain ⟨value, valued, hvalue, h⟩ := runs_bind.mp h
    rw [map_eq_pure_bind] at hvalue
    obtain ⟨_, _, hvalue, hpure⟩ := runs_bind.mp hvalue
    obtain ⟨rfl, rfl⟩ := runs_pure.mp hpure
    obtain ⟨hsymbols, written, hwritten⟩ := runs_lowerValue hvalue
    exact hrest hinfo hsymbols hwritten h

/-- A declaration that has been moved leaves the variables as they are. -/
theorem symbols_lowerDeclare {var : VarDecl} (hmoved : c.survey.isHoisted var.name = true)
    (h : (lowerDeclare var).Runs c p () after) : after.symbols = p.symbols := by
  have hregular := (Scheme.permissive_constant c.survey p.symbols c).regular (c := c)
  have heffect : (lowerDeclares [var]).HasEffect c _ :=
    hasEffect_lowerDeclares_hoisted hregular.forms (by simpa using hmoved)
  have hruns : (lowerDeclares [var]).Runs c p () after :=
    runs_bind.mpr ⟨(), after, h, runs_pure.mpr ⟨rfl, rfl⟩⟩
  exact (heffect hruns rfl).1

theorem runs_lowerDeclares_append {vars rest : List VarDecl}
    (h : (lowerDeclares (vars ++ rest)).Runs c p () after) :
    ∃ middle, (lowerDeclares vars).Runs c p () middle ∧
      (lowerDeclares rest).Runs c middle () after := by
  induction vars generalizing p with
  | nil => exact ⟨p, runs_pure.mpr ⟨rfl, rfl⟩, h⟩
  | cons var vars ih =>
    simp only [List.cons_append, lowerDeclares, runs_bind] at h ⊢
    obtain ⟨_, first, hfirst, hrest⟩ := h
    obtain ⟨middle, hmiddle, hlast⟩ := ih hrest
    exact ⟨middle, ⟨(), first, hfirst, hmiddle⟩, hlast⟩

end Lower

/-! ## The ends of frames -/

/-- All statements of a frame are turned into Go, and this is where it ends. -/
def Frame.Ends (frame : Frame) (after : Progress) : Prop :=
  (lowerStatements frame.index frame.prepared frame.statements).Runs frame.context frame.progress ()
    after

namespace Frame

variable {frame next inner : Frame} {after : Progress} {statement : Statement}
  {rest : List Statement}

theorem Ends.step (h : frame.Ends after) (hstatements : frame.statements = statement :: rest) :
    ∃ next, frame.Step next ∧ next.Ends after := by
  obtain ⟨c, index, prepared, _, p⟩ := frame
  obtain rfl := hstatements
  simp only [Ends, lowerStatements, runs_bind, runs_within, runs_located] at h
  obtain ⟨prepared', middle, hfirst, hrest⟩ := h
  exact ⟨_, .mk hfirst, hrest⟩

theorem Ends.eq_of_nil (h : frame.Ends after) (hstatements : frame.statements = []) :
    after = frame.progress := by
  unfold Ends at h
  rw [hstatements] at h
  exact (runs_pure.mp h).2

theorem Ends.follows (h : frame.Ends after) : frame.progress.Follows after := by
  obtain ⟨_, -, hextends⟩ := extends_lowerStatements h
  exact hextends.grows.follows

theorem Step.ends (h : frame.Step next) (hends : frame.Ends after) : next.Ends after := by
  cases h with
  | mk hruns =>
    obtain ⟨next, hstep, hnext⟩ := hends.step rfl
    rwa [Step.unique (.mk hruns) hstep]

theorem Step.runs_declares {vars : List VarDecl} (h : frame.Step next)
    (hstatements : frame.statements = .declare vars :: rest) :
    (lowerDeclares vars).Runs frame.here frame.progress () next.progress := by
  cases h with
  | mk hruns =>
    obtain ⟨rfl, rfl⟩ := List.cons.inj hstatements
    simp only [lowerStatement, runs_bind, runs_pure] at hruns
    obtain ⟨_, _, hvars, -, rfl⟩ := hruns
    exact hvars

/-- A block ends where the statements behind it start. -/
theorem Step.ends_block {body : List Statement} (h : frame.Step next)
    (hstatements : frame.statements = .block body :: rest) :
    Ends ⟨frame.here, 0, none, body, frame.progress⟩ next.progress := by
  cases h with
  | mk hruns =>
    obtain ⟨rfl, rfl⟩ := List.cons.inj hstatements
    exact (runs_blockStatement hruns).1

end Frame

/-! ## The lines of variables -/

/-- The first statement of a frame declares a variable that has not been moved, behind others. -/
structure Frame.DeclaresAt (frame : Frame) (vars : List VarDecl) (var : VarDecl) (symbol : Symbol)
    (reached after : Progress) : Prop where
  statements : ∃ others rest, frame.statements = .declare (vars ++ var :: others) :: rest
  reaches : (lowerDeclares vars).Runs frame.here frame.progress () reached
  stays : frame.here.survey.isHoisted var.name = false
  runs : (lowerDeclare var).Runs frame.here reached () after
  get? : after.symbols.get? var.name = some symbol

/-- The line of a variable is written behind some code of the outermost block, at function entry or
else at a declaration of the variable. -/
inductive Procedure.Declares (procedure : Procedure) (config : Config) (symbol : Symbol) :
    Bool → List Go.Stmt → Option Go.Expr → Prop
  | entry {first : Frame} {headed lined : Progress} {names rest : List String} {name : String} :
    procedure.Begins config first →
    lowerHead.Runs first.context (Progress.start config (.ofProcedure config procedure)) () headed →
    first.context.survey.hoisted = names ++ name :: rest →
    (emitHoisted names).Runs first.context headed () lined →
    lined.symbols.get? name = some symbol →
    Declares procedure config symbol true lined.output none
  /-- A declaration that has not been moved. -/
  | statement {frame : Frame} {spot : Go.Spot} {vars : List VarDecl} {var : VarDecl}
    {reached after : Progress} {written : List Go.Stmt} {value : Option Go.Expr} :
    procedure.Stands config frame spot → frame.DeclaresAt vars var symbol reached after →
    after.output = frame.progress.output ++ (written ++ symbol.line value ::
      frame.here.survey.useLines var.name symbol.goName) →
    Declares procedure config symbol false (spot.behind written).above value

/-- The declared variables that are known have their lines in what is written in the outermost
block. -/
def Procedure.Known (procedure : Procedure) (config : Config) (text : List Go.Stmt)
    (symbols : SymbolTable) : Prop :=
  ∀ symbol ∈ symbols.symbols, symbol.kind = .declared → ∃ atEntry front value,
    procedure.Declares config symbol atEntry front value ∧ front ++ [symbol.line value] <+: text

namespace Procedure

variable {procedure : Procedure} {config : Config} {lowered : LoweredProcedure}
  {first frame next : Frame} {spot : Go.Spot}

theorem Known.mono {text text' : List Go.Stmt} {symbols : SymbolTable}
    (h : procedure.Known config text symbols) (htext : text <+: text') :
    procedure.Known config text' symbols := by
  intro symbol hsymbol hkind
  obtain ⟨atEntry, front, value, hdeclares, hfront⟩ := h symbol hsymbol hkind
  exact ⟨atEntry, front, value, hdeclares, hfront.trans htext⟩

/-- The variables at function entry are the parameters and the variables that have been moved. -/
theorem Begins.declares_head (hbegins : procedure.Begins config first) {headed : Progress}
    (hhead : lowerHead.Runs first.context
      (Progress.start config (.ofProcedure config procedure)) () headed) :
    ∃ declared moved,
      (declareParams procedure.params).Runs first.context
        (Progress.start config (.ofProcedure config procedure)) () declared ∧
      (declareHoisted procedure.statements (Survey.ofProcedure config procedure).hoisted).Runs
        first.context declared () moved ∧
      headed.symbols = moved.symbols := by
  obtain ⟨functionName, verb, hcontext⟩ := Context.start_eq_ok hbegins.1
  obtain ⟨declared, moved, started, opened, hparams, hmoved, hstarted, hopening, hcounters⟩ :=
    runs_lowerHead hhead
  obtain ⟨_, hcounted, -⟩ := runs_emitCounters hcounters
  have hregular := (Scheme.permissive_constant first.context.survey started.symbols
    first.context).regular (c := first.context)
  have hopened : opened.symbols = started.symbols := (hasEffect_emitOpening hregular hopening rfl).1
  have hprocedure : first.context.procedure = procedure := by rw [hcontext]
  have hsurvey : first.context.survey = .ofProcedure config procedure := by rw [hcontext]
  rw [hprocedure] at hparams hmoved
  rw [hsurvey] at hmoved
  exact ⟨declared, moved, hparams, hmoved, hcounted.symbols.trans (hopened.trans hstarted.symbols)⟩

/-- The variables at function entry: no two names that are declared there are the same variable, and
the declared variables are those of the names. -/
theorem Begins.symbols_head (hbegins : procedure.Begins config first) {headed : Progress}
    (hhead : lowerHead.Runs first.context
      (Progress.start config (.ofProcedure config procedure)) () headed) :
    (first.context.survey.hoisted.map foldName).Nodup ∧
      ∀ symbol ∈ headed.symbols.symbols, symbol.kind = .declared →
        ∃ name ∈ first.context.survey.hoisted, headed.symbols.get? name = some symbol := by
  obtain ⟨functionName, verb, hcontext⟩ := Context.start_eq_ok hbegins.1
  obtain ⟨declared, moved, hparams, hmoved, hsymbols⟩ := hbegins.declares_head hhead
  have hsurvey : first.context.survey = .ofProcedure config procedure := by rw [hcontext]
  obtain ⟨hmembers, -, hnodup⟩ := runs_declareHoisted (fun _ => isSome_declaredType?) hmoved
  rw [hsurvey]
  refine ⟨hnodup, fun symbol hsymbol hkind => ?_⟩
  rw [hsymbols] at hsymbol ⊢
  refine (hmembers symbol hsymbol).resolve_left fun hparam => ?_
  -- A parameter has another role.
  rcases kind_of_mem_declareParams hparams hparam with hrole | hrole
  · cases hkind.symm.trans hrole
  · cases hkind.symm.trans hrole

/-- The variables that are declared at function entry have their lines there. -/
theorem Begins.known (hbegins : procedure.Begins config first) :
    procedure.Known config first.progress.output first.progress.symbols := by
  obtain ⟨headed, lined, hhead, hlines, hiterators⟩ := runs_lowerEntry hbegins.2.1
  obtain ⟨-, hmembers⟩ := hbegins.symbols_head hhead
  obtain ⟨_, hlined, -⟩ := runs_emitHoisted hlines
  obtain ⟨hsymbols, -, -, written, hwritten, -⟩ := runs_hoistIterators hiterators
  intro symbol hsymbol hkind
  rw [hsymbols, hlined.symbols] at hsymbol
  obtain ⟨name, hname, hget⟩ := hmembers symbol hsymbol hkind
  obtain ⟨names, rest, hsplit⟩ := List.append_of_mem hname
  rw [hsplit] at hlines
  obtain ⟨reached, hreached, hrest⟩ := runs_emitHoisted_append hlines
  obtain ⟨_, happends, -⟩ := runs_emitHoisted hreached
  rw [← happends.symbols] at hget
  refine ⟨true, _, none, .entry hbegins hhead hsplit hreached hget, ?_⟩
  exact (output_emitHoisted hget hrest).trans (hwritten ▸ List.prefix_append _ _)

namespace Stands

/-- Outside of all Go blocks everything that is written stands above the spot. -/
theorem front_eq (h : procedure.Stands config frame spot) (hlayers : spot.layers = []) :
    spot.front = frame.progress.output := by
  induction h with
  | body => rfl
  | behind _ _ hwritten ih => rw [hwritten, ← ih hlayers]; rfl
  | into _ _ hopens hencloses _ _ _ _ ih =>
    cases hencloses with
    | block =>
      cases hopens with
      | block => simpa [Go.Spot.inside, Go.Spot.before] using ih hlayers
    | _ => simp [Go.Spot.inside, Go.Spot.widen] at hlayers

theorem above_eq (h : procedure.Stands config frame spot) (hlayers : spot.layers = [])
    (written : List Go.Stmt) :
    (spot.behind written).above = frame.progress.output ++ written := by
  rw [Go.Spot.above_behind_of_layers_eq_nil hlayers, h.front_eq hlayers]

section Outermost

variable (h : procedure.Stands config frame spot) (hlayers : spot.layers = [])

include h hlayers

/-- A declaration outside of all Go blocks writes the line of its variable. -/
theorem known_declare {vars others : List VarDecl} {var : VarDecl} {rest : List Statement}
    {reached after : Progress}
    (hstatements : frame.statements = .declare (vars ++ var :: others) :: rest)
    (hvars : (lowerDeclares vars).Runs frame.here frame.progress () reached)
    (hvar : (lowerDeclare var).Runs frame.here reached () after)
    (hknown : procedure.Known config reached.output reached.symbols) :
    procedure.Known config after.output after.symbols := by
  have hregular := (Scheme.permissive_free frame.here).regular (c := frame.here)
  have hlasting := Scheme.lasting_free frame.here
  obtain ⟨more, hmore, -⟩ := (hasEffect_lowerDeclare hregular hlasting var).exists_extends hvar
  have hmono := hknown.mono (hmore ▸ List.prefix_append _ _ : reached.output <+: after.output)
  cases hmoved : frame.here.survey.isHoisted var.name with
  | true => rwa [symbols_lowerDeclare hmoved hvar]
  | false =>
    obtain ⟨value, written, symbol, hdeclare, houtput⟩ := runs_lowerDeclare hmoved hvar
    obtain ⟨front, hfront, -⟩ :=
      (hasEffect_lowerDeclares hregular hlasting vars).exists_extends hvars
    obtain ⟨hsymbols, hget, -⟩ := SymbolTable.declare_eq_ok hdeclare
    rw [hfront, List.append_assoc, ← List.append_assoc front] at houtput
    intro s hs hkind
    rw [hsymbols] at hs
    rcases List.mem_append.mp hs with hold | hnew
    · exact hmono s hold hkind
    · obtain rfl := List.mem_singleton.mp hnew
      have hdeclares : frame.DeclaresAt vars var s reached after :=
        ⟨⟨others, rest, hstatements⟩, hvars, hmoved, hvar, hget⟩
      refine ⟨false, _, value, .statement h hdeclares houtput, ?_⟩
      rw [h.above_eq hlayers, houtput]
      simp

theorem known_declares {vars others : List VarDecl} {rest : List Statement} {reached : Progress}
    (hstatements : frame.statements = .declare (vars ++ others) :: rest)
    (hvars : (lowerDeclares vars).Runs frame.here frame.progress () reached)
    (hknown : procedure.Known config frame.progress.output frame.progress.symbols) :
    procedure.Known config reached.output reached.symbols := by
  induction vars using List.reverseRecOn generalizing others reached with
  | nil =>
    obtain ⟨-, rfl⟩ := runs_pure.mp hvars
    exact hknown
  | append_singleton vars var ih =>
    rw [List.append_assoc] at hstatements
    obtain ⟨middle, hfront, hlast⟩ := runs_lowerDeclares_append hvars
    obtain ⟨_, _, hvar, hnone⟩ := runs_bind.mp hlast
    obtain ⟨-, rfl⟩ := runs_pure.mp hnone
    exact h.known_declare hlayers hstatements hfront hvar (ih hstatements hfront)

/-- A block outside of all Go blocks is one as well. -/
theorem into_block (hframe : frame.Succeeds) {body rest : List Statement}
    (hstatements : frame.statements = .block body :: rest) :
    ∃ spot', procedure.Stands config ⟨frame.here, 0, none, body, frame.progress⟩ spot' ∧
      spot'.layers = [] := by
  obtain ⟨place, others, hencloses, hinner⟩ := h.opens hframe hstatements .block
  cases hencloses with
  | block => exact ⟨_, hinner, hlayers⟩

end Outermost

/-- A list of statements outside of all Go blocks writes the lines of the variables that it makes
known, if its members do. -/
theorem known_list {after : Progress} (h : procedure.Stands config frame spot)
    (hlayers : spot.layers = [])
    (hmembers : ∀ s ∈ frame.statements, ∀ (frame next : Frame) (spot : Go.Spot)
      (rest : List Statement), procedure.Stands config frame spot → spot.layers = [] →
      frame.statements = s :: rest → frame.Step next →
      procedure.Known config frame.progress.output frame.progress.symbols →
      procedure.Known config next.progress.output next.progress.symbols)
    (hends : frame.Ends after)
    (hknown : procedure.Known config frame.progress.output frame.progress.symbols) :
    procedure.Known config after.output after.symbols := by
  induction hstatements : frame.statements generalizing frame spot with
  | nil => rwa [hends.eq_of_nil hstatements]
  | cons s rest ih =>
    obtain ⟨next, hstep, hrest⟩ := hends.step hstatements
    obtain ⟨written, hwritten, -⟩ := hstep.exists_extends
    have hnext := hmembers s (hstatements ▸ List.mem_cons_self) frame next spot rest h hlayers
      hstatements hstep hknown
    have hothers := hstep.statements_eq hstatements
    refine ih (h.behind hstep hwritten) hlayers (fun t ht => hmembers t ?_) hrest hnext hothers
    rw [hothers] at ht
    exact hstatements ▸ List.mem_cons_of_mem _ ht

/-- A statement outside of all Go blocks writes the lines of the variables that it makes known. -/
theorem known_step (hlower : procedure.lower config = .ok lowered) (s : Statement) :
    ∀ (frame next : Frame) (spot : Go.Spot) (rest : List Statement),
      procedure.Stands config frame spot → spot.layers = [] →
      frame.statements = s :: rest → frame.Step next →
      procedure.Known config frame.progress.output frame.progress.symbols →
      procedure.Known config next.progress.output next.progress.symbols := by
  induction s using Statement.childInduction with
  | step s ih =>
    intro frame next spot rest h hlayers hstatements hstep hknown
    obtain ⟨written, hwritten, -⟩ := hstep.exists_extends
    have hprefix : frame.progress.output <+: next.progress.output := ⟨written, hwritten.symm⟩
    by_cases hdeclare : ∃ vars, s = .declare vars
    · obtain ⟨vars, rfl⟩ := hdeclare
      have hvars := hstep.runs_declares hstatements
      rw [← List.append_nil vars] at hstatements
      exact h.known_declares hlayers hstatements hvars hknown
    · by_cases hblock : ∃ body, s = .block body
      · obtain ⟨body, rfl⟩ := hblock
        obtain ⟨spot', hinner, hlayers'⟩ :=
          h.into_block hlayers (h.succeeds hlower) hstatements
        refine hinner.known_list hlayers' (fun t ht => ?_) (hstep.ends_block hstatements) hknown
        exact ih body List.mem_cons_self t ht
      · have hmoved := h.moved_inside (hstatements ▸ List.mem_cons_self)
          (fun body heq => hblock ⟨body, heq⟩) fun vars heq => hdeclare ⟨vars, heq⟩
        rw [hstep.symbols_eq hstatements hmoved]
        exact hknown.mono hprefix

/-- The variables that are known at a frame have their lines above its spot. -/
theorem known (hlower : procedure.lower config = .ok lowered)
    (h : procedure.Stands config frame spot) :
    procedure.Known config spot.above frame.progress.symbols := by
  induction h with
  | body hbegins => exact hbegins.known
  | @behind frame next spot written h hstep hwritten ih =>
    obtain ⟨s, rest, hstatements⟩ : ∃ s rest, frame.statements = s :: rest := by
      cases hstep with
      | mk => exact ⟨_, _, rfl⟩
    by_cases hlayers : spot.layers = []
    · have habove : spot.above = frame.progress.output := by
        simpa [Go.Spot.behind] using h.above_eq hlayers []
      rw [h.above_eq hlayers, ← hwritten]
      exact known_step hlower s frame next spot rest h hlayers hstatements hstep (habove ▸ ih)
    · rw [Go.Spot.above_behind hlayers,
        hstep.symbols_eq hstatements (h.moved hlayers (hstatements ▸ List.mem_cons_self))]
      exact ih
  | @into frame next inner spot place statement rest part code others h hstatements hopens hencloses
      _ _ _ _ ih =>
    have hsymbols : inner.progress.symbols = frame.progress.symbols := by
      by_cases hblock : ∃ body, statement = .block body
      · obtain ⟨body, rfl⟩ := hblock
        cases hopens with
        | block => rfl
      · have hmoved := h.moved_inside (hstatements ▸ List.mem_cons_self)
          (fun body heq => hblock ⟨body, heq⟩) (by rintro vars rfl; cases hopens)
        exact Opens.symbols_eq (c := frame.here) hmoved hopens
    rw [hsymbols]
    exact ih.mono (Go.Spot.above_inside place (spot.before others))

end Stands

end Procedure

/-! ## The order of declarations -/

namespace Frame

/-- From a frame outside of all Go blocks the generation goes on behind its first statement, or into
it if it is a block. -/
inductive Flat : Frame → Frame → Prop
  | behind {frame next : Frame} : frame.Step next → Flat frame next
  | block {frame : Frame} {body rest : List Statement} :
    frame.statements = .block body :: rest →
    Flat frame ⟨frame.here, 0, none, body, frame.progress⟩

variable {frame next one other : Frame} {after : Progress}

theorem Flat.follows (h : Relation.ReflTransGen Flat frame next) :
    frame.progress.Follows next.progress := by
  induction h with
  | refl => exact (Progress.Grows.refl _).follows
  | tail _ hflat ih =>
    cases hflat with
    | behind hstep =>
      obtain ⟨_, -, hextends⟩ := hstep.exists_extends
      exact ih.trans hextends.grows.follows
    | block => exact ih

/-- The end of a frame follows what is behind the statements that it reaches. -/
theorem Flat.follows_end (h : Relation.ReflTransGen Flat frame one) (hends : frame.Ends after)
    (hstep : one.Step next) : next.progress.Follows after := by
  induction h using Relation.ReflTransGen.head_induction_on generalizing after with
  | refl => exact (hstep.ends hends).follows
  | head hflat _ ih =>
    cases hflat with
    | behind hfirst => exact ih (hfirst.ends hends)
    | block hstatements =>
      obtain ⟨behind, hfirst, hbehind⟩ := hends.step hstatements
      exact (ih (hfirst.ends_block hstatements)).trans hbehind.follows

/-- Two frames that are reached, and are not about to enter blocks, are the same, or one comes behind
the first statement of the other. -/
theorem Flat.total {start : Frame} {next' : Frame} (hends : start.Ends after)
    (h : Relation.ReflTransGen Flat start one) (h' : Relation.ReflTransGen Flat start other)
    (hstep : one.Step next) (hstep' : other.Step next')
    (hblock : ∀ body rest, one.statements ≠ .block body :: rest)
    (hblock' : ∀ body rest, other.statements ≠ .block body :: rest) :
    one = other ∨ next.progress.Follows other.progress ∨ next'.progress.Follows one.progress := by
  induction h using Relation.ReflTransGen.head_induction_on generalizing after with
  | refl =>
    rcases Relation.ReflTransGen.cases_head h' with rfl | ⟨middle, hflat, hrest⟩
    · exact .inl rfl
    · cases hflat with
      | behind hfirst =>
        obtain rfl := hstep.unique hfirst
        exact .inr (.inl (Flat.follows hrest))
      | block hstatements => exact absurd hstatements (hblock _ _)
  | head hflat hrest ih =>
    rcases Relation.ReflTransGen.cases_head h' with rfl | ⟨middle, hflat', hrest'⟩
    · cases hflat with
      | behind hfirst =>
        obtain rfl := hstep'.unique hfirst
        exact .inr (.inr (Flat.follows hrest))
      | block hstatements => exact absurd hstatements (hblock' _ _)
    · -- If only one of the ways enters a block, the other one passes the end of the block.
      cases hflat with
      | behind hfirst =>
        cases hflat' with
        | behind hfirst' =>
          obtain rfl := hfirst.unique hfirst'
          exact ih (hfirst.ends hends) hrest'
        | block hstatements =>
          have hinside := Flat.follows_end hrest' (hfirst.ends_block hstatements) hstep'
          exact .inr (.inr (hinside.trans (Flat.follows hrest)))
      | block hstatements =>
        cases hflat' with
        | behind hfirst' =>
          have hinside := Flat.follows_end hrest (hfirst'.ends_block hstatements) hstep
          exact .inr (.inl (hinside.trans (Flat.follows hrest')))
        | block hstatements' =>
          obtain ⟨hsame, -⟩ := List.cons.inj (hstatements.symm.trans hstatements')
          obtain rfl := Statement.block.inj hsame
          obtain ⟨behind, hfirst, -⟩ := hends.step hstatements
          exact ih (hfirst.ends_block hstatements) hrest'

namespace DeclaresAt

variable {vars vars' : List VarDecl} {var var' : VarDecl} {symbol : Symbol}
  {reached reached' after' : Progress}

/-- A variable that is known is not declared again. -/
theorem not_follows (h : one.DeclaresAt vars var symbol reached after)
    (h' : other.DeclaresAt vars' var' symbol reached' after') : ¬after.Follows reached' := by
  intro hfollows
  have hget := SymbolTable.get?_eq_some_of_grown hfollows.symbols h.get?
  obtain ⟨_, _, _, hdeclare, -⟩ := runs_lowerDeclare h'.stays h'.runs
  have hnew := (SymbolTable.declare_eq_ok_iff.mp hdeclare).1
  rw [SymbolTable.contains, SymbolTable.get?, SymbolTable.key_eq_of_get? h'.get?, ← SymbolTable.key_eq_of_get? h.get?] at hnew
  rw [SymbolTable.get?] at hget
  rw [hget] at hnew
  cases hnew

theorem follows_declares {c : Context} {p after : Progress} {vars : List VarDecl}
    (h : (lowerDeclares vars).Runs c p () after) : p.Follows after := by
  have hregular := (Scheme.permissive_free c).regular (c := c)
  obtain ⟨_, -, hextends⟩ :=
    (hasEffect_lowerDeclares hregular (Scheme.lasting_free c) vars).exists_extends h
  exact hextends.grows.follows

theorem follows_step (h : frame.DeclaresAt vars var symbol reached after) (hstep : frame.Step next) :
    after.Follows next.progress := by
  obtain ⟨others, rest, hstatements⟩ := h.statements
  obtain ⟨middle, hvars, hothers⟩ := runs_lowerDeclares_append (hstep.runs_declares hstatements)
  obtain ⟨-, rfl⟩ := h.reaches.unique hvars
  obtain ⟨_, last, hvar, hrest⟩ := runs_bind.mp hothers
  obtain ⟨-, rfl⟩ := h.runs.unique hvar
  exact follows_declares hrest

/-- Of two declarations in one list, the second one follows the first one. -/
theorem follows_of_length_lt (h : frame.DeclaresAt vars var symbol reached after)
    (h' : frame.DeclaresAt vars' var' symbol reached' after') (hlength : vars.length < vars'.length) :
    after.Follows reached' := by
  obtain ⟨others, rest, hstatements⟩ := h.statements
  obtain ⟨others', rest', hstatements'⟩ := h'.statements
  rw [hstatements] at hstatements'
  have hsame := Statement.declare.inj (List.cons.inj hstatements').1
  obtain ⟨more, rfl⟩ : ∃ more, vars' = vars ++ var :: more := by
    have hfront : vars ++ [var] <+: vars' ++ var' :: others' := ⟨others, by simpa using hsame⟩
    obtain ⟨more, hmore⟩ := List.prefix_of_prefix_length_le hfront (List.prefix_append _ _)
      (by simpa using Nat.succ_le_of_lt hlength)
    exact ⟨more, by simpa using hmore.symm⟩
  obtain ⟨middle, hvars, hothers⟩ := runs_lowerDeclares_append h'.reaches
  obtain ⟨-, rfl⟩ := h.reaches.unique hvars
  obtain ⟨_, last, hvar, hrest⟩ := runs_bind.mp hothers
  obtain ⟨-, rfl⟩ := h.runs.unique hvar
  exact follows_declares hrest

/-- A variable is declared once in a list. -/
theorem unique (h : frame.DeclaresAt vars var symbol reached after)
    (h' : frame.DeclaresAt vars' var' symbol reached' after') :
    vars = vars' ∧ var = var' ∧ after = after' := by
  rcases Nat.lt_trichotomy vars.length vars'.length with hlt | heq | hlt
  · exact absurd (h.follows_of_length_lt h' hlt) (h.not_follows h')
  · obtain ⟨others, rest, hstatements⟩ := h.statements
    obtain ⟨others', rest', hstatements'⟩ := h'.statements
    rw [hstatements] at hstatements'
    obtain ⟨rfl, hvar⟩ := List.append_inj (Statement.declare.inj (List.cons.inj hstatements').1) heq
    obtain ⟨rfl, -⟩ := List.cons.inj hvar
    obtain ⟨-, rfl⟩ := h.reaches.unique h'.reaches
    exact ⟨rfl, rfl, (h.runs.unique h'.runs).2⟩
  · exact absurd (h'.follows_of_length_lt h hlt) (h'.not_follows h)

end DeclaresAt

end Frame

/-! ## One line for each variable -/

namespace Procedure

variable {procedure : Procedure} {config : Config} {lowered : LoweredProcedure} {symbol : Symbol}
  {frame next : Frame} {spot : Go.Spot} {vars : List VarDecl} {var : VarDecl}
  {reached after : Progress} {atEntry : Bool} {front : List Go.Stmt} {value : Option Go.Expr}

/-- A frame outside of all Go blocks comes after the first one. -/
theorem Stands.exists_flat (h : procedure.Stands config frame spot) (hlayers : spot.layers = []) :
    ∃ first, procedure.Begins config first ∧ Relation.ReflTransGen Frame.Flat first frame := by
  induction h with
  | body hbegins => exact ⟨_, hbegins, .refl⟩
  | behind _ hstep _ ih =>
    obtain ⟨first, hbegins, hflat⟩ := ih hlayers
    exact ⟨first, hbegins, hflat.tail (.behind hstep)⟩
  | into _ hstatements hopens hencloses _ _ _ _ ih =>
    cases hencloses with
    | block =>
      cases hopens with
      | block =>
        obtain ⟨first, hbegins, hflat⟩ := ih hlayers
        exact ⟨first, hbegins, hflat.tail (.block hstatements)⟩
    | _ => simp [Go.Spot.inside, Go.Spot.widen] at hlayers

/-- A declaration that has not been moved stands outside of all Go blocks. -/
theorem Stands.layers_eq_nil (h : procedure.Stands config frame spot)
    (hat : frame.DeclaresAt vars var symbol reached after) : spot.layers = [] := by
  by_contra hlayers
  obtain ⟨others, rest, hstatements⟩ := hat.statements
  have hmoved := h.moved hlayers (hstatements ▸ List.mem_cons_self) _
    (Statement.mem_nested_self _) var (by simp)
  exact Bool.false_ne_true (hat.stays.symm.trans hmoved)

/-- The line of a variable stands at function entry if some declaration of the variable stands in a
Go block. -/
theorem Declares.atEntry_iff (h : procedure.Declares config symbol atEntry front value) :
    atEntry = true ↔ procedure.Hoists symbol.key := by
  cases h with
  | @entry first headed lined names rest name hbegins _ hsplit _ hget =>
    obtain ⟨functionName, verb, hcontext⟩ := Context.start_eq_ok hbegins.1
    have hname : name ∈ first.context.survey.hoisted := by simp [hsplit]
    rw [hcontext] at hname
    obtain ⟨vars, hnests, var, hvar, rfl⟩ := mem_hoisted_iff.mp hname
    rw [← SymbolTable.key_eq_of_get? hget]
    exact iff_of_true rfl ⟨vars, hnests, var, hvar, rfl⟩
  | @statement frame _ _ var _ _ _ _ hstands hat =>
    rw [← SymbolTable.key_eq_of_get? hat.get?, ← isHoisted_iff, ← hstands.survey_eq]
    exact iff_of_false Bool.false_ne_true (ne_true_of_eq_false hat.stays)

/-- A variable is declared in one place outside of all Go blocks. -/
theorem Stands.eq_of_declaresAt (hlower : procedure.lower config = .ok lowered) {frame' : Frame}
    {spot' : Go.Spot} {vars' : List VarDecl} {var' : VarDecl} {reached' after' : Progress}
    (h : procedure.Stands config frame spot) (h' : procedure.Stands config frame' spot')
    (hat : frame.DeclaresAt vars var symbol reached after)
    (hat' : frame'.DeclaresAt vars' var' symbol reached' after') : frame = frame' := by
  obtain ⟨first, hbegins, hflat⟩ := h.exists_flat (h.layers_eq_nil hat)
  obtain ⟨first', hbegins', hflat'⟩ := h'.exists_flat (h'.layers_eq_nil hat')
  obtain rfl := hbegins.unique hbegins'
  obtain ⟨first', finished, -, hbegins', hends, -⟩ := exists_begins_finish hlower
  obtain rfl := hbegins.unique hbegins'
  obtain ⟨others, rest, hstatements⟩ := hat.statements
  obtain ⟨others', rest', hstatements'⟩ := hat'.statements
  obtain ⟨next, hstep, -⟩ := (h.succeeds hlower).exists_step hstatements
  obtain ⟨next', hstep', -⟩ := (h'.succeeds hlower).exists_step hstatements'
  rcases Frame.Flat.total hends hflat hflat' hstep hstep' (by simp [hstatements])
    (by simp [hstatements']) with heq | hfollows | hfollows
  · exact heq
  · have hreached := (hat.follows_step hstep).trans
      (hfollows.trans (Frame.DeclaresAt.follows_declares hat'.reaches))
    exact absurd hreached (hat.not_follows hat')
  · have hreached := (hat'.follows_step hstep').trans
      (hfollows.trans (Frame.DeclaresAt.follows_declares hat.reaches))
    exact absurd hreached (hat'.not_follows hat)

/-- A variable has one line. -/
theorem Declares.unique (hlower : procedure.lower config = .ok lowered) {front' : List Go.Stmt}
    {value' : Option Go.Expr} (h : procedure.Declares config symbol atEntry front value)
    (h' : procedure.Declares config symbol atEntry front' value') :
    front = front' ∧ value = value' := by
  cases h with
  | @entry first headed lined names rest name hbegins hhead hsplit hlines hget =>
    obtain @⟨first', headed', lined', names', rest', name', hbegins', hhead', hsplit', hlines',
      hget'⟩ := h'
    obtain rfl := hbegins.unique hbegins'
    obtain ⟨-, rfl⟩ := hhead.unique hhead'
    have hkey : foldName name = foldName name' :=
      (SymbolTable.key_eq_of_get? hget).trans (SymbolTable.key_eq_of_get? hget').symm
    obtain ⟨hnodup, -⟩ := hbegins.symbols_head hhead
    obtain rfl : names = names' := List.eq_of_nodup_map hnodup hsplit hsplit' hkey
    obtain ⟨-, rfl⟩ := hlines.unique hlines'
    exact ⟨rfl, rfl⟩
  | @statement frame spot vars var reached after written value hstands hat houtput =>
    cases h' with
    | statement hstands' hat' houtput' =>
      have hlayers := hstands.layers_eq_nil hat
      have hlayers' := hstands'.layers_eq_nil hat'
      rw [hstands.above_eq hlayers, hstands'.above_eq hlayers']
      obtain rfl := hstands.eq_of_declaresAt hlower hstands' hat hat'
      obtain ⟨rfl, rfl, rfl⟩ := hat.unique hat'
      have hsame := List.append_cancel_left (houtput.symm.trans houtput')
      obtain ⟨hwritten, htail⟩ := List.append_inj' hsame rfl
      have hline : symbol.line value = symbol.line value' := (List.cons.inj htail).1
      rw [hwritten]
      exact ⟨rfl, by simpa [Symbol.line] using hline⟩

end Procedure

/-! ## All variables of a procedure -/

/-- A moment in the generation of the statements of a procedure: what has been written in the
outermost block, and the variables that are known. The moments are those in front of statements, and
those between the variables of a declaration. -/
inductive Procedure.Reached (procedure : Procedure) (config : Config) :
    List Go.Stmt → SymbolTable → Prop
  | statement {frame : Frame} {spot : Go.Spot} :
    Stands procedure config frame spot →
    Reached procedure config spot.above frame.progress.symbols
  | declaration {frame : Frame} {spot : Go.Spot} {vars others : List VarDecl} {rest : List Statement}
    {reached : Progress} {written : List Go.Stmt} :
    Stands procedure config frame spot →
    frame.statements = .declare (vars ++ others) :: rest →
    (lowerDeclares vars).Runs frame.here frame.progress () reached →
    reached.output = frame.progress.output ++ written →
    Reached procedure config (spot.behind written).above reached.symbols

namespace Procedure

variable {procedure : Procedure} {config : Config} {lowered : LoweredProcedure}

/-- At the end all declared variables have their lines in the function. -/
theorem known_finalTable (hlower : procedure.lower config = .ok lowered) :
    procedure.Known config lowered.function.body (procedure.finalTable config) := by
  obtain ⟨c, final, hstart, hruns⟩ := Procedure.lower_eq_ok hlower
  obtain ⟨first, finished, hbegins, hends, hfinal, hbody⟩ :=
    Procedure.exists_begins_of_runs hstart hruns
  let D := (Scheme.constant first.context.survey finished.symbols).discipline first.context
  have hpermissive : D.Permissive := Scheme.permissive_constant _ _ _
  obtain ⟨hsymbols, back, hback, -⟩ := hpermissive.emitFinalReturn hfinal rfl
  have hsymbols : final.symbols = finished.symbols := hsymbols
  have hstands : procedure.Stands config first ⟨first.progress.output, back, []⟩ :=
    .body hbegins hends hfinal hback
  have hfinished : procedure.Known config finished.output finished.symbols := by
    refine hstands.known_list rfl (fun s _ => ?_) hends hbegins.known
    exact Stands.known_step hlower s
  rw [finalTable_eq hstart hruns, hsymbols, hbody, hback]
  exact hfinished.mono (List.prefix_append _ _)

/-- At every moment the declared variables that are known have their lines above. -/
theorem Reached.known (hlower : procedure.lower config = .ok lowered) {text : List Go.Stmt}
    {table : SymbolTable} (h : procedure.Reached config text table) :
    procedure.Known config text table := by
  cases h with
  | statement hstands => exact hstands.known hlower
  | @declaration frame spot vars others rest reached written hstands hstatements hvars hwritten =>
    have hknown := hstands.known hlower
    by_cases hlayers : spot.layers = []
    · have habove : spot.above = frame.progress.output := by
        simpa [Go.Spot.behind] using hstands.above_eq hlayers []
      rw [hstands.above_eq hlayers, ← hwritten]
      rw [habove] at hknown
      exact hstands.known_declares hlayers hstatements hvars hknown
    · rw [Go.Spot.above_behind hlayers]
      have hmoved := hstands.moved hlayers (hstatements ▸ List.mem_cons_self)
      have hdeclares : (lowerDeclares vars).HasEffect frame.here _ :=
        hasEffect_lowerDeclares_hoisted (Scheme.permissive_constant frame.here.survey
          frame.progress.symbols frame.here).regular.forms fun var hvar =>
            hmoved _ (Statement.mem_nested_self _) var (List.mem_append_left _ hvar)
      rwa [(hdeclares hvars rfl).1]

/-- A statement makes variables known only outside of all Go blocks, where it is a declaration or has
declarations between `BEGIN` and `END`. -/
theorem Stands.declares_of_symbols_ne {frame next : Frame} {spot : Go.Spot}
    (h : procedure.Stands config frame spot) (hstep : frame.Step next)
    (hne : next.progress.symbols ≠ frame.progress.symbols) :
    spot.layers = [] ∧ ∃ s rest, frame.statements = s :: rest ∧
      (s.isBlock = true ∨ ∃ vars, s = .declare vars) := by
  obtain ⟨s, rest, hstatements⟩ : ∃ s rest, frame.statements = s :: rest := by
    cases hstep with
    | mk => exact ⟨_, _, rfl⟩
  have hs : s ∈ frame.statements := hstatements ▸ List.mem_cons_self
  refine ⟨?_, s, rest, hstatements, ?_⟩
  · by_contra hlayers
    exact hne (hstep.symbols_eq hstatements (h.moved hlayers hs))
  · by_contra hother
    rw [not_or] at hother
    refine hne (hstep.symbols_eq hstatements (h.moved_inside hs ?_ ?_))
    · rintro body rfl
      exact hother.1 rfl
    · exact fun vars heq => hother.2 ⟨vars, heq⟩

end Procedure

/-- The local variables of a procedure are declared once, in the outermost block of the function, and
before they are used. A variable has one line, at function entry if some declaration of the variable
stands in a Go block, and behind the code of its initial value otherwise; nothing else introduces its
name there, unless the name clashes with that of something else. Whenever a variable can be looked up,
its line is among what has been written in the outermost block. Between the moments at which this is
said of the variables that are known, no further variables become known. -/
theorem Procedure.locals_are_declared_once {procedure : Procedure} {config : Config}
    {lowered : LoweredProcedure} (h : procedure.lower config = .ok lowered) :
    (∀ symbol ∈ (procedure.finalTable config).symbols, symbol.kind = .declared →
      ∃ atEntry front value back, procedure.Declares config symbol atEntry front value ∧
        (∀ atEntry' front' value', procedure.Declares config symbol atEntry' front' value' →
          atEntry' = atEntry ∧ front' = front ∧ value' = value) ∧
        (atEntry = true ↔ procedure.Hoists symbol.key) ∧
        lowered.function.body = front ++ symbol.line value :: back ∧
        (¬procedure.Clash config symbol.goName →
          lowered.function.names.count symbol.goName = 1)) ∧
    (∀ text table, procedure.Reached config text table → ∀ name symbol,
      table.lookup name = .ok symbol → symbol.kind = .declared →
      ∃ atEntry front value, procedure.Declares config symbol atEntry front value ∧
        front ++ [symbol.line value] <+: text) ∧
    ∀ frame next spot, procedure.Stands config frame spot → frame.Step next →
      next.progress.symbols ≠ frame.progress.symbols →
      spot.layers = [] ∧ ∃ s rest, frame.statements = s :: rest ∧
        (s.isBlock = true ∨ ∃ vars, s = .declare vars) := by
  refine ⟨fun symbol hsymbol hkind => ?_, fun text table hreached name symbol hlookup hkind => ?_,
    fun frame next spot hstands hstep hne => hstands.declares_of_symbols_ne hstep hne⟩
  · obtain ⟨atEntry, front, value, hdeclares, back, hback⟩ :=
      known_finalTable h symbol hsymbol hkind
    have hbody : lowered.function.body = front ++ symbol.line value :: back := by
      rw [← hback, List.append_assoc]
      rfl
    refine ⟨atEntry, front, value, back, hdeclares, fun atEntry' front' value' hdeclares' => ?_,
      hdeclares.atEntry_iff, hbody, fun hclash => ?_⟩
    · obtain rfl : atEntry' = atEntry :=
        Bool.eq_iff_iff.mpr (hdeclares'.atEntry_iff.trans hdeclares.atEntry_iff.symm)
      exact ⟨rfl, hdeclares'.unique h hdeclares⟩
    · refine Nat.le_antisymm (count_names_le_one h hclash) (List.count_pos_iff.mpr ?_)
      have hline : symbol.goName ∈ lowered.function.body.flatMap Go.Stmt.introduces := by
        rw [hbody]
        simp [Symbol.line, Go.Stmt.introduces]
      exact List.mem_append_right _ hline
  · have hget := SymbolTable.lookup_eq_ok_iff.mp hlookup
    exact hreached.known h symbol (List.mem_of_find?_eq_some hget) hkind

open Build in
/-- A procedure with a declaration of its own, one between `BEGIN` and `END`, and one in a
conditional. -/
def Procedure.tally : Procedure where
  name := "usp_Tally"
  params := [input "n" "INT" none]
  body := [declareInit "total" "INT" (int 0),
    .block [declare "step" "INT", set "step" (add (var "n") (int 1))],
    .ifElse (lt (var "n") (int 3)) [declare "rest" "INT", set "rest" (var "step")] none,
    set "total" (add (var "step") (var "rest"))]

/-- The lines of the variables of `Procedure.tally`. -/
theorem Procedure.tally_locals_are_declared_once :
    ∃ lowered, Procedure.tally.lower {} = .ok lowered ∧
      ((Procedure.tally.finalTable {}).symbols.map fun symbol => (symbol.goName, symbol.kind)) =
        [("n", .input), ("rest", .declared), ("total", .declared), ("step", .declared)] ∧
      ∀ symbol ∈ (Procedure.tally.finalTable {}).symbols, symbol.kind = .declared →
        ∃ atEntry front value back, Procedure.tally.Declares {} symbol atEntry front value ∧
          (atEntry = true ↔ Procedure.tally.Hoists symbol.key) ∧
          lowered.function.body = front ++ symbol.line value :: back := by
  have hok : (Procedure.tally.lower {}).isOk = true := by decide +kernel
  obtain ⟨lowered, hlower⟩ := Procedure.exists_lower_eq_ok hok
  refine ⟨lowered, hlower, by decide +kernel, fun symbol hsymbol hkind => ?_⟩
  obtain ⟨atEntry, front, value, back, hdeclares, -, hentry, hbody, -⟩ :=
    (Procedure.locals_are_declared_once hlower).1 symbol hsymbol hkind
  exact ⟨atEntry, front, value, back, hdeclares, hentry, hbody⟩

end Sproc
