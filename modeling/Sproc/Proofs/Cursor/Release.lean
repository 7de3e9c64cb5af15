import Sproc.Proofs.Cursor.Iterators
import Sproc.Proofs.Lower.Nesting
import Sproc.Proofs.Lower.Routing

/-!
# Releases of streams

Opening a cursor starts a stream of rows, which has to be closed when the function returns. Where no
half of a `TRY` statement opens the cursor, the stream is released by a deferred call right behind
each opening, and streams that come later have releases of their own. Otherwise the openings release
nothing: the function starts with one deferred literal for the cursor, which closes the stream that
its iterator holds at the end. When such a cursor is opened again, nothing closes the stream that
came before.

## Main definitions

* `Procedure.OpensInTry`: a half of a `TRY` statement opens a cursor
* `opening`, `release`, `entryRelease`: the code that starts and releases streams

## Main results

* `Procedure.releasesAtEntry_iff`: which cursors are released at function entry
* `Procedure.streams_released_where_opened_iff`: which openings release the stream they start
-/

namespace Sproc

open Lower

/-! ## Openings inside of `TRY` statements -/

namespace Statement

variable {config : Config} {inBlock inClosure : Bool} {key : String} {statement : Statement}

theorem closureOpen_notMem_exprNeeds (config : Config) (key : String) (s : Statement) :
    Need.closureOpen key ∉ s.exprNeeds config := by
  have hexpr (inGo : Bool) (expr : Expr) : Need.closureOpen key ∉ expr.needs config inGo := by
    unfold Expr.needs sourceNeeds TableRef.need
    grind
  simp [exprNeeds, hexpr]

theorem closureOpen_mem_ownNeeds_iff :
    Need.closureOpen key ∈ statement.ownNeeds config inBlock inClosure ↔
      inClosure = true ∧ ∃ name, statement = openCursor name ∧ Text.toLower name = key := by
  unfold ownNeeds sourceNeeds TableRef.need execNeed
  split <;> grind

/-- A cursor is released at function entry on account of a statement that opens it in a function
literal, or of a statement inside. -/
theorem closureOpen_mem_needs_iff :
    Need.closureOpen key ∈ statement.needs config inBlock inClosure ↔
      (inClosure = true ∧ ∃ name, statement = openCursor name ∧ Text.toLower name = key) ∨
        ∃ part body, statement.part? part = some body ∧ ∃ inner ∈ body, Need.closureOpen key ∈
          inner.needs config (inBlock || !statement.isBlock) (inClosure || statement.isTry) := by
  rw [mem_needs_iff, closureOpen_mem_ownNeeds_iff]
  simp [closureOpen_notMem_exprNeeds]

end Statement

/-- Whether code of a half is inside of a function literal. -/
def ExitScope.inClosure : ExitScope → Bool
  | .body => false
  | .tryHalf | .catchHalf => true

/-- The parts of `TRY` statements are function literals. -/
theorem Part.inClosure_scope {statement : Statement} {part : Part} {body : List Statement}
    (scope : ExitScope) (h : statement.part? part = some body) :
    (part.scope scope).inClosure = (scope.inClosure || statement.isTry) := by
  cases part with
  | tryHalf | catchHalf =>
    cases statement with
    | tryCatch => simp [Part.scope, ExitScope.inClosure, Statement.isTry]
    | _ => cases h
  | _ =>
    cases statement with
    | tryCatch => cases h
    | _ => simp [Part.scope, Statement.isTry]

/-- A half of a `TRY` statement opens a cursor. -/
def Procedure.OpensInTry (procedure : Procedure) (cursor : String) : Prop :=
  ∃ scope name, procedure.Holds scope (.openCursor name) ∧ scope ≠ .body ∧
    Text.toLower name = Text.toLower cursor

namespace Procedure

variable {procedure : Procedure} {config : Config} {scope : ExitScope} {statement : Statement}
  {frame : Frame} {inBlock : Bool} {key cursor : String}

/-- The survey finds an opening in a half of a `TRY` statement. -/
theorem Holds.closureOpen_mem (h : procedure.Holds scope statement) (config : Config) :
    ∃ inBlock, ∀ key, Need.closureOpen key ∈ statement.needs config inBlock scope.inClosure →
      Need.closureOpen key ∈ Statement.listNeeds config false false procedure.body := by
  induction h with
  | body hmem =>
    exact ⟨false, fun key hkey => Statement.mem_listNeeds.mpr ⟨_, hmem, hkey⟩⟩
  | @part scope outer inner part statements _ hpart hmem ih =>
    obtain ⟨inBlock, houter⟩ := ih
    refine ⟨inBlock || !outer.isBlock, fun key hkey => houter key ?_⟩
    rw [Part.inClosure_scope scope hpart] at hkey
    exact Statement.closureOpen_mem_needs_iff.mpr
      (.inr ⟨part, statements, hpart, inner, hmem, hkey⟩)

/-- What the survey finds is an opening in a half of a `TRY` statement. -/
theorem Holds.exists_open (h : procedure.Holds scope statement)
    (hopen : Need.closureOpen key ∈ statement.needs config inBlock scope.inClosure) :
    ∃ scope name, procedure.Holds scope (.openCursor name) ∧ scope ≠ .body ∧
      Text.toLower name = key := by
  induction statement using Statement.childInduction generalizing scope inBlock with
  | step statement ih =>
    rcases Statement.closureOpen_mem_needs_iff.mp hopen with
      ⟨hscope, name, rfl, hname⟩ | ⟨part, body, hpart, inner, hinner, hneeds⟩
    · refine ⟨scope, name, h, ?_, hname⟩
      rintro rfl
      cases hscope
    · rw [← Part.inClosure_scope scope hpart] at hneeds
      exact ih body (Statement.mem_children_of_part? hpart) inner hinner
        (h.part hpart hinner) hneeds

/-- The cursors that are released at function entry are those that a half of a `TRY` statement
opens. -/
theorem releasesAtEntry_iff : (Survey.ofProcedure config procedure).releasesAtEntry cursor = true ↔
    procedure.OpensInTry cursor := by
  have hparams : Need.closureOpen (Text.toLower cursor) ∉
      procedure.params.flatMap (Survey.defaultNeeds config) := by
    have hdefault (param : Parameter) :
        Need.closureOpen (Text.toLower cursor) ∉ Survey.defaultNeeds config param :=
      Statement.closureOpen_notMem_exprNeeds config _ (.ret param.default)
    simp [hdefault]
  have hsurvey : (Survey.ofProcedure config procedure).releasesAtEntry cursor = true ↔
      Need.closureOpen (Text.toLower cursor) ∈
        Statement.listNeeds config false false procedure.body := by
    simp only [Survey.releasesAtEntry, List.contains_iff_mem, Survey.ofProcedure, Survey.ofNeeds,
      List.mem_filterMap, List.mem_append]
    constructor
    · rintro ⟨need, hneed, hkey⟩
      split at hkey
      · obtain rfl := Option.some.inj hkey
        exact hneed.resolve_left hparams
      · cases hkey
    · exact fun hneed => ⟨_, .inr hneed, rfl⟩
  rw [hsurvey]
  constructor
  · intro h
    obtain ⟨s, hs, hneeds⟩ := Statement.mem_listNeeds.mp h
    exact (Holds.body hs).exists_open hneeds
  · rintro ⟨scope, name, hholds, hscope, hname⟩
    obtain ⟨inBlock, hmem⟩ := hholds.closureOpen_mem config
    refine hmem _ (Statement.closureOpen_mem_needs_iff.mpr (.inl ⟨?_, name, rfl, hname⟩))
    cases scope with
    | body => exact absurd rfl hscope
    | tryHalf | catchHalf => rfl

/-- The statements of a frame stand in the half that the frame stands in. -/
theorem VisitsIn.holds (h : procedure.VisitsIn config scope frame) :
    ∀ s ∈ frame.statements, procedure.Holds scope s := by
  induction h with
  | body hbegins => exact fun s hs => .body (hbegins.2.2.2.2 ▸ hs)
  | behind _ hstep ih =>
    cases hstep with
    | mk => exact fun s hs => ih s (List.mem_cons_of_mem _ hs)
  | into _ hstatements hopens ih =>
    exact fun s hs => (ih _ (hstatements ▸ List.mem_cons_self)).part hopens.part?_eq hs

theorem VisitsIn.survey_eq (h : procedure.VisitsIn config scope frame) :
    frame.context.survey = .ofProcedure config procedure := by
  induction h with
  | body hbegins =>
    obtain ⟨functionName, verb, hcontext⟩ := Context.start_eq_ok hbegins.1
    rw [hcontext]
  | behind _ hstep ih => rwa [hstep.context_eq]
  | into _ _ hopens ih => cases hopens <;> exact ih

end Procedure

/-! ## The code of openings -/

/-- The code that starts a stream: the call, and what is done when it fails. -/
def opening (iterator : String) (define : Bool) (call : Go.Expr) (failure : List Go.Stmt) :
    List Go.Stmt :=
  [.assign ⟨[.name iterator, err], define, call⟩, .branch (.mk none failed failure) [] none]

/-- The deferred call that closes the stream that an iterator holds where it stands. -/
def release (iterator : String) : Go.Stmt :=
  .deferCall (.invoke (.name iterator) "Close" [])

/-- The deferred literal that closes the stream that an iterator holds when the function returns. -/
def entryRelease (iterator : String) : Go.Stmt :=
  .closure true [.branch (.mk none (.binary "!=" (.name iterator) .nil)
    [.assign (assignTo [.name "_"] (.invoke (.name iterator) "Close" []))]) [] none]

/-- Whether a statement is a function literal whose call is deferred. -/
def Go.Stmt.isDeferredLiteral : Go.Stmt → Bool
  | .closure true _ => true
  | _ => false

namespace Lower

variable {c : Context} {p after : Progress}

/-- The question for an error is one conditional. -/
theorem runs_emitIf_failed (h : (emitIf none failed errorExit).Runs c p () after) :
    ∃ failure, after.output = p.output ++ [Go.Stmt.branch (.mk none failed failure) [] none] := by
  simp only [emitIf, runs_bind, runs_block, runs_emit] at h
  obtain ⟨failure, _, ⟨inner, -, rfl, rfl⟩, rfl⟩ := h
  exact ⟨_, rfl⟩

/-- Outside of handlers, what is done on success stands behind the question for an error. -/
theorem runs_emitChecked_emit {s : Go.Stmt} (hscope : c.exitScope ≠ .catchHalf)
    (h : (emitChecked (emit s)).Runs c p () after) :
    ∃ failure, after.output = p.output ++ [Go.Stmt.branch (.mk none failed failure) [] none, s] := by
  simp only [emitChecked, runs_bind, runs_block, runs_read] at h
  obtain ⟨failure, _, ⟨inner, -, rfl, rfl⟩, _, _, ⟨rfl, rfl⟩, h⟩ := h
  rw [if_neg hscope] at h
  simp only [runs_bind, runs_emit] at h
  obtain ⟨_, _, rfl, rfl⟩ := h
  exact ⟨_, List.append_assoc _ _ _⟩

/-- A local variable is bound where it stands or by a declaration of its own. -/
theorem output_bindLocal {id : String} {type : Go.TypeExpr} {define : Bool}
    (h : (bindLocal id type).Runs c p define after) :
    ∃ front, after.output = p.output ++ front ∧ ∀ s ∈ front, ∃ type, s = .declare id type none := by
  obtain ⟨-, -, rfl⟩ | ⟨-, -, -, rfl⟩ | ⟨-, -, rfl⟩ := runs_bindLocal h
  · exact ⟨[], (List.append_nil _).symm, nofun⟩
  · exact ⟨[], (List.append_nil _).symm, nofun⟩
  · exact ⟨_, rfl, List.forall_mem_singleton.mpr ⟨type, rfl⟩⟩

/-- The code of an opening is what starts the stream, possibly behind the declaration of the
iterator, and the release of the stream if it is not released at function entry. -/
theorem output_openCursor {name : String} (h : (openCursor name).Runs c p () after)
    (hscope : c.survey.releasesAtEntry name = false → c.exitScope ≠ .catchHalf) :
    ∃ cursor front define call failure, p.cursors.get? name = some cursor ∧
      (∀ s ∈ front, ∃ type, s = .declare cursor.iterator type none) ∧
      after.output = p.output ++ (front ++ opening cursor.iterator define call failure ++
        if c.survey.releasesAtEntry name then [] else [release cursor.iterator]) := by
  obtain ⟨cursor, call, called, type, typed, define, bound, checked, hcursor, -, hcall, htype,
    hbind, hcheck, rfl⟩ := runs_openCursor h
  obtain ⟨front, hfront, hdeclares⟩ := output_bindLocal hbind
  rw [((hasEffect_iteratorType _).annotated htype).output,
    ((hasEffect_rowsCall cursor).annotated hcall).output] at hfront
  have hwrote (s : Go.Stmt) : (bound.wrote s).output = p.output ++ (front ++ [s]) := by
    rw [Progress.wrote, hfront, List.append_assoc]
  split at hcheck
  next hentry =>
    obtain ⟨failure, hfailure⟩ := runs_emitIf_failed hcheck
    refine ⟨cursor, front, define, call, failure, hcursor, hdeclares, ?_⟩
    rw [if_pos hentry]
    dsimp only
    rw [hfailure, hwrote]
    simp [opening]
  next hentry =>
    obtain ⟨failure, hfailure⟩ :=
      runs_emitChecked_emit (hscope (Bool.eq_false_iff.mpr hentry)) hcheck
    refine ⟨cursor, front, define, call, failure, hcursor, hdeclares, ?_⟩
    rw [if_neg hentry]
    dsimp only
    rw [hfailure, hwrote]
    simp [opening, release]

end Lower

/-! ## Releases at function entry -/

/-- The iterator that is declared at function entry for a cursor that is released there. -/
def Context.releasedIterator? (c : Context) (table : SymbolTable) : Statement → Option String
  | .declareCursor cursor query =>
    if c.survey.releasesAtEntry cursor then c.entryIterator? table (.declareCursor cursor query)
    else none
  | _ => none

/-- The discipline of steps that defer no function literals. -/
def Discipline.undeferred : Discipline where
  keeps _ := True
  writes s := s.isDeferredLiteral = false
  stable _ _ _ _ _ _ := trivial

theorem Discipline.regular_undeferred (c : Context) : undeferred.Regular c where
  plain {s} hplain _ := by
    cases s with
    | closure => cases hplain
    | _ => rfl
  branch _ _ := rfl
  exit := by
    have hbasic : undeferred.Basic := by
      refine ⟨fun {s} hplain _ => ?_, fun _ _ => rfl⟩
      cases s with
      | closure => cases hplain
      | _ => rfl
    refine hasEffect_bind hasEffect_read fun _ => ?_
    split
    · exact hasEffect_bind (hasEffect_resultValues _ _) fun _ => hasEffect_emit_fresh rfl rfl (fun _ => rfl) rfl
    · exact hasEffect_emit_fresh rfl rfl (fun _ => rfl) rfl
    · exact hasEffect_bind (hasEffect_emitAcknowledge hbasic) fun _ =>
        hasEffect_emit_plain hbasic rfl rfl (fun _ => rfl) rfl

namespace Lower

variable {c : Context} {p after : Progress}

theorem output_emitRelease {iterator : String} (h : (emitRelease iterator).Runs c p () after) :
    after.output = p.output ++ [entryRelease iterator] := by
  simp only [emitRelease, emitIf, runs_bind, runs_block, runs_emit] at h
  obtain ⟨body, _, ⟨_, ⟨_, _, ⟨_, rfl, rfl, rfl⟩, rfl⟩, rfl, rfl⟩, rfl⟩ := h
  rfl

/-- The deferred literals of a cursor at function entry: its release, if it is released there. -/
theorem releases_hoistIterator {name : String} {query : Select}
    (h : (hoistIterator name query).Runs c p () after) :
    ∃ written, after.output = p.output ++ written ∧
      written.filter Go.Stmt.isDeferredLiteral =
        (c.releasedIterator? p.symbols (.declareCursor name query)).toList.map entryRelease := by
  simp only [hoistIterator, runs_bind, runs_read] at h
  obtain ⟨c, p, ⟨rfl, rfl⟩, h⟩ := h
  split at h
  next htest =>
    simp only [runs_bind, runs_modify, runs_emit, iteratorName] at h
    obtain ⟨iterator, p, hname, type, typed, htype, _, _, rfl, _, _, rfl, hrest⟩ := h
    obtain ⟨hiterator, rfl⟩ := runs_localName hname
    have htyped := (hasEffect_iteratorType _).annotated htype
    have hentry : c.entryIterator? p.symbols (.declareCursor name query) = some iterator := by
      rw [Context.entryIterator?, if_pos (by simpa using htest), hiterator]
    rw [Context.releasedIterator?, hentry]
    split at hrest
    next hreleases =>
      rw [if_pos hreleases]
      refine ⟨[.declare iterator type none, entryRelease iterator], ?_, rfl⟩
      rw [output_emitRelease hrest]
      simp [Progress.wrote, htyped.output]
    next hreleases =>
      obtain ⟨-, rfl⟩ := runs_pure.mp hrest
      rw [if_neg hreleases]
      exact ⟨[_], congrArg (· ++ _) htyped.output, rfl⟩
  next htest =>
    obtain ⟨-, rfl⟩ := runs_pure.mp h
    have hentry : c.entryIterator? after.symbols (.declareCursor name query) = none := by
      rw [Context.entryIterator?, if_neg (by simpa using htest)]
    refine ⟨[], (List.append_nil _).symm, ?_⟩
    rw [Context.releasedIterator?, hentry, ite_self]
    rfl

theorem releases_hoistIterators {statements : List Statement}
    (h : (hoistIterators statements).Runs c p () after) :
    ∃ written, after.output = p.output ++ written ∧
      written.filter Go.Stmt.isDeferredLiteral =
        (statements.filterMap (c.releasedIterator? p.symbols)).map entryRelease := by
  induction statements generalizing p with
  | nil =>
    obtain ⟨-, rfl⟩ := runs_pure.mp h
    exact ⟨[], (List.append_nil _).symm, rfl⟩
  | cons statement rest ih =>
    cases statement with
    | declareCursor name query =>
      obtain ⟨_, middle, hfirst, hrest⟩ := runs_bind.mp h
      obtain ⟨hsymbols, -⟩ := runs_hoistIterator hfirst
      obtain ⟨written, hwritten, hreleases⟩ := releases_hoistIterator hfirst
      obtain ⟨more, hmore, hreleases'⟩ := ih hrest
      refine ⟨written ++ more, by rw [hmore, hwritten, List.append_assoc], ?_⟩
      rw [hsymbols] at hreleases'
      rw [List.filter_append, hreleases, hreleases', List.filterMap_cons]
      cases c.releasedIterator? p.symbols (.declareCursor name query) <;> rfl
    | _ => exact ih h

end Lower

namespace Procedure

variable {procedure : Procedure} {config : Config} {lowered : LoweredProcedure} {frame : Frame}

/-- The function literals that are deferred in front of the statements are the releases of the
cursors that are released at function entry. -/
theorem Begins.releases (h : procedure.Begins config frame) :
    frame.progress.output.filter Go.Stmt.isDeferredLiteral =
      (procedure.statements.filterMap
        (frame.context.releasedIterator? frame.progress.symbols)).map entryRelease := by
  obtain ⟨functionName, verb, hcontext⟩ := Context.start_eq_ok h.1
  obtain ⟨headed, lined, hhead, hlines, hiterators⟩ := runs_lowerEntry h.2.1
  have hregular := Discipline.regular_undeferred frame.context
  have hlasting : Discipline.undeferred.Lasting := fun _ _ _ _ _ _ _ _ => trivial
  obtain ⟨-, first, hfirst, hnone, -⟩ := hasEffect_lowerHead hregular id hlasting hhead trivial
  have hline (name : String) (type : Go.TypeExpr) :
      (emit (.declare name type none)).HasEffect frame.context Discipline.undeferred.effect :=
    hasEffect_emitLine hregular.toBasic id name type
  obtain ⟨-, second, hsecond, hnone', -⟩ :=
    hasEffect_emitHoisted hregular.forms hline _ hlines trivial
  obtain ⟨hsymbols, -⟩ := runs_hoistIterators hiterators
  obtain ⟨written, hwritten, hreleases⟩ := releases_hoistIterators hiterators
  have hfilter {added : List Go.Stmt} (h : ∀ s ∈ added, s.isDeferredLiteral = false) :
      added.filter Go.Stmt.isDeferredLiteral = [] :=
    List.filter_eq_nil_iff.mpr fun s hs => by simp [h s hs]
  rw [hwritten, hsecond, hfirst, List.filter_append, List.filter_append, List.filter_append,
    hfilter hnone, hfilter hnone', hreleases, hsymbols, hcontext]
  rfl

/-- The code that a statement with the given code in front of others leaves in the function. -/
theorem Stands.body_eq {spot : Go.Spot} {next : Frame} {written : List Go.Stmt}
    (h : procedure.Stands config frame spot) (hlower : procedure.lower config = .ok lowered)
    (hstep : frame.Step next)
    (hwritten : next.progress.output = frame.progress.output ++ written) :
    ∃ others, next.Writes others ∧ lowered.function.body = spot.fill (written ++ others) := by
  obtain ⟨others, hothers⟩ := (hstep.succeeds (h.succeeds hlower)).exists_writes
  exact ⟨others, hothers, h.fill_eq hlower (hstep.writes hwritten hothers)⟩

/-- **Releases of streams.** Each `OPEN` is turned into the call that starts its stream and the
question for the error of the call. Right behind them the stream gets a deferred release of its own,
unless a half of a `TRY` statement opens the cursor. Such a cursor is only released by a literal
that is deferred at function entry, one for each of its declarations, and there are no other
deferred literals in front of the statements. -/
theorem streams_released_where_opened_iff (h : procedure.lower config = .ok lowered) :
    (∀ halves name, procedure.Under halves (.openCursor name) → ∃ frame rest spot,
      procedure.Stands config frame spot ∧ frame.statements = .openCursor name :: rest) ∧
    (∀ frame spot name rest, procedure.Stands config frame spot →
      frame.statements = .openCursor name :: rest →
      ∃ next cursor front define call failure released others, frame.Step next ∧
        frame.progress.cursors.get? name = some cursor ∧
        (∀ s ∈ front, ∃ type, s = .declare cursor.iterator type none) ∧
        next.Writes others ∧ lowered.function.body = spot.fill
          (front ++ opening cursor.iterator define call failure ++ released ++ others) ∧
        (¬procedure.OpensInTry name ∧ released = [release cursor.iterator] ∨
          procedure.OpensInTry name ∧ released = [])) ∧
    ∃ first behind, procedure.Begins config first ∧
      lowered.function.body = first.progress.output ++ behind ∧
      first.progress.output.filter Go.Stmt.isDeferredLiteral =
        (procedure.statements.filterMap
          (first.context.releasedIterator? first.progress.symbols)).map entryRelease := by
  refine ⟨fun halves name hunder => ?_, fun frame spot name rest hstands hstatements => ?_, ?_⟩
  · obtain ⟨frame, rest, spot, hstands, hstatements, -⟩ := hunder.exists_stands h
    exact ⟨frame, rest, spot, hstands, hstatements⟩
  · have hvisits := hstands.visitsIn
    have hsurvey := hvisits.survey_eq
    have hholds := hvisits.holds _ (hstatements ▸ List.mem_cons_self)
    obtain ⟨next, hstep, -⟩ := (hstands.succeeds h).exists_step hstatements
    have hopen : (openCursor name).Runs frame.here frame.progress () next.progress := by
      cases hstep with
      | mk hruns =>
        obtain ⟨rfl, rfl⟩ := List.cons.inj hstatements
        rw [lowerStatement] at hruns
        simp only [runs_bind, runs_pure] at hruns
        obtain ⟨_, _, hopen, -, rfl⟩ := hruns
        exact hopen
    have hentry : frame.context.survey.releasesAtEntry name = true ↔ procedure.OpensInTry name := by
      rw [← releasesAtEntry_iff, hsurvey]
    -- A handler is a half of a `TRY` statement, so that the cursor is released at function entry.
    obtain ⟨cursor, front, define, call, failure, hcursor, hfront, houtput⟩ :=
      output_openCursor hopen fun hnone hcatch => by
        refine Bool.false_ne_true (hnone.symm.trans (hentry.mpr ⟨_, name, hholds, ?_, rfl⟩))
        exact fun hbody => ExitScope.noConfusion (hbody.symm.trans hcatch)
    obtain ⟨others, hothers, hbody⟩ := hstands.body_eq h hstep houtput
    refine ⟨next, cursor, front, define, call, failure, _, others, hstep, hcursor, hfront, hothers,
      hbody, ?_⟩
    split
    next hreleases => exact .inr ⟨hentry.mp hreleases, rfl⟩
    next hreleases => exact .inl ⟨fun hopens => hreleases (hentry.mpr hopens), rfl⟩
  · obtain ⟨first, finished, final, hbegins, hruns, hfinal, hbody⟩ := exists_begins_finish h
    obtain ⟨code, finished', hruns', houtput⟩ := Frame.Succeeds.exists_writes ⟨finished, hruns⟩
    obtain ⟨-, rfl⟩ := hruns.unique hruns'
    obtain ⟨back, hback⟩ := exists_emitFinalReturn hfinal
    refine ⟨first, code ++ back, hbegins, ?_, hbegins.releases⟩
    rw [hbody, hback, houtput, List.append_assoc]

open Build in
/-- A procedure that opens a cursor twice outside of its `TRY` statement, and another one twice
inside of it. -/
def reopened : Procedure where
  name := "usp_Reopened"
  params := []
  body := [.declareCursor "a" ((select [col "id"]).readFrom ⟨"t", none⟩),
    .declareCursor "b" ((select [col "id"]).readFrom ⟨"u", none⟩),
    .openCursor "a", .closeCursor "a", .openCursor "a", .closeCursor "a",
    .tryCatch [.openCursor "b", .closeCursor "b", .openCursor "b", .closeCursor "b"] []]

/-- In the function of `reopened`, each opening of the first cursor is followed by a release of its
own, and none of the second cursor is. -/
theorem reopened_releases : ∃ lowered, reopened.lower {} = .ok lowered ∧
    ¬reopened.OpensInTry "a" ∧ reopened.OpensInTry "b" ∧
    (∃ frame spot rest cursor front define call failure others,
      reopened.Stands {} frame spot ∧ frame.statements = .openCursor "a" :: rest ∧
      lowered.function.body = spot.fill (front ++ opening cursor define call failure ++
        [release cursor] ++ others)) := by
  obtain ⟨lowered, hlower⟩ : ∃ lowered, reopened.lower {} = .ok lowered :=
    exists_lower_eq_ok (by decide +kernel)
  have houtside : ¬reopened.OpensInTry "a" := by
    rw [← @releasesAtEntry_iff _ {}]
    decide +kernel
  have hinside : reopened.OpensInTry "b" := by
    rw [← @releasesAtEntry_iff _ {}]
    decide +kernel
  obtain ⟨hstands, hreleases, -⟩ := streams_released_where_opened_iff hlower
  obtain ⟨frame, rest, spot, hspot, hstatements⟩ := hstands [] "a" (.body (by simp [reopened]))
  obtain ⟨next, cursor, front, define, call, failure, released, others, -, -, -, -, hbody,
    ⟨-, rfl⟩ | ⟨htry, -⟩⟩ := hreleases frame spot "a" rest hspot hstatements
  · exact ⟨lowered, hlower, houtside, hinside, frame, spot, rest, _, front, define, call, failure,
      others, hspot, hstatements, hbody⟩
  · exact absurd htry houtside

end Procedure

end Sproc
