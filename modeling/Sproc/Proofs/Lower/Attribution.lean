import Sproc.Proofs.Lower.Blame
import Sproc.Proofs.Lower.Location

/-!
# Which statement a warning is about

While a statement is treated, warnings are recorded by the statement itself and by the statements
inside it. The innermost statement that records a warning is the one whose frame records it while no
frame of its parts does. A warning names the path of this statement, unless the statement is a loop
over a cursor: such a loop is treated as a whole where its body stands, so its own warnings name the
branch of the body, which is no statement.

## Main definitions

* `Frame.Spans`, `Frame.Records`: a warning is recorded by the statements of a frame, or by the
  first one of them
* `Frame.Raises`: a warning is recorded by the first statement of a frame itself
* `Statement.warningContext`, `Statement.warningPath`: where a statement records its own warnings
* `Procedure.Names`: a text names the entry or a statement of a procedure

## Main results

* `marked_lowerStatement`: the warnings of a statement are its own or those of its parts
* `Frame.Spans.exists_raises`: every warning of a list of statements is raised by some statement
* `Procedure.names_warningPath_iff`: which statements record warnings that name a statement
* `Procedure.warning_names_raising_statement`: what the warnings of a procedure name
-/

namespace Sproc

open Lower

variable {i : Nat} {w : Warning}

namespace Frame

/-- A warning is recorded, with an index in the list of all warnings, while the statements of a
frame are treated. -/
def Spans (frame : Frame) (i : Nat) (w : Warning) : Prop :=
  ∃ after, (lowerStatements frame.index frame.prepared frame.statements).Runs frame.context
    frame.progress () after ∧ frame.progress.warnings.length ≤ i ∧ after.warnings[i]? = some w

/-- A warning is recorded while the first statement of a frame is treated. -/
def Records (frame : Frame) (i : Nat) (w : Warning) : Prop :=
  ∃ next, frame.Step next ∧ frame.progress.warnings.length ≤ i ∧
    next.progress.warnings[i]? = some w

/-- A warning is recorded while the first statement of a frame is treated, but not while the
statements of one of its parts are: the first statement is the innermost one that records it. -/
def Raises (frame : Frame) (i : Nat) (w : Warning) : Prop :=
  frame.Records i w ∧ ∀ statement rest part inner, frame.statements = statement :: rest →
    Opens frame.here frame.prepared frame.progress statement part inner → ¬inner.Spans i w

end Frame

/-- The context in which a statement records its own warnings. -/
def Statement.warningContext (s : Statement) (c : Context) : Context :=
  if s.isCursorLoop then c.enter 0 else c

/-- The path that the own warnings of a statement name, by the path of the statement. -/
def Statement.warningPath (s : Statement) (path : List Nat) : List Nat :=
  if s.isCursorLoop then path ++ [0] else path

/-! ## Warnings between two moments -/

/-- A warning that was recorded keeps its index. -/
theorem Warning.getElem?_of_grows {earlier later : List Warning} (h : earlier <+: later)
    (hindex : i < earlier.length) : earlier[i]? = later[i]? := by
  obtain ⟨added, rfl⟩ := h
  exact (List.getElem?_append_left hindex).symm

/-- All warnings that have been added between two moments of a generation name one path, or are
recorded in one of some frames. -/
structure Progress.Marked (path : String) (parts : Frame → Prop) (before after : Progress) :
    Prop where
  grows : before.warnings <+: after.warnings
  marks {i : Nat} {w : Warning} : before.warnings.length ≤ i → after.warnings[i]? = some w →
    w.path = path ∨ ∃ inner, parts inner ∧ inner.Spans i w

namespace Progress.Marked

variable {path : String} {parts : Frame → Prop} {before middle after : Progress}

theorem of_warnedAt (h : before.WarnedAt path after) : before.Marked path parts after := by
  obtain ⟨added, hadded, hpath⟩ := h
  refine ⟨hadded ▸ List.prefix_append _ _, fun hlength hget => .inl (hpath _ ?_)⟩
  rw [hadded, List.getElem?_append_right hlength] at hget
  exact List.mem_of_getElem? hget

theorem of_eq (h : after.warnings = before.warnings) : before.Marked path parts after :=
  of_warnedAt (.of_eq h)

theorem of_warnedAt_from {start : Progress} (h : start.WarnedAt path after)
    (hstart : start.warnings = before.warnings) : before.Marked path parts after := by
  obtain ⟨added, hadded, hpath⟩ := h
  exact of_warnedAt ⟨added, hstart ▸ hadded, hpath⟩

theorem trans (middle : Progress) (h : before.Marked path parts middle)
    (h' : middle.Marked path parts after) : before.Marked path parts after where
  grows := h.grows.trans h'.grows
  marks {i w} hlength hget := by
    by_cases hmiddle : middle.warnings.length ≤ i
    · exact h'.marks hmiddle hget
    · refine h.marks hlength ?_
      rwa [Warning.getElem?_of_grows h'.grows (Nat.lt_of_not_le hmiddle)]

/-- The statements of a part record the warnings of their frame. -/
theorem of_part {inner : Frame} (hinner : parts inner) {final : Progress}
    (hruns : (lowerStatements inner.index inner.prepared inner.statements).Runs inner.context
      inner.progress () final)
    (hstart : inner.progress.warnings = before.warnings)
    (hend : after.warnings = final.warnings) : before.Marked path parts after where
  grows := by
    obtain ⟨_, _, hextends⟩ := extends_lowerStatements hruns
    rw [← hstart, hend]
    exact hextends.grows.warnings
  marks hlength hget :=
    .inr ⟨inner, hinner, final, hruns, hstart ▸ hlength, hend ▸ hget⟩

end Progress.Marked

section Statements

variable {c : Context} {rest : List Statement} {prepared result : Option Fetch}
  {p after : Progress}

theorem marked_ifElse {condition : Expr} {thenBranch : List Statement}
    {elseBranch : Option (List Statement)}
    (h : (lowerStatement rest prepared (.ifElse condition thenBranch elseBranch)).Runs c p result
      after) :
    p.Marked c.pathText (fun inner => ∃ part,
      Opens c prepared p (.ifElse condition thenBranch elseBranch) part inner) after := by
  obtain ⟨chain, passed, hchain, rfl, -⟩ := runs_ifElse h
  obtain ⟨test, tested, inner, htest, hthen, helse, -⟩ := runs_lowerChain hchain
  -- The condition, the branch and the alternative record their warnings one after the other.
  refine .trans tested (.of_warnedAt (hasEffect_lowerCondition regular_warnedAt _ htest)) ?_
  refine .trans (tested.closed inner) (.of_part ⟨_, .thenBranch htest⟩ hthen rfl rfl) ?_
  refine .trans passed ?_ (.of_eq rfl)
  cases elseBranch with
  | none =>
    obtain ⟨-, rfl⟩ := runs_pure.mp helse
    exact .of_eq rfl
  | some elseBranch =>
    obtain ⟨last, hlast, -, -, hwarnings⟩ := runs_lowerElse helse
    have hblock := runs_block.mpr ⟨inner, runs_within.mpr hthen, rfl, rfl⟩
    refine .of_part ⟨_, .elseBranch htest hblock⟩ hlast ?_ hwarnings
    unfold elseStart
    split <;> rfl

theorem marked_while {condition : Expr} {body : List Statement}
    (h : (lowerStatement rest prepared (.while condition body)).Runs c p result after) :
    p.Marked ((Statement.while condition body).warningContext c).pathText (fun inner => ∃ part,
      Opens c prepared p (.while condition body) part inner) after := by
  cases hcursor : sentinelRest? condition with
  | none =>
    have hcontext : (Statement.while condition body).warningContext c = c := by
      simp [Statement.warningContext, Statement.isCursorLoop, hcursor]
    rw [hcontext]
    obtain ⟨hwhile, -⟩ := runs_while hcursor h
    -- Wherever the condition is tested, only the body is treated behind a further index.
    obtain ⟨hhoist, tested, inner, htest, hbody, rfl⟩ |
      ⟨hhoist, test, tested, inner, htest, hbody, rfl⟩ := runs_lowerWhile hwhile
    · have htests : (emitLoopTest condition).WarnsHere c.enterLoop :=
        hasEffect_emitLoopTest regular_warnedAt condition (warnsHere_emit _)
      have htested := htests htest
      refine .trans tested (.of_warnedAt_from htested rfl) ?_
      exact .of_part ⟨_, .testedLoop hcursor hhoist htest⟩ (runs_within.mp hbody) rfl rfl
    · refine .trans tested (.of_warnedAt (hasEffect_lowerCondition regular_warnedAt _ htest)) ?_
      exact .of_part ⟨_, .loop hcursor hhoist htest⟩ (runs_within.mp hbody) rfl rfl
  | some more =>
    have hcontext : (Statement.while condition body).warningContext c = c.enter 0 := by
      simp [Statement.warningContext, Statement.isCursorLoop, hcursor]
    rw [hcontext]
    -- The index of the body is entered in front of the iterator and the condition.
    obtain ⟨-, fetch, hfetch, hloop⟩ := runs_cursorLoop hcursor h
    obtain ⟨iterator, targets, found, named, started, inner, hiterator, htargets, hround, hbody,
      hcheck⟩ := runs_lowerCursorLoop hloop
    have hnames : (goNames fetch.into).WarnsHere (c.enter 0) := hasEffect_goNames _
    have hstarts : (emitRound iterator targets more).WarnsHere (inCursorLoop fetch (c.enter 0)) :=
      hasEffect_emitRound regular_warnedAt iterator targets more (warnsHere_emit _)
    have hstarted := hstarts hround
    have hfinds : (fetchIterator fetch).WarnsHere (c.enter 0) :=
      hasEffect_fetchIterator (admitsCursors_warnedAt _) fetch
    refine .trans found (.of_warnedAt (hfinds hiterator)) ?_
    refine .trans named (.of_warnedAt (hnames htargets)) ?_
    refine .trans started (.of_warnedAt_from hstarted rfl) ?_
    refine .trans _ ?_ (.of_warnedAt (warnsHere_emitGuarded _ hcheck))
    exact .of_part ⟨_, .cursorLoop hcursor hfetch hiterator htargets hround⟩ hbody rfl rfl

theorem marked_tryCatch {tryBody catchBody : List Statement}
    (h : (lowerStatement rest prepared (.tryCatch tryBody catchBody)).Runs c p result after) :
    p.Marked c.pathText (fun inner => ∃ part,
      Opens c prepared p (.tryCatch tryBody catchBody) part inner) after := by
  obtain ⟨flag, flagged, handled, inner, hflag, hrecover, hattempt, literal, hout, -, -, -, -,
    hliteral, -⟩ := runs_lowerTryCatch (runs_tryCatch h).2
  obtain ⟨started, caught, hstart, hhandler, -, -, hhandled⟩ := runs_emitRecover hrecover
  have hstarted := warnsHere_emitHandlerStart catchBody hstart
  refine .trans flagged (.of_warnedAt (hasEffect_returnFlag? regular_warnedAt _ hflag)) ?_
  refine .trans started (.of_warnedAt_from hstarted rfl) ?_
  refine .trans handled (.of_part ⟨_, .catchHalf hflag hstart⟩ hhandler rfl hhandled) ?_
  refine .trans literal ?_ (.of_warnedAt (warnsHere_emitWayOut _ _ hout))
  exact .of_part ⟨_, .tryHalf hflag hrecover⟩ hattempt rfl hliteral

/-- The warnings of a statement are its own or those of the statements of its parts. -/
theorem marked_lowerStatement {statement : Statement}
    (h : (lowerStatement rest prepared statement).Runs c p result after) :
    p.Marked (statement.warningContext c).pathText (fun inner => ∃ part,
      Opens c prepared p statement part inner) after := by
  cases statement with
  | ifElse => exact marked_ifElse h
  | «while» => exact marked_while h
  | tryCatch => exact marked_tryCatch h
  | block body => exact .of_part ⟨_, .block⟩ (runs_blockStatement h).1 rfl rfl
  | _ => exact .of_warnedAt (warnsHere_lowerLeaf rest prepared rfl h)

end Statements

namespace Frame

theorem Raises.exists_cons {frame : Frame} (h : frame.Raises i w) :
    ∃ statement rest, frame.statements = statement :: rest := by
  obtain ⟨⟨next, hstep, -⟩, -⟩ := h
  cases hstep with
  | mk => exact ⟨_, _, rfl⟩

/-- A warning that the first statement of a frame raises names the path of its context. -/
theorem Raises.path_eq {frame : Frame} (h : frame.Raises i w) {statement : Statement}
    {rest : List Statement} (hstatements : frame.statements = statement :: rest) :
    w.path = (statement.warningContext frame.here).pathText := by
  obtain ⟨⟨next, hstep, hlength, hget⟩, hparts⟩ := h
  cases hstep with
  | mk hruns =>
    obtain ⟨rfl, rfl⟩ := List.cons.inj hstatements
    refine ((marked_lowerStatement hruns).marks hlength hget).resolve_right ?_
    rintro ⟨inner, ⟨part, hopens⟩, hspans⟩
    exact hparts _ _ part inner rfl hopens hspans

/-- What the statements of a frame record is recorded by the first one or by the others. -/
theorem Spans.cases {frame : Frame} (h : frame.Spans i w) :
    frame.Records i w ∨ ∃ next, frame.Step next ∧ next.Spans i w := by
  obtain ⟨c, index, prepared, statements, p⟩ := frame
  obtain ⟨after, hruns, hlength, hget⟩ := h
  cases statements with
  | nil =>
    rw [lowerStatements] at hruns
    obtain ⟨-, rfl⟩ := runs_pure.mp hruns
    rw [List.getElem?_eq_none hlength] at hget
    cases hget
  | cons statement rest =>
    simp only [lowerStatements, runs_bind, runs_within, runs_located] at hruns
    obtain ⟨prepared', middle, hfirst, hrest⟩ := hruns
    by_cases hmiddle : middle.warnings.length ≤ i
    · exact .inr ⟨_, .mk hfirst, after, hrest, hmiddle, hget⟩
    · obtain ⟨_, _, hextends⟩ := extends_lowerStatements hrest
      refine .inl ⟨_, .mk hfirst, hlength, ?_⟩
      rwa [Warning.getElem?_of_grows hextends.grows.warnings (Nat.lt_of_not_le hmiddle)]

/-- Every warning of a list of statements is raised by some statement. -/
theorem Spans.exists_raises {frame : Frame} (h : frame.Spans i w) :
    ∃ frame', Relation.ReflTransGen Next frame frame' ∧ frame'.Raises i w := by
  obtain hrecords | ⟨next, hstep, hnext⟩ := h.cases
  · -- The first statement raises what it records, unless a part of it, which is smaller, does.
    by_cases hparts : ∃ statement rest part inner, frame.statements = statement :: rest ∧
        Opens frame.here frame.prepared frame.progress statement part inner ∧ inner.Spans i w
    · obtain ⟨statement, rest, part, inner, hstatements, hopens, hinner⟩ := hparts
      have hsize : sizeOf inner.statements < sizeOf frame.statements := by
        have hpart :=
          Statement.sizeOf_lt_of_children (Statement.mem_children_of_part? hopens.part?_eq)
        rw [hstatements, List.cons.sizeOf_spec]
        omega
      obtain ⟨frame', hpath, hraises⟩ := hinner.exists_raises
      exact ⟨frame', .head (.into hstatements hopens) hpath, hraises⟩
    · push Not at hparts
      exact ⟨frame, .refl, hrecords, hparts⟩
  · have hsize : sizeOf next.statements < sizeOf frame.statements := by
      cases hstep with
      | mk =>
        simp only [List.cons.sizeOf_spec]
        omega
    obtain ⟨frame', hpath, hraises⟩ := hnext.exists_raises
    exact ⟨frame', .head (.behind hstep) hpath, hraises⟩
termination_by sizeOf frame.statements

end Frame

/-! ## Paths that name no statement -/

/-- No path of a statement reads like the path of the entry. -/
theorem dotted_ne_entry {path : List Nat} (h : path ≠ []) : dotted path ≠ "entry" := by
  obtain ⟨last, front, hreverse⟩ := List.exists_cons_of_ne_nil (List.reverse_ne_nil_iff.mpr h)
  intro hentry
  have hpath : dotted path = renderPath (last :: front) := by
    rw [renderPath_cons, ← hreverse, List.reverse_reverse]
  exact List.cons_ne_nil _ _ (renderPath_injective ((hpath.symm.trans hentry).trans rfl))

theorem Statement.warningPath_ne_nil {path : List Nat} {body : List Statement} {s : Statement}
    (h : at? path body = some s) : s.warningPath path ≠ [] := by
  cases path with
  | nil => cases h
  | cons index path =>
    unfold warningPath
    split <;> simp

/-- The branch of a statement other than a block is no statement itself. -/
theorem Statement.at?_append_branch {s : Statement} (hblock : ∀ inner, s ≠ .block inner)
    (branch : Nat) {path : List Nat} {body : List Statement} (h : at? path body = some s) :
    at? (path ++ [branch]) body = none := by
  match path, h with
  | [], h => cases h
  | [index], h =>
    have hindex : body[index]? = some s := h
    rw [List.singleton_append, at?, hindex]
    cases s with
    | block inner => exact absurd rfl (hblock inner)
    | _ => simp [at?]
  | index :: first :: path, h =>
    obtain ⟨outer, houter, ⟨inner, rfl, hinside⟩ | ⟨-, inner, hbranch, hinside⟩⟩ :=
      exists_inside_of_at? h
    · rw [List.cons_append, List.cons_append, at?_block houter]
      exact at?_append_branch hblock branch hinside
    · rw [List.cons_append, List.cons_append, at?_branch houter hbranch]
      exact at?_append_branch hblock branch hinside

namespace Procedure

variable {procedure : Procedure} {config : Config} {lowered : LoweredProcedure}

/-- A text names the entry of a procedure, or one of its statements by its path. -/
def Names (procedure : Procedure) (text : String) : Prop :=
  text = "entry" ∨ ∃ path statement, Statement.at? path procedure.body = some statement ∧
    text = dotted path

/-- The warnings of a statement name a statement, unless it is a loop over a cursor. -/
theorem names_warningPath_iff {path : List Nat} {statement : Statement}
    (h : Statement.at? path procedure.body = some statement) :
    procedure.Names (dotted (statement.warningPath path)) ↔ statement.isCursorLoop = false := by
  unfold Statement.warningPath
  cases hcursor : statement.isCursorLoop with
  | false => exact iff_of_true (.inr ⟨path, statement, h, rfl⟩) rfl
  | true =>
    refine iff_of_false ?_ (by decide)
    rintro (hentry | ⟨other, s, hother, heq⟩)
    · exact dotted_ne_entry (by simp) hentry
    · have hblock : ∀ inner, statement ≠ .block inner := by
        rintro inner rfl
        cases hcursor
      rw [← dotted_injective heq, if_pos rfl, Statement.at?_append_branch hblock 0 h] at hother
      cases hother

/-- Statements at different paths name different paths in their warnings. -/
theorem warningPath_injective {path path' : List Nat} {statement statement' : Statement}
    (h : Statement.at? path procedure.body = some statement)
    (h' : Statement.at? path' procedure.body = some statement')
    (heq : statement.warningPath path = statement'.warningPath path') : path = path' := by
  have hkind : statement.isCursorLoop = false ↔ statement'.isCursorLoop = false := by
    rw [← names_warningPath_iff h, heq, names_warningPath_iff h']
  unfold Statement.warningPath at heq
  cases hcursor : statement.isCursorLoop <;> cases hcursor' : statement'.isCursorLoop <;>
    simp_all

/-- A warning that is raised in a frame names the statement of the frame, or its branch. -/
theorem Visits.raises_path {frame : Frame} (hvisits : procedure.Visits config frame)
    (hraises : frame.Raises i w) : ∃ path statement,
      Statement.at? path procedure.body = some statement ∧ frame.here.path = path.reverse ∧
      w.path = dotted (statement.warningPath path) := by
  obtain ⟨statement, rest, hstatements⟩ := hraises.exists_cons
  refine ⟨frame.here.path.reverse, statement, hvisits.at?_eq hstatements,
    (List.reverse_reverse _).symm, ?_⟩
  rw [hraises.path_eq hstatements, Statement.warningContext, Statement.warningPath]
  split
  next => simp [Context.pathText, Context.enter, renderPath_cons]
  next => rfl

/-- All warnings of a procedure name its entry, or are recorded by its statements. -/
theorem entry_or_exists_spans (hlower : procedure.lower config = .ok lowered)
    (hw : lowered.warnings[i]? = some w) :
    w.path = "entry" ∨ ∃ first, procedure.Begins config first ∧ first.Spans i w := by
  obtain ⟨-, c, function, after, hstart, hruns, rfl⟩ := lower_eq_ok_iff.mp hlower
  obtain ⟨first, finished, hbegins, hbody, hfinal, -⟩ := exists_begins_of_runs hstart hruns
  have hentry : first.context.pathText = "entry" := by
    obtain ⟨functionName, verb, hcontext⟩ := Context.start_eq_ok hbegins.1
    rw [hcontext]
    rfl
  have hmarked : (Progress.start config (.ofProcedure config procedure)).Marked "entry"
      (procedure.Begins config) after := by
    rw [← hentry]
    refine .trans first.progress (.of_warnedAt (warnsHere_lowerEntry hbegins.2.1)) ?_
    refine .trans finished (.of_part hbegins hbody rfl rfl) ?_
    exact .of_warnedAt (warnsHere_emitFinalReturn hfinal)
  exact hmarked.marks (Nat.zero_le i) hw

/-- A warning names the entry of a procedure and is raised by none of its statements, or it is
raised by one statement, the innermost one that is treated when it is recorded. Then it names this
statement, unless the statement is a loop over a cursor: the branch of its body is named instead,
which is no statement. -/
theorem warning_names_raising_statement (hlower : procedure.lower config = .ok lowered)
    (hw : lowered.warnings[i]? = some w) :
    (w.path = "entry" ∧ ∀ frame, procedure.Visits config frame → ¬frame.Raises i w) ∨
      ∃ path statement frame, Statement.at? path procedure.body = some statement ∧
        procedure.Visits config frame ∧ frame.here.path = path.reverse ∧ frame.Raises i w ∧
        w.path = dotted (statement.warningPath path) ∧
        (procedure.Names w.path ↔ statement.isCursorLoop = false) ∧
        ∀ other, procedure.Visits config other → other.Raises i w →
          other.here.path = path.reverse := by
  obtain hentry | ⟨first, hbegins, hspans⟩ := entry_or_exists_spans hlower hw
  · refine .inl ⟨hentry, fun frame hvisits hraises => ?_⟩
    obtain ⟨path, statement, hat, -, hpath⟩ := hvisits.raises_path hraises
    exact dotted_ne_entry (Statement.warningPath_ne_nil hat) (hpath.symm.trans hentry)
  · obtain ⟨frame, hreach, hraises⟩ := hspans.exists_raises
    have hvisits : procedure.Visits config frame := ⟨first, hbegins, hreach⟩
    obtain ⟨path, statement, hat, hplace, hpath⟩ := hvisits.raises_path hraises
    refine .inr ⟨path, statement, frame, hat, hvisits, hplace, hraises, hpath,
      hpath ▸ names_warningPath_iff hat, fun other hother hraises' => ?_⟩
    -- The path in the warning belongs to one statement only.
    obtain ⟨path', statement', hat', hplace', hpath'⟩ := hother.raises_path hraises'
    obtain rfl := warningPath_injective hat hat' (dotted_injective (hpath.symm.trans hpath'))
    exact hplace'

open Build in
/-- A procedure with a loop over a cursor whose condition also asks for the last error. -/
def sweep : Procedure where
  name := "usp_Sweep"
  params := []
  body := [declare "id" "INT",
    .declareCursor "c" ((select [col "id"]).readFrom ⟨"Orders", none⟩),
    .openCursor "c", fetchNext "c" ["id"],
    .while (and (eq fetchStatus (int 0)) (eq (.global .error) (int 0)))
      [.print (var "id"), fetchNext "c" ["id"]],
    .closeCursor "c", .deallocate "c"]

/-- The warning about the condition of the loop of `sweep` is raised by the loop, but names no
statement. -/
theorem sweep_warning_names_nothing : ∃ lowered w frame, sweep.lower {} = .ok lowered ∧
    lowered.warnings[0]? = some w ∧ w.path = "4.0" ∧ sweep.Visits {} frame ∧
    frame.here.path = [4] ∧ frame.Raises 0 w ∧ ¬sweep.Names w.path := by
  obtain ⟨lowered, hlower⟩ : ∃ lowered, sweep.lower {} = .ok lowered :=
    exists_lower_eq_ok (by decide +kernel)
  obtain ⟨w, hw, hpath⟩ : ∃ w, lowered.warnings[0]? = some w ∧ w.path = "4.0" := by
    have hfirst : (match sweep.lower {} with
        | .ok lowered => (lowered.warnings[0]?).map (·.path)
        | .error _ => none) = some "4.0" := by
      decide +kernel
    rw [hlower] at hfirst
    exact Option.map_eq_some_iff.mp hfirst
  obtain ⟨hentry, -⟩ | ⟨path, statement, frame, hat, hvisits, hplace, hraises, hwarning,
    hnames, -⟩ := warning_names_raising_statement hlower hw
  · exact absurd (hpath.symm.trans hentry) (by decide)
  · have htext : dotted [4, 0] = "4.0" := by decide
    have hbranch : statement.warningPath path = [4, 0] :=
      dotted_injective (hwarning.symm.trans (hpath.trans htext.symm))
    unfold Statement.warningPath at hbranch
    cases hcursor : statement.isCursorLoop with
    | false =>
      rw [hcursor, if_neg Bool.false_ne_true] at hbranch
      rw [hbranch] at hat
      cases hat
    | true =>
      rw [hcursor, if_pos rfl] at hbranch
      obtain rfl : path = [4] := List.append_cancel_right hbranch
      refine ⟨lowered, w, frame, hlower, hw, hpath, hvisits, hplace, hraises, ?_⟩
      rw [hnames, hcursor]
      decide

end Procedure

end Sproc
