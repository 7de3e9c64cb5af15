import Sproc.Proofs.Lower.Placement

/-!
# Ways out of `TRY` statements

Both halves of a `TRY` statement become function literals, which a `RETURN` and an error of a handler
have to leave step by step. A `RETURN` in the protected half sets the flag of its literal and leaves
it. Behind the literal the flag is checked, and the way out goes on from there: to the next literal,
or out of the function. An error that is raised in a handler is kept in `err` and asked for behind
the literal.

Whether a literal has a flag, and whether the error is asked for behind it, is decided by a look
ahead at the statements of the half. The invariants here say that the look ahead finds every
statement that needs a way out.

## Main definitions

* `Go.LeavesBy`: the checks of flags around a spot lead out of the function
* `Go.Surfaces`: the error of the handler around a spot is reported

## Main results

* `Procedure.Stands.exists_flagged`, `Procedure.Stands.surfaces`: the invariants
* `Procedure.returns_leave_by_flags`: a `RETURN` inside protected halves leaves the procedure
* `Procedure.raised_errors_surface`: an error that a handler raises is not lost
-/

namespace Sproc

open Lower

/-! ## Statements of one half -/

namespace Statement

variable {handlers : Bool} {statement : Statement} {part : Part} {body rest : List Statement}
  {p : Statement → Bool}

/-- The look ahead enters all parts of a statement except for one half. -/
theorem listSameHalf_subset (h : statement.part? part = some body)
    (hpart : part ≠ if handlers then .tryHalf else .catchHalf) :
    listSameHalf handlers body ⊆ sameHalf handlers statement := by
  unfold part? at h
  split at h <;> cases handlers <;> simp_all [sameHalf, elseSameHalf]

theorem mem_sameHalf_self (handlers : Bool) (statement : Statement) :
    statement ∈ sameHalf handlers statement := by
  cases statement <;> simp [sameHalf]

/-- What the look ahead finds is the statement itself, or is found in a part that it enters. -/
theorem mem_sameHalf {inner : Statement} (h : inner ∈ sameHalf handlers statement) :
    inner = statement ∨ ∃ part body, statement.part? part = some body ∧
      part ≠ (if handlers then .tryHalf else .catchHalf) ∧ inner ∈ listSameHalf handlers body := by
  have hother {part : Part} (htry : part ≠ .tryHalf) (hcatch : part ≠ .catchHalf) :
      part ≠ if handlers then .tryHalf else .catchHalf := by
    split <;> assumption
  cases statement with
  | ifElse condition thenBranch elseBranch =>
    rw [sameHalf, List.mem_cons, List.mem_append] at h
    rcases h with rfl | h | h
    · exact .inl rfl
    · exact .inr ⟨.thenBranch, _, rfl, hother (by decide) (by decide), h⟩
    · cases elseBranch with
      | none => cases h
      | some body => exact .inr ⟨.elseBranch, body, rfl, hother (by decide) (by decide), h⟩
  | «while» | block =>
    rcases List.mem_cons.mp h with rfl | h
    · exact .inl rfl
    · exact .inr ⟨.body, _, rfl, hother (by decide) (by decide), h⟩
  | tryCatch tryBody catchBody =>
    rcases List.mem_cons.mp h with rfl | h
    · exact .inl rfl
    · cases handlers with
      | true => exact .inr ⟨.catchHalf, _, rfl, by decide, h⟩
      | false => exact .inr ⟨.tryHalf, _, rfl, by decide, h⟩
  | _ => exact .inl (List.mem_singleton.mp h)

theorem any_listSameHalf_cons (h : statement.part? part = some body)
    (hpart : part ≠ if handlers then .tryHalf else .catchHalf)
    (hany : (listSameHalf handlers body).any p = true) :
    (listSameHalf handlers (statement :: rest)).any p = true := by
  obtain ⟨s, hs, hp⟩ := List.any_eq_true.mp hany
  refine List.any_eq_true.mpr ⟨s, ?_, hp⟩
  exact List.mem_append_left _ (listSameHalf_subset h hpart hs)

theorem any_listSameHalf_tail (hany : (listSameHalf handlers rest).any p = true) :
    (listSameHalf handlers (statement :: rest)).any p = true := by
  rw [listSameHalf, List.any_append, hany, Bool.or_true]

end Statement

/-! ## Returns -/

namespace Go

/-- The results of a function, where there is no error. -/
def Func.settledResults (function : Func) : List Expr :=
  (function.results.map (·.1)).map fun name => if name = "err" then .nil else .name name

/-- A `RETURN` goes on outwards: the flag of the literal around is set and the literal is left, or
the function returns. -/
def wayOut (values : List Expr) : List String → List Stmt
  | [] => [.ret values]
  | flag :: _ => [.assign (assignTo [.name flag] (.bool true)), .ret []]

/-- The checks of flags around a spot lead out of the function: each literal has a flag, which is
declared in front of it and checked behind it, and the check leaves the next literal. The flags are
given from the inside out. -/
inductive LeavesBy (values : List Expr) : List Layer → List String → Prop
  | body : LeavesBy values [] []
  | block {layer : Layer} {layers : List Layer} {flags : List String} :
    layer.shell.isLiteral = false → LeavesBy values layers flags →
    LeavesBy values (layer :: layers) flags
  | literal {front back : List Stmt} {flag : String} {layers : List Layer} {flags : List String} :
    LeavesBy values layers flags →
    LeavesBy values (⟨front ++ [.declare flag (.value .bool) none], .literal false,
      .branch (.mk none (.name flag) (wayOut values flags)) [] none :: back⟩ :: layers)
      (flag :: flags)

end Go

/-- The flags with the given numbers. -/
def flagNames (numbers : List Nat) : List String :=
  numbers.map (NameScope.numberedName "returned")

/-- All halves around a context are protected ones, and their literals have flags with these
numbers. -/
structure Context.Flagged (c : Context) (numbers : List Nat) : Prop where
  halves : ∀ half ∈ c.exits, half = .tryHalf
  flags : c.returnFlags = (flagNames numbers).map some
  length_eq : numbers.length = c.exits.length

theorem Context.Flagged.exitScope_eq {c : Context} {numbers : List Nat} (h : c.Flagged numbers) :
    c.exitScope = if numbers = [] then .body else .tryHalf := by
  obtain ⟨hhalves, -, hlength⟩ := h
  unfold Context.exitScope
  cases hexits : c.exits with
  | nil =>
    rw [hexits] at hlength
    rw [if_pos (List.length_eq_zero_iff.mp hlength)]
    rfl
  | cons half rest =>
    rw [hexits] at hhalves hlength
    rw [if_neg (List.ne_nil_of_length_eq_add_one hlength)]
    exact hhalves half List.mem_cons_self

theorem Context.Flagged.enter {c : Context} {numbers : List Nat} (h : c.Flagged numbers)
    (index : Nat) : (c.enter index).Flagged numbers :=
  ⟨h.halves, h.flags, h.length_eq⟩

/-- The same for the context of a frame, where the numbers have been given out and fall from the
inside out. -/
structure Frame.Flagged (frame : Frame) (numbers : List Nat) : Prop where
  context : frame.context.Flagged numbers
  falling : numbers.Pairwise (· > ·)
  known : ∀ n ∈ numbers, n ≤ frame.progress.names.counter "returned"

theorem Frame.Flagged.nodup {frame : Frame} {numbers : List Nat} (h : frame.Flagged numbers) :
    (flagNames numbers).Nodup :=
  (h.falling.imp fun hlt => Nat.ne_of_gt hlt).map _ fun _ _ hne heq =>
    hne (NameScope.numberedName_injective (by decide) heq)

/-- The values with which a `RETURN` leaves the function from inside `TRY` statements. -/
def Idiom.settledResults (I : Idiom) : List Go.Expr :=
  I.results (.name "returnCode") .nil

theorem Idiom.settledResults_eq {I : Idiom} {frame : Frame} {function : Go.Func}
    (h : I.Describes frame function) : function.settledResults = I.settledResults := by
  have houtputs : (I.procedure.outputNames I.table).map
      (fun name => if name = "err" then Go.Expr.nil else .name name) =
        (I.procedure.outputNames I.table).map .name := by
    refine List.map_congr_left fun name hname => if_neg ?_
    rintro rfl
    exact I.outputs _ hname List.mem_cons_self
  rw [Go.Func.settledResults, h.results, resultNames, settledResults, results, List.map_append,
    List.map_append, houtputs]
  cases I.survey.hasStatus <;> cases I.survey.needsErr <;> rfl

namespace Lower

variable {I : Idiom} {c : Context} {p after : Progress} {numbers : List Nat}

/-- A return outside of all `TRY` statements has the values of the idiom. -/
theorem runs_emitReturn {status error : Go.Expr} (hc : I.Covers c)
    (hgrown : I.table.symbols <+: p.symbols.symbols)
    (h : (emitReturn status error).Runs c p () after) :
    after = p.wrote (.ret (I.results status error)) := by
  simp only [emitReturn, runs_bind, runs_emit] at h
  obtain ⟨values, _, hvalues, rfl⟩ := h
  obtain ⟨rfl, rfl⟩ := resultValues_eq I.declared ⟨hc.procedure, hc.survey⟩ hgrown hvalues
  rfl

/-- The innermost flag is set, and its literal is left. -/
theorem runs_propagateReturn {n : Nat} (hflagged : c.Flagged (n :: numbers))
    (h : propagateReturn.Runs c p () after) (values : List Go.Expr) :
    after.output = p.output ++ Go.wayOut values (flagNames (n :: numbers)) := by
  have hhead : c.returnFlags.head?.join = some (NameScope.numberedName "returned" n) := by
    rw [hflagged.flags]
    rfl
  simp only [propagateReturn, runs_bind, runs_read] at h
  obtain ⟨_, _, ⟨rfl, rfl⟩, h⟩ := h
  simp only [hhead, emitAssign, runs_bind, runs_emit] at h
  obtain ⟨_, _, rfl, rfl⟩ := h
  simp [Progress.wrote, Go.wayOut, flagNames]

/-- Where a `TRY` statement ends, a `RETURN` goes on outwards. -/
theorem runs_resume (hc : I.Covers c) (hflagged : c.Flagged numbers)
    (hgrown : I.table.symbols <+: p.symbols.symbols)
    (h : (if c.exitScope = .body then emitReturn (.name "returnCode") .nil
      else propagateReturn).Runs c p () after) :
    after.output = p.output ++ Go.wayOut I.settledResults (flagNames numbers) := by
  have hscope := hflagged.exitScope_eq
  cases numbers with
  | nil =>
    rw [if_pos (hscope.trans (if_pos rfl))] at h
    rw [runs_emitReturn hc hgrown h]
    rfl
  | cons n numbers =>
    rw [if_neg (by simp [hscope])] at h
    exact runs_propagateReturn hflagged h _

/-- Directly behind the literal of a `TRY` statement its flag is checked. -/
theorem exists_flagCheck {flag : String} {catchBody : List Statement} {back : List Go.Stmt}
    (hc : I.Covers c) (hflagged : c.Flagged numbers)
    (hgrown : I.table.symbols <+: p.symbols.symbols)
    (h : (emitWayOut (some flag) catchBody).Runs c p () after)
    (hback : after.output = p.output ++ back) :
    ∃ more, back = .branch (.mk none (.name flag)
      (Go.wayOut I.settledResults (flagNames numbers))) [] none :: more := by
  obtain ⟨resumed, checked, hresume, hchecked, -, hreport⟩ := runs_flagCheck h
  have hresumed := runs_resume (p := p.opened) hc hflagged hgrown (hresume rfl)
  obtain ⟨more, hmore, -⟩ :=
    ((Scheme.permissive_free c).emitWayOut none catchBody).exists_extends hreport
  refine ⟨more, ?_⟩
  rw [hmore, hchecked, hresumed, List.append_assoc] at hback
  exact (List.append_cancel_left hback).symm

end Lower

theorem Opens.returnFlags_eq {c : Context} {prepared : Option Fetch} {p : Progress}
    {statement : Statement} {part : Part} {inner : Frame}
    (h : Opens c prepared p statement part inner) (hpart : part ≠ .tryHalf) :
    inner.context.returnFlags = c.returnFlags := by
  cases h <;> first | rfl | exact absurd rfl hpart

/-- The flag of a `TRY` statement that a `RETURN` can leave has a number of its own. -/
theorem Opens.flagged {frame inner : Frame} {numbers : List Nat}
    {tryBody catchBody : List Statement} (hflagged : frame.Flagged numbers)
    (h : Opens frame.here frame.prepared frame.progress (.tryCatch tryBody catchBody) .tryHalf inner)
    (hreturn : Statement.anyProtected Statement.isReturn inner.statements = true) :
    ∃ n, inner.Flagged (n :: numbers) := by
  have hscope : frame.here.exitScope ≠ .catchHalf := by
    have hscope := hflagged.context.exitScope_eq
    rw [show frame.here.exitScope = frame.context.exitScope from rfl, hscope]
    split <;> simp
  obtain ⟨⟨hhalves, hflags, hlength⟩, hfalling, hknown⟩ := hflagged
  cases h with
  | tryHalf hflag hrecover =>
    obtain ⟨-, -, hcase⟩ := runs_returnFlag? hflag
    rw [if_pos ⟨hscope, hreturn⟩] at hcase
    obtain ⟨n, hlt, hcounter, rfl⟩ := hcase
    obtain ⟨_, -, hextends⟩ := extends_emitRecover none hrecover
    have hgrown : n ≤ _ := hcounter ▸ hextends.grows.names.counter "returned"
    refine ⟨n, ⟨?_, ?_, ?_⟩, ?_, ?_⟩
    · exact List.forall_mem_cons.mpr ⟨rfl, hhalves⟩
    · exact congrArg (some (NameScope.numberedName "returned" n) :: ·) hflags
    · exact congrArg (· + 1) hlength
    · refine List.pairwise_cons.mpr ⟨fun m hm => ?_, hfalling⟩
      exact Nat.lt_of_le_of_lt (hknown m hm) hlt
    · refine List.forall_mem_cons.mpr ⟨hgrown, fun m hm => ?_⟩
      exact Nat.le_trans (hknown m hm) (Nat.le_trans (Nat.le_of_lt hlt) hgrown)

/-- The halves around a part are those around its statement, and maybe a further one. -/
theorem Part.subset_halves (part : Part) (outer : List ExitScope) : outer ⊆ part.halves outer := by
  cases part <;> simp [halves]

/-- A frame with the flags of another one, which it follows. -/
theorem Frame.Flagged.follow {frame next : Frame} {numbers : List Nat} (h : frame.Flagged numbers)
    (hflags : next.context.returnFlags = frame.context.returnFlags)
    (hexits : next.context.exits = frame.context.exits)
    (hfollows : frame.progress.Follows next.progress) : next.Flagged numbers where
  context := ⟨hexits ▸ h.context.halves, hflags ▸ h.context.flags, hexits ▸ h.context.length_eq⟩
  falling := h.falling
  known n hn := Nat.le_trans (h.known n hn) (hfollows.counter _)

namespace Procedure

variable {procedure : Procedure} {config : Config} {lowered : LoweredProcedure} {I : Idiom}
  {first frame : Frame} {spot : Go.Spot}

section Settled

variable (hfirst : procedure.Begins config first) (hsettled : I.Settled first)

include hfirst hsettled

/-- A frame that only protected halves enclose, and that has a `RETURN` among its statements, has a
flag for each of the halves, and the checks of the flags lead out of the function. -/
theorem Stands.exists_flagged (h : procedure.Stands config frame spot)
    (hhalves : ∀ half ∈ frame.context.exits, half = .tryHalf)
    (hreturn : Statement.anyProtected Statement.isReturn frame.statements = true) :
    ∃ numbers, frame.Flagged numbers ∧
      Go.LeavesBy I.settledResults spot.layers (flagNames numbers) := by
  induction h with
  | body hbegins =>
    obtain ⟨functionName, verb, hcontext⟩ := Context.start_eq_ok hbegins.1
    exact ⟨[], ⟨⟨hhalves, by rw [hcontext]; rfl, by rw [hcontext]; rfl⟩, .nil, nofun⟩, .body⟩
  | @behind frame next spot written _ hstep _ ih =>
    obtain ⟨_, -, hextends⟩ := hstep.exists_extends
    have hcontext := hstep.context_eq
    have hreturn : Statement.anyProtected Statement.isReturn frame.statements = true := by
      cases hstep with
      | mk => exact Statement.any_listSameHalf_tail hreturn
    obtain ⟨numbers, hflagged, hleaves⟩ := ih (hcontext ▸ hhalves) hreturn
    refine ⟨numbers, hflagged.follow (by rw [hcontext]) (by rw [hcontext]) ?_, hleaves⟩
    exact hextends.grows.follows
  | @into frame next inner spot place statement rest part code others hstands hstatements hopens
      hencloses _ _ _ _ ih =>
    have hexits : inner.context.exits = part.halves frame.context.exits := hopens.exits_eq
    have hpart : part ≠ .catchHalf := by
      rintro rfl
      cases hhalves .catchHalf (hexits ▸ List.mem_cons_self)
    have houter : ∀ half ∈ frame.context.exits, half = .tryHalf :=
      fun half hhalf => hhalves half (hexits ▸ part.subset_halves _ hhalf)
    obtain ⟨numbers, hflagged, hleaves⟩ := ih houter
      (hstatements ▸ Statement.any_listSameHalf_cons hopens.part?_eq hpart hreturn)
    have hsame (hpart : part ≠ .tryHalf) (hhalves : part.halves frame.context.exits =
        frame.context.exits) : inner.Flagged numbers :=
      hflagged.follow (hopens.returnFlags_eq hpart) (hexits.trans hhalves) hopens.follows
    cases hencloses with
    | thenBranch | elseBranch | elseIf | loop => exact ⟨numbers, hsame nofun rfl, .block rfl hleaves⟩
    | block => exact ⟨numbers, hsame nofun rfl, hleaves⟩
    | catchHalf => exact absurd rfl hpart
    | @tryHalf tryBody catchBody _ flag handler back literal after hcontext hgrown hout hback =>
      obtain ⟨n, hinner⟩ := hopens.flagged hflagged hreturn
      have hflag : flag = some (NameScope.numberedName "returned" n) := by
        have hflags := hinner.context.flags
        rw [hcontext] at hflags
        exact (List.cons.inj hflags).1
      have hsettled := hstands.visitsIn.settled hfirst hsettled
      obtain ⟨more, rfl⟩ := exists_flagCheck (hsettled.covers.enter _) (hflagged.context.enter _)
        (hsettled.sound.grown.trans hgrown) (hflag ▸ hout) hback
      subst hflag
      exact ⟨n :: numbers, hinner, .literal hleaves⟩

end Settled

/-- The frames of a procedure belong to an idiom, whose code only mentions the error when the
function has it. -/
theorem exists_settled (h : procedure.lower config = .ok lowered) :
    ∃ (I : Idiom) (first : Frame), procedure.Begins config first ∧ I.Settled first ∧
      I.Describes first lowered.function ∧
      (I.allows (.name "err") → I.survey.needsErr = true) := by
  let permit : Permit := (Survey.ofProcedure config procedure).errorPermit config
  have hgrants : permit.GrantsProcedure procedure := by
    refine Permit.grantsProcedure rfl (fun m hm => ?_) fun _ _ _ _ => nofun
    rintro rfl
    exact hm
  obtain ⟨I, first, hpermit, -, hfirst, hdescribes⟩ :=
    Procedure.exists_idiom h permit rfl rfl hgrants
  refine ⟨I, first, hfirst, ⟨hdescribes.covers, hdescribes.sound, ?_⟩, hdescribes, ?_⟩
  · intro s hs inner hinner
    rw [hpermit]
    rw [hfirst.2.2.2.2] at hs
    exact hgrants.statements inner (Statement.mem_nestedList.mpr ⟨s, hs, hinner⟩)
  · intro hallows
    rw [hpermit] at hallows ⊢
    exact hallows rfl

/-- What a `RETURN` does before it leaves the innermost literal: it keeps its status, if it has
one. -/
def Keeps (value : Option Expr) (code : List Go.Stmt) : Prop :=
  match value with
  | none => code = []
  | some _ => ∃ front status, code = front ++ [.assign (assignTo [.name "returnCode"] status)]

end Procedure

/-- A `RETURN` in a protected half keeps its status and sets the innermost flag. -/
theorem Lower.runs_ret {c : Context} {p after : Progress} {rest : List Statement}
    {prepared result : Option Fetch} {value : Option Expr} {n : Nat} {numbers : List Nat}
    (hflagged : c.Flagged (n :: numbers))
    (h : (lowerStatement rest prepared (.ret value)).Runs c p result after)
    (values : List Go.Expr) :
    ∃ front, Procedure.Keeps value front ∧
      after.output = p.output ++ (front ++ Go.wayOut values (flagNames (n :: numbers))) := by
  rw [lowerStatement] at h
  simp only [runs_bind, runs_pure] at h
  obtain ⟨status, stated, hstatus, _, _, hleave, -, rfl⟩ := h
  simp only [lowerReturn, runs_bind, runs_read] at hleave
  obtain ⟨c, _, ⟨rfl, rfl⟩, hleave⟩ := hleave
  rw [hflagged.exitScope_eq.trans (if_neg (List.cons_ne_nil _ _))] at hleave
  cases value with
  | none =>
    obtain ⟨rfl, rfl⟩ := runs_pure.mp hstatus
    exact ⟨[], rfl, runs_propagateReturn hflagged hleave values⟩
  | some value =>
    simp only [lowerStatus, runs_bind, runs_pure] at hstatus
    obtain ⟨status, _, hvalue, rfl, rfl⟩ := hstatus
    obtain ⟨front, hfront, -⟩ := (hasEffect_lowerValue_regular
      (Scheme.permissive_free c).regular.forms value .int32).exists_extends hvalue
    simp only [emitAssign, runs_bind, runs_emit] at hleave
    obtain ⟨_, _, rfl, hleave⟩ := hleave
    refine ⟨_, ⟨front, status, rfl⟩, ?_⟩
    rw [runs_propagateReturn hflagged hleave values, Progress.wrote, hfront]
    simp

/-- Every `RETURN` that only protected halves enclose leaves the procedure. There is a frame with a
spot for it, and the code at the spot sets the flag of the innermost literal and leaves it. The
checks of the flags, which directly follow the literals, leave one literal after the other and in the
end the function, with all its results. No two of the literals have the same flag. -/
theorem Procedure.returns_leave_by_flags {procedure : Procedure} {config : Config}
    {lowered : LoweredProcedure} (h : procedure.lower config = .ok lowered)
    {halves : List ExitScope} {value : Option Expr} (hunder : procedure.Under halves (.ret value))
    (hsome : halves ≠ []) (hprotected : ∀ half ∈ halves, half = .tryHalf) :
    (∃ frame spot rest, procedure.Stands config frame spot ∧
      frame.statements = .ret value :: rest ∧ frame.context.exits = halves) ∧
    ∀ frame spot rest, procedure.Stands config frame spot →
      frame.statements = .ret value :: rest → frame.context.exits = halves →
      ∃ flags front back, flags.length = halves.length ∧ flags.Nodup ∧
        Go.LeavesBy lowered.function.settledResults spot.layers flags ∧ Keeps value front ∧
        lowered.function.body = spot.fill
          (front ++ Go.wayOut lowered.function.settledResults flags ++ back) := by
  obtain ⟨I, first, hfirst, hsettled, hdescribes, -⟩ := exists_settled h
  rw [Idiom.settledResults_eq hdescribes]
  constructor
  · obtain ⟨frame, rest, spot, hstands, hstatements, hexits⟩ := hunder.exists_stands h
    exact ⟨frame, spot, rest, hstands, hstatements, hexits⟩
  · rintro frame spot rest hstands hstatements rfl
    have hreturn : Statement.anyProtected Statement.isReturn frame.statements = true := by
      rw [hstatements]
      rfl
    obtain ⟨numbers, hflagged, hleaves⟩ :=
      hstands.exists_flagged hfirst hsettled hprotected hreturn
    obtain ⟨next, hstep, hnext⟩ := (hstands.succeeds h).exists_step hstatements
    obtain ⟨back, hback⟩ := hnext.exists_writes
    have hlength := hflagged.context.length_eq
    obtain _ | ⟨n, numbers⟩ := numbers
    · exact absurd (List.length_eq_zero_iff.mp hlength.symm) hsome
    · have hwritten : ∃ front, Keeps value front ∧ next.progress.output = frame.progress.output ++
          (front ++ Go.wayOut I.settledResults (flagNames (n :: numbers))) := by
        cases hstep with
        | mk hruns =>
          obtain ⟨rfl, -⟩ := List.cons.inj hstatements
          exact runs_ret (hflagged.context.enter _) hruns _
      obtain ⟨front, hkeeps, hwritten⟩ := hwritten
      refine ⟨flagNames (n :: numbers), front, back, ?_, hflagged.nodup, hleaves, hkeeps, ?_⟩
      · rw [flagNames, List.length_map, hlength]
      · exact hstands.fill_eq h (hstep.writes hwritten hback)

open Build in
/-- A procedure that returns from a `TRY` statement in a loop of another one. -/
def Procedure.poll : Procedure where
  name := "usp_Poll"
  params := [output "n" "INT" none]
  body := [.tryCatch [.while (lt (var "n") (int 3))
    [.tryCatch [.delete (delete "jobs"), .ret (some (int 1))] []]] []]

/-- The `RETURN` of `Procedure.poll` leaves two literals, and then the function with its results. -/
theorem Procedure.poll_returns_leave_by_flags :
    ∃ lowered, Procedure.poll.lower {} = .ok lowered ∧
      lowered.function.settledResults = [.name "n", .name "returnCode", .nil] ∧
      ∃ (spot : Go.Spot) (flags : List String) (front back : List Go.Stmt), flags.length = 2 ∧ flags.Nodup ∧
        Go.LeavesBy [.name "n", .name "returnCode", .nil] spot.layers flags ∧
        lowered.function.body = spot.fill
          (front ++ Go.wayOut [.name "n", .name "returnCode", .nil] flags ++ back) := by
  have hresults : (Procedure.poll.lower {}).toOption.map (·.function.results.map (·.1)) =
      some ["n", "returnCode", "err"] := by
    decide +kernel
  cases hlower : Procedure.poll.lower {} with
  | error error => simp [hlower, Except.toOption] at hresults
  | ok lowered =>
    rw [hlower] at hresults
    have hsettled : lowered.function.settledResults = [.name "n", .name "returnCode", .nil] := by
      have hnames : lowered.function.results.map (·.1) = ["n", "returnCode", "err"] :=
        Option.some.inj hresults
      rw [Go.Func.settledResults, hnames]
      rfl
    have hunder : Procedure.poll.Under [.tryHalf, .tryHalf] (.ret (some (Build.int 1))) := by
      have houter : Procedure.poll.Under [] _ := .body List.mem_cons_self
      have hloop := @Under.part _ _ _ _ .tryHalf _ houter rfl List.mem_cons_self
      have hinner := @Under.part _ _ _ _ .body _ hloop rfl List.mem_cons_self
      exact @Under.part _ _ _ _ .tryHalf _ hinner rfl (List.mem_cons_of_mem _ List.mem_cons_self)
    obtain ⟨⟨frame, spot, rest, hstands, hstatements, hexits⟩, hall⟩ :=
      Procedure.returns_leave_by_flags hlower hunder (List.cons_ne_nil _ _) (by simp)
    obtain ⟨flags, front, back, hlength, hnodup, hleaves, -, hbody⟩ :=
      hall frame spot rest hstands hstatements hexits
    rw [hsettled] at hleaves hbody
    exact ⟨lowered, rfl, hsettled, spot, flags, front, back, hlength, hnodup, hleaves, hbody⟩

/-! ## Raised errors -/

namespace Go

/-- The half whose literal is the innermost one around a spot. -/
def exitOf : List Layer → ExitScope
  | [] => .body
  | layer :: rest =>
    match layer.shell with
    | .literal true => .catchHalf
    | .literal false => .tryHalf
    | _ => exitOf rest

/-- What is done with the error of a handler behind the literal of its `TRY` statement: the function
returns its results, which end in the error; or the error is raised as a panic; or the handler around
the statement is left while the error is kept. -/
def report (results : List String) : ExitScope → List Stmt
  | .body => [.ret (results.map .name)]
  | .tryHalf => [.panic (.name "err")]
  | .catchHalf => [.ret []]

/-- The error of the handler around a spot is reported: it is asked for behind the literal of the
`TRY` statement, where only the check of the flag may stand in front of the question. If the
statement stands in a handler itself, the error of that handler is reported as well. -/
inductive Surfaces (results : List String) : List Layer → Prop
  | block {layer : Layer} {layers : List Layer} :
    layer.shell.isLiteral = false → Surfaces results layers → Surfaces results (layer :: layers)
  | handler {start attempt front resumed back : List Stmt} {flag : Option String}
    {layers : List Layer} : (exitOf layers = .catchHalf → Surfaces results layers) →
    Surfaces results (⟨start, .literal true, attempt⟩ :: ⟨front ++ flagLines flag, .literal false,
      flagCheck flag resumed ++
        .branch (.mk none failed (report results (exitOf layers))) [] none :: back⟩ :: layers)

/-- An error that is raised: the one that is being handled, or a new one. -/
def IsRaised (error : Expr) : Prop :=
  error = .name "caught" ∨ (∃ args, error = .invoke (.name "fmt") "Errorf" args) ∨
    ∃ args, error = .invoke (.name "errors") "New" args

end Go

theorem Idiom.results_named (I : Idiom) :
    I.results (.name "returnCode") err = I.resultNames.map .name := by
  rw [results, resultNames, List.map_append, List.map_append]
  cases I.survey.hasStatus <;> cases I.survey.needsErr <;> rfl

namespace Lower

variable {I : Idiom} {c : Context} {p after : Progress}

/-- An error in a handler is kept, and the handler is left. -/
theorem runs_raise {error : Go.Expr} (hscope : c.exitScope = .catchHalf)
    (h : (raise error).Runs c p () after) :
    after.output = p.output ++ [Go.Stmt.assign (assignTo [err] error), .ret []] := by
  simp only [raise, runs_bind, runs_read] at h
  obtain ⟨_, _, ⟨rfl, rfl⟩, h⟩ := h
  simp only [hscope, runs_bind, runs_emit] at h
  obtain ⟨_, _, rfl, rfl⟩ := h
  simp [Progress.wrote]

/-- A statement that raises an error in a handler keeps the error and leaves the handler. -/
theorem runs_raises {rest : List Statement} {prepared result : Option Fetch} {statement : Statement}
    (hraises : statement.raises = true) (hscope : c.exitScope = .catchHalf)
    (h : (lowerStatement rest prepared statement).Runs c p result after) :
    ∃ front error, Go.IsRaised error ∧
      after.output = p.output ++ (front ++ [Go.Stmt.assign (assignTo [err] error), .ret []]) := by
  have hvalue {e : Expr} {type : GoType} {p after : Progress} {value : Go.Expr}
      (h : (lowerValue e type).Runs c p value after) :
      ∃ front, after.output = p.output ++ front := by
    obtain ⟨front, hfront, -⟩ := (hasEffect_lowerValue_regular
      (Scheme.permissive_free c).regular.forms e type).exists_extends h
    exact ⟨front, hfront⟩
  cases statement with
  | throw args =>
    rw [lowerStatement] at h
    simp only [runs_bind, runs_pure] at h
    obtain ⟨_, _, hthrow, -, rfl⟩ := h
    cases args with
    | none =>
      simp only [lowerThrow, runs_bind, runs_read] at hthrow
      obtain ⟨_, _, ⟨rfl, rfl⟩, hthrow⟩ := hthrow
      split at hthrow
      · obtain ⟨_, _, hfails, -⟩ := runs_bind.mp hthrow
        exact absurd hfails not_runs_unsupported
      · exact ⟨[], _, .inl rfl, runs_raise hscope hthrow⟩
    | some args =>
      simp only [lowerThrow, importPath, runs_bind, runs_modify] at hthrow
      obtain ⟨number, _, hnumber, message, _, hmessage, _, _, rfl, hraise⟩ := hthrow
      obtain ⟨front, hfront⟩ := hvalue hnumber
      obtain ⟨front', hfront'⟩ := hvalue hmessage
      refine ⟨front ++ front', _, .inr (.inl ⟨[.str "%d: %s", number, message], rfl⟩), ?_⟩
      simp [runs_raise hscope hraise, hfront', hfront]
  | raiserror message severity state =>
    have hsevere : severity.isInformational = false := by simpa [Statement.raises] using hraises
    rw [lowerStatement] at h
    simp only [lowerRaiserror, hsevere, Bool.false_eq_true, if_false, importPath, runs_bind,
      runs_modify, runs_pure] at h
    obtain ⟨_, _, ⟨text, _, htext, _, _, rfl, hraise⟩, -, rfl⟩ := h
    obtain ⟨front, hfront⟩ := hvalue htext
    refine ⟨front, _, .inr (.inr ⟨[text], rfl⟩), ?_⟩
    simp [runs_raise hscope hraise, hfront]
  | _ => cases hraises

theorem runs_reported (hc : I.Covers c) (hgrown : I.table.symbols <+: p.symbols.symbols)
    (h : (if c.exitScope = .catchHalf then emit (.ret []) else errorExit).Runs c p () after) :
    after.output = p.output ++ Go.report I.resultNames c.exitScope := by
  by_cases hcatch : c.exitScope = .catchHalf
  · rw [if_pos hcatch] at h
    rw [runs_emit.mp h, hcatch]
    rfl
  · rw [if_neg hcatch] at h
    simp only [errorExit, runs_bind, runs_read] at h
    obtain ⟨c, _, ⟨rfl, rfl⟩, h⟩ := h
    cases hscope : c.exitScope with
    | body =>
      rw [hscope] at h
      rw [runs_emitReturn hc hgrown h, Idiom.results_named]
      rfl
    | tryHalf =>
      rw [hscope] at h
      rw [runs_emit.mp h]
      rfl
    | catchHalf => exact absurd hscope hcatch

/-- Behind the literal the error of the handler is reported as the scope asks for. -/
theorem exists_report {flag : Option String} {catchBody : List Statement} {back : List Go.Stmt}
    (hc : I.Covers c) (hneeds : I.survey.needsErr = true)
    (hraises : Statement.anyHandler Statement.raises catchBody = true)
    (hgrown : I.table.symbols <+: p.symbols.symbols)
    (h : (emitWayOut flag catchBody).Runs c p () after) (hback : after.output = p.output ++ back) :
    ∃ resumed, back = flagCheck flag resumed ++
      [Go.Stmt.branch (.mk none failed (Go.report I.resultNames c.exitScope)) [] none] := by
  obtain ⟨resumed, checked, -, hchecked, hsymbols, hrest⟩ := runs_flagCheck h
  obtain ⟨reported, hreport, hafter⟩ := runs_report hrest (hc.survey ▸ hneeds) hraises
  have hreported := runs_reported (p := checked.opened) hc (hgrown.trans hsymbols) hreport
  refine ⟨resumed.output, ?_⟩
  rw [hafter, hchecked, hreported, List.append_assoc] at hback
  exact (List.append_cancel_left hback).symm

end Lower

namespace Procedure

variable {procedure : Procedure} {config : Config} {lowered : LoweredProcedure} {I : Idiom}
  {first frame : Frame} {spot : Go.Spot}

/-- The innermost literal around a spot is that of the half which its frame stands in. -/
theorem Stands.exitOf_eq (h : procedure.Stands config frame spot) :
    Go.exitOf spot.layers = frame.context.exitScope := by
  induction h with
  | body hbegins =>
    obtain ⟨functionName, verb, hcontext⟩ := Context.start_eq_ok hbegins.1
    rw [hcontext]
    rfl
  | behind _ hstep _ ih => rwa [hstep.context_eq]
  | into _ _ hopens hencloses _ _ _ _ ih =>
    rw [hopens.exitScope_eq]
    cases hencloses with
    | thenBranch | elseBranch | elseIf | loop | block => exact ih
    | tryHalf | catchHalf => rfl

section Settled

variable (hfirst : procedure.Begins config first) (hsettled : I.Settled first)

include hfirst hsettled

/-- A frame in a handler with a statement that raises an error has the error reported. -/
theorem Stands.surfaces (hneeds : I.survey.needsErr = true)
    (h : procedure.Stands config frame spot) (hscope : frame.context.exitScope = .catchHalf)
    (hraises : Statement.anyHandler Statement.raises frame.statements = true) :
    Go.Surfaces I.resultNames spot.layers := by
  induction h with
  | body hbegins =>
    obtain ⟨functionName, verb, hcontext⟩ := Context.start_eq_ok hbegins.1
    rw [hcontext] at hscope
    cases hscope
  | @behind frame next spot written _ hstep _ ih =>
    refine ih (hstep.context_eq ▸ hscope) ?_
    cases hstep with
    | mk => exact Statement.any_listSameHalf_tail hraises
  | @into frame next inner spot place statement rest part code others hstands hstatements hopens
      hencloses _ _ _ _ ih =>
    rw [hopens.exitScope_eq] at hscope
    have houter (hpart : part ≠ .tryHalf) (hcatch : frame.context.exitScope = .catchHalf) :
        Go.Surfaces I.resultNames spot.layers :=
      ih hcatch (hstatements ▸ Statement.any_listSameHalf_cons hopens.part?_eq hpart hraises)
    cases hencloses with
    | thenBranch | elseBranch | elseIf | loop => exact .block rfl (houter nofun hscope)
    | block => exact houter nofun hscope
    | tryHalf => cases hscope
    | @catchHalf tryBody catchBody _ flag start attempt back literal after hgrown hout hback =>
      have hsettled := hstands.visitsIn.settled hfirst hsettled
      have hbody : catchBody = inner.statements := Option.some.inj hopens.part?_eq
      obtain ⟨resumed, rfl⟩ := exists_report (hsettled.covers.enter _) hneeds (hbody ▸ hraises)
        (hsettled.sound.grown.trans hgrown) hout hback
      have hexit : frame.here.exitScope = Go.exitOf spot.layers := hstands.exitOf_eq.symm
      have hreported : Go.Surfaces I.resultNames (⟨[], .literal true, attempt⟩ ::
          ⟨spot.front ++ flagLines flag, .literal false, flagCheck flag resumed ++
            .branch (.mk none failed (Go.report I.resultNames frame.here.exitScope)) [] none ::
              (others ++ spot.back)⟩ :: spot.layers) := by
        rw [hexit]
        exact .handler fun hcatch => houter nofun (hexit.trans hcatch)
      simpa [Go.Spot.inside, Go.Spot.widen, Go.Spot.before] using .block rfl hreported

end Settled

end Procedure

/-- Every error that is raised in a handler surfaces. There is a frame with a spot for its statement,
and the code at the spot keeps the error in `err` and leaves the handler. Behind the literal of the
`TRY` statement the error is asked for, and it is returned from the function, raised as a panic, or
kept while the next handler is left, as the place of the `TRY` statement demands; in the last case
the same holds of that handler. -/
theorem Procedure.raised_errors_surface {procedure : Procedure} {config : Config}
    {lowered : LoweredProcedure} (h : procedure.lower config = .ok lowered)
    {halves : List ExitScope} {statement : Statement}
    (hunder : procedure.Under (.catchHalf :: halves) statement) (hraises : statement.raises = true) :
    (lowered.function.results.map (·.1)).getLast? = some "err" ∧
    (∃ frame spot rest, procedure.Stands config frame spot ∧
      frame.statements = statement :: rest ∧ frame.context.exits = .catchHalf :: halves) ∧
    ∀ frame spot rest, procedure.Stands config frame spot →
      frame.statements = statement :: rest → frame.context.exits = .catchHalf :: halves →
      ∃ front error back, Go.IsRaised error ∧
        lowered.function.body = spot.fill
          (front ++ [.assign (assignTo [err] error), .ret []] ++ back) ∧
        Go.Surfaces (lowered.function.results.map (·.1)) spot.layers := by
  obtain ⟨I, first, hfirst, hsettled, hdescribes, herror⟩ := exists_settled h
  obtain ⟨frame, rest, spot, hstands, hstatements, hexits⟩ := hunder.exists_stands h
  have hneeds : I.survey.needsErr = true := by
    have hframe := hstands.visitsIn.settled hfirst hsettled
    have hgrants := hframe.grants statement (hstatements ▸ List.mem_cons_self) statement
      (Statement.mem_nested_self statement)
    exact herror (Idiom.grants_error.mp (hgrants.2 .error (Statement.error_mem_ownNeeds hraises)))
  rw [hdescribes.results]
  refine ⟨by simp [Idiom.resultNames, hneeds], ⟨frame, spot, rest, hstands, hstatements, hexits⟩, ?_⟩
  intro frame spot rest hstands hstatements hexits
  have hscope : frame.here.exitScope = .catchHalf := by
    rw [Context.exitScope, show frame.here.exits = frame.context.exits from rfl, hexits]
    rfl
  obtain ⟨next, hstep, hnext⟩ := (hstands.succeeds h).exists_step hstatements
  obtain ⟨back, hback⟩ := hnext.exists_writes
  have hwritten : ∃ front error, Go.IsRaised error ∧ next.progress.output =
      frame.progress.output ++ (front ++ [Go.Stmt.assign (assignTo [err] error), .ret []]) := by
    cases hstep with
    | mk hruns =>
      obtain ⟨rfl, -⟩ := List.cons.inj hstatements
      exact runs_raises (c := Frame.here _) hraises hscope hruns
  obtain ⟨front, error, hraised, hwritten⟩ := hwritten
  refine ⟨front, error, back, hraised, hstands.fill_eq h (hstep.writes hwritten hback), ?_⟩
  refine hstands.surfaces hfirst hsettled hneeds hscope ?_
  rw [hstatements, Statement.anyHandler, List.any_eq_true]
  exact ⟨statement, List.mem_append_left _ (Statement.mem_sameHalf_self true statement), hraises⟩

open Build in
/-- A procedure that raises an error in the handler of a `TRY` statement in another handler. -/
def Procedure.escalate : Procedure where
  name := "usp_Escalate"
  params := [output "n" "INT" none]
  body := [.tryCatch [.delete (delete "jobs")]
    [.tryCatch [.delete (delete "jobs")]
      [.ifElse (lt (var "n") (int 3)) [.raiserror (text "stuck") (int 16) (int 1)] none]]]

/-- The error of `Procedure.escalate` surfaces. -/
theorem Procedure.escalate_raised_errors_surface :
    ∃ lowered, Procedure.escalate.lower {} = .ok lowered ∧
      lowered.function.results.map (·.1) = ["n", "err"] ∧
      ∃ (spot : Go.Spot) (front back : List Go.Stmt) (error : Go.Expr), Go.IsRaised error ∧
        lowered.function.body = spot.fill
          (front ++ [.assign (assignTo [err] error), .ret []] ++ back) ∧
        Go.Surfaces ["n", "err"] spot.layers := by
  have hresults : (Procedure.escalate.lower {}).toOption.map (·.function.results.map (·.1)) =
      some ["n", "err"] := by
    decide +kernel
  cases hlower : Procedure.escalate.lower {} with
  | error error => simp [hlower, Except.toOption] at hresults
  | ok lowered =>
    rw [hlower] at hresults
    have hnames : lowered.function.results.map (·.1) = ["n", "err"] := Option.some.inj hresults
    have hunder : Procedure.escalate.Under [.catchHalf, .catchHalf]
        (.raiserror (Build.text "stuck") (Build.int 16) (Build.int 1)) := by
      have houter : Procedure.escalate.Under [] _ := .body List.mem_cons_self
      have hinner := @Under.part _ _ _ _ .catchHalf _ houter rfl List.mem_cons_self
      have hbranch := @Under.part _ _ _ _ .catchHalf _ hinner rfl List.mem_cons_self
      exact @Under.part _ _ _ _ .thenBranch _ hbranch rfl List.mem_cons_self
    obtain ⟨-, ⟨frame, spot, rest, hstands, hstatements, hexits⟩, hall⟩ :=
      Procedure.raised_errors_surface hlower hunder rfl
    obtain ⟨front, error, back, hraised, hbody, hsurfaces⟩ :=
      hall frame spot rest hstands hstatements hexits
    rw [hnames] at hsurfaces
    exact ⟨lowered, rfl, hnames, spot, front, back, error, hraised, hbody, hsurfaces⟩

end Sproc
