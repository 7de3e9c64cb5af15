import Sproc.Ast.Build
import Sproc.Proofs.Lower.Stop

/-!
# The statement that is to blame

Where a procedure cannot be turned into a function, the error names one statement by its path: the
innermost one that fails while everything inside it succeeds. Whatever fails in front of the
statements is reported at `entry`.

Sites are attached on the way out, and the first one stays. So the site is that of the innermost
statement whose own generation failed, and the path of a frame, which grows by an index for each
list and by an index for each branch, leads to that statement in the body of the procedure.

## Main definitions

* `Statement.at?`: the statement at a path
* `Frame.Blames`: a frame stops at its first statement, by that statement's own doing

## Main results

* `Procedure.Visits.at?_eq`: the path of a frame leads to its first statement
* `Procedure.exists_visits_at`: every path leads to the first statement of a frame
* `Procedure.lower_error_site`: the site of an error
-/

namespace Sproc

/-! ## Paths of statements -/

namespace Statement

/-- The statements of a branch by its index: 0 for the first branch, for bodies of loops and for
protected statements, and 1 for alternatives and handlers. -/
def branch? : Statement → Nat → Option (List Statement)
  | .ifElse _ thenBranch _, 0 => some thenBranch
  | .ifElse _ _ elseBranch, 1 => elseBranch
  | .while _ body, 0 => some body
  | .tryCatch tryBody _, 0 => some tryBody
  | .tryCatch _ catchBody, 1 => some catchBody
  | _, _ => none

/-- The statement at a path that starts with an index in a list. The statements of a block have no
branch of their own. -/
def at? : List Nat → List Statement → Option Statement
  | [], _ => none
  | [index], body => body[index]?
  | index :: branch :: path, body =>
    match body[index]? with
    | some (.block inner) => at? (branch :: path) inner
    | some statement => (statement.branch? branch).bind (at? path)
    | none => none

theorem at?_block {index branch : Nat} {path : List Nat} {body inner : List Statement}
    (h : body[index]? = some (.block inner)) :
    at? (index :: branch :: path) body = at? (branch :: path) inner := by
  rw [at?, h]

theorem at?_branch {index branch : Nat} {path : List Nat} {body inner : List Statement}
    {statement : Statement} (h : body[index]? = some statement)
    (hbranch : statement.branch? branch = some inner) :
    at? (index :: branch :: path) body = at? path inner := by
  rw [at?, h]
  cases statement <;> simp_all [branch?]

/-- A path that goes on leads into the statements of a block or into a branch. -/
theorem exists_inside_of_at? {index branch : Nat} {path : List Nat} {body : List Statement}
    {statement : Statement} (h : at? (index :: branch :: path) body = some statement) :
    ∃ outer, body[index]? = some outer ∧
      ((∃ inner, outer = .block inner ∧ at? (branch :: path) inner = some statement) ∨
        (∀ inner, outer ≠ .block inner) ∧
          ∃ inner, outer.branch? branch = some inner ∧ at? path inner = some statement) := by
  cases houter : body[index]? with
  | none => simp [at?, houter] at h
  | some outer =>
    refine ⟨outer, rfl, ?_⟩
    cases outer with
    | block inner => exact .inl ⟨inner, rfl, (at?_block houter).symm.trans h⟩
    | _ =>
      rw [at?, houter] at h
      exact .inr ⟨nofun, Option.bind_eq_some_iff.mp h⟩

/-- Behind the first statement of a list the indices go on. -/
theorem at?_tail {index : Nat} {path : List Nat} {statement : Statement} {rest : List Statement} :
    at? ((index + 1) :: path) (statement :: rest) = at? (index :: path) rest := by
  cases path <;> rfl

end Statement

/-- The path of a frame leads to its statements in a body: continued by the index of a statement and
by a path inside it, it leads to what stands there. -/
def Frame.Leads (frame : Frame) (body : List Statement) : Prop :=
  ∀ index path statement, Statement.at? (index :: path) frame.statements = some statement →
    Statement.at? (frame.context.path.reverse ++ (frame.index + index) :: path) body =
      some statement

/-- A part of a statement starts at the first index behind the branch of the part. -/
theorem Opens.branch?_eq {c : Context} {prepared : Option Fetch} {p : Progress}
    {statement : Statement} {part : Part} {frame : Frame}
    (h : Opens c prepared p statement part frame) :
    frame.index = 0 ∧
      ((∃ branch, frame.context.path = branch :: c.path ∧
          statement.branch? branch = some frame.statements) ∨
        frame.context.path = c.path ∧ statement = .block frame.statements) := by
  cases h with
  | block => exact ⟨rfl, .inr ⟨rfl, rfl⟩⟩
  | _ => exact ⟨rfl, .inl ⟨_, rfl, rfl⟩⟩

namespace Frame

variable {body : List Statement} {frame next : Frame}

theorem Leads.step (h : frame.Leads body) (hstep : frame.Step next) : next.Leads body := by
  cases hstep with
  | mk hruns =>
    intro index path statement hstatement
    have hbehind := h (index + 1) path statement (Statement.at?_tail.trans hstatement)
    rwa [Nat.add_comm index 1, ← Nat.add_assoc] at hbehind

theorem Leads.opens {statement : Statement} {rest : List Statement} {part : Part}
    (h : frame.Leads body) (hstatements : frame.statements = statement :: rest)
    (hopens : Opens frame.here frame.prepared frame.progress statement part next) :
    next.Leads body := by
  intro index path inner hinner
  have hfirst : frame.statements[0]? = some statement := by rw [hstatements]; rfl
  obtain ⟨hindex, ⟨branch, hpath, hbranch⟩ | ⟨hpath, rfl⟩⟩ := hopens.branch?_eq
  · have hinside := h 0 _ inner ((Statement.at?_branch hfirst hbranch).trans hinner)
    simpa [hindex, hpath, here, Context.enter] using hinside
  · have hinside := h 0 _ inner ((Statement.at?_block hfirst).trans hinner)
    simpa [hindex, hpath, here, Context.enter] using hinside

theorem Leads.of_next (h : frame.Leads body) (hnext : frame.Next next) : next.Leads body := by
  cases hnext with
  | behind hstep => exact h.step hstep
  | into hstatements hopens => exact h.opens hstatements hopens

end Frame

/-- The path of every frame of a procedure leads to its statements in the body. -/
theorem Procedure.Visits.leads {procedure : Procedure} {config : Config} {frame : Frame}
    (h : procedure.Visits config frame) : frame.Leads procedure.body := by
  obtain ⟨first, ⟨hstart, -, hindex, -, hbody⟩, hpath⟩ := h
  induction hpath with
  | refl =>
    obtain ⟨functionName, verb, hcontext⟩ := Context.start_eq_ok hstart
    intro index path statement hstatement
    simpa [hcontext, hindex] using hbody ▸ hstatement
  | tail _ hnext ih => exact ih.of_next hnext

/-- The path of a frame leads to its first statement. -/
theorem Procedure.Visits.at?_eq {procedure : Procedure} {config : Config} {frame : Frame}
    (h : procedure.Visits config frame) {statement : Statement} {rest : List Statement}
    (hstatements : frame.statements = statement :: rest) :
    Statement.at? frame.here.path.reverse procedure.body = some statement := by
  have hhere := h.leads 0 [] statement (by rw [hstatements]; rfl)
  simpa [Frame.here, Context.enter] using hhere

/-! ## Frames at paths -/

/-- The index of the branch that a part stands in. -/
def Part.branch : Part → Nat
  | .thenBranch | .body | .tryHalf => 0
  | .elseBranch | .catchHalf => 1

/-- A part of a statement other than a block stands behind the index of its branch. -/
theorem Opens.path_eq {c : Context} {prepared : Option Fetch} {p : Progress}
    {statement : Statement} {part : Part} {frame : Frame}
    (h : Opens c prepared p statement part frame) (hblock : ∀ body, statement ≠ .block body) :
    frame.context.path = part.branch :: c.path := by
  cases h with
  | block => exact absurd rfl (hblock _)
  | _ => rfl

theorem Statement.exists_part_of_branch? {statement : Statement} {branch : Nat}
    {body : List Statement} (h : statement.branch? branch = some body) :
    ∃ part, statement.part? part = some body ∧ part.branch = branch := by
  unfold branch? at h
  split at h
  · exact ⟨.thenBranch, h, rfl⟩
  · exact ⟨.elseBranch, h, rfl⟩
  · exact ⟨.body, h, rfl⟩
  · exact ⟨.tryHalf, h, rfl⟩
  · exact ⟨.catchHalf, h, rfl⟩
  · cases h

namespace Frame

/-- The statement at an index is treated at some moment, at that index. -/
theorem Succeeds.exists_step_at {frame : Frame} (hframe : frame.Succeeds) {index : Nat}
    {statement : Statement} (h : frame.statements[index]? = some statement) :
    ∃ next rest, Relation.ReflTransGen Step frame next ∧ next.statements = statement :: rest ∧
      next.context = frame.context ∧ next.index = frame.index + index ∧ next.Succeeds := by
  induction index generalizing frame with
  | zero =>
    obtain ⟨rest, hrest⟩ : ∃ rest, frame.statements = statement :: rest := by
      cases hstatements : frame.statements with
      | nil => simp [hstatements] at h
      | cons first rest => exact ⟨rest, by simpa [hstatements] using h⟩
    exact ⟨frame, rest, .refl, hrest, rfl, rfl, hframe⟩
  | succ index ih =>
    obtain ⟨first, rest, hstatements⟩ : ∃ first rest, frame.statements = first :: rest := by
      cases hstatements : frame.statements with
      | nil => simp [hstatements] at h
      | cons first rest => exact ⟨first, rest, rfl⟩
    obtain ⟨behind, hstep, hbehind⟩ := hframe.exists_step hstatements
    rw [hstatements, List.getElem?_cons_succ, ← hstep.statements_eq hstatements] at h
    obtain ⟨next, rest', hpath, hnext, hcontext, hindex, hsucceeds⟩ := ih hbehind h
    refine ⟨next, rest', .head hstep hpath, hnext, hcontext.trans hstep.context_eq, ?_, hsucceeds⟩
    have hone : behind.index = frame.index + 1 := by cases hstep; rfl
    omega

/-- A path that goes into a statement goes on in a frame that the statement opens. -/
theorem Succeeds.exists_inside {frame : Frame} (hframe : frame.Succeeds) {index branch : Nat}
    {path : List Nat} {statement : Statement}
    (h : Statement.at? (index :: branch :: path) frame.statements = some statement) :
    ∃ inner index' path', Relation.ReflTransGen Next frame inner ∧ inner.Succeeds ∧
      Statement.at? (index' :: path') inner.statements = some statement ∧
      path'.length ≤ path.length ∧
      inner.context.path.reverse ++ (inner.index + index') :: path' =
        frame.context.path.reverse ++ (frame.index + index) :: branch :: path := by
  obtain ⟨outer, houter, hinside⟩ := Statement.exists_inside_of_at? h
  obtain ⟨next, rest, hpath, hnext, hcontext, hindex, hsucceeds⟩ := hframe.exists_step_at houter
  have hhere : next.here.path.reverse = frame.context.path.reverse ++ [frame.index + index] := by
    simp [here, Context.enter, hcontext, hindex]
  have hreach {part : Part} {inner : Frame}
      (hopens : Opens next.here next.prepared next.progress outer part inner) :
      Relation.ReflTransGen Next frame inner :=
    (reflTransGen_next_of_step hpath).tail (.into hnext hopens)
  obtain ⟨body, rfl, hinside⟩ | ⟨hblock, body, hbody, hinside⟩ := hinside
  · have hpart : (Statement.block body).part? .body = some body := rfl
    obtain ⟨inner, hopens, rfl, hinner⟩ := hsucceeds.exists_opens hnext hpart
    refine ⟨inner, branch, path, hreach hopens, hinner, hinside, Nat.le_refl _, ?_⟩
    obtain ⟨hstart, ⟨_, _, hbranch⟩ | ⟨hsame, -⟩⟩ := hopens.branch?_eq
    · cases hbranch
    · simp [hstart, hsame, hhere]
  · obtain ⟨part, hpart, rfl⟩ := Statement.exists_part_of_branch? hbody
    obtain ⟨inner, hopens, rfl, hinner⟩ := hsucceeds.exists_opens hnext hpart
    cases path with
    | nil => cases hinside
    | cons first path =>
      refine ⟨inner, first, path, hreach hopens, hinner, hinside, Nat.le_succ _, ?_⟩
      simp [hopens.path_eq hblock, hopens.branch?_eq.1, hhere]

/-- The statement at a path is treated at some moment, at that path. -/
theorem Succeeds.exists_next_at {index : Nat} {path : List Nat} {statement : Statement}
    {frame : Frame} (hframe : frame.Succeeds)
    (h : Statement.at? (index :: path) frame.statements = some statement) :
    ∃ next rest, Relation.ReflTransGen Next frame next ∧ next.statements = statement :: rest ∧
      next.here.path.reverse = frame.context.path.reverse ++ (frame.index + index) :: path := by
  -- A path gets shorter with each frame that it goes on in.
  induction hlength : path.length using Nat.strongRecOn generalizing index path frame with
  | ind length ih =>
    cases path with
    | nil =>
      obtain ⟨next, rest, hpath, hnext, hcontext, hindex, -⟩ := hframe.exists_step_at h
      refine ⟨next, rest, reflTransGen_next_of_step hpath, hnext, ?_⟩
      simp [here, Context.enter, hcontext, hindex]
    | cons branch path =>
      obtain ⟨inner, index', path', hreach, hinner, hinside, hshorter, hplace⟩ :=
        hframe.exists_inside h
      have hlt : path'.length < length := by
        rw [← hlength, List.length_cons]
        omega
      obtain ⟨next, rest, hpath, hnext, hhere⟩ := ih _ hlt hinner hinside rfl
      exact ⟨next, rest, hreach.trans hpath, hnext, hhere.trans hplace⟩

end Frame

/-- A procedure that is turned into a function has a frame at each path of its body. -/
theorem Procedure.exists_visits_at {procedure : Procedure} {config : Config}
    {lowered : LoweredProcedure} (h : procedure.lower config = .ok lowered) {path : List Nat}
    {statement : Statement} (hat : Statement.at? path procedure.body = some statement) :
    ∃ frame rest, procedure.Visits config frame ∧ frame.statements = statement :: rest ∧
      frame.here.path.reverse = path := by
  obtain ⟨first, hfirst, hsucceeds⟩ := exists_begins h
  obtain ⟨functionName, verb, hcontext⟩ := Context.start_eq_ok hfirst.1
  cases path with
  | nil => cases hat
  | cons index path =>
    rw [← hfirst.2.2.2.2] at hat
    obtain ⟨frame, rest, hpath, hstatements, hplace⟩ := hsucceeds.exists_next_at hat
    refine ⟨frame, rest, ⟨first, hfirst, hpath⟩, hstatements, hplace.trans ?_⟩
    simp [hcontext, hfirst.2.2.1]

/-! ## Paths as text -/

/-- The dotted form of a path, in the order of the source. -/
def dotted (path : List Nat) : String :=
  String.intercalate "." (path.map toString)

theorem renderPath_cons (index : Nat) (path : List Nat) :
    renderPath (index :: path) = dotted (index :: path).reverse := rfl

theorem toList_dotted_cons (n : Nat) (path : List Nat) :
    (dotted (n :: path)).toList =
      Nat.toDigits 10 n ++ if path = [] then [] else '.' :: (dotted path).toList := by
  cases path with
  | nil => simp [dotted, Nat.toString_eq_repr, Nat.repr]
  | cons m path => simp [dotted, String.intercalate_cons_cons, Nat.toString_eq_repr, Nat.repr]

/-- The first index of a path is what stands in front of the first dot. -/
theorem takeWhile_dotted_cons (n : Nat) (path : List Nat) :
    (dotted (n :: path)).toList.takeWhile Char.isDigit = Nat.toDigits 10 n := by
  have hdigits : ∀ d ∈ Nat.toDigits 10 n, d.isDigit = true := fun _ =>
    Nat.isDigit_of_mem_toDigits (by decide) (by decide)
  have hrest :
      (if path = [] then [] else '.' :: (dotted path).toList).takeWhile Char.isDigit = [] := by
    split <;> rfl
  rw [toList_dotted_cons, List.takeWhile_append_of_pos hdigits, hrest, List.append_nil]

/-- A path can be read off its dotted form. -/
theorem dotted_injective : Function.Injective dotted := by
  intro path
  induction path with
  | nil =>
    intro path' h
    cases path' with
    | nil => rfl
    | cons m path' =>
      have hempty := congrArg String.toList h
      rw [toList_dotted_cons] at hempty
      exact absurd (List.append_eq_nil_iff.mp hempty.symm).1 Nat.toDigits_ne_nil
  | cons n path ih =>
    intro path' h
    cases path' with
    | nil =>
      have hempty := congrArg String.toList h
      rw [toList_dotted_cons] at hempty
      exact absurd (List.append_eq_nil_iff.mp hempty).1 Nat.toDigits_ne_nil
    | cons m path' =>
      have hdigits : Nat.toDigits 10 n = Nat.toDigits 10 m := by
        rw [← takeWhile_dotted_cons n path, h, takeWhile_dotted_cons]
      obtain rfl : n = m := append_toString_injective "" (by
        simp [Nat.toString_eq_repr, Nat.repr, hdigits])
      have hlists := congrArg String.toList h
      rw [toList_dotted_cons, toList_dotted_cons, List.append_cancel_left_eq] at hlists
      split at hlists <;> split at hlists
      next hpath hpath' => rw [hpath, hpath']
      next => cases hlists
      next => cases hlists
      next => rw [ih (String.toList_injective (List.cons.inj hlists).2)]

theorem renderPath_injective : Function.Injective renderPath := by
  have hentry (index : Nat) (path : List Nat) : renderPath (index :: path) ≠ "entry" := by
    obtain ⟨n, rest, hreverse⟩ := List.exists_cons_of_ne_nil
      (List.reverse_ne_nil_iff.mpr (List.cons_ne_nil index path))
    intro h
    rw [renderPath_cons, hreverse] at h
    have hdigits := takeWhile_dotted_cons n rest
    rw [h] at hdigits
    exact Nat.toDigits_ne_nil hdigits.symm
  intro path path' h
  cases path with
  | nil =>
    cases path' with
    | nil => rfl
    | cons index path' => exact absurd h.symm (hentry index path')
  | cons index path =>
    cases path' with
    | nil => exact absurd h (hentry index path)
    | cons index' path' => exact List.reverse_injective (dotted_injective h)

/-! ## Blame -/

open Lower

/-- The generation stops at the first statement of a frame by that statement's own doing: it fails
with a fault that has no site yet, and everything inside it that is treated at all succeeds. -/
structure Frame.Blames (frame : Frame) (statement : Statement) (fault : Fault) : Prop where
  fails : ∃ rest after, frame.statements = statement :: rest ∧
    (lowerStatement rest frame.prepared statement).Fails frame.here frame.progress ⟨fault, none⟩
      after
  parts {part : Part} {inner : Frame} :
    Opens frame.here frame.prepared frame.progress statement part inner → inner.Succeeds

namespace Frame

variable {frame next : Frame} {error : Error}

theorem Next.procedure_eq (h : frame.Next next) :
    next.context.procedure = frame.context.procedure := by
  cases h with
  | behind hstep => rw [hstep.context_eq]
  | into _ hopens => cases hopens <;> rfl

theorem procedure_eq_of_next (h : Relation.ReflTransGen Next frame next) :
    next.context.procedure = frame.context.procedure := by
  induction h with
  | refl => rfl
  | tail _ hnext ih => rw [hnext.procedure_eq, ih]

/-- What a frame is to blame for is reported at its path. -/
theorem Blames.stopsWith {statement : Statement} {fault : Fault}
    (h : frame.Blames statement fault) :
    frame.StopsWith ⟨fault, some ⟨frame.context.procedure.name, frame.here.pathText⟩⟩ := by
  obtain ⟨c, index, prepared, statements, p⟩ := frame
  obtain ⟨rest, after, rfl, hfails⟩ := h.fails
  exact stopsWith_cons.mpr (.inl ⟨_, after, hfails, rfl⟩)

/-- An error that has its site is handed on from frame to frame. -/
theorem Next.stopsWith (h : frame.Next next) {fault : Fault} {site : Site}
    (hstops : next.StopsWith ⟨fault, some site⟩) : frame.StopsWith ⟨fault, some site⟩ := by
  cases h with
  | behind hstep =>
    cases hstep with
    | mk hruns => exact stopsWith_cons.mpr (.inr ⟨_, .mk hruns, hstops⟩)
  | into hstatements hopens =>
    obtain ⟨c, index, prepared, statements, p⟩ := frame
    subst hstatements
    obtain ⟨after, hfails⟩ := hopens.fails hstops
    exact stopsWith_cons.mpr (.inl ⟨_, after, hfails, rfl⟩)

theorem stopsWith_of_next (h : Relation.ReflTransGen Next frame next) {fault : Fault} {site : Site}
    (hstops : next.StopsWith ⟨fault, some site⟩) : frame.StopsWith ⟨fault, some site⟩ := by
  induction h with
  | refl => exact hstops
  | tail _ hnext ih => exact ih (hnext.stopsWith hstops)

/-- A frame that stops leads to one that is to blame for it. -/
def Accountable (frame : Frame) (error : Error) : Prop :=
  ∃ blamed statement fault, Relation.ReflTransGen Next frame blamed ∧
    blamed.Blames statement fault ∧
    error = ⟨fault, some ⟨frame.context.procedure.name, blamed.here.pathText⟩⟩

theorem Accountable.of_next (h : frame.Next next) (hnext : next.Accountable error) :
    frame.Accountable error := by
  obtain ⟨blamed, statement, fault, hpath, hblames, herror⟩ := hnext
  exact ⟨blamed, statement, fault, .head h hpath, hblames, h.procedure_eq ▸ herror⟩

/-- A list of statements is accountable if the parts of its statements are. -/
theorem accountable_of_stopsWith {statements : List Statement}
    (ih : ∀ s ∈ statements, ∀ (inner : Frame) (error : Error), inner.statements ∈ s.children →
      inner.StopsWith error → inner.Accountable error)
    (hstatements : frame.statements = statements) (h : frame.StopsWith error) :
    frame.Accountable error := by
  induction statements generalizing frame with
  | nil =>
    obtain ⟨c, index, prepared, _, p⟩ := frame
    obtain rfl := hstatements
    exact absurd h not_stopsWith_nil
  | cons statement rest ihrest =>
    obtain ⟨c, index, prepared, _, p⟩ := frame
    obtain rfl := hstatements
    obtain ⟨inner, after, hfails, rfl⟩ | ⟨next, hstep, hnext⟩ := stopsWith_cons.mp h
    · -- A part that stops is to blame for it; without one, the statement is.
      by_cases hpart : ∃ part opened, Opens (c.enter index) prepared p statement part opened ∧
          opened.StopsWith inner
      · obtain ⟨part, opened, hopens, hstops⟩ := hpart
        have haccountable := ih statement List.mem_cons_self opened inner
          (Statement.mem_children_of_part? hopens.part?_eq) hstops
        obtain ⟨blamed, s, fault, hpath, hblames, rfl⟩ := haccountable
        exact .of_next (.into rfl hopens) ⟨blamed, s, fault, hpath, hblames, rfl⟩
      · have hown := (isOwn_or_stopsWith hfails).resolve_right hpart
        obtain ⟨fault, site⟩ := inner
        obtain rfl : site = none := hown.site
        refine ⟨_, statement, fault, .refl,
          ⟨⟨rest, after, rfl, hfails⟩, fun {part opened} hopens => ?_⟩, rfl⟩
        refine opened.succeeds_or_stopsWith.resolve_right fun ⟨error, hstops⟩ => ?_
        obtain ⟨_, hfails'⟩ := hopens.fails hstops
        obtain ⟨rfl, -⟩ := hfails.unique hfails'
        exact hpart ⟨part, opened, hopens, hstops⟩
    · have hbehind := ihrest (fun s hs => ih s (List.mem_cons_of_mem _ hs))
        (hstep.statements_eq rfl) hnext
      exact .of_next (.behind hstep) hbehind

theorem accountable_of_mem_children (s : Statement) :
    ∀ (inner : Frame) (error : Error), inner.statements ∈ s.children →
      inner.StopsWith error → inner.Accountable error := by
  induction s using Statement.childInduction with
  | step s ih =>
    intro inner error hbody hstops
    exact accountable_of_stopsWith (fun t ht => ih inner.statements hbody t ht) rfl hstops

/-- A frame that stops leads to one that is to blame for it. -/
theorem StopsWith.accountable (h : frame.StopsWith error) : frame.Accountable error :=
  accountable_of_stopsWith (fun s _ => accountable_of_mem_children s) rfl h

end Frame

/-! ## Procedures that cannot be turned into functions -/

/-- A marker is cut off unless it ends inside a character of the name. -/
theorem Identifier.cutMarker_eq_error {marker base : String} {fault : Fault}
    (h : cutMarker marker base = .error fault) : fault = .brokenName base := by
  unfold cutMarker at h
  repeat' split at h
  all_goals cases h
  rfl

theorem Identifier.procedureBase_eq_error {name : String} {fault : Fault}
    (h : procedureBase name = .error fault) : ∃ base, fault = .brokenName base := by
  rw [procedureBase, bind_eq_error] at h
  obtain h | ⟨_, -, h⟩ := h
  · exact ⟨_, cutMarker_eq_error h⟩
  · split at h
    · cases h
    · rw [bind_eq_error] at h
      obtain h | ⟨_, -, h⟩ := h
      · exact ⟨_, cutMarker_eq_error h⟩
      · cases h

/-- The context of a procedure is refused only for the procedure's name. -/
theorem Context.start_eq_error {config : Config} {survey : Survey} {procedure : Procedure}
    {fault : Fault} (h : Context.start config survey procedure = .error fault) :
    ∃ name, fault = .brokenName name := by
  rw [Context.start, bind_eq_error] at h
  obtain h | ⟨_, -, h⟩ := h
  · rw [Identifier.functionName, bind_eq_error] at h
    obtain h | ⟨_, -, h⟩ := h
    · exact Identifier.procedureBase_eq_error h
    · dsimp only at h
      repeat' split at h
      all_goals cases h
  · rw [bind_eq_error] at h
    obtain h | ⟨_, -, h⟩ := h
    · rw [Identifier.leadingVerb?, bind_eq_error] at h
      obtain h | ⟨_, -, h⟩ := h
      · exact Identifier.procedureBase_eq_error h
      · split at h <;> cases h
    · cases h

namespace Procedure

variable {procedure : Procedure} {config : Config} {error : Error}

/-- The generation of a function stops in front of its statements or in them; the last return does
not fail. -/
theorem fails_lowerProcedure {c : Context} {p after : Progress} :
    lowerProcedure.Fails c p error after ↔
      ∃ inner, error = inner.located c.procedure.name c.pathText ∧
        (lowerEntry.Fails c p inner after ∨
          ∃ entered, lowerEntry.Runs c p () entered ∧
            (lowerStatements 0 none c.procedure.body).Fails c entered inner after) := by
  have hfinal {p after : Progress} {inner : Error} : ¬emitFinalReturn.Fails c p inner after := by
    simp only [emitFinalReturn, resultValues, fails_bind, not_fails_read, not_fails_get,
      not_fails_pure, false_or, and_false, exists_false, not_exists, not_and]
    intro values middle hvalues context p hcontext
    split <;> simp
  rw [lowerProcedure, fails_located]
  refine exists_congr fun inner => and_comm.trans (and_congr_right fun _ => ?_)
  simp only [fails_bind, lowerEntry, runs_bind, runs_read, runs_get, hfinal, not_fails_pure,
    not_fails_read, not_fails_get, false_or, or_false, and_false, exists_false, existsAndEq,
    true_and]
  grind

/-- A procedure that cannot be turned into a function has a configuration that is refused, a name
that cannot be cut, or a generation that stops. -/
theorem fails_of_lower_eq_error (hvalid : config.validate = .ok ())
    (hlower : procedure.lower config = .error error)
    (hname : ∀ name, error.fault ≠ .brokenName name) :
    ∃ c after, Context.start config (.ofProcedure config procedure) procedure = .ok c ∧
      lowerProcedure.Fails c (Progress.start config (.ofProcedure config procedure)) error
        after := by
  unfold lower at hlower
  simp only [hvalid] at hlower
  split at hlower
  next hrefused => cases hrefused
  next _ fault _ hcontext =>
    cases hlower
    obtain ⟨name, rfl⟩ := Context.start_eq_error hcontext
    exact absurd rfl (hname name)
  next c _ hcontext =>
    split at hlower
    next stopped after hfails =>
      cases hlower
      exact ⟨c, after, hcontext, hfails⟩
    next => cases hlower

theorem isOwn_lowerEntry {c : Context} {p after : Progress} (h : lowerEntry.Fails c p error after) :
    error.IsOwn False := by
  have hpermissive := Discipline.permissive_reporting False
  exact (hasEffect_lowerEntry hpermissive.regular hpermissive.releasing id
    (Discipline.lasting_reporting False)).isOwn h

/-- Whatever is to blame in a procedure is what the statements of the procedure stop with. -/
theorem Visits.stopsWith {frame first : Frame} (h : procedure.Visits config frame)
    (hfirst : procedure.Begins config first) {statement : Statement} {fault : Fault}
    (hblames : frame.Blames statement fault) :
    first.StopsWith ⟨fault, some ⟨procedure.name, frame.here.pathText⟩⟩ := by
  obtain ⟨first', hfirst', hpath⟩ := h
  obtain rfl := hfirst.unique hfirst'
  obtain ⟨functionName, verb, hcontext⟩ := Context.start_eq_ok hfirst.1
  have hstops := hblames.stopsWith
  rw [Frame.procedure_eq_of_next hpath, hcontext] at hstops
  exact Frame.stopsWith_of_next hpath hstops

/-- What the statements of a procedure stop with is the error of the procedure. -/
theorem lower_eq_error_of_stopsWith (hvalid : config.validate = .ok ())
    {frame : Frame}
    (hbegins : procedure.Begins config frame) (h : frame.StopsWith error) :
    procedure.lower config = .error (error.located procedure.name "entry") := by
  obtain ⟨c, index, prepared, statements, p⟩ := frame
  obtain ⟨hstart, hentry, rfl, rfl, rfl⟩ := hbegins
  obtain ⟨after, hbody⟩ := h
  obtain ⟨functionName, verb, hcontext⟩ := Context.start_eq_ok hstart
  have hfails : lowerProcedure.Fails c (Progress.start config (.ofProcedure config procedure))
      (error.located c.procedure.name c.pathText) after := by
    refine fails_lowerProcedure.mpr ⟨error, rfl, .inr ⟨p, hentry, ?_⟩⟩
    have hprocedure : c.procedure = procedure := congrArg Context.procedure hcontext
    exact hprocedure ▸ hbody
  have hlocated : error.located c.procedure.name c.pathText =
      error.located procedure.name "entry" := by
    dsimp only at hcontext
    rw [hcontext]
    rfl
  rw [hlocated] at hfails
  dsimp only at hstart
  unfold lower
  simp only [hvalid, hstart]
  rw [hfails]

/-- An error of a procedure has one site. It is `entry` if the generation does not get as far as the
statements. Otherwise it is the dotted path of a statement that stands at this path in the body: the
one statement that fails by its own doing, while everything inside it that is treated succeeds. -/
theorem lower_error_site (hvalid : config.validate = .ok ())
    (hlower : procedure.lower config = .error error)
    (hname : ∀ name, error.fault ≠ .brokenName name) :
    ((¬∃ frame, procedure.Begins config frame) ∧
      error.site = some ⟨procedure.name, "entry"⟩) ∨
    ∃ path statement frame, Statement.at? path procedure.body = some statement ∧
      error.site = some ⟨procedure.name, dotted path⟩ ∧
      procedure.Visits config frame ∧ frame.here.path = path.reverse ∧
      frame.Blames statement error.fault ∧
      ∀ other statement' fault', procedure.Visits config other → other.Blames statement' fault' →
        other.here.path = path.reverse ∧ fault' = error.fault := by
  obtain ⟨c, after, hstart, hfails⟩ := fails_of_lower_eq_error hvalid hlower hname
  obtain ⟨functionName, verb, hcontext⟩ := Context.start_eq_ok hstart
  obtain ⟨inner, rfl, hentry | ⟨entered, hentry, hbody⟩⟩ := fails_lowerProcedure.mp hfails
  · left
    constructor
    · rintro ⟨frame, hstart', hruns, -⟩
      obtain rfl := Except.ok.inj (hstart.symm.trans hstart')
      exact hentry.not_runs hruns
    · have hsite := (isOwn_lowerEntry hentry).site
      rw [Error.located, hsite, hcontext]
      rfl
  · right
    have hfirst : procedure.Begins config ⟨c, 0, none, procedure.body, entered⟩ :=
      ⟨hstart, hentry, rfl, rfl, rfl⟩
    have hprocedure : c.procedure = procedure := by rw [hcontext]
    have hstops : Frame.StopsWith ⟨c, 0, none, procedure.body, entered⟩ inner := by
      rw [hprocedure] at hbody
      exact ⟨after, hbody⟩
    obtain ⟨blamed, statement, fault, hpath, hblames, rfl⟩ := hstops.accountable
    have hvisits : procedure.Visits config blamed := ⟨_, hfirst, hpath⟩
    obtain ⟨rest, _, hstatements, -⟩ := hblames.fails
    refine ⟨blamed.here.path.reverse, statement, blamed, hvisits.at?_eq hstatements, ?_, hvisits,
      by simp, hblames, ?_⟩
    · simp only [Error.located, hprocedure]
      rfl
    · intro other statement' fault' hvisits' hblames'
      obtain ⟨_, hstops⟩ := hstops
      obtain ⟨_, hstops'⟩ := hvisits'.stopsWith hfirst hblames'
      obtain ⟨heq, -⟩ := hstops.unique hstops'
      obtain ⟨hfault, hsite⟩ := Error.mk.inj heq
      have htext : blamed.here.pathText = other.here.pathText :=
        (Site.mk.inj (Option.some.inj hsite)).2
      have hpaths : blamed.here.path.reverse = other.here.path.reverse := dotted_injective htext
      exact ⟨by rw [hpaths, List.reverse_reverse], hfault.symm⟩

open Build in
/-- A procedure that assigns an undeclared variable in an alternative, in a block, in a loop. -/
def wander : Procedure where
  name := "usp_Wander"
  params := [input "n" "INT" none]
  body := [.print (text "start"),
    .while (lt (var "n") (int 3))
      [.block [ifElse (eq (var "n") (int 1)) [set "n" (int 2)] [.breakLoop, set "lost" (int 1)]]]]

/-- The error of `wander` names the assignment: the second statement of the alternative of the
conditional that starts the block in the loop behind the first statement. -/
theorem wander_error_site :
    ∃ error, wander.lower {} = .error error ∧
      Statement.at? [1, 0, 0, 0, 1, 1] wander.body = some (Build.set "lost" (Build.int 1)) ∧
      error.site = some ⟨"usp_Wander", "1.0.0.0.1.1"⟩ ∧
      ∃ frame, wander.Visits {} frame ∧
        frame.Blames (Build.set "lost" (Build.int 1)) (.undeclaredVariable "@lost") := by
  have herror : (match wander.lower {} with
      | .error error => some error
      | .ok _ => none) =
      some ⟨.undeclaredVariable "@lost", some ⟨"usp_Wander", "1.0.0.0.1.1"⟩⟩ := by
    decide +kernel
  cases hlower : wander.lower {} with
  | ok lowered => simp [hlower] at herror
  | error error =>
    rw [hlower] at herror
    obtain rfl := Option.some.inj herror
    refine ⟨_, rfl, rfl, rfl, ?_⟩
    obtain ⟨-, hentry⟩ | ⟨path, statement, frame, hat, hsite, hvisits, -, hblames, -⟩ :=
      lower_error_site rfl hlower (by simp)
    · simp at hentry
    · have hpath : dotted [1, 0, 0, 0, 1, 1] = dotted path :=
        (Site.mk.inj (Option.some.inj hsite)).2
      obtain rfl := dotted_injective hpath
      obtain rfl : _ = statement := Option.some.inj hat
      exact ⟨frame, hvisits, hblames⟩

end Procedure

end Sproc
