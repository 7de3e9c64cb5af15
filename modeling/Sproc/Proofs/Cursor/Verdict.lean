import Sproc.Proofs.Cursor.Follow
import Sproc.Proofs.Lower.Blame

/-!
# The verdict on the cursors of a procedure

A procedure whose cursors are used out of their life cycle cannot be turned into Go. Where nothing
else is wrong, the error names the first use that the automata of the cursors refuse among the uses
that the generation checks, in the order in which it checks them.

That is the first refused use of the text only as long as the two orders agree on it. The table of
cursors, unlike what is known about the transaction, is not put back between a handler and the
statements that it protects. So a handler that deallocates a cursor takes it away from them.

## Main definitions

* `Procedure.ReportsFirstRefusal`: the first refused use of the text is reported, and nothing else

## Main results

* `Procedure.exists_at?_of_mem_cursorUses`: each use is that of the statement at its path
* `Procedure.lower_eq_error_iff`: the verdict of the generation
* `Procedure.checkedUses_eq`: without loops over cursors, and with handlers that use none, the
  orders agree
* `Procedure.reportsFirstRefusal_iff`: the verdict is that of the text exactly when both orders lead
  to the same statement
-/

namespace Sproc

open Lower

/-! ## The statements of uses -/

namespace Statement

/-- The statement at a path inside of others uses a cursor by itself. The path of the use goes on
from the one of the others. -/
def UsesAt (statements : List Statement) (path : List Nat) (index : Nat) (use : CursorUse) : Prop :=
  ∃ i inside statement, use.path = List.reverse inside ++ (index + i) :: path ∧
    at? (i :: inside) statements = some statement ∧
    statement.cursorAction? = some (use.cursor, use.action)

theorem UsesAt.cons {statement : Statement} {rest : List Statement} {path : List Nat} {index : Nat}
    {use : CursorUse} (h : UsesAt [statement] path index use ∨ UsesAt rest path (index + 1) use) :
    UsesAt (statement :: rest) path index use := by
  obtain ⟨i, inside, s, hpath, hat, hown⟩ | ⟨i, inside, s, hpath, hat, hown⟩ := h
  · cases i with
    | zero => exact ⟨0, inside, s, hpath, by cases inside <;> exact hat, hown⟩
    | succ i => cases inside <;> cases hat
  · exact ⟨i + 1, inside, s, by rw [hpath]; simp; omega, at?_tail.trans hat, hown⟩

theorem usesAt_listCursorUses {statements : List Statement} {path : List Nat} {index : Nat}
    (ih : ∀ s ∈ statements, ∀ path index, ∀ use ∈ s.cursorUses (index :: path),
      UsesAt [s] path index use) :
    ∀ use ∈ listCursorUses path index statements, UsesAt statements path index use := by
  induction statements generalizing index with
  | nil => simp [listCursorUses]
  | cons statement rest ihrest =>
    intro use huse
    rw [listCursorUses, List.mem_append] at huse
    refine .cons (huse.imp (ih statement List.mem_cons_self path index use) ?_)
    exact ihrest (fun s hs => ih s (List.mem_cons_of_mem _ hs)) use

/-- Each use is that of the statement at its path. -/
theorem usesAt_cursorUses (statement : Statement) : ∀ path index,
    ∀ use ∈ statement.cursorUses (index :: path), UsesAt [statement] path index use := by
  induction statement using childInduction with
  | step statement ih =>
    intro path index
    have hbranch {body : List Statement} {branch : Nat} (hbody : body ∈ statement.children)
        (hbranch : statement.branch? branch = some body) :
        ∀ use ∈ listCursorUses (branch :: index :: path) 0 body,
          UsesAt [statement] path index use := by
      intro use huse
      obtain ⟨i, inside, s, hpath, hat, hown⟩ := usesAt_listCursorUses (ih body hbody) use huse
      exact ⟨0, branch :: i :: inside, s, by simp [hpath], (at?_branch rfl hbranch).trans hat, hown⟩
    cases statement with
    | ifElse condition thenBranch elseBranch =>
      intro use huse
      rw [cursorUses, List.mem_append] at huse
      rcases huse with huse | huse
      · exact hbranch List.mem_cons_self rfl use huse
      · cases elseBranch with
        | none => cases huse
        | some elseBranch =>
          exact hbranch (List.mem_cons_of_mem _ List.mem_cons_self) rfl use huse
    | «while» condition body => exact hbranch List.mem_cons_self rfl
    | block body =>
      intro use huse
      obtain ⟨i, inside, s, hpath, hat, hown⟩ :=
        usesAt_listCursorUses (ih body List.mem_cons_self) use huse
      exact ⟨0, i :: inside, s, by simp [hpath], (at?_block rfl).trans hat, hown⟩
    | tryCatch tryBody catchBody =>
      intro use huse
      rw [cursorUses, List.mem_append] at huse
      rcases huse with huse | huse
      · exact hbranch List.mem_cons_self rfl use huse
      · exact hbranch (List.mem_cons_of_mem _ List.mem_cons_self) rfl use huse
    | _ =>
      intro use huse
      simp only [cursorUses, ownCursorUses, Option.mem_toList, Option.map_eq_some_iff] at huse
      obtain ⟨⟨cursor, action⟩, hown, rfl⟩ := huse
      exact ⟨0, [], _, rfl, rfl, hown⟩

end Statement

/-- Each use of the text is that of the statement at its path. -/
theorem Procedure.exists_at?_of_mem_cursorUses {procedure : Procedure} {use : CursorUse}
    (h : use ∈ procedure.cursorUses) : ∃ statement,
      Statement.at? use.path.reverse procedure.body = some statement ∧
      statement.cursorAction? = some (use.cursor, use.action) := by
  obtain ⟨i, inside, statement, hpath, hat, hown⟩ :=
    Statement.usesAt_listCursorUses (fun s _ => s.usesAt_cursorUses) use h
  exact ⟨statement, by simpa [hpath] using hat, hown⟩

/-! ## The verdict -/

namespace Procedure

variable {procedure : Procedure} {config : Config}

/-- There are no cursors at the start of a procedure. -/
theorem Begins.cursors_eq {frame : Frame} (h : procedure.Begins config frame) :
    frame.progress.cursors = [] := by
  obtain ⟨-, hentry, -⟩ := h
  have hpermissive := Discipline.permissive_sameCursors []
  have hkept : lowerEntry.HasEffect frame.context (Discipline.sameCursors []).effect :=
    hasEffect_lowerEntry hpermissive.regular hpermissive.releasing id
      (Discipline.lasting_sameCursors [])
  exact (hkept hentry rfl).1

/-- The statements of a procedure follow the uses that are checked in it. -/
theorem Begins.follows {frame : Frame} (h : procedure.Begins config frame) :
    (lowerStatements frame.index frame.prepared frame.statements).Follows frame.context []
      frame.progress (CursorStates.follow (fun _ => none) procedure.checkedUses) := by
  have hcursors := h.cursors_eq
  obtain ⟨functionName, verb, hcontext⟩ := Context.start_eq_ok h.1
  obtain ⟨c, index, prepared, statements, p⟩ := frame
  obtain ⟨-, -, rfl, rfl, rfl⟩ := h
  obtain rfl : c = _ := hcontext
  have hstates : p.cursors.states = fun _ => none := by
    rw [show p.cursors = [] from hcursors]
    rfl
  rw [← hstates]
  exact follows_lowerStatements 0 none procedure.body

/-- A procedure that is turned into Go uses its cursors in their life cycle, as far as that is
checked. -/
theorem firstRefusal_of_lower_eq_ok {lowered : LoweredProcedure}
    (h : procedure.lower config = .ok lowered) : firstRefusal procedure.checkedUses = none := by
  obtain ⟨frame, hbegins, finished, hruns⟩ := exists_begins h
  simp [firstRefusal, hbegins.follows.runs hruns]

/-- An error about the life cycle of a cursor reports the first refusal among the uses that are
checked. -/
theorem firstRefusal_of_lower_eq_error {error : Error} (h : procedure.lower config = .error error)
    (hcycle : error.IsLifeCycle) : ∃ refusal, firstRefusal procedure.checkedUses = some refusal ∧
      error = refusal.error procedure.name := by
  have hconcerns := hcycle.concernsCursor
  have hvalid : config.validate = .ok () := by
    cases hvalidate : config.validate with
    | ok => rfl
    | error fault =>
      obtain rfl : (⟨fault, none⟩ : Error) = error := by simpa [lower, hvalidate] using h
      simp [failsPlainly_validate config fault hvalidate] at hconcerns
  obtain ⟨c, after, hstart, hfails⟩ := fails_of_lower_eq_error hvalid h fun name hname => by
    simp [hname, Fault.concernsCursor] at hconcerns
  obtain ⟨functionName, verb, hcontext⟩ := Context.start_eq_ok hstart
  obtain ⟨inner, rfl, hentry | ⟨entered, hentry, hbody⟩⟩ := fails_lowerProcedure.mp hfails
  · exact absurd ((isOwn_lowerEntry hentry).cursor (by simpa using hconcerns)) id
  · have hprocedure : c.procedure = procedure := by rw [hcontext]
    rw [hprocedure] at hbody
    have hbegins : procedure.Begins config ⟨c, 0, none, procedure.body, entered⟩ :=
      ⟨hstart, hentry, rfl, rfl, rfl⟩
    obtain ⟨refusal, hfollow, hlocated⟩ :=
      hbegins.follows.fails hbody (by simpa [Error.IsLifeCycle] using hcycle)
    refine ⟨refusal, by simp [firstRefusal, hfollow], ?_⟩
    have hpath : c.pathText = renderPath [] := by rw [hcontext]; rfl
    rw [hpath, ← hprocedure]
    exact hlocated

/-- Where nothing but the use of cursors is wrong, a procedure cannot be turned into Go exactly when
a use that is checked is refused, and the error reports the first such use. -/
theorem lower_eq_error_iff
    (hother : ∀ error, procedure.lower config = .error error → error.IsLifeCycle) {error : Error} :
    procedure.lower config = .error error ↔ ∃ refusal,
      firstRefusal procedure.checkedUses = some refusal ∧ error = refusal.error procedure.name := by
  constructor
  · exact fun h => firstRefusal_of_lower_eq_error h (hother error h)
  · rintro ⟨refusal, hrefusal, rfl⟩
    cases hlower : procedure.lower config with
    | ok lowered => simp [firstRefusal_of_lower_eq_ok hlower] at hrefusal
    | error error =>
      obtain ⟨refusal', hrefusal', rfl⟩ :=
        firstRefusal_of_lower_eq_error hlower (hother error hlower)
      obtain rfl := Option.some.inj (hrefusal.symm.trans hrefusal')
      rfl

/-- Where nothing but the use of cursors is wrong, the error is that of the statement with the first
refused use among those that are checked. -/
theorem exists_error_at_iff
    (hother : ∀ error, procedure.lower config = .error error → error.IsLifeCycle)
    (path : List Nat) :
    (∃ error, procedure.lower config = .error error ∧ error.IsLifeCycle ∧
      error.site = some ⟨procedure.name, renderPath path⟩) ↔
      (firstRefusal procedure.checkedUses).map (·.use.path) = some path := by
  rw [Option.map_eq_some_iff]
  constructor
  · rintro ⟨error, hlower, -, hsite⟩
    obtain ⟨refusal, hrefusal, rfl⟩ := (lower_eq_error_iff hother).mp hlower
    exact ⟨refusal, hrefusal, renderPath_injective (Site.mk.inj (Option.some.inj hsite)).2⟩
  · rintro ⟨refusal, hrefusal, rfl⟩
    exact ⟨_, (lower_eq_error_iff hother).mpr ⟨refusal, hrefusal, rfl⟩,
      isLifeCycle_of_firstRefusal hrefusal _, rfl⟩

end Procedure

/-! ## Where the two orders agree -/

namespace Statement

/-- Among some statements there is no loop over a cursor, and no handler that uses one. -/
structure InTextOrder (statements : List Statement) : Prop where
  loops : ∀ s ∈ statements, s.isCursorLoop = false
  handlers : ∀ tryBody catchBody, .tryCatch tryBody catchBody ∈ statements →
    ∀ s ∈ nestedList catchBody, s.cursorAction? = none

theorem InTextOrder.mono {statements inner : List Statement} (h : InTextOrder statements)
    (hinner : inner ⊆ statements) : InTextOrder inner where
  loops s hs := h.loops s (hinner hs)
  handlers tryBody catchBody hs := h.handlers tryBody catchBody (hinner hs)

theorem InTextOrder.of_mem_children {statement s : Statement} {body : List Statement}
    (h : InTextOrder statement.nested) (hbody : body ∈ statement.children) (hs : s ∈ body) :
    InTextOrder s.nested :=
  h.mono fun _ => mem_nested_of_mem_children hbody hs

theorem listCursorUses_eq_nil_of {statements : List Statement} {path : List Nat} {index : Nat}
    (h : ∀ s ∈ statements, ∀ path, s.cursorUses path = []) :
    listCursorUses path index statements = [] := by
  induction statements generalizing index with
  | nil => rw [listCursorUses]
  | cons statement rest ih =>
    rw [listCursorUses, h statement List.mem_cons_self, List.nil_append]
    exact ih fun s hs => h s (List.mem_cons_of_mem _ hs)

/-- Where no statement uses a cursor there are no uses. -/
theorem cursorUses_eq_nil {statement : Statement} {path : List Nat}
    (h : ∀ s ∈ statement.nested, s.cursorAction? = none) : statement.cursorUses path = [] := by
  induction statement using childInduction generalizing path with
  | step statement ih =>
    have hlist {body : List Statement} (hbody : body ∈ statement.children) {path : List Nat} :
        listCursorUses path 0 body = [] :=
      listCursorUses_eq_nil_of fun s hs path => ih body hbody s hs fun inner hinner =>
        h inner (mem_nested_of_mem_children hbody hs hinner)
    have hown := h statement (mem_nested_self statement)
    cases statement with
    | ifElse condition thenBranch elseBranch =>
      rw [cursorUses, hlist List.mem_cons_self, List.nil_append]
      cases elseBranch with
      | none => rw [elseCursorUses]
      | some elseBranch =>
        rw [elseCursorUses, hlist (List.mem_cons_of_mem _ List.mem_cons_self)]
    | «while» | block => rw [cursorUses, hlist List.mem_cons_self]
    | tryCatch tryBody catchBody =>
      rw [cursorUses, hlist List.mem_cons_self, List.nil_append,
        hlist (List.mem_cons_of_mem _ List.mem_cons_self)]
    | _ => simp [cursorUses, ownCursorUses, hown]

theorem exists_isCursorLoop_of_primesLoop {fetch : Fetch} {rowUsed : Bool} {rest : List Statement}
    (h : primesLoop fetch rowUsed rest = .ok true) : ∃ loop ∈ rest, loop.isCursorLoop = true := by
  induction rest generalizing rowUsed with
  | nil => cases h
  | cons statement rest ih =>
    rw [primesLoop] at h
    split at h
    next hloop => exact ⟨statement, List.mem_cons_self, hloop⟩
    · split at h
      · cases h
      · obtain ⟨loop, hmem, hloop⟩ := ih h
        exact ⟨loop, List.mem_cons_of_mem _ hmem, hloop⟩

theorem primes_eq_false {fetch : Fetch} {rest : List Statement}
    (h : ∀ s ∈ rest, s.isCursorLoop = false) : fetch.primes rest = false := by
  by_contra hprimes
  obtain ⟨loop, hloop, hcursor⟩ :=
    exists_isCursorLoop_of_primesLoop (primesLoop_of_primes (Bool.not_eq_false _ ▸ hprimes))
  simp [h loop hloop] at hcursor

/-- Where both orders agree on the statements of a list, they agree on the list. -/
theorem listCheckedUses_eq_of {statements : List Statement} {path : List Nat} {index : Nat}
    {prepared : Option Fetch} (horder : InTextOrder (nestedList statements))
    (h : ∀ s ∈ statements, ∀ path rest prepared, (∀ t ∈ rest, t.isCursorLoop = false) →
      s.checkedUses path rest prepared = s.cursorUses path) :
    listCheckedUses path index prepared statements = listCursorUses path index statements := by
  induction statements generalizing index prepared with
  | nil => rw [listCheckedUses, listCursorUses]
  | cons statement rest ih =>
    have hrest : nestedList rest ⊆ nestedList (statement :: rest) := by
      simp [nestedList]
    rw [listCheckedUses, listCursorUses, h statement List.mem_cons_self]
    · rw [ih (horder.mono hrest) fun s hs => h s (List.mem_cons_of_mem _ hs)]
    · exact fun t ht => horder.loops t (hrest (mem_nestedList.mpr ⟨t, ht, mem_nested_self t⟩))

/-- Without loops over cursors, and with handlers that use none, the generation checks the uses of a
statement in the order of the text. -/
theorem checkedUses_eq {statement : Statement} {path : List Nat} {rest : List Statement}
    {prepared : Option Fetch} (horder : InTextOrder statement.nested)
    (hrest : ∀ s ∈ rest, s.isCursorLoop = false) :
    statement.checkedUses path rest prepared = statement.cursorUses path := by
  induction statement using childInduction generalizing path rest prepared with
  | step statement ih =>
    have hlist {body : List Statement} (hbody : body ∈ statement.children) {path : List Nat} :
        listCheckedUses path 0 none body = listCursorUses path 0 body := by
      refine listCheckedUses_eq_of (horder.mono fun inner hinner => ?_)
        fun s hs path rest prepared => ih body hbody s hs (horder.of_mem_children hbody hs)
      obtain ⟨s, hs, hinner⟩ := mem_nestedList.mp hinner
      exact mem_nested_of_mem_children hbody hs hinner
    have hself := mem_nested_self statement
    cases statement with
    | ifElse condition thenBranch elseBranch =>
      rw [checkedUses, cursorUses, hlist List.mem_cons_self]
      cases elseBranch with
      | none => rw [elseCheckedUses, elseCursorUses]
      | some elseBranch =>
        rw [elseCheckedUses, elseCursorUses,
          hlist (List.mem_cons_of_mem _ List.mem_cons_self)]
    | «while» condition body =>
      have hloop : (sentinelRest? condition).isSome = false := horder.loops _ hself
      rw [checkedUses, cursorUses, headUses, hloop, hlist List.mem_cons_self]
      rfl
    | block body => rw [checkedUses, cursorUses, hlist List.mem_cons_self]
    | tryCatch tryBody catchBody =>
      have hhandler (path : List Nat) : listCursorUses path 0 catchBody = [] :=
        listCursorUses_eq_nil_of fun s hs path => cursorUses_eq_nil fun inner hinner =>
          horder.handlers _ _ hself inner (mem_nestedList.mpr ⟨s, hs, hinner⟩)
      rw [checkedUses, cursorUses, hlist (List.mem_cons_of_mem _ List.mem_cons_self), hhandler,
        hlist List.mem_cons_self, List.nil_append, List.append_nil]
    | fetch f => simp [checkedUses, cursorUses, primes_eq_false hrest]
    | _ => simp [checkedUses, cursorUses]

end Statement

/-- Without loops over cursors, and with handlers that use none, the generation checks the uses of a
procedure in the order of the text. -/
theorem Procedure.checkedUses_eq {procedure : Procedure}
    (horder : Statement.InTextOrder procedure.statements) :
    procedure.checkedUses = procedure.cursorUses :=
  Statement.listCheckedUses_eq_of horder fun s hs _ _ _ hrest =>
    Statement.checkedUses_eq (horder.mono fun _ hinner =>
      Statement.mem_nestedList.mpr ⟨s, hs, hinner⟩) hrest

namespace Procedure

variable {procedure : Procedure} {config : Config}

/-- The generation reports an error about the life cycle of a cursor for a statement exactly when
the statement has the first use of the text that is refused. -/
def ReportsFirstRefusal (procedure : Procedure) (config : Config) : Prop :=
  ∀ path, (∃ error, procedure.lower config = .error error ∧ error.IsLifeCycle ∧
      error.site = some ⟨procedure.name, renderPath path⟩) ↔
    ∃ refusal, firstRefusal procedure.cursorUses = some refusal ∧ refusal.use.path = path

/-- Where the orders agree and nothing but the use of cursors is wrong, the first refused use of the
text is reported. -/
theorem reportsFirstRefusal_of_inTextOrder
    (horder : Statement.InTextOrder procedure.statements)
    (hother : ∀ error, procedure.lower config = .error error → error.IsLifeCycle) :
    procedure.ReportsFirstRefusal config := by
  intro path
  rw [exists_error_at_iff hother, checkedUses_eq horder, Option.map_eq_some_iff]

/-- Where nothing but the use of cursors is wrong, the generation fails exactly when a use that it
checks is refused, and reports the first such use. So it reports the first refused use of the text
exactly when the uses that it checks lead to the same statement as those of the text. -/
theorem reportsFirstRefusal_iff
    (hother : ∀ error, procedure.lower config = .error error → error.IsLifeCycle) :
    (∀ error, procedure.lower config = .error error ↔ ∃ refusal,
      firstRefusal procedure.checkedUses = some refusal ∧
        error = refusal.error procedure.name) ∧
    (procedure.ReportsFirstRefusal config ↔
      (firstRefusal procedure.checkedUses).map (·.use.path) =
        (firstRefusal procedure.cursorUses).map (·.use.path)) := by
  refine ⟨fun error => lower_eq_error_iff hother, ?_⟩
  simp only [ReportsFirstRefusal, exists_error_at_iff hother, ← Option.map_eq_some_iff]
  exact Option.ext_iff.symm

/-- A procedure that opens and closes a cursor, and deallocates it if that fails. -/
def tidy : Procedure where
  name := "usp_Tidy"
  params := []
  body := [.declareCursor "c" ((Build.select [Build.col "id"]).readFrom ⟨"t", none⟩),
    .tryCatch [.openCursor "c", .closeCursor "c"] [.deallocate "c"]]

/-- The cursor of `tidy` is used in its life cycle, but opening it is reported: the handler, which
is treated first, has taken the cursor away. -/
theorem tidy_refused :
    firstRefusal tidy.cursorUses = none ∧
    tidy.lower {} = .error ⟨.cursor "c" CursorProblem.notDeclared.message,
      some ⟨"usp_Tidy", "1.0.0"⟩⟩ ∧
    ¬tidy.ReportsFirstRefusal {} := by
  have hreported : (match tidy.lower {} with
      | .error error => some error
      | .ok _ => none) = some ⟨.cursor "c" CursorProblem.notDeclared.message,
        some ⟨"usp_Tidy", "1.0.0"⟩⟩ := by
    decide +kernel
  cases hlower : tidy.lower {} with
  | ok lowered => simp [hlower] at hreported
  | error error =>
    rw [hlower] at hreported
    obtain rfl := Option.some.inj hreported
    have hother : ∀ error, tidy.lower {} = .error error → error.IsLifeCycle := by
      rintro error herror
      obtain rfl := Except.error.inj (hlower.symm.trans herror)
      exact Error.isLifeCycle_cursor.mpr rfl
    refine ⟨by decide +kernel, rfl, fun hreports => ?_⟩
    have hpaths := (reportsFirstRefusal_iff hother).2.mp hreports
    exact absurd hpaths (by decide +kernel)

end Procedure

end Sproc
