import Sproc.Proofs.Cursor.Release
import Sproc.Proofs.Lower.Escape

/-!
# Recovered errors

A handler gives the error that it has recovered a name if one of its statements asks for the error,
by a bare `THROW` or by `ERROR_MESSAGE`. This is decided by a look ahead at the statements, which does
not enter the handlers inside. Code that mentions the name comes from elsewhere: from expressions that
are evaluated, and from queries, where the query of a cursor is only written when the cursor is
opened.

The look ahead finds every statement whose code mentions the error, apart from the openings of
cursors. It also finds statements whose expressions are dropped, so that the error may have a name
that nothing uses.

## Main definitions

* `Go.listOpenMentions`: what code mentions, except in handlers inside it
* `Permit.sparing`: a permit that refuses the recovered error
* `Idiom.openKind`: code that only mentions what is allowed, except in handlers inside it

## Main results

* `Idiom.closed_openKind`: statements that do not ask for the error do not mention it
* `Procedure.caught_declared_where_asked`: which handlers give the error a name
-/

namespace Sproc

open Lower Idiom

/-! ## Mentions outside of handlers -/

namespace Go

/-- Whether the body of a deferred literal is a handler. -/
def recovers : List Stmt → Bool
  | [.branch (.mk (some ⟨_, _, .call (.name "recover") []⟩) _ _) [] none] => true
  | _ => false

mutual

/-- What a statement mentions, be it to assign it, except in the handlers inside it. -/
def Stmt.openMentions : Stmt → List Mention
  | .branch (.mk init test body) others otherwise =>
    initMentions true init ++ (test.mentions ++ (listOpenMentions body ++
      (armOpenMentions others ++ elseOpenMentions otherwise)))
  | .loop test body => optionMentions test ++ listOpenMentions body
  | .closure deferred body =>
    if deferred && recovers body then [] else listOpenMentions body
  | s => s.mentions true

/-- The same for a list of statements. -/
def listOpenMentions : List Stmt → List Mention
  | [] => []
  | s :: rest => s.openMentions ++ listOpenMentions rest

/-- The same for the arms of a chain. -/
def armOpenMentions : List Arm → List Mention
  | [] => []
  | .mk init test body :: rest =>
    initMentions true init ++ (test.mentions ++ (listOpenMentions body ++ armOpenMentions rest))

/-- The same for an alternative. -/
def elseOpenMentions : Option (List Stmt) → List Mention
  | none => []
  | some body => listOpenMentions body

end

variable {m : Mention}

mutual

theorem Stmt.openMentions_subset (s : Stmt) : ∀ m ∈ s.openMentions, m ∈ s.mentions true := by
  cases s with
  | branch first others otherwise =>
    obtain ⟨init, test, body⟩ := first
    intro m hm
    simp only [Stmt.openMentions, Stmt.mentions, List.mem_append] at hm ⊢
    refine hm.imp_right (Or.imp_right (Or.imp (listOpenMentions_subset body m) (Or.imp ?_ ?_)))
    · exact armOpenMentions_subset others m
    · exact elseOpenMentions_subset otherwise m
  | loop test body =>
    intro m hm
    simp only [Stmt.openMentions, Stmt.mentions, List.mem_append] at hm ⊢
    exact hm.imp_right (listOpenMentions_subset body m)
  | closure deferred body =>
    intro m hm
    rw [Stmt.openMentions] at hm
    split at hm
    · cases hm
    · exact listOpenMentions_subset body m hm
  | _ => exact fun _ hm => hm

theorem listOpenMentions_subset (body : List Stmt) :
    ∀ m ∈ listOpenMentions body, m ∈ listMentions true body := by
  cases body with
  | nil => exact fun _ hm => hm
  | cons s rest =>
    intro m hm
    simp only [listOpenMentions, listMentions, List.mem_append] at hm ⊢
    exact hm.imp (Stmt.openMentions_subset s m) (listOpenMentions_subset rest m)

theorem armOpenMentions_subset (arms : List Arm) :
    ∀ m ∈ armOpenMentions arms, m ∈ armMentions true arms := by
  cases arms with
  | nil => exact fun _ hm => hm
  | cons arm rest =>
    obtain ⟨init, test, body⟩ := arm
    intro m hm
    simp only [armOpenMentions, armMentions, List.mem_append] at hm ⊢
    refine hm.imp_right (Or.imp_right (Or.imp (listOpenMentions_subset body m) ?_))
    exact armOpenMentions_subset rest m

theorem elseOpenMentions_subset (otherwise : Option (List Stmt)) :
    ∀ m ∈ elseOpenMentions otherwise, m ∈ elseMentions true otherwise := by
  cases otherwise with
  | none => exact fun _ hm => hm
  | some body => exact listOpenMentions_subset body

end

@[simp]
theorem listOpenMentions_append (front back : List Stmt) :
    listOpenMentions (front ++ back) = listOpenMentions front ++ listOpenMentions back := by
  induction front with
  | nil => rfl
  | cons s rest ih => simp [listOpenMentions, ih]

/-- A chain of conditionals without assignments mentions what its tests and bodies mention. -/
theorem mem_openMentions_branch {first : Arm} {others : List Arm} {otherwise : Option (List Stmt)}
    (h : ∀ arm ∈ first :: others, arm.init = none) :
    m ∈ (Stmt.branch first others otherwise).openMentions ↔
      (∃ arm ∈ first :: others, m ∈ arm.test.mentions ∨ m ∈ listOpenMentions arm.body) ∨
      ∃ body ∈ otherwise, m ∈ listOpenMentions body := by
  have harms {arms : List Arm} (h : ∀ arm ∈ arms, arm.init = none) : m ∈ armOpenMentions arms ↔
      ∃ arm ∈ arms, m ∈ arm.test.mentions ∨ m ∈ listOpenMentions arm.body := by
    induction arms with
    | nil => simp [armOpenMentions]
    | cons arm rest ih =>
      obtain ⟨init, test, body⟩ := arm
      rw [List.forall_mem_cons] at h
      obtain rfl : init = none := h.1
      simp [armOpenMentions, initMentions, ih h.2, or_assoc]
  obtain ⟨init, test, body⟩ := first
  rw [List.forall_mem_cons] at h
  obtain rfl : init = none := h.1
  cases otherwise <;>
    simp [Stmt.openMentions, elseOpenMentions, initMentions, harms h.2, or_assoc]

/-- A conditional mentions what the continuation of its chain mentions. -/
theorem mem_openMentions_chained {first : Arm} {code : List Stmt}
    (h : m ∈ listOpenMentions code) : m ∈ ((Shell.chained first).fill code).openMentions := by
  obtain ⟨init, test, body⟩ := first
  have hplain : m ∈ (Stmt.branch (.mk init test body) [] (some code)).openMentions := by
    simp [Stmt.openMentions, elseOpenMentions, h]
  rcases code with _ | ⟨s, _ | ⟨t, rest⟩⟩
  · exact hplain
  · cases s with
    | branch next others otherwise =>
      obtain ⟨init', test', body'⟩ := next
      simp only [Shell.fill, listOpenMentions, Stmt.openMentions, armOpenMentions, List.mem_append,
        List.not_mem_nil, or_false] at h ⊢
      tauto
    | _ => exact hplain
  · cases s <;> exact hplain

end Go

/-! ## Sparing permits -/

/-- The same permit, except that it refuses the error which a handler has recovered. -/
def Permit.sparing (permit : Permit) : Permit where
  config := permit.config
  survey := permit.survey
  allows m := permit.allows m ∧ m ≠ .name "caught"
  names id h := by
    refine ⟨permit.names id h, fun heq => h ?_⟩
    obtain rfl := Go.Mention.name.inj heq
    decide
  messages package := ⟨permit.messages package, nofun⟩
  status h := ⟨permit.status h, by simp⟩
  error h := ⟨permit.error h, by simp⟩
  rowCount h := ⟨permit.rowCount h, by simp⟩
  identity h := ⟨permit.identity h, by simp⟩

/-- The idiom with the same procedure and a permit that refuses the recovered error. -/
def Idiom.sparing (I : Idiom) : Idiom :=
  { I with toPermit := I.toPermit.sparing }

/-- The code of an expression may mention the error that a handler has recovered. -/
def Expr.AsksCaught (e : Expr) : Prop :=
  ∃ name ∈ e.functionName?, .name "caught" ∈ functionMentions name

namespace Permit

variable {permit : Permit} {need : Need} {inGo : Bool} {e : Expr} {s : Statement}

/-- Nothing is needed for the sake of the recovered error. -/
theorem caught_notMem_mentionsOf (permit : Permit) (need : Need) :
    .name "caught" ∉ permit.mentionsOf need := by
  cases need with
  | transaction =>
    rw [mentionsOf]
    split <;> simp
  | _ => simp [mentionsOf]

theorem Grants.sparing (h : permit.Grants need) : permit.sparing.Grants need :=
  fun m hm => ⟨h m hm, fun heq => permit.caught_notMem_mentionsOf need (heq ▸ hm)⟩

theorem Grants.of_sparing (h : permit.sparing.Grants need) : permit.Grants need :=
  fun m hm => (h m hm).1

theorem GrantsExpr.sparing (h : permit.GrantsExpr inGo e) (hasks : ¬e.AsksCaught) :
    permit.sparing.GrantsExpr inGo e := by
  refine ⟨fun need hneed => (h.1 need hneed).sparing, ?_⟩
  rintro name args rfl m hm
  refine ⟨h.2 name args rfl m hm, ?_⟩
  rintro rfl
  exact hasks ⟨name, rfl, hm⟩

theorem GrantsExpr.of_sparing (h : permit.sparing.GrantsExpr inGo e) :
    permit.GrantsExpr inGo e ∧ ¬e.AsksCaught := by
  refine ⟨⟨fun need hneed => (h.1 need hneed).of_sparing, fun name args heq m hm => ?_⟩, ?_⟩
  · exact (h.2 name args heq m hm).1
  · rintro ⟨name, hname, hm⟩
    cases e with
    | function name' args =>
      obtain rfl := Option.some.inj hname
      exact (h.2 _ args rfl _ hm).2 rfl
    | _ => cases hname

theorem GrantsStatement.sparing (h : permit.GrantsStatement s)
    (hasks : ∀ e ∈ s.ownExprs, ¬e.AsksCaught) (hthrow : s ≠ .throw none) :
    permit.sparing.GrantsStatement s where
  exprs e he := (h.exprs e he).sparing (hasks e he)
  needs need hneed := (h.needs need hneed).sparing
  rethrow heq := absurd heq hthrow

end Permit

/-- The queries of the live cursors do not ask for the error that a handler has recovered. -/
def silentCursors : Invariant where
  holds _ cursors := ∀ entry ∈ cursors, ∀ e ∈ entry.2.query.walk, ¬e.AsksCaught
  declares _ h := h

/-- A statement declares no cursor whose query asks for the error that a handler has recovered. -/
def Statement.DeclaresSilent : Statement → Prop
  | .declareCursor _ query => ∀ e ∈ query.walk, ¬e.AsksCaught
  | _ => True

theorem Statement.DeclaresSilent.outlasts {s : Statement} (h : s.DeclaresSilent) :
    silentCursors.Outlasts s := by
  intro huse c rest prepared
  -- The other uses of a cursor leave its query as it is.
  have hput {p after : Progress} {name : String} {cursor cursor' : Cursor}
      (hcursor : p.cursors.get? name = some cursor)
      (hcursors : after.cursors = p.cursors.put name cursor')
      (hquery : cursor'.query = cursor.query) (hholds : silentCursors.Holds p) :
      silentCursors.Holds after := by
    rw [Invariant.Holds, hcursors]
    refine CursorTable.forall_mem_put hholds ?_
    rw [hquery]
    exact hholds _ (CursorTable.mem_of_get? hcursor)
  cases s with
  | declareCursor name query =>
    rw [lowerStatement]
    refine hasEffect_bind (.of_runs fun hruns hholds => ?_) fun _ => hasEffect_pure _
    obtain ⟨cursor, hquery, -, -, hcursors⟩ := runs_declareCursor hruns
    rw [Invariant.Holds, hcursors]
    refine CursorTable.forall_mem_put hholds ?_
    rw [hquery]
    exact h
  | openCursor name =>
    rw [lowerStatement]
    refine hasEffect_bind (.of_runs fun hruns hholds => ?_) fun _ => hasEffect_pure _
    obtain ⟨cursor, hcursor, -, -, hcursors⟩ := settled_openCursor hruns
    exact hput hcursor hcursors rfl hholds
  | closeCursor name =>
    rw [lowerStatement]
    refine hasEffect_bind (.of_runs fun hruns hholds => ?_) fun _ => hasEffect_pure _
    obtain ⟨cursor, hcursor, -, hcursors⟩ := settled_closeCursor hruns
    exact hput hcursor hcursors rfl hholds
  | deallocate name =>
    rw [lowerStatement]
    refine hasEffect_bind (.of_runs fun hruns hholds => ?_) fun _ => hasEffect_pure _
    obtain ⟨_, _, hget, hmodify⟩ := runs_bind.mp hruns
    obtain ⟨-, rfl⟩ := runs_getCursor.mp hget
    obtain rfl := runs_modify.mp hmodify
    exact fun entry hentry => hholds entry (CursorTable.remove_subset hentry)
  | fetch f =>
    rw [lowerStatement]
    refine hasEffect_bind (hasEffect_ofExcept_cursor (fun _ _ _ => trivial) _) fun primes => ?_
    split
    · exact hasEffect_pure _
    · have hregular : silentCursors.discipline.Regular c :=
        (Invariant.permissive_discipline _).regular
      exact hasEffect_bind (hasEffect_fetchRow hregular.forms (fun _ _ _ _ => trivial) f).keepsInvariant
        fun _ => hasEffect_pure _
  | _ => cases huse

namespace Idiom

variable {I : Idiom} {c : Context} {p : Progress}

theorem Covers.sparing (h : I.Covers c) : I.sparing.Covers c :=
  ⟨h.config, h.procedure, h.survey, h.functionName, h.flags⟩

theorem Covers.of_sparing (h : I.sparing.Covers c) : I.Covers c :=
  ⟨h.config, h.procedure, h.survey, h.functionName, h.flags⟩

/-- What refusing the recovered error adds to soundness is that the cursors are silent. -/
theorem sound_sparing_iff : I.sparing.Sound p ↔ I.Sound p ∧ silentCursors.Holds p := by
  constructor
  · intro h
    refine ⟨⟨h.grown, h.named, fun entry hentry => ?_, fun hopen => ?_⟩, fun entry hentry e he => ?_⟩
    · obtain ⟨hiterator, ⟨table, hsource, hbackend, hgrants⟩, hrpc, hquery, hopened⟩ :=
        h.cursors entry hentry
      exact ⟨hiterator, ⟨table, hsource, hbackend, hgrants.of_sparing⟩, hrpc,
        fun e he => (hquery e he).of_sparing.1, fun hstate => (hopened hstate).1⟩
    · exact (h.transaction hopen).of_sparing
    · exact ((h.cursors entry hentry).query e he).of_sparing.2
  · rintro ⟨h, hsilent⟩
    refine ⟨h.grown, h.named, fun entry hentry => ?_, fun hopen => (h.transaction hopen).sparing⟩
    obtain ⟨hiterator, ⟨table, hsource, hbackend, hgrants⟩, hrpc, hquery, hopened⟩ :=
      h.cursors entry hentry
    exact ⟨hiterator, ⟨table, hsource, hbackend, hgrants.sparing⟩, hrpc,
      fun e he => (hquery e he).sparing (hsilent entry hentry e he),
      fun hstate => ⟨hopened hstate, by simp⟩⟩

/-! ## Code outside of handlers -/

/-- Statements only mention what is allowed, except in handlers inside them. -/
def AdmitsOpen (I : Idiom) (body : List Go.Stmt) : Prop :=
  ∀ m ∈ Go.listOpenMentions body, I.allows m

theorem admitsOpen_cons {s : Go.Stmt} {rest : List Go.Stmt} :
    I.AdmitsOpen (s :: rest) ↔ (∀ m ∈ s.openMentions, I.allows m) ∧ I.AdmitsOpen rest := by
  unfold AdmitsOpen
  rw [Go.listOpenMentions, List.forall_mem_append]

theorem admitsOpen_singleton {s : Go.Stmt} :
    I.AdmitsOpen [s] ↔ ∀ m ∈ s.openMentions, I.allows m := by
  have hnil : I.AdmitsOpen [] := fun _ hm => by cases hm
  rw [admitsOpen_cons, and_iff_left hnil]

theorem admitsOpen_append {front back : List Go.Stmt} :
    I.AdmitsOpen (front ++ back) ↔ I.AdmitsOpen front ∧ I.AdmitsOpen back := by
  unfold AdmitsOpen
  rw [Go.listOpenMentions_append, List.forall_mem_append]

theorem Code.admitsOpen {scope : ExitScope} {body : List Go.Stmt} (h : I.Code scope body) :
    I.AdmitsOpen body :=
  fun m hm => h.admitsAll m (Go.listOpenMentions_subset body m hm)

/-- Code that only mentions what is allowed, except in handlers inside it. -/
def openKind (I : Idiom) : Kind where
  code _ := I.AdmitsOpen
  test := I.Admits
  nil _ hm := by cases hm
  append hfront hback := admitsOpen_append.mpr ⟨hfront, hback⟩
  branch harms hbodies hotherwise := by
    refine admitsOpen_singleton.mpr fun m hm => ?_
    rcases (Go.mem_openMentions_branch fun arm harm => (harms arm harm).1).mp hm with
      ⟨arm, harm, hm | hm⟩ | ⟨body, hbody, hm⟩
    · exact (harms arm harm).2 m hm
    · exact hbodies arm harm m hm
    · exact hotherwise body hbody m hm
  loop {_ test _} htest hbody := by
    refine admitsOpen_singleton.mpr (List.forall_mem_append.mpr ⟨fun m hm => ?_, hbody⟩)
    cases test with
    | none => cases hm
    | some e => exact htest e rfl m hm
  breakLoop _ hm := by cases hm
  fails h := h

theorem openKind_extends (I : Idiom) : I.openKind.Extends I :=
  ⟨fun h => h.admitsOpen, fun h => h.1⟩

end Idiom

namespace Lower

variable {I : Idiom} {c : Context}

/-- Whatever stands in the handler of a `TRY` statement, the rest of its code only mentions what is
allowed if the protected statements do. -/
theorem yields_lowerTryCatch_sparing {tryBody catchBody : List Statement}
    {attempt handler : Lower Unit} (hc : I.Covers c)
    (hgrants : I.GrantsNested (.tryCatch tryBody catchBody))
    (hattempt : ∀ flag, (∀ name ∈ flag, name ∉ privateNames) →
      attempt.Yields I.sparing.openKind I.sparing (inTry flag c) fun _ => True)
    (hhandler : handler.Ensures I (inHandler c) fun _ => True)
    (hsilent : ∀ c, handler.HasEffect c silentCursors.effect) :
    (lowerTryCatch tryBody catchBody attempt handler).Yields I.sparing.openKind I.sparing c
      fun _ => True := by
  intro before value after hruns hbefore
  obtain ⟨flag, flagged, handled, inner, hflag, hrecover, hattempted, literal, hout, htransaction,
    hliteral, hsymbols, hcursors, -⟩ := runs_lowerTryCatch hruns
  obtain ⟨hflagged, _, hlines, hname, rfl⟩ := adds_returnFlag? tryBody hflag hbefore
  -- The handler may mention the error, but leaves the cursors silent.
  have hhandled : I.sparing.Sound handled := by
    obtain ⟨hsound, hquiet⟩ := sound_sparing_iff.mp hflagged
    have hstart := Settled.handler (sound_sparing_iff.mp hbefore).1 hsound hgrants
    have hcaught := Statement.allows_caught_of_anyProtected hgrants
    refine sound_sparing_iff.mpr ⟨?_, ?_⟩
    · exact (adds_emitRecover hc hcaught hhandler hrecover (hstart.congr rfl rfl rfl)).1
    · exact keepsInvariant_emitRecover catchBody hsilent hrecover
        (Invariant.holds_congr rfl rfl hquiet)
  have hresumed : I.sparing.Sound { handled with transaction := before.transaction } :=
    ⟨hhandled.grown, hhandled.named, hhandled.cursors, hbefore.transaction⟩
  obtain ⟨hinner, attempted, hadded, hcode, -⟩ := hattempt flag hname hattempted hresumed
  have hsound : I.sparing.Sound literal := by
    refine ⟨hsymbols ▸ hinner.grown, hsymbols ▸ hinner.named, hcursors ▸ hinner.cursors, ?_⟩
    rw [htransaction]
    exact grants_join hinner hhandled
  obtain ⟨hafter, back, hback, hwayOut, -⟩ := uses_emitWayOut hc.sparing catchBody hname hout hsound
  have hlined : I.sparing.AdmitsOpen
      (flag.toList.map fun name => .declare name (.value .bool) none) := by
    intro m hm
    cases flag <;> cases hm
  have hbody : I.sparing.AdmitsOpen inner.output := by
    obtain ⟨_, _, -, -, -, hrecovered, -⟩ := runs_emitRecover hrecover
    rw [hadded, hrecovered]
    exact admitsOpen_append.mpr ⟨fun m hm => (by cases hm), hcode⟩
  refine ⟨hafter, (flag.toList.map fun name => Go.Stmt.declare name (.value .bool) none) ++
    (.closure false inner.output :: back), ?_, ?_, trivial⟩
  · rw [hback, hliteral, hlines, List.append_assoc, List.append_assoc, List.singleton_append]
  · exact admitsOpen_append.mpr ⟨hlined, admitsOpen_cons.mpr ⟨hbody, hwayOut.admitsOpen⟩⟩

end Lower

namespace Idiom

variable {I : Idiom}

/-- Statements that do not ask for the recovered error, handlers inside them apart, do not mention it
there, as long as no cursor does. -/
theorem closed_openKind (I : Idiom) : I.sparing.openKind.Closed I.sparing fun s =>
    (∀ inner ∈ s.sameHalf false, I.sparing.GrantsStatement inner) ∧ I.GrantsNested s ∧
      ∀ inner ∈ s.nested, inner.DeclaresSilent where
  child {source s part body} h hbody hpart hs := by
    obtain ⟨hsame, hgrants, hsilent⟩ := h
    have hchild := Statement.mem_children_of_part? hbody
    refine ⟨fun inner hinner => hsame inner ?_, hgrants.child hchild hs, fun inner hinner => ?_⟩
    · exact Statement.listSameHalf_subset hbody (by simpa using hpart)
        (Statement.mem_listSameHalf.mpr ⟨s, hs, hinner⟩)
    · exact hsilent inner (Statement.mem_nested_of_mem_children hchild hs hinner)
  leaf rest prepared hc h hleaf :=
    Ensures.yields (ensures_lowerLeaf hc (h.1 _ (Statement.mem_sameHalf_self false _)) hleaf rest
      prepared) I.sparing.openKind_extends
  condition {_ source _} hc h hcondition := by
    have hexprs := (h.1 source (Statement.mem_sameHalf_self false source)).exprs
    cases source with
    | ifElse | «while» =>
      obtain rfl := Option.some.inj hcondition
      exact (Ensures.yields (ensures_lowerCondition hc _ hexprs) I.sparing.openKind_extends).mono
        fun _ htest => htest.admits
    | _ => cases hcondition
  cursorLoop _ hc h hrest hbody :=
    yields_lowerFetchLoop hc I.sparing.openKind_extends (Statement.grantsExpr_sentinelRest hrest
      (h.1 _ (Statement.mem_sameHalf_self false _)).exprs) hbody
  tryCatch {_ tryBody catchBody} hc h htry _ := by
    obtain ⟨-, hgrants, hsilent⟩ := h
    have hchild : catchBody ∈ (Statement.tryCatch tryBody catchBody).children :=
      List.mem_cons_of_mem _ List.mem_cons_self
    refine yields_lowerTryCatch_sparing hc.of_sparing hgrants
      (fun flag hflag => yields_lowerStatements (hc.inTry hflag) htry 0 none) ?_ fun c => ?_
    · exact yields_lowerStatements hc.of_sparing.inHandler
        (fun s hs => s.fits (hgrants.child hchild hs)) 0 none
    · refine keepsInvariant_lowerStatements (fun s hs => (hsilent s ?_).outlasts) 0 none
      obtain ⟨member, hmember, hnested⟩ := Statement.mem_nestedList.mp hs
      exact Statement.mem_nested_of_mem_children hchild hmember hnested

end Idiom

/-- The code of statements that do not ask for the recovered error does not mention it, handlers inside
it apart. -/
theorem Idiom.Settled.caught_notMem {I : Idiom} {frame : Frame} {code : List Go.Stmt}
    (h : I.Settled frame) (hcursors : silentCursors.Holds frame.progress)
    (hsilent : ∀ s ∈ Statement.nestedList frame.statements, s.DeclaresSilent)
    (hasks : ∀ s ∈ Statement.listSameHalf false frame.statements,
      s ≠ .throw none ∧ ∀ e ∈ s.ownExprs, ¬e.AsksCaught)
    (hcode : frame.Writes code) : .name "caught" ∉ Go.listOpenMentions code := by
  have hwrites : ∀ s ∈ frame.statements, s.Writes I.sparing.openKind I.sparing := by
    intro s hs
    refine I.closed_openKind.writes ⟨fun inner hinner => ?_, h.grants s hs, fun inner hinner => ?_⟩
    · obtain ⟨hthrow, hexprs⟩ := hasks inner (Statement.mem_listSameHalf.mpr ⟨s, hs, hinner⟩)
      exact (h.grants s hs inner (Statement.mem_nested_of_mem_sameHalf hinner)).sparing hexprs hthrow
    · exact hsilent inner (Statement.mem_nestedList.mpr ⟨s, hs, hinner⟩)
  obtain ⟨after, hruns, houtput⟩ := hcode
  obtain ⟨-, written, hwritten, hadmits, -⟩ := yields_lowerStatements h.covers.sparing hwrites
    frame.index frame.prepared hruns (sound_sparing_iff.mpr ⟨h.sound, hcursors⟩)
  obtain rfl := List.append_cancel_left (houtput.symm.trans hwritten)
  exact fun hm => (hadmits _ hm).2 rfl

/-! ## Rethrown errors -/

/-- What code mentions outside of handlers is mentioned where it fills the spot of a part, unless the
part is a handler. -/
theorem Encloses.openMentions {c : Context} {p : Progress} {s : Statement} {part : Part}
    {inner : Frame} {place : Go.Spot} {code : List Go.Stmt} {m : Go.Mention}
    (h : Encloses c p s part inner place) (hpart : part ≠ .catchHalf)
    (hm : m ∈ Go.listOpenMentions code) : m ∈ Go.listOpenMentions (place.fill code) := by
  cases h with
  | thenBranch | loop | block | tryHalf =>
    simp [Go.Spot.fill, Go.Layer.fill, Go.Shell.fill, Go.listOpenMentions, Go.Stmt.openMentions, hm]
  | @elseBranch _ _ _ _ _ first =>
    obtain ⟨init, test, body⟩ := first
    simp [Go.Spot.fill, Go.Layer.fill, Go.Shell.fill, Go.listOpenMentions, Go.Stmt.openMentions,
      Go.elseOpenMentions, hm]
  | elseIf =>
    simp [Go.Spot.fill, Go.Layer.fill, Go.listOpenMentions, Go.mem_openMentions_chained hm]
  | catchHalf => exact absurd rfl hpart

namespace Lower

variable {c : Context} {p after : Progress}

/-- A bare `THROW` mentions the error that it raises again. -/
theorem mentions_throw {rest : List Statement} {prepared result : Option Fetch}
    {written : List Go.Stmt} (hscope : c.exitScope ≠ .body)
    (h : (lowerStatement rest prepared (.throw none)).Runs c p result after)
    (hwritten : after.output = p.output ++ written) :
    .name "caught" ∈ Go.listOpenMentions written := by
  rw [lowerStatement] at h
  simp only [runs_bind, runs_pure, lowerThrow, runs_read] at h
  obtain ⟨_, _, ⟨c, _, ⟨rfl, rfl⟩, hraise⟩, -, rfl⟩ := h
  split at hraise
  · obtain ⟨_, _, hfails, -⟩ := runs_bind.mp hraise
    exact absurd hfails not_runs_unsupported
  next =>
    cases hhalf : c.exitScope with
    | body => exact absurd hhalf hscope
    | tryHalf =>
      simp only [raise, runs_bind, runs_read] at hraise
      obtain ⟨_, _, ⟨rfl, rfl⟩, hraise⟩ := hraise
      rw [hhalf] at hraise
      rw [runs_emit.mp hraise] at hwritten
      obtain rfl := List.append_cancel_left hwritten
      exact List.mem_cons_self
    | catchHalf =>
      rw [runs_raise hhalf hraise] at hwritten
      obtain rfl := List.append_cancel_left hwritten
      simp [Go.listOpenMentions, Go.Stmt.openMentions, Go.Stmt.mentions, Go.Assign.mentions,
        assignTo, Go.Expr.mentions]

/-- Statements mention what one of them mentions. -/
theorem openMentions_lowerStatements {m : Go.Mention} {statements : List Statement}
    {written : List Go.Stmt}
    (hscope : c.exitScope ≠ .body)
    (hone : ∃ s ∈ statements, ∀ {c p rest prepared result after written}, c.exitScope ≠ .body →
      (lowerStatement rest prepared s).Runs c p result after →
      after.output = p.output ++ written → m ∈ Go.listOpenMentions written)
    {index : Nat} {prepared : Option Fetch}
    (h : (lowerStatements index prepared statements).Runs c p () after)
    (hwritten : after.output = p.output ++ written) : m ∈ Go.listOpenMentions written := by
  induction statements generalizing index prepared p written with
  | nil => exact absurd hone (by simp)
  | cons s rest ih =>
    simp only [lowerStatements, runs_bind, runs_within, runs_located] at h
    obtain ⟨_, middle, hfirst, hrest⟩ := h
    obtain ⟨front, hfront, -⟩ := extends_lowerStatement hfirst
    obtain ⟨back, hback, -⟩ := extends_lowerStatements hrest
    rw [hback, hfront, List.append_assoc] at hwritten
    obtain rfl := List.append_cancel_left hwritten
    rw [Go.listOpenMentions_append]
    obtain ⟨t, ht, hmentions⟩ := hone
    rcases List.mem_cons.mp ht with rfl | ht
    · have hhere : (c.enter index).exitScope ≠ .body := hscope
      exact List.mem_append_left _ (hmentions hhere hfirst hfront)
    · exact List.mem_append_right _ (ih ⟨t, ht, hmentions⟩ hrest hback)

/-- Statements with a bare `THROW`, handlers inside them apart, mention the recovered error there. -/
theorem mentions_of_rethrow {s : Statement} (hthrow : .throw none ∈ s.sameHalf false) {c : Context}
    {p after : Progress} {rest : List Statement} {prepared result : Option Fetch}
    {written : List Go.Stmt} (hscope : c.exitScope ≠ .body)
    (h : (lowerStatement rest prepared s).Runs c p result after)
    (hwritten : after.output = p.output ++ written) :
    .name "caught" ∈ Go.listOpenMentions written := by
  induction s using Statement.childInduction generalizing c p after rest prepared result written with
  | step s ih =>
    rcases Statement.mem_sameHalf hthrow with rfl | ⟨part, body, hbody, hpart, hinner⟩
    · exact mentions_throw hscope h hwritten
    · obtain ⟨inner, hopens, rfl, hsucceeds⟩ := exists_opens h hbody
      obtain ⟨code, hcode⟩ := hsucceeds.exists_writes
      obtain ⟨place, hplace, houtput⟩ := exists_encloses h hopens hcode
      obtain rfl := List.append_cancel_left (hwritten.symm.trans houtput)
      refine hplace.openMentions hpart ?_
      obtain ⟨t, ht, hmem⟩ := Statement.mem_listSameHalf.mp hinner
      obtain ⟨final, hruns, hfinal⟩ := hcode
      refine openMentions_lowerStatements ?_ ⟨t, ht, fun hscope hruns hwritten => ?_⟩ hruns hfinal
      · rw [hopens.exitScope_eq]
        cases part <;> first | exact hscope | nofun
      · exact ih _ (Statement.mem_children_of_part? hbody) t ht hmem hscope hruns hwritten

end Lower

/-! ## Handlers -/

namespace Text

theorem isAscii_toUpper {c : Char} (h : isAscii c = true) : isAscii c.toUpper = true := by
  simp only [isAscii, decide_eq_true_eq] at h ⊢
  rw [toNat_toUpper]
  split <;> omega

/-- ASCII text that agrees with another text in capitals, taken twice, agrees with it in all
letters. -/
theorem sameIgnoringCase_of_toUpper_toUpper_eq {a b : String}
    (hascii : ∀ c ∈ a.toList, isAscii c = true) (h : toUpper (toUpper a) = b) :
    sameIgnoringCase a b = true := by
  have hupper : ∀ c ∈ (toUpper a).toList, isAscii c = true := by
    intro c hc
    rw [toUpper, String.toList_ofList] at hc
    obtain ⟨d, hd, hc⟩ := List.mem_flatMap.mp hc
    rw [upperChars, if_pos (hascii d hd)] at hc
    exact List.mem_singleton.mp hc ▸ isAscii_toUpper (hascii d hd)
  have hfirst := sameIgnoringCase_of_toUpper_eq hascii rfl
  have hsecond := sameIgnoringCase_of_toUpper_eq hupper h
  unfold sameIgnoringCase at *
  rw [beq_iff_eq] at *
  exact hfirst.trans hsecond

end Text

/-- The name of the recovered error is introduced. -/
def Go.NamesCaught (body : List Go.Stmt) : Prop :=
  ∃ s ∈ body, "caught" ∈ s.introduces

namespace Lower

variable {c : Context} {p after : Progress}

/-- A handler starts by naming the error where the look ahead has found a need for it. -/
theorem namesCaught_emitHandlerStart {catchBody : List Statement}
    (h : (emitHandlerStart catchBody).Runs c p () after) :
    ∃ start, after.output = p.output ++ start ∧
      (Go.NamesCaught start ↔ Statement.anyProtected Statement.readsCaught catchBody = true) := by
  have hreset {p after : Progress} (h : (do
      if (← read).survey.needsErr then
        emit (.assign (assignTo [err] .nil)) : Lower Unit).Runs c p () after) :
      ∃ reset, after.output = p.output ++ reset ∧ ¬Go.NamesCaught reset := by
    simp only [runs_bind, runs_read] at h
    obtain ⟨_, _, ⟨rfl, rfl⟩, h⟩ := h
    split at h
    · refine ⟨_, congrArg Progress.output (runs_emit.mp h), ?_⟩
      rintro ⟨s, hs, hcaught⟩
      rw [List.mem_singleton.mp hs] at hcaught
      simp [Go.Stmt.introduces, Go.Assign.introduces, assignTo] at hcaught
    · obtain ⟨-, rfl⟩ := runs_pure.mp h
      exact ⟨[], (List.append_nil _).symm, by simp [Go.NamesCaught]⟩
  unfold emitHandlerStart at h
  dsimp only at h
  split at h
  next hreads =>
    obtain ⟨_, named, hname, hrest⟩ := runs_bind.mp h
    obtain ⟨reset, hresets, -⟩ := hreset hrest
    have hnamed : ∃ (first : Go.Stmt) (more : List Go.Stmt),
        named.output = p.output ++ first :: more ∧ "caught" ∈ first.introduces := by
      simp only [emitCaught, emitIf, emitAssign, importPath, runs_bind, runs_modify, runs_emit,
        runs_block] at hname
      obtain ⟨_, _, rfl, _, _, rfl, _, _, ⟨_, rfl, rfl, rfl⟩, rfl⟩ := hname
      exact ⟨_, _, List.append_assoc _ _ _, by decide⟩
    obtain ⟨first, more, hfirst, hcaught⟩ := hnamed
    refine ⟨first :: (more ++ reset), by rw [hresets, hfirst, List.append_assoc, List.cons_append],
      iff_of_true ⟨first, List.mem_cons_self, hcaught⟩ hreads⟩
  next hreads =>
    obtain ⟨reset, hresets, hnone⟩ := hreset h
    exact ⟨reset, hresets, iff_of_false hnone hreads⟩

/-- The handler of a `TRY` statement stands in a deferred literal, behind what it starts with. -/
theorem exists_handler {tryBody catchBody rest : List Statement} {prepared result : Option Fetch}
    (h : (lowerStatement rest prepared (.tryCatch tryBody catchBody)).Runs c p result after) :
    ∃ (inner : Frame) (front handler attempt back : List Go.Stmt),
      Opens c prepared p (.tryCatch tryBody catchBody) .catchHalf inner ∧ inner.Writes handler ∧
      after.output = p.output ++ (front ++ Go.Stmt.closure false
        (.closure true [recovery.fill (inner.progress.output ++ handler)] :: attempt) :: back) ∧
      (Go.NamesCaught inner.progress.output ↔
        Statement.anyProtected Statement.readsCaught catchBody = true) := by
  obtain ⟨flag, flagged, handled, attempted, hflag, hrecover, hattempt, literal, hout, -, hliteral,
    -⟩ := runs_lowerTryCatch (runs_tryCatch h).2
  obtain ⟨started, caught, hstart, hhandler, -, hhandled, -⟩ := runs_emitRecover hrecover
  obtain ⟨hflagged, -⟩ := runs_returnFlag? hflag
  obtain ⟨start, hstarted, hnames⟩ := namesCaught_emitHandlerStart hstart
  obtain ⟨handler, hcaught, -⟩ := extends_lowerStatements hhandler
  obtain ⟨attempt, hattempted, -⟩ := extends_lowerStatements hattempt
  obtain ⟨back, hback, -⟩ :=
    ((Scheme.permissive_free c).emitWayOut flag catchBody).exists_extends hout
  have hstarted : started.output = start := hstarted
  refine ⟨⟨inHandler c, 0, none, catchBody, started⟩, flagLines flag, handler, attempt, back,
    .catchHalf hflag hstart, ⟨caught, hhandler, hcaught⟩, ?_, hstarted ▸ hnames⟩
  rw [hback, hliteral, hflagged, hattempted]
  dsimp only
  rw [hhandled, hcaught]
  simp [Progress.opened, recovery, Go.Shell.fill]

end Lower

/-- No cursor of a procedure asks in its query for the error that a handler has recovered. -/
def Procedure.HasSilentCursors (procedure : Procedure) : Prop :=
  ∀ s ∈ procedure.statements, ∀ e ∈ s.ownExprs, s.isCursorUse = true →
    e.isFunction "ERROR_MESSAGE" = false

instance (procedure : Procedure) : Decidable procedure.HasSilentCursors :=
  inferInstanceAs (Decidable (∀ s ∈ procedure.statements, ∀ e ∈ s.ownExprs, s.isCursorUse = true →
    e.isFunction "ERROR_MESSAGE" = false))

namespace Procedure

variable {procedure : Procedure} {config : Config} {lowered : LoweredProcedure}

/-- An expression of a procedure with ASCII names asks for the recovered error only if it calls the
function for its message. -/
theorem HasAsciiCalls.isFunction (h : procedure.HasAsciiCalls) {e : Expr} (he : e ∈ procedure.exprs)
    (hasks : e.AsksCaught) : e.isFunction "ERROR_MESSAGE" = true := by
  obtain ⟨name, hname, hm⟩ := hasks
  cases e with
  | function name' args =>
    obtain rfl := Option.some.inj hname
    have hchars := List.all_eq_true.mp (h _ he _ rfl)
    unfold functionMentions at hm
    split at hm
    · simp at hm
    · split at hm
      next herror => exact Text.sameIgnoringCase_of_toUpper_toUpper_eq hchars herror
      next => cases hm
  | _ => cases hname

/-- A handler none of whose statements asks for the recovered error does not mention it. -/
theorem Stands.caught_notMem {frame inner : Frame} {spot : Go.Spot}
    {tryBody catchBody rest : List Statement} {handler : List Go.Stmt}
    (hstands : procedure.Stands config frame spot) (h : procedure.lower config = .ok lowered)
    (hascii : procedure.HasAsciiCalls) (hsilent : procedure.HasSilentCursors)
    (hstatements : frame.statements = .tryCatch tryBody catchBody :: rest)
    (hopens : Opens frame.here frame.prepared frame.progress (.tryCatch tryBody catchBody)
      .catchHalf inner)
    (hreads : ¬Statement.anyProtected Statement.readsCaught catchBody = true)
    (hinner : inner.Writes handler) : .name "caught" ∉ Go.listOpenMentions handler := by
  obtain ⟨I, first, hfirst, hsettled, -⟩ := exists_settled h
  have hvisits : procedure.VisitsIn config _ inner := .into hstands.visitsIn hstatements hopens
  have hbody : catchBody = inner.statements := Option.some.inj hopens.part?_eq
  have hasks {s : Statement} (hs : s ∈ procedure.statements) {e : Expr} (he : e ∈ s.ownExprs)
      (hasks : e.AsksCaught) : e.isFunction "ERROR_MESSAGE" = true :=
    hascii.isFunction (List.mem_append_right _ (List.mem_flatMap.mpr ⟨s, hs, he⟩)) hasks
  have hdeclares : ∀ s ∈ procedure.statements, s.DeclaresSilent := by
    intro s hs
    cases s with
    | declareCursor name query =>
      intro e he hcaught
      exact absurd (hasks hs he hcaught) (Bool.eq_false_iff.mp (hsilent _ hs e he rfl))
    | _ => trivial
  have hknown := Invariant.nestedList_subset_of_visits hvisits.visits
  refine (hvisits.settled hfirst hsettled).caught_notMem ?_ (fun s hs => hdeclares s (hknown hs))
    (fun s hs => ?_) hinner
  · exact Invariant.holds_of_visits hvisits.visits (fun _ => nofun)
      fun s hs => (hdeclares s hs).outlasts
  · have hnone : s.readsCaught = false :=
      Bool.eq_false_iff.mpr fun hreads' => hreads (List.any_eq_true.mpr ⟨s, hbody ▸ hs, hreads'⟩)
    have hthrow : s ≠ .throw none := by
      rintro rfl
      cases hnone
    refine ⟨hthrow, fun e he hcaught => ?_⟩
    have hmem : s ∈ procedure.statements := by
      obtain ⟨t, ht, hinner⟩ := Statement.mem_listSameHalf.mp hs
      exact hknown (Statement.mem_nestedList.mpr
        ⟨t, ht, Statement.mem_nested_of_mem_sameHalf hinner⟩)
    have hany : s.readsCaught = s.ownExprs.any (·.isFunction "ERROR_MESSAGE") := by
      unfold Statement.readsCaught
      split
      · exact absurd rfl hthrow
      · rfl
    rw [hany] at hnone
    exact Bool.false_ne_true (hnone.symm.trans
      (List.any_eq_true.mpr ⟨e, he, hasks hmem he hcaught⟩))

/-- **Recovered errors.** Every `TRY` statement gets a handler, whose code is known. The handler names
the error that it has recovered exactly when one of its statements asks for the error, other than
those in the handlers inside it: by a bare `THROW`, or by a call of `ERROR_MESSAGE` in one of its
expressions. The code of the statements mentions the error where one of them raises it again. If
functions have ASCII names and no cursor asks for the error in its query, that code mentions the error
only where the handler names it. -/
theorem caught_declared_where_asked (h : procedure.lower config = .ok lowered) :
    (∀ halves tryBody catchBody, procedure.Under halves (.tryCatch tryBody catchBody) →
      ∃ frame rest spot, procedure.Stands config frame spot ∧
        frame.statements = .tryCatch tryBody catchBody :: rest) ∧
    ∀ frame spot tryBody catchBody rest, procedure.Stands config frame spot →
      frame.statements = .tryCatch tryBody catchBody :: rest →
      ∃ inner front handler attempt back,
        Opens frame.here frame.prepared frame.progress (.tryCatch tryBody catchBody) .catchHalf
          inner ∧ inner.Writes handler ∧
        lowered.function.body = spot.fill (front ++ .closure false
          (.closure true [recovery.fill (inner.progress.output ++ handler)] :: attempt) :: back) ∧
        (Go.NamesCaught inner.progress.output ↔
          Statement.anyProtected Statement.readsCaught catchBody = true) ∧
        (.throw none ∈ Statement.listSameHalf false catchBody →
          .name "caught" ∈ Go.listOpenMentions handler) ∧
        (procedure.HasAsciiCalls → procedure.HasSilentCursors →
          .name "caught" ∈ Go.listOpenMentions handler →
            Go.NamesCaught inner.progress.output) := by
  refine ⟨fun halves tryBody catchBody hunder => ?_,
    fun frame spot tryBody catchBody rest hstands hstatements => ?_⟩
  · obtain ⟨frame, rest, spot, hstands, hstatements, -⟩ := hunder.exists_stands h
    exact ⟨frame, rest, spot, hstands, hstatements⟩
  · obtain ⟨next, hstep, -⟩ := (hstands.succeeds h).exists_step hstatements
    have hwritten : ∃ inner front handler attempt back,
        Opens frame.here frame.prepared frame.progress (.tryCatch tryBody catchBody) .catchHalf
          inner ∧ inner.Writes handler ∧ next.progress.output = frame.progress.output ++
            (front ++ .closure false
              (.closure true [recovery.fill (inner.progress.output ++ handler)] :: attempt) :: back) ∧
          (Go.NamesCaught inner.progress.output ↔
            Statement.anyProtected Statement.readsCaught catchBody = true) := by
      cases hstep with
      | mk hruns =>
        obtain ⟨rfl, rfl⟩ := List.cons.inj hstatements
        exact exists_handler hruns
    obtain ⟨inner, front, handler, attempt, back, hopens, hinner, hwritten, hnames⟩ := hwritten
    obtain ⟨others, -, hbody⟩ := hstands.body_eq h hstep hwritten
    refine ⟨inner, front, handler, attempt, back ++ others, hopens, hinner, ?_, hnames, ?_, ?_⟩
    · rw [hbody, List.append_assoc, List.cons_append]
    · intro hthrow
      have hscope : inner.context.exitScope ≠ .body := by
        rw [hopens.exitScope_eq]
        nofun
      obtain ⟨t, ht, hmem⟩ := Statement.mem_listSameHalf.mp hthrow
      have hstatements : catchBody = inner.statements := Option.some.inj hopens.part?_eq
      obtain ⟨final, hruns, hfinal⟩ := hinner
      refine openMentions_lowerStatements hscope ⟨t, hstatements ▸ ht, ?_⟩ hruns hfinal
      exact fun hscope hruns hwritten => mentions_of_rethrow hmem hscope hruns hwritten
    · intro hascii hsilent hm
      rw [hnames]
      by_contra hreads
      exact hstands.caught_notMem h hascii hsilent hstatements hopens hreads hinner hm

open Build in
/-- A procedure whose handler keeps the message of the error in a table. -/
def absorb : Procedure where
  name := "usp_Absorb"
  params := []
  body := [.tryCatch [.delete (delete "jobs")]
    [.insert (((insert "ErrorLog").withColumns ["Message"]).addRow [.function "ERROR_MESSAGE" []])]]

/-- For the mock store the request of `absorb` drops the message, so that the name which the handler
gives the error is not used. -/
theorem absorb_caught_declared_unused :
    ∃ lowered, absorb.lower { backend := .mock } = .ok lowered ∧
      lowered.function.unused = ["caught"] ∧
      ∃ (frame inner : Frame) (spot : Go.Spot) (rest : List Statement)
          (front handler attempt back : List Go.Stmt),
        absorb.Stands { backend := .mock } frame spot ∧ frame.statements = absorb.body ++ rest ∧
        lowered.function.body = spot.fill (front ++ .closure false
          (.closure true [recovery.fill (inner.progress.output ++ handler)] :: attempt) :: back) ∧
        inner.Writes handler ∧ Go.NamesCaught inner.progress.output := by
  have hunused : (absorb.lower { backend := .mock }).toOption.map (·.function.unused) =
      some ["caught"] := by
    decide +kernel
  cases hlower : absorb.lower { backend := .mock } with
  | error error => simp [hlower, Except.toOption] at hunused
  | ok lowered =>
    rw [hlower] at hunused
    obtain ⟨hstands, hhandlers⟩ := caught_declared_where_asked hlower
    obtain ⟨frame, rest, spot, hspot, hstatements⟩ :=
      hstands [] _ _ (.body List.mem_cons_self)
    obtain ⟨inner, front, handler, attempt, back, -, hinner, hbody, hnames, -⟩ :=
      hhandlers frame spot _ _ rest hspot hstatements
    exact ⟨lowered, rfl, Option.some.inj hunused, frame, inner, spot, rest, front, handler, attempt,
      back, hspot, hstatements, hbody, hinner, hnames.mpr (by decide)⟩

end Procedure

end Sproc
