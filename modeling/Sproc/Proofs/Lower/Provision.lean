import Sproc.Ast.Build
import Sproc.Proofs.Lower.Prologue

/-!
# What the survey provides

The survey of a procedure is made before any of its statements is turned into Go, by a walk of its
own. What the generated code mentions is decided much later and in many places. The two agree: every
handle and every slot that the code mentions is one that the survey has found a need for, and so the
signature or the prologue declares it.

The one thing that the survey and the code read differently is the name of a function: the survey
compares names by their ASCII letters, and the code writes them in capitals. Names of ASCII letters
are read alike.

## Main definitions

* `Procedure.needs`: the needs that the survey summarises
* `Survey.Provides`: the survey has found a need for what is mentioned
* `Procedure.HasAsciiCalls`: the functions that a procedure calls have ASCII names
* `Go.Func.Declares`: the signature or the prologue of a function declares a name

## Main results

* `Permit.grantsProcedure`: the needs of a procedure are met where what the survey provides is
  allowed
* `Idiom.Code.allows`: code only mentions what is allowed
* `Procedure.mentions_are_provided`: all handles and slots that a function mentions are provided and
  declared
-/

namespace Sproc

open Lower Idiom

/-! ## Names of functions -/

namespace Text

theorem toLower_toUpper_of_isAscii {c : Char} (h : isAscii c = true) :
    c.toUpper.toLower = c.toLower := by
  have hall : ∀ n < 128, (Char.ofNat n).toUpper.toLower = (Char.ofNat n).toLower := by
    decide
  have hc := hall c.toNat (by simpa [isAscii] using h)
  rwa [Char.ofNat_toNat] at hc

/-- ASCII text that agrees with another text in capitals agrees with it in all letters. -/
theorem sameIgnoringCase_of_toUpper_eq {a b : String} (hascii : ∀ c ∈ a.toList, isAscii c = true)
    (h : toUpper a = b) : sameIgnoringCase a b = true := by
  have hupper : a.toList.flatMap upperChars = a.toList.map Char.toUpper := by
    rw [← List.flatMap_singleton' (a.toList.map Char.toUpper), List.flatMap_map]
    refine List.flatMap_congr fun c hc => ?_
    rw [upperChars, if_pos (hascii c hc)]
  have hlower : (a.toList.map Char.toUpper).map Char.toLower = a.toList.map Char.toLower := by
    rw [List.map_map]
    exact List.map_congr_left fun c hc => toLower_toUpper_of_isAscii (hascii c hc)
  rw [sameIgnoringCase, ← h, toUpper, String.toList_ofList, hupper, hlower]
  exact beq_self_eq_true _

end Text

/-- All expressions of a procedure with the expressions inside them. -/
def Procedure.exprs (procedure : Procedure) : List Expr :=
  procedure.params.flatMap (fun param => walkOption param.default) ++
    procedure.statements.flatMap (·.ownExprs)

/-- The name of the function that an expression calls. -/
def Expr.functionName? : Expr → Option String
  | .function name _ => some name
  | _ => none

/-- The functions that a procedure calls have ASCII names. -/
def Procedure.HasAsciiCalls (procedure : Procedure) : Prop :=
  ∀ e ∈ procedure.exprs, ∀ name ∈ e.functionName?, name.toList.all Text.isAscii = true

instance (procedure : Procedure) : Decidable procedure.HasAsciiCalls :=
  inferInstanceAs (Decidable (∀ e ∈ procedure.exprs, ∀ name ∈ e.functionName?,
    name.toList.all Text.isAscii = true))

/-! ## Needs -/

/-- What the default values and the statements of a procedure need. -/
def Procedure.needs (procedure : Procedure) (config : Config) : List Need :=
  procedure.params.flatMap (Survey.defaultNeeds config) ++
    Statement.listNeeds config false false procedure.body

theorem Survey.ofProcedure_eq (config : Config) (procedure : Procedure) :
    Survey.ofProcedure config procedure = .ofNeeds config (procedure.needs config) := rfl

namespace Statement

variable {config : Config} {need : Need}

/-- What a statement needs wherever it stands, it also needs inside of blocks and literals. -/
theorem ownNeeds_subset (s : Statement) (inBlock inClosure : Bool) :
    s.ownNeeds config false false ⊆ s.ownNeeds config inBlock inClosure := by
  cases s with
  | declare | openCursor => simp [ownNeeds]
  | ret value => cases value <;> exact List.Subset.refl _
  | _ => exact List.Subset.refl _

/-- The needs of a part of a statement are among those of the statement, with the blocks and
literals that the part stands in. -/
theorem exists_listNeeds_subset (config : Config) {s : Statement} {part : Part}
    {body : List Statement} (h : s.part? part = some body) (inBlock inClosure : Bool) :
    ∃ inBlock' inClosure', listNeeds config inBlock' inClosure' body ⊆
      s.needs config inBlock inClosure := by
  unfold part? at h
  split at h
  · obtain rfl := Option.some.inj h
    refine ⟨true, inClosure, ?_⟩
    rw [needs]
    exact fun _ hneed => List.mem_append_right _ (List.mem_append_left _ hneed)
  · subst h
    refine ⟨true, inClosure, ?_⟩
    rw [needs]
    exact fun _ hneed => List.mem_append_right _ (List.mem_append_right _ hneed)
  · obtain rfl := Option.some.inj h
    refine ⟨true, inClosure, ?_⟩
    rw [needs]
    exact List.subset_append_right _ _
  · obtain rfl := Option.some.inj h
    exact ⟨inBlock, inClosure, by rw [needs]; exact List.Subset.refl _⟩
  · obtain rfl := Option.some.inj h
    exact ⟨true, true, by rw [needs]; exact List.subset_append_left _ _⟩
  · obtain rfl := Option.some.inj h
    exact ⟨true, true, by rw [needs]; exact List.subset_append_right _ _⟩
  · cases h

/-- The needs of a statement cover its own expressions and what it is about. -/
theorem own_subset_needs (s : Statement) (inBlock inClosure : Bool) :
    s.exprNeeds config ++ s.ownNeeds config false false ⊆ s.needs config inBlock inClosure := by
  cases hchildren : s.children with
  | nil =>
    rw [needs_of_children_eq_nil hchildren]
    refine List.append_subset.mpr ⟨List.subset_append_left _ _, ?_⟩
    exact List.Subset.trans (ownNeeds_subset s inBlock inClosure) (List.subset_append_right _ _)
  | cons body rest =>
    cases s with
    | ifElse | «while» =>
      simp [needs, ownNeeds]
    | block | tryCatch => simp [exprNeeds, ownExprs, ownNeeds]
    | _ => cases hchildren

/-- A statement that raises an error needs one. -/
theorem error_mem_ownNeeds {statement : Statement} {inBlock inClosure : Bool}
    (h : statement.raises = true) : .error ∈ statement.ownNeeds config inBlock inClosure := by
  cases statement with
  | throw => exact List.mem_cons_self
  | raiserror message severity state =>
    have hsevere : severity.isInformational = false := by simpa [raises] using h
    simp [ownNeeds, hsevere]
  | _ => cases h

/-- A statement needs what the statements inside it need. -/
theorem mem_needs_of_nested {s inner : Statement} (hinner : inner ∈ s.nested)
    (h : need ∈ inner.exprNeeds config ++ inner.ownNeeds config false false)
    (inBlock inClosure : Bool) : need ∈ s.needs config inBlock inClosure := by
  induction s using childInduction generalizing inBlock inClosure with
  | step s ih =>
    rcases mem_nested hinner with rfl | ⟨part, body, hpart, t, ht, hmem⟩
    · exact own_subset_needs inner inBlock inClosure h
    · obtain ⟨inBlock', inClosure', hsubset⟩ :=
        exists_listNeeds_subset config hpart inBlock inClosure
      refine hsubset (mem_listNeeds.mpr ⟨t, ht, ?_⟩)
      exact ih body (mem_children_of_part? hpart) t ht hmem inBlock' inClosure'

end Statement

/-- The survey has found a need for what is mentioned. A call that sends a message goes to the store
if the message belongs to the package of the store, and to a client if it belongs to that of the
clients. -/
def Survey.Provides (survey : Survey) (config : Config) : Go.Mention → Prop
  | .name "err" => survey.needsErr = true
  | .name "returnCode" => survey.hasStatus = true
  | .name "db" => survey.usesDb = true
  | .name "tx" => survey.hasTransaction = true ∧ survey.usesDb = true
  | .name "store" => survey.usesStore = true
  | .name "rowCount" => survey.tracksRowCount = true
  | .name "lastInsertID" => survey.tracksIdentity = true
  | .name _ => True
  | .receiver id package =>
    (id = "store" ∧ package = config.mockPackage.aliasName ∧ survey.usesStore = true) ∨
      (package = config.rpcPackage.aliasName ∧ ∃ client ∈ survey.clients, client.var = id)
  | .message _ => True

namespace Survey

theorem subset_foldl_distinct {α : Type} [BEq α] [LawfulBEq α] (list seen : List α) :
    seen ⊆ list.foldl (fun seen a => if seen.contains a then seen else seen ++ [a]) seen := by
  induction list generalizing seen with
  | nil => exact List.Subset.refl _
  | cons a rest ih =>
    refine List.Subset.trans ?_ (ih _)
    dsimp only
    split
    · exact List.Subset.refl _
    · exact List.subset_append_left _ _

theorem mem_distinct_of_mem {α : Type} [BEq α] [LawfulBEq α] {list : List α} {a : α}
    (h : a ∈ list) : a ∈ distinct list := by
  obtain ⟨front, rest, rfl⟩ := List.append_of_mem h
  rw [distinct, List.foldl_append, List.foldl_cons]
  refine subset_foldl_distinct rest _ ?_
  split
  next hseen => exact List.contains_iff_mem.mp hseen
  next => exact List.mem_append_right _ List.mem_cons_self

theorem mem_clientsOf {needs : List Need} {ref : ClientRef} (h : Need.client ref ∈ needs) :
    ref ∈ clientsOf needs :=
  mem_distinct_of_mem (List.mem_filterMap.mpr ⟨_, h, rfl⟩)

end Survey

namespace Permit

variable {permit : Permit}

/-- A need that the survey has seen is met where what the survey provides is allowed. -/
theorem grants_of_mem {needs : List Need} {need : Need}
    (hsurvey : permit.survey = .ofNeeds permit.config needs)
    (hallows : ∀ m, permit.survey.Provides permit.config m → permit.allows m)
    (h : need ∈ needs) : permit.Grants need := by
  intro m hm
  refine hallows m ?_
  have hcontains : needs.contains need = true := List.contains_iff_mem.mpr h
  cases need with
  | error =>
    obtain rfl := List.mem_singleton.mp hm
    rw [hsurvey]
    exact Bool.or_eq_true_iff.mpr (.inl hcontains)
  | database =>
    obtain rfl := List.mem_singleton.mp hm
    rw [hsurvey]
    exact Bool.or_eq_true_iff.mpr (.inl hcontains)
  | status | rowCount | identity =>
    obtain rfl := List.mem_singleton.mp hm
    rw [hsurvey]
    exact hcontains
  | store =>
    obtain rfl := List.mem_singleton.mp hm
    rw [hsurvey]
    exact .inl ⟨rfl, rfl, hcontains⟩
  | client ref =>
    obtain rfl := List.mem_singleton.mp hm
    rw [hsurvey]
    exact .inr ⟨rfl, ref, Survey.mem_clientsOf h, rfl⟩
  | transaction =>
    have htransaction : permit.survey.hasTransaction = true := by
      rw [hsurvey]
      exact hcontains
    rw [mentionsOf] at hm
    split at hm
    next hdb =>
      -- A transaction on a database needs an error of its own.
      have herr : permit.survey.needsErr = true := by
        rw [hsurvey] at htransaction hdb ⊢
        refine Bool.or_eq_true_iff.mpr (.inr ?_)
        exact Bool.and_eq_true_iff.mpr ⟨htransaction, hdb⟩
      simp only [List.mem_cons, List.not_mem_nil, or_false] at hm
      rcases hm with rfl | rfl | rfl
      · exact herr
      · exact hdb
      · exact ⟨htransaction, hdb⟩
    next => cases hm
  | hoist | read | nestedOpen | closureOpen => cases hm

/-- The needs of a procedure are met where what its survey provides is allowed. A function for the
last identity must be allowed for however its name is spelled. -/
theorem grantsProcedure {procedure : Procedure}
    (hsurvey : permit.survey = .ofProcedure permit.config procedure)
    (hallows : ∀ m, permit.survey.Provides permit.config m → permit.allows m)
    (hidentity : ∀ name args, .function name args ∈ procedure.exprs →
      Text.toUpper name ∈ identityFunctions → permit.allows (.name "lastInsertID")) :
    permit.GrantsProcedure procedure := by
  have hfunction (name : String) (args : List Expr) (hmem : .function name args ∈ procedure.exprs) :
      ∀ m ∈ functionMentions name, permit.allows m := by
    intro m hm
    unfold functionMentions at hm
    split at hm
    next hname => exact List.mem_singleton.mp hm ▸ hidentity name args hmem hname
    next =>
      split at hm
      · exact List.mem_singleton.mp hm ▸ hallows (.name "caught") trivial
      · cases hm
  have hgrants {need : Need} (h : need ∈ procedure.needs permit.config) : permit.Grants need :=
    grants_of_mem hsurvey hallows h
  have hstatement {s : Statement} (hs : s ∈ procedure.statements) {need : Need}
      (h : need ∈ s.exprNeeds permit.config ++ s.ownNeeds permit.config false false) :
      permit.Grants need := by
    obtain ⟨t, ht, hmem⟩ := Statement.mem_nestedList.mp hs
    refine hgrants (List.mem_append_right _ (Statement.mem_listNeeds.mpr ⟨t, ht, ?_⟩))
    exact Statement.mem_needs_of_nested hmem h false false
  constructor
  · intro s hs
    refine ⟨fun e he => ⟨fun need hneed => ?_, fun name args heq => ?_⟩, fun need hneed => ?_,
      fun _ => hallows (.name "caught") trivial⟩
    · exact hstatement hs (List.mem_append_left _ (List.mem_flatMap.mpr ⟨e, he, hneed⟩))
    · refine hfunction name args (List.mem_append_right _ (List.mem_flatMap.mpr ⟨s, hs, ?_⟩))
      exact heq ▸ he
    · exact hstatement hs (List.mem_append_right _ hneed)
  · intro param hparam e he
    refine ⟨fun need hneed => hgrants (List.mem_append_left _ ?_), fun name args heq => ?_⟩
    · exact List.mem_flatMap.mpr ⟨param, hparam, List.mem_flatMap.mpr ⟨e, he, hneed⟩⟩
    · refine hfunction name args (List.mem_append_left _ (List.mem_flatMap.mpr ⟨param, hparam, ?_⟩))
      exact heq ▸ he

end Permit

/-! ## Mentions of code -/

namespace Go

variable {m : Mention} {targets : Bool}

theorem mem_armMentions {arms : List Arm} :
    m ∈ armMentions targets arms ↔ ∃ arm ∈ arms, m ∈ initMentions targets arm.init ∨
      m ∈ arm.test.mentions ∨ m ∈ listMentions targets arm.body := by
  induction arms with
  | nil => simp [armMentions]
  | cons arm rest ih =>
    obtain ⟨init, test, body⟩ := arm
    simp [armMentions, ih, or_assoc]

/-- What a chain of conditionals mentions. -/
theorem mem_mentions_branch {first : Arm} {others : List Arm} {otherwise : Option (List Stmt)} :
    m ∈ (Stmt.branch first others otherwise).mentions targets ↔
      (∃ arm ∈ first :: others, m ∈ initMentions targets arm.init ∨ m ∈ arm.test.mentions ∨
        m ∈ listMentions targets arm.body) ∨
      ∃ body ∈ otherwise, m ∈ listMentions targets body := by
  obtain ⟨init, test, body⟩ := first
  cases otherwise <;> simp [Stmt.mentions, elseMentions, mem_armMentions, or_assoc]

end Go

namespace Idiom

variable {I : Idiom}

/-- Statements only mention what is allowed, be it to assign it. -/
def AdmitsAll (I : Idiom) (body : List Go.Stmt) : Prop :=
  ∀ m ∈ Go.listMentions true body, I.allows m

theorem admitsAll_cons {s : Go.Stmt} {rest : List Go.Stmt} :
    I.AdmitsAll (s :: rest) ↔ (∀ m ∈ s.mentions true, I.allows m) ∧ I.AdmitsAll rest := by
  unfold AdmitsAll
  rw [Go.listMentions, List.forall_mem_append]

theorem admitsAll_singleton {s : Go.Stmt} :
    I.AdmitsAll [s] ↔ ∀ m ∈ s.mentions true, I.allows m := by
  have hnil : I.AdmitsAll [] := fun _ hm => by cases hm
  rw [admitsAll_cons, and_iff_left hnil]

theorem admitsAll_append {front back : List Go.Stmt} :
    I.AdmitsAll (front ++ back) ↔ I.AdmitsAll front ∧ I.AdmitsAll back := by
  unfold AdmitsAll
  rw [Go.listMentions_append, List.forall_mem_append]

theorem admitsAll_assign {a : Go.Assign} (htargets : ∀ target ∈ a.targets, I.Admits target)
    (hvalue : I.Admits a.value) : ∀ m ∈ a.mentions true, I.allows m := by
  refine List.forall_mem_append.mpr ⟨fun m hm => ?_, hvalue⟩
  obtain ⟨target, htarget, hm⟩ := Go.mem_exprMentions.mp hm
  exact htargets target htarget m hm

theorem admitsAll_branch {first : Go.Arm} {others : List Go.Arm}
    {otherwise : Option (List Go.Stmt)}
    (harms : ∀ arm ∈ first :: others, (∀ a ∈ arm.init, ∀ m ∈ a.mentions true, I.allows m) ∧
      I.Admits arm.test ∧ I.AdmitsAll arm.body)
    (hotherwise : ∀ body ∈ otherwise, I.AdmitsAll body) :
    ∀ m ∈ (Go.Stmt.branch first others otherwise).mentions true, I.allows m := by
  intro m hm
  rcases Go.mem_mentions_branch.mp hm with ⟨arm, harm, hm⟩ | ⟨body, hbody, hm⟩
  · obtain ⟨hinit, htest, hbody⟩ := harms arm harm
    rcases hm with hm | hm | hm
    · cases ha : arm.init with
      | none =>
        rw [ha] at hm
        cases hm
      | some a =>
        rw [ha] at hm
        exact hinit a ha m hm
    · exact htest m hm
    · exact hbody m hm
  · exact hotherwise body hbody m hm

theorem admitsAll_failure (herr : I.allows (.name "err")) (scope : ExitScope) :
    I.AdmitsAll (I.failure scope) := by
  have hadmits : I.Admits err := admits_name.mpr herr
  cases scope with
  | body =>
    refine admitsAll_singleton.mpr fun m hm => ?_
    obtain ⟨value, hvalue, hm⟩ := Go.mem_exprMentions.mp hm
    have hstatus (h : I.survey.hasStatus = true) : I.Admits (.name "returnCode") :=
      admits_name.mpr (I.status h)
    exact admits_results hstatus (fun _ => hadmits) value hvalue m hm
  | tryHalf => exact admitsAll_singleton.mpr hadmits
  | catchHalf =>
    refine admitsAll_cons.mpr ⟨admits_acknowledgement herr, admitsAll_singleton.mpr ?_⟩
    exact admitsAll_assign (List.forall_mem_singleton.mpr hadmits) isValue_nil.admits

/-- The question for an error, with the way out for a failure. -/
theorem admitsAll_check (herr : I.allows (.name "err")) {scope : ExitScope}
    {otherwise : Option (List Go.Stmt)} (hotherwise : ∀ body ∈ otherwise, I.AdmitsAll body) :
    ∀ m ∈ (Go.Stmt.branch (.mk none failed (I.failure scope)) [] otherwise).mentions true,
      I.allows m := by
  refine admitsAll_branch (List.forall_mem_singleton.mpr ⟨nofun, ?_⟩) hotherwise
  exact ⟨admits_failed herr, admitsAll_failure herr scope⟩

/-- Code only mentions what is allowed. -/
theorem Code.admitsAll {scope : ExitScope} {body : List Go.Stmt} (h : I.Code scope body) :
    I.AdmitsAll body := by
  induction h with
  | nil | breakLoop | continueLoop => exact fun _ hm => by cases hm
  | append _ _ ihfront ihback => exact admitsAll_append.mpr ⟨ihfront, ihback⟩
  | assign _ _ _ htargets hvalue =>
    exact admitsAll_singleton.mpr (admitsAll_assign htargets hvalue)
  | @declare _ name type init rest hinit _ _ _ ih =>
    refine admitsAll_cons.mpr ⟨fun m hm => ?_, ih⟩
    cases init with
    | none => cases hm
    | some e => exact hinit e rfl m hm
  | run hcall | deferCall hcall => exact admitsAll_singleton.mpr hcall
  | ret hvalues =>
    refine admitsAll_singleton.mpr fun m hm => ?_
    obtain ⟨value, hvalue, hm⟩ := Go.mem_exprMentions.mp hm
    exact hvalues value hvalue m hm
  | panic hvalue => exact admitsAll_singleton.mpr hvalue
  | branch htests _ _ iharms ihotherwise =>
    refine admitsAll_singleton.mpr (admitsAll_branch (fun arm harm => ?_) ihotherwise)
    obtain ⟨hinit, htest, -⟩ := htests arm harm
    exact ⟨by simp [hinit], htest, iharms arm harm⟩
  | report herr _ ih =>
    refine admitsAll_singleton.mpr (admitsAll_branch ?_ nofun)
    exact List.forall_mem_singleton.mpr ⟨nofun, admits_failed herr, ih⟩
  | @loop _ test body htest _ ih =>
    refine admitsAll_singleton.mpr (List.forall_mem_append.mpr ⟨fun m hm => ?_, ih⟩)
    cases test with
    | none => cases hm
    | some e => exact htest e rfl m hm
  | guarded herr htargets hcall =>
    refine admitsAll_singleton.mpr (admitsAll_branch (List.forall_mem_singleton.mpr ⟨?_, ?_⟩) nofun)
    · intro a ha
      obtain rfl := Option.some.inj ha
      exact admitsAll_assign htargets hcall
    · exact ⟨admits_failed herr, admitsAll_failure herr _⟩
  | scan herr hcall hmissed _ _ _ ihmissing ihotherwise =>
    refine admitsAll_singleton.mpr (admitsAll_branch ?_ ihotherwise)
    refine List.forall_mem_cons.mpr ⟨⟨?_, hmissed, ihmissing⟩, List.forall_mem_singleton.mpr ?_⟩
    · intro a ha
      obtain rfl := Option.some.inj ha
      exact admitsAll_assign (List.forall_mem_singleton.mpr (admits_name.mpr herr)) hcall
    · exact ⟨nofun, admits_failed herr, admitsAll_failure herr _⟩
  | call herr hname hcall _ _ _ _ _ ihotherwise ihrest =>
    refine admitsAll_cons.mpr ⟨admitsAll_assign ?_ hcall, admitsAll_cons.mpr ⟨?_, ihrest⟩⟩
    · refine List.forall_mem_cons.mpr ⟨admits_name.mpr hname, ?_⟩
      exact List.forall_mem_singleton.mpr (admits_name.mpr herr)
    · exact admitsAll_check herr ihotherwise
  | caught hcaught _ ih =>
    have hname (id : String) (h : id ∉ privateNames) : I.Admits (.name id) := admits_free h
    refine admitsAll_cons.mpr ⟨admitsAll_assign ?_ (hname "r" (by decide)), ?_⟩
    · refine List.forall_mem_cons.mpr ⟨admits_name.mpr hcaught, ?_⟩
      exact List.forall_mem_singleton.mpr (hname "ok" (by decide))
    · refine admitsAll_singleton.mpr (admitsAll_branch ?_ nofun)
      exact List.forall_mem_singleton.mpr ⟨nofun, hname "ok" (by decide), ih⟩
  | recover _ ih =>
    have hname (id : String) (h : id ∉ privateNames) : I.Admits (.name id) := admits_free h
    have htest : I.IsValue (.binary "!=" (.name "r") .nil) := by
      simpa using isValue_free (by decide)
    have hcall : I.IsValue (.call (.name "recover") []) := by
      simpa using isValue_free (by decide)
    refine admitsAll_singleton.mpr (admitsAll_branch (List.forall_mem_singleton.mpr ⟨?_, ?_⟩) nofun)
    · intro a ha
      obtain rfl := Option.some.inj ha
      exact admitsAll_assign (List.forall_mem_singleton.mpr (hname "r" (by decide))) hcall.admits
    · exact ⟨htest.admits, ih⟩
  | literal _ ih | deferred _ ih => exact admitsAll_singleton.mpr ih

end Idiom

/-! ## Functions -/

/-- What the survey provides, as a permit. -/
def Survey.permit (survey : Survey) (config : Config) : Permit where
  config := config
  survey := survey
  allows := survey.Provides config
  names id h := by
    unfold Survey.Provides
    split <;> simp_all [privateNames]
  messages _ := trivial
  status h := h
  error h := h
  rowCount h := h
  identity h := h

/-- Every mention is allowed. -/
def Permit.liberal (config : Config) (survey : Survey) : Permit where
  config := config
  survey := survey
  allows _ := True
  names _ _ := trivial
  messages _ := trivial
  status _ := trivial
  error _ := trivial
  rowCount _ := trivial
  identity _ := trivial

/-- The survey knows every function for the last identity that has an ASCII name. -/
theorem Procedure.tracksIdentity_of_mem {procedure : Procedure} {config : Config}
    (hascii : procedure.HasAsciiCalls) {name : String} {args : List Expr}
    (h : .function name args ∈ procedure.exprs) (hname : Text.toUpper name ∈ identityFunctions) :
    (Survey.ofProcedure config procedure).tracksIdentity = true := by
  have hsame : (Text.sameIgnoringCase name "SCOPE_IDENTITY" ||
      Text.sameIgnoringCase name "IDENT_CURRENT") = true := by
    have hchars := List.all_eq_true.mp (hascii _ h name rfl)
    simp only [identityFunctions, List.mem_cons, List.not_mem_nil, or_false] at hname
    rcases hname with hname | hname
    · rw [Text.sameIgnoringCase_of_toUpper_eq hchars hname, Bool.true_or]
    · rw [Text.sameIgnoringCase_of_toUpper_eq hchars hname, Bool.or_true]
  have hneed (inGo : Bool) : .identity ∈ (Expr.function name args).needs config inGo := by
    rw [Expr.needs, if_pos hsame]
    exact List.mem_cons_self
  refine List.contains_iff_mem.mpr ?_
  rcases List.mem_append.mp h with h | h
  · obtain ⟨param, hparam, he⟩ := List.mem_flatMap.mp h
    refine List.mem_append_left _ (List.mem_flatMap.mpr ⟨param, hparam, ?_⟩)
    exact List.mem_flatMap.mpr ⟨_, he, hneed true⟩
  · obtain ⟨s, hs, he⟩ := List.mem_flatMap.mp h
    obtain ⟨t, ht, hmem⟩ := Statement.mem_nestedList.mp hs
    refine List.mem_append_right _ (Statement.mem_listNeeds.mpr ⟨t, ht, ?_⟩)
    refine Statement.mem_needs_of_nested hmem (List.mem_append_left _ ?_) false false
    exact List.mem_flatMap.mpr ⟨_, he, hneed _⟩

/-- The handle or slot that is mentioned. -/
def Go.Mention.handle? : Go.Mention → Option String
  | .name id => if id ∈ handleNames then some id else none
  | .receiver id _ => some id
  | .message _ => none

/-- The signature of a function, or its prologue, declares a name. -/
def Go.Func.Declares (f : Go.Func) (prologue : List Go.Stmt) (name : String) : Prop :=
  name ∈ f.params.map (·.1) ∨ name ∈ f.results.map (·.1) ∨ Go.Introduces prologue name

/-- What the survey provides is declared. -/
theorem Idiom.Describes.declares {I : Idiom} {frame : Frame} {function : Go.Func}
    (h : I.Describes frame function) {m : Go.Mention} (hm : I.survey.Provides I.config m)
    {name : String} (hname : name ∈ m.handle?) :
    function.Declares frame.progress.output name := by
  have hparam {id : String} (hid : id ∈ I.survey.handles) :
      function.Declares frame.progress.output id := .inl (h.params hid)
  have hresult {id : String} (hid : id ∈ I.resultNames) :
      function.Declares frame.progress.output id := .inr (.inl (h.results ▸ hid))
  cases m with
  | message package => cases hname
  | receiver id package =>
    obtain rfl := Option.some.inj hname
    rcases hm with ⟨rfl, -, hstore⟩ | ⟨-, client, hclient, rfl⟩
    · exact hparam (by simp [Survey.handles, hstore])
    · have hvar : client.var ∈ I.survey.clients.map (·.var) := List.mem_map_of_mem hclient
      exact hparam (List.mem_append_right _ (List.mem_append_left _ hvar))
  | name id =>
    simp only [Go.Mention.handle?, Option.mem_ite_none_right, Option.mem_some] at hname
    obtain ⟨hhandle, rfl⟩ := hname
    simp only [handleNames, List.mem_cons, List.not_mem_nil, or_false] at hhandle
    rcases hhandle with rfl | rfl | rfl | rfl | rfl | rfl | rfl
    · have herr : I.survey.needsErr = true := hm
      exact hresult (by simp [resultNames, herr])
    · have hstatus : I.survey.hasStatus = true := hm
      exact hresult (by simp [resultNames, hstatus])
    · have hdb : I.survey.usesDb = true := hm
      exact hparam (by simp [Survey.handles, hdb])
    · exact .inr (.inr (h.counted.transaction hm.1 hm.2))
    · have hstore : I.survey.usesStore = true := hm
      exact hparam (by simp [Survey.handles, hstore])
    · exact .inr (.inr (h.counted.rowCount hm))
    · exact .inr (.inr (h.counted.identity hm))

/-- Everything that the statements of a function mention is provided by the survey of its procedure,
and every handle and slot among it is declared by the signature or by the prologue, which is the code
in front of the frame of the procedure's statements. -/
theorem Procedure.mentions_are_provided {procedure : Procedure} {config : Config}
    {lowered : LoweredProcedure} (h : procedure.lower config = .ok lowered)
    (hascii : procedure.HasAsciiCalls) :
    ∃ frame, procedure.Begins config frame ∧
      frame.progress.output <+: lowered.function.body ∧
      ∀ m ∈ Go.listMentions true lowered.function.body,
        (Survey.ofProcedure config procedure).Provides config m ∧
        ∀ name ∈ m.handle?, lowered.function.Declares frame.progress.output name := by
  let permit : Permit := (Survey.ofProcedure config procedure).permit config
  have hgrants : permit.GrantsProcedure procedure := by
    refine Permit.grantsProcedure rfl (fun _ hm => hm) fun name args hcall hname => ?_
    exact Procedure.tracksIdentity_of_mem hascii hcall hname
  obtain ⟨I, frame, hpermit, -, hbegins, hdescribes⟩ :=
    Procedure.exists_idiom h permit rfl rfl hgrants
  have hprovides {m : Go.Mention} : I.allows m ↔ I.survey.Provides I.config m := by
    rw [hpermit]
    exact Iff.rfl
  refine ⟨frame, hbegins, hdescribes.front, fun m hm => ?_⟩
  have hallows := hprovides.mp (hdescribes.code.admitsAll m hm)
  refine ⟨?_, fun name hname => hdescribes.declares hallows hname⟩
  rw [hpermit] at hallows
  exact hallows

open Build in
/-- A procedure that writes to a temporary table and to a remote one inside a transaction, and reads
the key and the number of the written rows. -/
def Procedure.audit : Procedure where
  name := "usp_Audit"
  params := [input "id" "INT" none]
  body := [.beginTransaction none,
    .insert (((insert "#log").withColumns ["note"]).addRow [var "id"]),
    declareInit "n" "INT" (.function "scope_identity" []),
    .update (((update "orders").assign "total" (var "n")).restrict (eq (col "id") (var "id"))),
    .commit none, .ret (some (.global .rowCount))]

/-- All seven handles and slots that `Procedure.audit` mentions are declared. -/
theorem Procedure.audit_mentions_are_provided :
    Procedure.audit.HasAsciiCalls ∧ ∃ lowered frame,
      Procedure.audit.lower { backend := .rpc } = .ok lowered ∧
      ((Go.listMentions true lowered.function.body).filterMap (·.handle?)).dedup =
        ["db", "lastInsertID", "orderClient", "returnCode", "err", "tx", "rowCount"] ∧
      Procedure.audit.Begins { backend := .rpc } frame ∧
      ∀ m ∈ Go.listMentions true lowered.function.body, ∀ name ∈ m.handle?,
        lowered.function.Declares frame.progress.output name := by
  have hascii : Procedure.audit.HasAsciiCalls := by decide +kernel
  have hhandles : (Procedure.audit.lower { backend := .rpc }).toOption.map (fun lowered =>
      ((Go.listMentions true lowered.function.body).filterMap (·.handle?)).dedup) =
        some ["db", "lastInsertID", "orderClient", "returnCode", "err", "tx", "rowCount"] := by
    decide +kernel
  cases hlower : Procedure.audit.lower { backend := .rpc } with
  | error error => simp [hlower, Except.toOption] at hhandles
  | ok lowered =>
    rw [hlower] at hhandles
    obtain ⟨frame, hbegins, -, hmentions⟩ := Procedure.mentions_are_provided hlower hascii
    exact ⟨hascii, lowered, frame, rfl, Option.some.inj hhandles, hbegins,
      fun m hm => (hmentions m hm).2⟩

end Sproc
