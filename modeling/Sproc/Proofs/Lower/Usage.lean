import Sproc.Proofs.Lower.Debts
import Sproc.Proofs.Lower.Imports

/-!
# Variables and imports that are used

Go refuses a function with a local variable that is never used. The generated code makes sure of a
use in two ways: what it introduces for itself is mentioned by the code that follows, and a variable
of the procedure that nothing reads is mentioned by an assignment to the blank. Whether something
reads a variable is taken from the survey, though, and the survey reads more expressions than the
code does. So the uses are certain but for a few reasons, and this module shows that there are no
others.

Nor may a file import what it does not name. An import is made with the code that needs it, so only
code that is computed and then dropped can leave one unused.

## Main definitions

* `Idiom.Spends`: what a list of statements introduces is used or excused
* `Procedure.NamesPackage`: code names the package of an import

## Main results

* `Idiom.Code.spends`: code uses what it introduces, or there is an excuse
* `Procedure.imports_are_used`: a function names the packages of its imports, apart from those of
  computations
* `Procedure.estimate_imports_are_unused`: those of computations can all be left unused
* `Procedure.unused_are_excused`: what a function does not use is excused
* `Procedure.alarm_level_is_unused`: a variable that is only read for the severity of an error is
  never used
-/

namespace Sproc

open Lower Idiom Permit

namespace Go

variable {v : String}

theorem mem_armUnused {arms : List Arm} (h : ∀ arm ∈ arms, arm.init = none) :
    v ∈ armUnused arms ↔ ∃ arm ∈ arms, v ∈ listUnused arm.body := by
  induction arms with
  | nil => simp [armUnused]
  | cons arm rest ih =>
    obtain ⟨init, test, body⟩ := arm
    rw [List.forall_mem_cons] at h
    obtain rfl : init = none := h.1
    simp [armUnused, initIntroduces, leftOver, ih h.2]

/-- The unused variables of a chain of conditionals: those that the assignment in front of it
introduces and the first test does not use, and those of its bodies. -/
theorem mem_unused_branch {first : Arm} {others : List Arm} {otherwise : Option (List Stmt)}
    (h : ∀ arm ∈ others, arm.init = none)
    (hv : v ∈ (Stmt.branch first others otherwise).unused) :
    (v ∈ initIntroduces first.init ∧ .name v ∉ first.test.mentions) ∨
      (∃ arm ∈ first :: others, v ∈ listUnused arm.body) ∨
      ∃ body ∈ otherwise, v ∈ listUnused body := by
  obtain ⟨init, test, body⟩ := first
  simp only [Stmt.unused, List.mem_append, mem_leftOver, mem_armUnused h] at hv
  rcases hv with ⟨hintroduced, hfree⟩ | hbody | ⟨arm, harm, hbody⟩ | helse
  · refine .inl ⟨hintroduced, fun htest => hfree ?_⟩
    exact List.mem_filterMap.mpr ⟨.name v, List.mem_append_left _ htest, rfl⟩
  · exact .inr (.inl ⟨_, List.mem_cons_self, hbody⟩)
  · exact .inr (.inl ⟨arm, List.mem_cons_of_mem _ harm, hbody⟩)
  · cases otherwise with
    | none => cases helse
    | some body => exact .inr (.inr ⟨body, rfl, helse⟩)

end Go

namespace Idiom

variable {I : Idiom} {scope : ExitScope}

/-- What statements introduce and do not use is excused, whatever follows. -/
def Spends (I : Idiom) (body : List Go.Stmt) : Prop :=
  ∀ rest, ∀ v ∈ Go.listUnused (body ++ rest), Excuse I.survey v ∨ v ∈ Go.listUnused rest

/-- What statements that nothing follows introduce and do not use is excused. -/
theorem Spends.excuse {body : List Go.Stmt} (h : I.Spends body) :
    ∀ v ∈ Go.listUnused body, Excuse I.survey v := by
  intro v hv
  rcases h [] v (by rwa [List.append_nil]) with hexcuse | hnil
  · exact hexcuse
  · cases hnil

theorem spends_nil : I.Spends [] :=
  fun _ _ hv => .inr hv

/-- A statement in front of others that use what it introduces. -/
theorem spends_cons {s : Go.Stmt} {rest : List Go.Stmt}
    (hintroduced : ∀ v ∈ s.introduces, v ∈ Go.listUses rest ∨ Excuse I.survey v)
    (hinside : ∀ v ∈ s.unused, Excuse I.survey v) (hrest : I.Spends rest) :
    I.Spends (s :: rest) := by
  intro behind v hv
  rcases List.mem_append.mp hv with hv | hv
  · obtain ⟨hmem, hunused⟩ := Go.mem_leftOver.mp hv
    rcases hintroduced v hmem with huses | hexcuse
    · refine absurd ?_ hunused
      exact Go.listUses_append rest behind ▸ List.mem_append_left _ huses
    · exact .inl hexcuse
  · rcases List.mem_append.mp hv with hv | hv
    · exact .inl (hinside v hv)
    · exact hrest behind v hv

/-- A statement that introduces nothing. -/
theorem spends_singleton {s : Go.Stmt} (hintroduces : s.introduces = [])
    (hinside : ∀ v ∈ s.unused, Excuse I.survey v) : I.Spends [s] := by
  refine spends_cons ?_ hinside spends_nil
  rw [hintroduces]
  exact nofun

/-- A statement without variables. -/
theorem spends_plain {s : Go.Stmt} (hintroduces : s.introduces = []) (hunused : s.unused = []) :
    I.Spends [s] := by
  refine spends_singleton hintroduces ?_
  rw [hunused]
  exact nofun

theorem excuse_branch {first : Go.Arm} {others : List Go.Arm} {otherwise : Option (List Go.Stmt)}
    (hinit : ∀ v ∈ Go.initIntroduces first.init, .name v ∈ first.test.mentions)
    (hothers : ∀ arm ∈ others, arm.init = none)
    (hbodies : ∀ arm ∈ first :: others, ∀ v ∈ Go.listUnused arm.body, Excuse I.survey v)
    (hotherwise : ∀ body ∈ otherwise, I.Spends body) :
    ∀ v ∈ (Go.Stmt.branch first others otherwise).unused, Excuse I.survey v := by
  intro v hv
  rcases Go.mem_unused_branch hothers hv with ⟨hmem, hfree⟩ | ⟨arm, harm, hv⟩ | ⟨body, hbody, hv⟩
  · exact absurd (hinit v hmem) hfree
  · exact hbodies arm harm v hv
  · exact (hotherwise body hbody).excuse v hv

/-- The way out for a failure introduces nothing. -/
theorem excuse_failure (scope : ExitScope) :
    ∀ v ∈ Go.listUnused (I.failure scope), Excuse I.survey v := by
  have hnil : Go.listUnused (I.failure scope) = [] := by
    cases scope <;> rfl
  rw [hnil]
  exact nofun

theorem excuse_check {otherwise : Option (List Go.Stmt)}
    (hotherwise : ∀ body ∈ otherwise, I.Spends body) :
    ∀ v ∈ (Go.Stmt.branch (.mk none failed (I.failure scope)) [] otherwise).unused,
      Excuse I.survey v :=
  excuse_branch (List.forall_mem_nil _) (List.forall_mem_nil _)
    (List.forall_mem_singleton.mpr (excuse_failure scope)) hotherwise

/-- Code uses what it introduces, or there is an excuse. -/
theorem Code.spends {body : List Go.Stmt} (h : I.Code scope body) : I.Spends body := by
  induction h with
  | nil => exact spends_nil
  | append _ _ ihfront ihback =>
    intro rest v hv
    rw [List.append_assoc] at hv
    rcases ihfront _ v hv with hexcuse | hv
    · exact .inl hexcuse
    · exact ihback rest v hv
  | @assign _ a hdefine _ _ _ _ =>
    refine spends_plain ?_ rfl
    rw [Go.Stmt.introduces, Go.Assign.introduces, hdefine]
    rfl
  | declare _ _ _ huses ih =>
    exact spends_cons (List.forall_mem_singleton.mpr huses) (List.forall_mem_nil _) ih
  | run | deferCall | ret | panic | breakLoop | continueLoop => exact spends_plain rfl rfl
  | @branch _ first others _ htests _ _ iharms ihotherwise =>
    have hinit : first.init = none := (htests first List.mem_cons_self).1
    refine spends_singleton rfl (excuse_branch ?_ (fun arm harm => ?_) ?_ ihotherwise)
    · rw [hinit]
      exact List.forall_mem_nil _
    · exact (htests arm (List.mem_cons_of_mem _ harm)).1
    · exact fun arm harm => (iharms arm harm).excuse
  | report _ _ ih =>
    refine spends_singleton rfl (excuse_branch (List.forall_mem_nil _) (List.forall_mem_nil _) ?_
      fun _ h => absurd h (Option.not_mem_none _))
    exact List.forall_mem_singleton.mpr ih.excuse
  | loop _ _ ih => exact spends_singleton rfl ih.excuse
  | guarded =>
    refine spends_singleton rfl (excuse_branch (List.forall_mem_nil _) (List.forall_mem_nil _) ?_
      fun _ h => absurd h (Option.not_mem_none _))
    exact List.forall_mem_singleton.mpr (excuse_failure _)
  | scan _ _ _ _ _ _ ihmissing ihotherwise =>
    refine spends_singleton rfl (excuse_branch (List.forall_mem_nil _) ?_ ?_ ihotherwise)
    · exact List.forall_mem_singleton.mpr rfl
    · exact List.forall_mem_cons.mpr
        ⟨ihmissing.excuse, List.forall_mem_singleton.mpr (excuse_failure _)⟩
  | @call _ name _ _ _ _ _ _ _ _ _ _ _ huses ihotherwise ihrest =>
    refine spends_cons (fun v hv => ?_) (List.forall_mem_nil _)
      (spends_cons (List.forall_mem_nil _) (excuse_check ihotherwise) ihrest)
    obtain ⟨-, hmem, hblank, herr⟩ := Go.mem_introduces hv
    have hname : v = name := by simpa [err, herr] using hmem
    rcases huses with huses | huses | hexcuse
    · exact .inl (hname ▸ huses)
    · exact absurd (hname.trans huses) hblank
    · exact .inr (hname ▸ hexcuse)
  | caught _ _ ih =>
    refine spends_cons (fun v hv => ?_) (List.forall_mem_nil _) (spends_singleton rfl ?_)
    · have hv : v = "caught" ∨ v = "ok" := by simpa using (Go.mem_introduces hv).2.1
      rcases hv with rfl | rfl
      · exact .inr .caught
      · exact .inl List.mem_cons_self
    · exact excuse_branch (List.forall_mem_nil _) (List.forall_mem_nil _)
        (List.forall_mem_singleton.mpr ih.excuse) fun _ h => absurd h (Option.not_mem_none _)
  | recover _ ih =>
    refine spends_singleton rfl (excuse_branch (fun v hv => ?_) (List.forall_mem_nil _) ?_
      fun _ h => absurd h (Option.not_mem_none _))
    · have hv : v = "r" := by simpa [recovered] using (Go.mem_introduces hv).2.1
      rw [hv]
      exact List.mem_cons_self
    · exact List.forall_mem_singleton.mpr ih.excuse
  | literal _ ih | deferred _ ih => exact spends_singleton rfl ih.excuse

end Idiom

/-! ## Packages -/

/-- The code of a procedure names the package of an import specification: the package stands in
front of a type or a message, or something is selected from its name, which no variable has. -/
def Procedure.NamesPackage (procedure : Procedure) (config : Config)
    (qualifiers : List Go.Qualifier) (spec : String) : Prop :=
  ∃ name, (name, spec) ∈ config.packages ∧
    (.package name ∈ qualifiers ∨ .owner name ∈ qualifiers ∧ ¬procedure.HasName config name)

/-- The handles of a database may be mentioned where the survey has found a need for one. -/
def Permit.database (config : Config) (survey : Survey) : Permit where
  config := config
  survey := survey
  allows m := m = .name "db" ∨ m = .name "tx" → survey.usesDb = true
  names id h := by
    rintro (heq | heq) <;> cases heq <;> exact absurd (by decide) h
  messages package := by
    rintro (heq | heq) <;> cases heq
  status _ := by simp
  error _ := by simp
  rowCount _ := by simp
  identity _ := by simp

namespace Procedure

variable {procedure : Procedure} {config : Config} {lowered : LoweredProcedure}

/-- A procedure that raises an error needs one. -/
theorem needsErr_of_raises {s : Statement} (hs : s ∈ procedure.statements)
    (h : s.raises = true) : (Survey.ofProcedure config procedure).needsErr = true := by
  let permit : Permit := (Survey.ofProcedure config procedure).permit config
  obtain ⟨t, ht, hmem⟩ := Statement.mem_nestedList.mp hs
  have hneed : .error ∈ procedure.needs config := by
    refine List.mem_append_right _ (Statement.mem_listNeeds.mpr ⟨t, ht, ?_⟩)
    refine Statement.mem_needs_of_nested hmem ?_ false false
    exact List.mem_append_right _ (Statement.error_mem_ownNeeds h)
  have hgrants : permit.Grants .error := Permit.grants_of_mem rfl (fun _ hm => hm) hneed
  exact hgrants _ (List.mem_singleton_self _)

/-- Something is only selected from a handle of the database where the survey has found a need for
one. -/
theorem usesDb_of_owner (h : procedure.lower config = .ok lowered) {id : String}
    (hid : id ∈ ["db", "tx"]) (howner : .owner id ∈ lowered.function.qualifiers) :
    (Survey.ofProcedure config procedure).usesDb = true := by
  let permit : Permit := .database config (.ofProcedure config procedure)
  have hgrants : permit.GrantsProcedure procedure := by
    refine Permit.grantsProcedure rfl (fun m hm hhandle => ?_) fun _ _ _ _ hhandle => ?_
    · rcases hhandle with rfl | rfl
      · exact hm
      · exact hm.2
    · exact absurd hhandle (by decide)
  obtain ⟨I, _, hpermit, -, -, hdescribes⟩ := exists_idiom h permit rfl rfl hgrants
  have hbody : .owner id ∈ Go.listQualifiers lowered.function.body := by
    refine (List.mem_append.mp howner).resolve_left fun hfield => ?_
    obtain ⟨field, -, hmem⟩ := List.mem_flatMap.mp hfield
    exact Go.not_owner_mem_qualifiers hmem
  have hallows := hdescribes.code.admitsAll _ (Go.name_mem_listMentions hbody)
  rw [hpermit] at hallows
  refine hallows ?_
  rcases List.mem_pair.mp hid with rfl | rfl
  · exact .inl rfl
  · exact .inr rfl

/-- A package that code selects from has a name that no variable has. -/
theorem not_hasName_of_mem_selectedPackages (h : procedure.lower config = .ok lowered)
    {name : String} (hname : name ∈ selectedPackages) : ¬procedure.HasName config name := by
  have hpackage : name ∈ packageNames ∧ name ≠ "utf8" := by
    have hall : ∀ name ∈ selectedPackages, name ∈ packageNames ∧ name ≠ "utf8" := by decide
    exact hall name hname
  rintro (hvariable | hfixed | hmade)
  · exact hpackage.2 (eq_of_mem_packageNames h hpackage.1 hvariable)
  · exact notMem_fixedNames_of_mem_packageNames hpackage.1 hfixed
  · exact not_isMadeName_of_mem_packageNames hpackage.1 hmade

/-- **Imports that are used.** The function of a procedure names each package that is imported for
it, unless the package is one of those of computations. -/
theorem imports_are_used (h : procedure.lower config = .ok lowered) :
    ∀ spec ∈ lowered.imports.specs, spec ∈ config.computingSpecs ∨
      procedure.NamesPackage config lowered.function.qualifiers spec := by
  obtain ⟨-, c, function, after, hstart, hruns, hlowered⟩ := lower_eq_ok_iff.mp h
  obtain ⟨functionName, verb, rfl⟩ := Context.start_eq_ok hstart
  have hnames :=
    names_of_runs_lowerProcedure (fun s hs hraises => needsErr_of_raises hs hraises) hruns
  subst hlowered
  intro spec hspec
  refine (hnames spec hspec).imp_right fun hnamed => ?_
  rcases hnamed with ⟨name, hname, hpackage | ⟨hselected, howner⟩⟩ | ⟨rfl, id, hid, howner⟩
  · exact ⟨name, hname, .inl hpackage⟩
  · exact ⟨name, hname, .inr ⟨howner, not_hasName_of_mem_selectedPackages h hselected⟩⟩
  · obtain ⟨_, _, -, -, _, _, hparams, -⟩ := runs_lowerProcedure hruns
    have hmem := package_mem_functionParams (usesDb_of_owner h hid howner) hparams
    refine ⟨"sql", by simp [Config.packages], .inl ?_⟩
    rw [Go.Func.qualifiers, List.flatMap_append]
    exact List.mem_append_left _ (List.mem_append_left _ hmem)

open Build in
/-- A procedure that computes a status in a handler, where a status is dropped. -/
def estimate : Procedure where
  name := "usp_Estimate"
  params := [input "n" "INT" none, input "f" "FLOAT" none]
  body := [.tryCatch [.print (text "start")] [.ret (some
    (.binary .add (.binary .add (.binary .add
      (.function "LEN" [.cast (var "n") "VARCHAR(10)"]) (.function "FLOOR" [var "f"]))
      (.function "YEAR" [text "2024-01-01"])) (.cast (text "1.5") "DECIMAL(5,2)")))]]

/-- The function of `Procedure.estimate` imports all packages of computations and names none. -/
theorem estimate_imports_are_unused : ∃ lowered, estimate.lower {} = .ok lowered ∧
    ∀ spec ∈ ({} : Config).computingSpecs, spec ∈ lowered.imports.specs ∧
      ¬estimate.NamesPackage {} lowered.function.qualifiers spec := by
  have hrun : (estimate.lower {}).toOption.map (fun lowered =>
      (({} : Config).computingSpecs.all fun spec => decide (spec ∈ lowered.imports.specs),
        lowered.function.qualifiers)) =
      some (true, [.package "context", .owner "log", .owner "log"]) := by
    decide +kernel
  have hapart : ∀ entry ∈ ({} : Config).packages, entry.1 ∈ ["context", "log"] →
      entry.2 ∉ ({} : Config).computingSpecs := by
    decide
  cases hlower : estimate.lower {} with
  | error error => simp [hlower, Except.toOption] at hrun
  | ok lowered =>
    rw [hlower] at hrun
    obtain ⟨himports, hqualifiers⟩ := Prod.mk.inj (Option.some.inj hrun)
    simp only [List.all_eq_true, decide_eq_true_eq] at himports
    refine ⟨lowered, rfl, fun spec hspec => ⟨himports spec hspec, ?_⟩⟩
    rintro ⟨name, hname, hnames⟩
    refine hapart (name, spec) hname ?_ hspec
    rw [hqualifiers] at hnames
    rcases hnames with hpackage | ⟨howner, -⟩
    · have hname : name = "context" := by simpa using hpackage
      simp [hname]
    · have hname : name = "log" := by simpa using howner
      simp [hname]

end Procedure

/-! ## Functions -/

/-- Every local variable that a function introduces and never uses is excused: the survey takes it
for read, or it is a counter, the error of a handler, a test for rows, an unread response, or the
iterator of a cursor that is opened inside a block. Every import whose package the function does not
name is one of a package of computations. -/
theorem Procedure.unused_are_excused {procedure : Procedure} {config : Config}
    {lowered : LoweredProcedure} (h : procedure.lower config = .ok lowered) :
    (∀ v ∈ lowered.function.unused, Excuse (.ofProcedure config procedure) v) ∧
      ∀ spec ∈ lowered.imports.specs, spec ∈ config.computingSpecs ∨
        procedure.NamesPackage config lowered.function.qualifiers spec := by
  let permit : Permit := .liberal config (.ofProcedure config procedure)
  have hgrants : permit.GrantsProcedure procedure :=
    Permit.grantsProcedure rfl (fun _ _ => trivial) fun _ _ _ _ => trivial
  obtain ⟨I, _, hpermit, -, -, hdescribes⟩ := Procedure.exists_idiom h permit rfl rfl hgrants
  have hexcuse := hdescribes.code.spends.excuse
  rw [hpermit] at hexcuse
  exact ⟨hexcuse, imports_are_used h⟩

open Build in
/-- A procedure that reads a variable only for the severity of an error. -/
def Procedure.alarm : Procedure where
  name := "usp_Alarm"
  params := []
  body := [declareInit "level" "INT" (int 16), .raiserror (text "disk full") (var "level") (int 1)]

/-- The severity of an error is not written, so the variable of `Procedure.alarm` is never used. -/
theorem Procedure.alarm_level_is_unused :
    ∃ lowered, Procedure.alarm.lower {} = .ok lowered ∧ lowered.function.unused = ["level"] ∧
      Excuse (.ofProcedure {} Procedure.alarm) "level" := by
  have hunused : (Procedure.alarm.lower {}).toOption.map (·.function.unused) = some ["level"] := by
    decide +kernel
  cases hlower : Procedure.alarm.lower {} with
  | error error => simp [hlower, Except.toOption] at hunused
  | ok lowered =>
    rw [hlower] at hunused
    have hunused : lowered.function.unused = ["level"] := Option.some.inj hunused
    refine ⟨lowered, rfl, hunused, (Procedure.unused_are_excused hlower).1 "level" ?_⟩
    rw [hunused]
    exact List.mem_cons_self

end Sproc
