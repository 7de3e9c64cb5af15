import Sproc.Proofs.Lower.Scope

/-!
# Variables that are assigned again

A variable for what a call yields is introduced where its name cannot be seen yet, and assigned again
where it can. What can be seen is known by name only: the type that the variable was introduced with
is not kept. The names come from the words of methods and cursors, while the types also depend on the
backend that a statement goes to, and two backends may serve one procedure.

Along the code the variables that can be seen are kept with their types. Those that do not hold values
have types that their names allow for, and what is assigned again has been introduced. That leaves
three ways in which a variable can be assigned something of another type than its own.

## Main definitions

* `Go.Locals.Typed`, `Go.Rebinding.Typed`: types that the names of variables allow for
* `Go.KeepsTypes`: code that only gives variables such types
* `Config.Retyped`: the ways in which a variable is assigned something of another type

## Main results

* `Idiom.Code.keepsTypes`: generated code gives variables types that their names allow for
* `Procedure.settled_body`: what is assigned again in a function can be seen there
* `Procedure.rebinding_types_differ_iff`: when its type is not that of what can be seen
* `Config.Retyped.exists_methods`: one backend gives two types to responses alone
-/

namespace Sproc

open Lower

/-! ## Types along the code -/

namespace Go

variable {config : Config}

/-- Every variable that can be seen holds values, or has a type that its name allows for. -/
def Locals.Typed (scope : Locals) (config : Config) : Prop :=
  ∀ entry ∈ scope, entry.2.isValue = false → IsLocalType config entry.1 entry.2

/-- What is assigned to a variable has a type that the name of the variable allows for, and so has the
variable that can be seen, unless it holds values. -/
structure Rebinding.Typed (rebinding : Rebinding) (config : Config) : Prop where
  type : IsLocalType config rebinding.name rebinding.type
  visible : ∀ type ∈ rebinding.visible,
    type.isValue = false → IsLocalType config rebinding.name type

/-- Where the variables that can be seen have types that their names allow for, so has what is assigned
to them, and so have the variables that can be seen behind the code. -/
def KeepsTypes (config : Config) (code : List Stmt) : Prop :=
  ∀ ⦃scope : Locals⦄, scope.Typed config →
    (∀ rebinding ∈ listRebindings scope code, rebinding.Typed config) ∧
      (scope.behind code).Typed config

theorem Locals.Typed.of_lookup {scope : Locals} {name : String} {type : TypeExpr}
    (h : scope.Typed config) (hlookup : scope.lookup name = some type)
    (hvalue : type.isValue = false) : IsLocalType config name type := by
  obtain ⟨front, back, rfl, -⟩ := List.lookup_eq_some_iff.mp hlookup
  exact h (name, type) (List.mem_append_right _ List.mem_cons_self) hvalue

theorem keepsTypes_nil : KeepsTypes config [] :=
  fun _ hscope => ⟨List.forall_mem_nil _, hscope⟩

theorem KeepsTypes.append {front back : List Stmt} (hfront : KeepsTypes config front)
    (hback : KeepsTypes config back) : KeepsTypes config (front ++ back) := by
  intro scope hscope
  obtain ⟨hfirst, hmiddle⟩ := hfront hscope
  obtain ⟨hsecond, hbehind⟩ := hback hmiddle
  rw [listRebindings_append, Locals.behind_append]
  exact ⟨List.forall_mem_append.mpr ⟨hfirst, hsecond⟩, hbehind⟩

theorem KeepsTypes.cons {s : Stmt} {rest : List Stmt} (h : KeepsTypes config [s])
    (hrest : KeepsTypes config rest) : KeepsTypes config (s :: rest) :=
  h.append hrest

/-- A statement gives types to the variables that it introduces and to those that it assigns. -/
theorem keepsTypes_singleton {s : Stmt} (hlocals : s.locals.Typed config)
    (h : ∀ ⦃scope : Locals⦄, scope.Typed config →
      ∀ rebinding ∈ s.rebindings scope, rebinding.Typed config) : KeepsTypes config [s] := by
  intro scope hscope
  rw [listRebindings, listRebindings, List.append_nil]
  exact ⟨h hscope, List.forall_mem_append.mpr ⟨hlocals, hscope⟩⟩

/-- A statement that neither introduces nor assigns a variable for what a call yields. -/
theorem keepsTypes_of_rebindings_eq_nil {s : Stmt} (hlocals : s.locals = [])
    (h : ∀ scope, s.rebindings scope = []) : KeepsTypes config [s] :=
  keepsTypes_singleton (hlocals ▸ List.forall_mem_nil _) fun scope _ =>
    h scope ▸ List.forall_mem_nil _

theorem keepsTypes_branch {first : Arm} {others : List Arm} {otherwise : Option (List Stmt)}
    (harms : ∀ arm ∈ first :: others, KeepsTypes config arm.body)
    (hother : ∀ body ∈ otherwise, KeepsTypes config body) :
    KeepsTypes config [.branch first others otherwise] :=
  keepsTypes_singleton (List.forall_mem_nil _) fun _ hscope => forall_mem_rebindings_branch.mpr
    ⟨fun arm harm => (harms arm harm hscope).1, fun body hbody => (hother body hbody hscope).1⟩

/-- The test of a call, whose failure branch gives types to variables as the alternative does. -/
theorem keepsTypes_if {init : Option Assign} {test : Expr} {body : List Stmt}
    {otherwise : Option (List Stmt)} (hbody : KeepsTypes config body)
    (hother : ∀ body ∈ otherwise, KeepsTypes config body) :
    KeepsTypes config [.branch (.mk init test body) [] otherwise] :=
  keepsTypes_branch (List.forall_mem_singleton.mpr hbody) hother

/-- A call that is kept in a variable has a type that the name of the variable allows for, whether the
variable is introduced or assigned again. -/
theorem keepsTypes_assign {a : Assign}
    (h : ∀ name ∈ a.local?, IsLocalType config name (a.typeFor name)) :
    KeepsTypes config [.assign a] := by
  refine keepsTypes_singleton (fun entry hentry => ?_) fun scope hscope rebinding hmem => ?_
  · rw [Stmt.locals, Assign.locals] at hentry
    split at hentry
    · obtain ⟨name, hname, rfl⟩ := List.mem_map.mp hentry
      exact fun _ => h name (Option.mem_toList.mp hname)
    · cases hentry
  · rw [Stmt.rebindings, Option.mem_toList, Assign.rebinding?] at hmem
    split at hmem
    · cases hmem
    · obtain ⟨name, hname, rfl⟩ := Option.map_eq_some_iff.mp hmem
      exact ⟨h name hname, fun type hvisible => hscope.of_lookup hvisible⟩

theorem keepsTypes_declare {name : String} {type : TypeExpr} {init : Option Expr}
    (h : type.isValue = false → IsLocalType config name type) :
    KeepsTypes config [.declare name type init] :=
  keepsTypes_singleton (List.forall_mem_singleton.mpr h) fun _ _ => List.forall_mem_nil _

end Go

namespace Idiom

variable {I : Idiom} {scope : ExitScope}

theorem keepsTypes_failure (scope : ExitScope) : Go.KeepsTypes I.config (I.failure scope) := by
  cases scope with
  | body => exact Go.keepsTypes_of_rebindings_eq_nil rfl fun _ => rfl
  | tryHalf => exact Go.keepsTypes_of_rebindings_eq_nil rfl fun _ => rfl
  | catchHalf =>
    exact .cons (Go.keepsTypes_of_rebindings_eq_nil rfl fun _ => rfl)
      (Go.keepsTypes_of_rebindings_eq_nil rfl fun _ => rfl)

/-- Generated code gives variables types that their names allow for. -/
theorem Code.keepsTypes {code : List Go.Stmt} (h : I.Code scope code) :
    Go.KeepsTypes I.config code := by
  have hnone : ∀ body ∈ (none : Option (List Go.Stmt)), Go.KeepsTypes I.config body := nofun
  induction h with
  | nil => exact Go.keepsTypes_nil
  | append _ _ ihfront ihback => exact ihfront.append ihback
  | assign _ _ hlocal =>
    exact Go.keepsTypes_assign fun name hname => by simp [hlocal] at hname
  | declare _ htype _ _ ih => exact (Go.keepsTypes_declare htype).cons ih
  | run | deferCall | ret | panic | breakLoop | continueLoop =>
    exact Go.keepsTypes_of_rebindings_eq_nil rfl fun _ => rfl
  | branch _ _ _ iharms ihotherwise => exact Go.keepsTypes_branch iharms ihotherwise
  | report _ _ ih => exact Go.keepsTypes_if ih hnone
  | loop _ _ ih => exact Go.keepsTypes_singleton (List.forall_mem_nil _) fun _ hscope => (ih hscope).1
  | guarded => exact Go.keepsTypes_if (keepsTypes_failure _) hnone
  | scan _ _ _ _ _ _ ihmissing ihotherwise =>
    refine Go.keepsTypes_branch (List.forall_mem_cons.mpr ⟨ihmissing, ?_⟩) ihotherwise
    exact List.forall_mem_singleton.mpr (keepsTypes_failure _)
  | @call _ name define call _ _ _ _ _ _ htype _ _ _ ihotherwise ihrest =>
    refine (Go.keepsTypes_assign fun kept hkept => ?_).cons
      ((Go.keepsTypes_if (keepsTypes_failure _) ihotherwise).cons ihrest)
    obtain ⟨_, htargets, -, hfixed⟩ := Go.Assign.local?_eq_some_iff.mp hkept
    obtain rfl : name = kept := by simpa using congrArg List.head? htargets
    exact htype hfixed
  | caught _ _ ih =>
    have hkept : Go.Assign.local? ⟨[.name "caught", .name "ok"], true, .asError (.name "r")⟩ = none :=
      rfl
    exact (Go.keepsTypes_assign fun name hname => by simp [hkept] at hname).cons
      (Go.keepsTypes_if ih hnone)
  | recover _ ih => exact Go.keepsTypes_if ih hnone
  | literal _ ih | deferred _ ih =>
    exact Go.keepsTypes_singleton (List.forall_mem_nil _) fun _ hscope => (ih hscope).1

end Idiom

/-! ## What can be seen -/

/-- At the start no name has been bound. -/
theorem NameScope.seenIn_start (config : Config) (survey : Survey) :
    (Progress.start config survey).names.SeenIn [] :=
  fun name hname => by simp [Progress.start, isBound] at hname

namespace Procedure

variable {procedure : Procedure} {config : Config} {lowered : LoweredProcedure}

/-- What is assigned again in a function can be seen there. -/
theorem settled_body (hlower : procedure.lower config = .ok lowered) :
    Go.Settled [] lowered.function.body := by
  obtain ⟨first, finished, final, hbegins, hfinished, hfinal, hbody⟩ :=
    exists_begins_finish hlower
  have hpermissive := Scheme.permissive_keeping (fun _ => True) first.context
  have hentry := hasEffect_lowerEntry (c := first.context) hpermissive.regular
    hpermissive.releasing (fun h => h.1)
    (Scheme.lasting_keeping (fun _ _ => trivial) first.context)
  obtain ⟨-, opening, hopening, -, hextends⟩ := hentry hbegins.2.1 trivial
  obtain ⟨main, hmain, hextends'⟩ := extends_body hfinished hfinal
  have hstart := NameScope.seenIn_start config (.ofProcedure config procedure)
  rw [hbody, hmain, hopening]
  exact Go.settled_append.mpr
    ⟨hextends.settles [] hstart, hextends'.settles _ (hextends.seen [] hstart)⟩

/-- The variables of a function have types that their names allow for wherever they are assigned
again. -/
theorem typed_rebindings (hlower : procedure.lower config = .ok lowered) :
    ∀ rebinding ∈ lowered.function.rebindings, rebinding.Typed config := by
  let permit : Permit := .liberal config (.ofProcedure config procedure)
  have hgrants : permit.GrantsProcedure procedure :=
    Permit.grantsProcedure rfl (fun _ _ => trivial) fun _ _ _ _ => trivial
  obtain ⟨I, _, hpermit, -, -, hdescribes⟩ := Procedure.exists_idiom hlower permit rfl rfl hgrants
  have hconfig : I.config = config := congrArg Permit.config hpermit
  exact hconfig ▸ (hdescribes.code.keepsTypes (List.forall_mem_nil _)).1

end Procedure

/-! ## Two types for one name -/

theorem hasEnding_of_mem_responseNames {name method : String} (h : name ∈ responseNames method) :
    HasEnding ["Resp", "RespGen"] name := by
  rcases List.mem_pair.mp h with rfl | rfl
  · exact ⟨"Resp", by decide, _, String.toList_append.symm⟩
  · exact ⟨"RespGen", by decide, _, String.toList_append.symm⟩

namespace Config

/-- The ways in which the type of what is assigned to a variable differs from the type of the variable
that can be seen. -/
inductive Retyped (config : Config) (name : String) : Go.TypeExpr → Go.TypeExpr → Prop
  /-- Two responses: the names of their methods consist of the same words, but are spelled in
  different ways, or the methods belong to backends with messages in different packages. -/
  | responses {method method' : String} {backend backend' : Backend} :
    backend ∈ config.backends → backend' ∈ config.backends →
    name ∈ responseNames method → name ∈ responseNames method' →
    (method ≠ method' ∨ config.messagePackage backend ≠ config.messagePackage backend') →
    Retyped config name
      (.pointer (.named (config.messagePackage backend) (method ++ "Response")))
      (.pointer (.named (config.messagePackage backend') (method' ++ "Response")))
  /-- Two iterators over rows of backends that yield them in different packages. -/
  | iterators {cursor cursor' : String} {backend backend' : Backend} :
    backend ∈ config.backends → backend' ∈ config.backends →
    name ∈ iteratorNames cursor → name ∈ iteratorNames cursor' →
    config.rowsPackage backend ≠ config.rowsPackage backend' →
    Retyped config name (.pointer (.named (config.rowsPackage backend) "Rows"))
      (.pointer (.named (config.rowsPackage backend') "Rows"))
  /-- What can be seen is a variable for values that has been given the name as well. -/
  | values {value : GoType} {type : Go.TypeExpr} : type.isValue = false →
    Retyped config name (.value value) type

variable {config : Config} {name : String} {type type' : Go.TypeExpr}

theorem Retyped.ne (h : config.Retyped name type type') : type ≠ type' := by
  intro heq
  cases h with
  | responses _ _ _ _ hdiffer =>
    simp only [Go.TypeExpr.pointer.injEq, Go.TypeExpr.named.injEq] at heq
    refine hdiffer.elim (fun hmethod => hmethod ?_) fun hpackage => hpackage heq.1
    exact (String.append_left_inj "Response").mp heq.2
  | iterators _ _ _ _ hdiffer =>
    simp only [Go.TypeExpr.pointer.injEq, Go.TypeExpr.named.injEq, and_true] at heq
    exact hdiffer heq
  | values hvalue =>
    subst heq
    cases hvalue

/-- Where one backend serves all tables, only the responses of two methods can share a variable. -/
theorem Retyped.exists_methods (h : config.Retyped name type type')
    (hsame : config.fallback = config.backend) (hvalue : type.isValue = false) :
    ∃ method method', method ≠ method' ∧ name ∈ responseNames method ∧
      name ∈ responseNames method' := by
  have hone : ∀ backend ∈ config.backends, backend = config.backend := by
    simp [backends, hsame]
  cases h with
  | responses hserves hserves' hname hname' hdiffer =>
    rw [hone _ hserves, hone _ hserves'] at hdiffer
    exact ⟨_, _, hdiffer.resolve_right (absurd rfl), hname, hname'⟩
  | iterators hserves hserves' _ _ hdiffer =>
    rw [hone _ hserves, hone _ hserves'] at hdiffer
    exact absurd rfl hdiffer
  | values => cases hvalue

end Config

namespace IsLocalType

variable {config : Config} {name : String} {type type' : Go.TypeExpr}

/-- The name of a result allows for one type. -/
theorem eq_of_result (h : IsLocalType config name type) (hname : name ∈ ["res", "resGen"]) :
    type = .named "sql" "Result" := by
  have hending := HasEnding.of_mem hname
  cases h with
  | result => rfl
  | response _ hname' =>
    exact (hending.not_of_apart (by decide) (hasEnding_of_mem_responseNames hname')).elim
  | rows _ hname' =>
    exact (hending.not_of_apart (by decide) (hasEnding_of_mem_iteratorNames hname')).elim
  | transaction => exact absurd hname (by decide)

/-- The name of a response allows for responses only. -/
theorem exists_response (h : IsLocalType config name type) {method : String}
    (hname : name ∈ responseNames method) :
    ∃ method' backend', backend' ∈ config.backends ∧ name ∈ responseNames method' ∧
      type = .pointer (.named (config.messagePackage backend') (method' ++ "Response")) := by
  have hending := hasEnding_of_mem_responseNames hname
  cases h with
  | result hname' =>
    exact (hending.not_of_apart (by decide) (.of_mem hname')).elim
  | response hserves hname' => exact ⟨_, _, hserves, hname', rfl⟩
  | rows _ hname' =>
    exact (hending.not_of_apart (by decide) (hasEnding_of_mem_iteratorNames hname')).elim
  | transaction =>
    exact (hending.not_of_apart (by decide) (.of_mem (List.mem_singleton_self "tx"))).elim

/-- The name of an iterator allows for rows only. -/
theorem exists_rows (h : IsLocalType config name type) {cursor : String}
    (hname : name ∈ iteratorNames cursor) :
    ∃ cursor' backend', backend' ∈ config.backends ∧ name ∈ iteratorNames cursor' ∧
      type = .pointer (.named (config.rowsPackage backend') "Rows") := by
  have hending := hasEnding_of_mem_iteratorNames hname
  cases h with
  | result hname' =>
    exact (hending.not_of_apart (by decide) (.of_mem hname')).elim
  | response _ hname' =>
    exact (hending.not_of_apart (by decide) (hasEnding_of_mem_responseNames hname')).elim
  | rows hserves hname' => exact ⟨_, _, hserves, hname', rfl⟩
  | transaction =>
    exact (hending.not_of_apart (by decide) (.of_mem (List.mem_singleton_self "tx"))).elim

/-- The transaction has one type. -/
theorem eq_of_transaction (h : IsLocalType config "tx" type) :
    type = .pointer (.named "sql" "Tx") := by
  have hending := HasEnding.of_mem (List.mem_singleton_self "tx")
  cases h with
  | result hname => exact absurd hname (by decide)
  | response _ hname =>
    exact (hending.not_of_apart (by decide) (hasEnding_of_mem_responseNames hname)).elim
  | rows _ hname =>
    exact (hending.not_of_apart (by decide) (hasEnding_of_mem_iteratorNames hname)).elim
  | transaction => rfl

theorem isValue_eq (h : IsLocalType config name type) : type.isValue = false := by
  cases h <;> rfl

/-- Two types that a name allows for are the same, but for responses and iterators of two kinds. -/
theorem retyped_of_ne (h : IsLocalType config name type) (h' : IsLocalType config name type')
    (hne : type ≠ type') : config.Retyped name type type' := by
  cases h with
  | result hname => exact absurd (h'.eq_of_result hname).symm hne
  | response hserves hname =>
    obtain ⟨method', backend', hserves', hname', rfl⟩ := h'.exists_response hname
    refine .responses hserves hserves' hname hname' (not_and_or.mp fun hsame => hne ?_)
    rw [hsame.1, hsame.2]
  | rows hserves hname =>
    obtain ⟨cursor', backend', hserves', hname', rfl⟩ := h'.exists_rows hname
    refine .iterators hserves hserves' hname hname' fun hsame => hne ?_
    rw [hsame]
  | transaction => exact absurd h'.eq_of_transaction.symm hne

end IsLocalType

/-! ## The whole function -/

/-- Where a variable for what a call yields is assigned again, a definition can be seen. The type of
what is assigned is the type of that definition, but for three reasons: the variable is for responses
of two methods with the same words or of two backends, or for iterators over the rows of two backends,
or the definition is that of a variable for values. -/
theorem Procedure.rebinding_types_differ_iff {procedure : Procedure} {config : Config}
    {lowered : LoweredProcedure} (h : procedure.lower config = .ok lowered)
    {rebinding : Go.Rebinding} (hrebinding : rebinding ∈ lowered.function.rebindings) :
    ∃ visible, rebinding.visible = some visible ∧
      (visible ≠ rebinding.type ↔ config.Retyped rebinding.name visible rebinding.type) := by
  obtain ⟨visible, hvisible⟩ := Option.isSome_iff_exists.mp (settled_body h rebinding hrebinding)
  have htyped := typed_rebindings h rebinding hrebinding
  refine ⟨visible, hvisible, fun hne => ?_, Config.Retyped.ne⟩
  cases visible with
  | value => exact .values htyped.type.isValue_eq
  | _ => exact (htyped.visible _ hvisible rfl).retyped_of_ne htyped.type hne

open Build in
/-- A procedure that queries a table of a service, and then a table that lives for one call only. -/
def Procedure.relay : Procedure where
  name := "usp_Relay"
  params := []
  body := [
    declare "x" "INT", declare "y" "INT",
    .select ((select []).assign "x" (col "id") |>.readFrom ⟨"Orders", none⟩),
    .select ((select []).assign "y" (col "id") |>.readFrom ⟨"#Orders", none⟩)]

/-- A configuration that sends queries to services, and those on tables that live for one call only to
the store. -/
def Config.relaying : Config where
  backend := .rpc
  fallback := .mock

/-- The function of `Procedure.relay` has one variable for the responses of the service and of the
store. -/
theorem Procedure.relay_rebinding_retyped :
    ∃ lowered, Procedure.relay.lower .relaying = .ok lowered ∧
      lowered.function.rebindings = [⟨"getOrderResp",
        some (.pointer (.named "pb" "GetOrderResponse")),
        .pointer (.named "mockstore" "GetOrderResponse")⟩] ∧
      Config.relaying.Retyped "getOrderResp" (.pointer (.named "pb" "GetOrderResponse"))
        (.pointer (.named "mockstore" "GetOrderResponse")) := by
  have hrebindings : (Procedure.relay.lower .relaying).toOption.map (·.function.rebindings) =
      some [⟨"getOrderResp", some (.pointer (.named "pb" "GetOrderResponse")),
        .pointer (.named "mockstore" "GetOrderResponse")⟩] := by
    decide +kernel
  obtain ⟨lowered, hlowered, hrebindings⟩ := Option.map_eq_some_iff.mp hrebindings
  have hlower : Procedure.relay.lower .relaying = .ok lowered := by
    cases hresult : Procedure.relay.lower .relaying with
    | error => simp [hresult, Except.toOption] at hlowered
    | ok found => simpa [hresult, Except.toOption] using hlowered
  refine ⟨lowered, hlower, hrebindings, ?_⟩
  obtain ⟨visible, hvisible, hdiffer⟩ := Procedure.rebinding_types_differ_iff hlower
    (hrebindings ▸ List.mem_singleton_self _)
  obtain rfl := Option.some.inj hvisible
  exact hdiffer.mp (by decide)

end Sproc
