import Sproc.Proofs.Lower.Scope
import Sproc.Proofs.Variables

/-!
# Numbered names

Generated code has variables of its own for the values of queries inside expressions, and flags for
`TRY` statements. Their names are made of a base and a number, and the first flag goes without its
number.

The number is searched: the numbers of a base are tried one after the other until a name is met that
no variable of the procedure has. Nothing in the search itself bounds its rounds. It ends because
there are only so many variables, each of which can stand in the way of one number, and for the same
reason the bound of `NameScope.freshWhere` cuts no search short.

A base is never tried with the same number again, whatever happens between two searches, and two
bases start with different letters, so all numbered names of a generation differ. They also differ
from the variables that have been declared by then. The name without a number is the only one that
the search has not looked at, and that name is kept from being taken from the start. A variable that
is declared later may still take the name that a number has made.

## Main definitions

* `NameScope.Search`: the search without a bound
* `NameCall`, `Progress.perform`, `Progress.performAll`: calls that are about names, and what is behind
  them
* `Progress.given`: the numbered names that calls return
* `Progress.Serves`: what a call for a numbered name does
* `Progress.GivesFresh`: what calls for numbered names do, among other calls

## Main results

* `NameScope.search_freshWhere`: the bounded search ends as the one without a bound does
* `Progress.exists_serves`, `Progress.count_perform`: one call
* `Progress.symbols_performAll`, `Progress.nodup_given`: all calls
* `Progress.numbered_names_are_fresh`
-/

namespace Sproc

open Lower

/-! ## The search for a number -/

namespace NameScope

variable {accept : String → Bool} {base : String} {rounds : Nat} {scope : NameScope}
  {result : String × NameScope}

/-- The search for a numbered name that satisfies a test, with the number of its rounds. It only ends
where such a name is met. -/
inductive Search (accept : String → Bool) (base : String) :
    Nat → NameScope → String × NameScope → Prop
  | found {scope : NameScope} : accept (scope.fresh base).1 = true →
    Search accept base 1 scope (scope.fresh base)
  | again {scope : NameScope} {rounds : Nat} {result : String × NameScope} :
    accept (scope.fresh base).1 = false → Search accept base rounds (scope.fresh base).2 result →
    Search accept base (rounds + 1) scope result

/-- The search ends with the number of the last round. -/
theorem Search.result_eq (h : Search accept base rounds scope result) :
    result = (base ++ toString (scope.counter base + rounds),
      scope.setCounter base (scope.counter base + rounds)) := by
  induction h with
  | found => rfl
  | @again scope rounds result _ _ ih =>
    have hnumber : (scope.fresh base).2.counter base + rounds =
        scope.counter base + (rounds + 1) := by
      rw [fresh, counter_setCounter_self]
      omega
    rw [ih, hnumber, fresh, setCounter_setCounter]

/-- The search ends with a name that satisfies the test. -/
theorem Search.accepted (h : Search accept base rounds scope result) :
    accept result.1 = true := by
  induction h with
  | found h => exact h
  | again _ _ ih => exact ih

theorem Search.rounds_pos (h : Search accept base rounds scope result) : 0 < rounds := by
  cases h <;> exact Nat.succ_pos _

/-- Where one of the numbers that can be tried makes a name that satisfies the test, the bounded
search ends as the search without a bound does. -/
theorem search_freshWhere {tries : Nat}
    (h : ∃ k ≤ tries, accept (base ++ toString (scope.counter base + 1 + k)) = true) :
    ∃ rounds ≤ tries + 1,
      Search accept base rounds scope (scope.freshWhere accept base tries) := by
  induction tries generalizing scope with
  | zero =>
    obtain ⟨k, hk, haccept⟩ := h
    obtain rfl := Nat.le_zero.mp hk
    exact ⟨1, Nat.le_refl _, .found haccept⟩
  | succ tries ih =>
    rw [freshWhere]
    dsimp only
    by_cases hfirst : accept (scope.fresh base).1 = true
    · rw [if_pos hfirst]
      exact ⟨1, Nat.succ_le_succ (Nat.zero_le _), .found hfirst⟩
    · rw [if_neg hfirst]
      -- The number that satisfies the test is among those that are left.
      have hrest : ∃ k ≤ tries,
          accept (base ++ toString ((scope.fresh base).2.counter base + 1 + k)) = true := by
        obtain ⟨k, hk, haccept⟩ := h
        cases k with
        | zero => exact absurd haccept hfirst
        | succ k =>
          refine ⟨k, Nat.le_of_succ_le_succ hk, ?_⟩
          have hnumber : scope.counter base + 1 + 1 + k = scope.counter base + 1 + (k + 1) := by omega
          rwa [fresh, counter_setCounter_self, hnumber]
      obtain ⟨rounds, hrounds, hsearch⟩ := ih hrest
      exact ⟨rounds + 1, Nat.succ_le_succ hrounds, .again (by simpa using hfirst) hsearch⟩

end NameScope

/-- A numbered name is found for every base, in at most one round more than there are variables. -/
theorem Lower.exists_runs_fresh (c : Context) (p : Progress) (base : String) :
    ∃ rounds ≤ p.symbols.symbols.length + 1, ∃ drawn : Progress,
      let n := p.names.counter base + rounds
      NameScope.Search (!p.symbols.isTaken ·) base rounds p.names (base ++ toString n, drawn.names) ∧
      drawn.symbols = p.symbols ∧ (fresh base).Runs c p (base ++ toString n) drawn := by
  have hfree : ∃ k ≤ p.symbols.symbols.length,
      (!p.symbols.isTaken (base ++ toString (p.names.counter base + 1 + k))) = true := by
    obtain ⟨k, hk, hfree⟩ := p.symbols.exists_isTaken_eq_false base (p.names.counter base + 1)
    exact ⟨k, hk, by rw [hfree]; rfl⟩
  obtain ⟨rounds, hrounds, hsearch⟩ : ∃ rounds ≤ p.symbols.symbols.length + 1,
      NameScope.Search (!p.symbols.isTaken ·) base rounds p.names
        (p.names.freshWhere (!p.symbols.isTaken ·) base p.symbols.symbols.length) :=
    NameScope.search_freshWhere hfree
  have hresult := hsearch.result_eq
  let drawn : Progress := { p with
    names := p.names.setCounter base (p.names.counter base + rounds) }
  refine ⟨rounds, hrounds, drawn, hresult ▸ hsearch, rfl, ?_⟩
  simp only [fresh, runs_bind, runs_get, runs_set, runs_pure]
  exact ⟨p, p, ⟨rfl, rfl⟩, (), _, rfl, by rw [hresult], by rw [hresult]⟩

/-- Names that are avoided at the start are avoided behind all calls, as long as neither the mark nor a
number can lead to them. -/
theorem SymbolTable.Avoids.performAll {table : SymbolTable} {names : List String}
    (h : table.Avoids names) (hmark : ∀ name ∈ names, ¬"Var".toList <:+ name.toList)
    (hnumber : ∀ name ∈ names, name.toList.getLast?.all (!·.isDigit) = true)
    (calls : List SymbolCall) : (table.performAll calls).Avoids names := by
  have hdeclare (table : SymbolTable) (name type : String) (kind : SymbolKind) (symbol : Symbol)
      (next : SymbolTable) (h : table.Avoids names)
      (hdeclare : table.declare name type kind = .ok (symbol, next)) : next.Avoids names :=
    h.declare hmark hnumber hdeclare
  exact performAll_induction h (fun _ name h => h.reserve name) hdeclare calls

/-! ## Calls -/

/-- What can be done with the names of a generation. -/
inductive NameAction where
  /-- A name is kept from being taken, or a variable is declared. -/
  | symbol (call : SymbolCall)
  | openBlock
  | closeBlock
  /-- A generated variable is assigned. -/
  | bind (name : String)
  /-- A variable is needed for whether a query finds a row. -/
  | existence
  /-- A variable is needed for the single value of a query. -/
  | scalar
  /-- A `TRY` statement protects some statements. -/
  | flag (tryBody : List Statement)

/-- The step of the generation that an action is. It returns the numbered name, if one is asked for. -/
def NameAction.step : NameAction → Lower (Option String)
  | symbol (.reserve name) => do
    modify fun p => { p with symbols := p.symbols.reserve name }
    return none
  | symbol (.declare name type kind) => do
    let _ ← declare name type kind
    return none
  | openBlock => do
    modify fun p => { p with names := p.names.push }
    return none
  | closeBlock => do
    modify fun p => { p with names := p.names.pop }
    return none
  | bind name => do
    modify fun p => { p with names := (p.names.bind name).2 }
    return none
  | existence => do
    return some (← fresh "exists")
  | scalar => do
    return some (← fresh "scalar")
  | flag tryBody => returnFlag? tryBody

/-- An action that is called where a statement stands. -/
structure NameCall where
  context : Context
  action : NameAction

namespace NameCall

/-- The call as one on the table of variables. -/
def symbolCall? (call : NameCall) : Option SymbolCall :=
  match call.action with
  | .symbol symbolCall => some symbolCall
  | _ => none

/-- The base of the numbered name that a call asks for. A flag is only asked for where a `RETURN` has
to set it. -/
def base? (call : NameCall) : Option String :=
  match call.action with
  | .existence => some "exists"
  | .scalar => some "scalar"
  | .flag tryBody =>
    if call.context.exitScope ≠ .catchHalf && Statement.anyProtected Statement.isReturn tryBody then
      some "returned"
    else
      none
  | _ => none

variable {call : NameCall} {base : String}

theorem symbolCall?_eq_none (h : call.base? = some base) : call.symbolCall? = none := by
  obtain ⟨c, action⟩ := call
  cases action with
  | symbol => cases h
  | _ => rfl

theorem mem_bases (h : call.base? = some base) : base ∈ NameScope.bases := by
  unfold base? at h
  split at h
  · cases h
    decide
  · cases h
    decide
  · split at h
    · cases h
      decide
    · cases h
  · cases h

end NameCall

namespace Progress

variable {p start after : Progress} {call : NameCall} {calls front : List NameCall} {base name : String}

/-- The progress behind a call. A call that is refused leaves it as it is. -/
def perform (p : Progress) (call : NameCall) : Progress :=
  (call.action.step.execute call.context p).2

/-- The numbered name that a call returns. -/
def name? (p : Progress) (call : NameCall) : Option String :=
  (call.action.step.execute call.context p).1.toOption.join

/-- The progress behind some calls. -/
def performAll (p : Progress) (calls : List NameCall) : Progress :=
  calls.foldl perform p

/-- The numbered names that some calls return, in the order of the calls. -/
def given (p : Progress) : List NameCall → List String
  | [] => []
  | call :: rest => (p.name? call).toList ++ (p.perform call).given rest

theorem perform_of_runs (call : NameCall) {answer : Option String}
    (h : call.action.step.Runs call.context p answer after) :
    p.perform call = after ∧ p.name? call = answer := by
  rw [perform, name?, h]
  exact ⟨rfl, rfl⟩

theorem perform_of_fails (call : NameCall) {error : Error}
    (h : call.action.step.Fails call.context p error after) :
    p.perform call = after ∧ p.name? call = none := by
  rw [perform, name?, h]
  exact ⟨rfl, rfl⟩

/-! ## What a call does -/

/-- Only a flag can lose its number. -/
theorem runs_fresh_query {c : Context} {n : Nat} (hbase : base.toList.head?.any (· != 'r') = true)
    (h : (fresh base).Runs c p (base ++ toString n) after) :
    (do return some (← fresh base) : Lower (Option String)).Runs c p
      (some (NameScope.numberedName base n)) after := by
  rw [NameScope.numberedName_eq hbase]
  exact runs_bind.mpr ⟨_, after, h, runs_pure.mpr ⟨rfl, rfl⟩⟩

/-- A call for a numbered name draws a number and returns the name with it. It leaves the variables
alone. -/
theorem exists_runs_of_base? (p : Progress) (h : call.base? = some base) :
    ∃ rounds ≤ p.symbols.symbols.length + 1, ∃ after : Progress,
      let n := p.names.counter base + rounds
      NameScope.Search (!p.symbols.isTaken ·) base rounds p.names (base ++ toString n, after.names) ∧
      after.symbols = p.symbols ∧
      call.action.step.Runs call.context p (some (NameScope.numberedName base n)) after := by
  obtain ⟨rounds, hrounds, drawn, hsearch, hsymbols, hruns⟩ :=
    exists_runs_fresh call.context p base
  refine ⟨rounds, hrounds, ?_⟩
  obtain ⟨c, action⟩ := call
  cases action with
  | existence =>
    cases h
    exact ⟨drawn, hsearch, hsymbols, runs_fresh_query (by decide) hruns⟩
  | scalar =>
    cases h
    exact ⟨drawn, hsearch, hsymbols, runs_fresh_query (by decide) hruns⟩
  | flag tryBody =>
    simp only [NameCall.base?] at h
    split at h
    next htest =>
      cases h
      -- The flag is declared as soon as it has its name.
      let flag := NameScope.numberedName "returned" (p.names.counter "returned" + rounds)
      refine ⟨drawn.wrote (.declare flag (.value .bool) none), hsearch, hsymbols, ?_⟩
      simp only [NameAction.step, returnFlag?, runs_bind, runs_read]
      refine ⟨c, p, ⟨rfl, rfl⟩, ?_⟩
      rw [if_pos htest]
      simp only [runs_bind, runs_emit, runs_pure]
      exact ⟨_, drawn, hruns, (), _, rfl, rfl, rfl⟩
    next => cases h
  | _ => cases h

/-- A declaration does with the variables what the table does, whether it succeeds or is refused. -/
theorem perform_declare (p : Progress) (c : Context) (name type : String) (kind : SymbolKind) :
    p.perform ⟨c, .symbol (.declare name type kind)⟩ =
        { p with symbols := p.symbols.perform (.declare name type kind) } ∧
      p.name? ⟨c, .symbol (.declare name type kind)⟩ = none := by
  rcases runs_or_fails (declare name type kind) c p with
    ⟨symbol, after, hruns⟩ | ⟨error, after, hfails⟩
  · obtain ⟨symbols, hdeclare, rfl⟩ := runs_declare.mp hruns
    obtain ⟨hperform, hname⟩ := perform_of_runs ⟨c, .symbol (.declare name type kind)⟩
      (runs_bind.mpr ⟨symbol, _, hruns, runs_pure.mpr ⟨rfl, rfl⟩⟩)
    refine ⟨?_, hname⟩
    rw [hperform, SymbolTable.perform, hdeclare]
  · obtain ⟨fault, hfault, rfl, rfl⟩ := fails_declare.mp hfails
    obtain ⟨hperform, hname⟩ := perform_of_fails ⟨c, .symbol (.declare name type kind)⟩
      (fails_bind.mpr (.inl hfails))
    refine ⟨?_, hname⟩
    rw [hperform, SymbolTable.perform, hfault]

/-- A call for no numbered name returns none. It leaves the numbers alone, and does with the variables
what the call on their table does. -/
theorem perform_of_base?_eq_none (p : Progress) (h : call.base? = none) :
    p.name? call = none ∧ (∀ base, (p.perform call).names.counter base = p.names.counter base) ∧
      (p.perform call).symbols = p.symbols.performAll call.symbolCall?.toList := by
  obtain ⟨c, action⟩ := call
  cases action with
  | symbol symbolCall =>
    cases symbolCall with
    | reserve name => exact ⟨rfl, fun _ => rfl, rfl⟩
    | declare name type kind =>
      obtain ⟨hperform, hname⟩ := p.perform_declare c name type kind
      rw [hperform]
      exact ⟨hname, fun _ => rfl, rfl⟩
  | openBlock => exact ⟨rfl, fun _ => rfl, rfl⟩
  | closeBlock =>
    have hcounter (base : String) : p.names.pop.counter base = p.names.counter base := by
      unfold NameScope.pop
      split <;> rfl
    exact ⟨rfl, hcounter, rfl⟩
  | bind name =>
    have hcounter (base : String) : (p.names.bind name).2.counter base = p.names.counter base := by
      unfold NameScope.bind
      split <;> rfl
    exact ⟨rfl, hcounter, rfl⟩
  | existence => cases h
  | scalar => cases h
  | flag tryBody =>
    have htest : ¬(c.exitScope ≠ .catchHalf &&
        Statement.anyProtected Statement.isReturn tryBody) = true := by
      intro htest
      have hbase : NameCall.base? ⟨c, .flag tryBody⟩ = some "returned" := if_pos htest
      cases h.symm.trans hbase
    have hruns : (returnFlag? tryBody).Runs c p none p := by
      simp only [returnFlag?, runs_bind, runs_read]
      refine ⟨c, p, ⟨rfl, rfl⟩, ?_⟩
      rw [if_neg htest]
      exact runs_pure.mpr ⟨rfl, rfl⟩
    obtain ⟨hperform, hname⟩ := perform_of_runs ⟨c, .flag tryBody⟩ hruns
    rw [hperform]
    exact ⟨hname, fun _ => rfl, rfl⟩

/-- What a call for a numbered name does: the search ends, in at most one round more than there are
variables, and the name that is returned is that of no variable. -/
structure Serves (p : Progress) (call : NameCall) (base name : String) (rounds : Nat) : Prop where
  runs : call.action.step.Runs call.context p (some name) (p.perform call)
  search : NameScope.Search (!p.symbols.isTaken ·) base rounds p.names
    (base ++ toString (p.names.counter base + rounds), (p.perform call).names)
  rounds_le : rounds ≤ p.symbols.symbols.length + 1
  /-- The first flag needs no number. -/
  name_eq : name = NameScope.numberedName base (p.names.counter base + rounds)
  free : ∀ symbol ∈ p.symbols.symbols, symbol.goName ≠ name

/-- A call for a numbered name is served, as long as no variable has the name of the first flag. -/
theorem exists_serves (hreturned : p.symbols.Avoids ["returned"]) (h : call.base? = some base) :
    ∃ name rounds, p.Serves call base name rounds := by
  obtain ⟨rounds, hrounds, after, hsearch, -, hruns⟩ := p.exists_runs_of_base? h
  obtain ⟨rfl, -⟩ := perform_of_runs call hruns
  refine ⟨_, rounds, hruns, hsearch, hrounds, rfl, fun symbol hsymbol => ?_⟩
  unfold NameScope.numberedName
  split
  · exact fun heq => hreturned.free symbol hsymbol (List.mem_singleton.mpr heq)
  · intro heq
    have htaken : p.symbols.isTaken (base ++ toString (p.names.counter base + rounds)) = true :=
      List.any_eq_true.mpr ⟨symbol, hsymbol, by simpa using heq⟩
    have hfree := hsearch.accepted
    rw [htaken] at hfree
    exact Bool.false_ne_true hfree

/-- What a call does with the variables, the call on their table does. -/
theorem symbols_perform (p : Progress) (call : NameCall) :
    (p.perform call).symbols = p.symbols.performAll call.symbolCall?.toList := by
  cases hbase : call.base? with
  | none => exact (p.perform_of_base?_eq_none hbase).2.2
  | some base =>
    obtain ⟨rounds, -, after, -, hsymbols, hruns⟩ := p.exists_runs_of_base? hbase
    obtain ⟨rfl, -⟩ := perform_of_runs call hruns
    rw [hsymbols, NameCall.symbolCall?_eq_none hbase]
    rfl

/-- A name that a call returns has been counted among the numbered names, and not before. -/
theorem count_perform (p : Progress) (call : NameCall) (x : String) :
    (p.name? call).toList.count x + p.names.numbered.count x ≤
      (p.perform call).names.numbered.count x := by
  cases hbase : call.base? with
  | none =>
    obtain ⟨hname, hcounter, -⟩ := p.perform_of_base?_eq_none hbase
    rw [hname, Option.toList_none, List.count_nil, Nat.zero_add]
    exact NameScope.count_numbered_le (fun base => Nat.le_of_eq (hcounter base).symm) x
  | some base =>
    obtain ⟨rounds, -, after, hsearch, -, hruns⟩ := p.exists_runs_of_base? hbase
    obtain ⟨rfl, hname⟩ := perform_of_runs call hruns
    have hlater : p.names.counter base < p.names.counter base + rounds :=
      Nat.lt_add_of_pos_right hsearch.rounds_pos
    have hnames : (p.perform call).names =
        p.names.setCounter base (p.names.counter base + rounds) :=
      congrArg Prod.snd hsearch.result_eq
    rw [hname, hnames]
    exact p.names.count_numbered_setCounter (NameCall.mem_bases hbase) hlater x

/-! ## What calls do -/

theorem symbols_performAll (p : Progress) (calls : List NameCall) :
    (p.performAll calls).symbols =
      p.symbols.performAll (calls.filterMap NameCall.symbolCall?) := by
  induction calls generalizing p with
  | nil => rfl
  | cons call rest ih =>
    calc
      ((p.perform call).performAll rest).symbols
      _ = (p.perform call).symbols.performAll (rest.filterMap NameCall.symbolCall?) := ih _
      _ = (p.symbols.performAll call.symbolCall?.toList).performAll
          (rest.filterMap NameCall.symbolCall?) := by rw [symbols_perform]
      _ = p.symbols.performAll ((call :: rest).filterMap NameCall.symbolCall?) := by
        rw [← SymbolTable.performAll_append]
        cases hcall : call.symbolCall? <;> simp [hcall]

/-- All names that calls return have been counted. -/
theorem count_given (p : Progress) (calls : List NameCall) (x : String) :
    (p.given calls).count x + p.names.numbered.count x ≤
      (p.performAll calls).names.numbered.count x := by
  induction calls generalizing p with
  | nil => exact Nat.le_of_eq (Nat.zero_add _)
  | cons call rest ih =>
    have hfirst := p.count_perform call x
    have hrest := ih (p.perform call)
    rw [given, List.count_append, performAll, List.foldl_cons, ← performAll]
    omega

/-- No name is returned twice: among the names that have been counted there is none. -/
theorem nodup_given (p : Progress) (calls : List NameCall) : (p.given calls).Nodup := by
  refine List.nodup_iff_count_le_one.mpr fun x => ?_
  have hcount := p.count_given calls x
  have hone := List.nodup_iff_count_le_one.mp (p.performAll calls).names.nodup_numbered x
  omega

theorem given_append (p : Progress) (front back : List NameCall) :
    p.given (front ++ back) = p.given front ++ (p.performAll front).given back := by
  induction front generalizing p with
  | nil => rfl
  | cons call rest ih =>
    calc
      p.given (call :: (rest ++ back))
      _ = (p.name? call).toList ++ (p.perform call).given (rest ++ back) := rfl
      _ = (p.name? call).toList ++
          ((p.perform call).given rest ++ ((p.perform call).performAll rest).given back) := by
        rw [ih]
      _ = p.given (call :: rest) ++ (p.performAll (call :: rest)).given back :=
        (List.append_assoc ..).symm

/-- What a call for a numbered name returns is among the names that are given. -/
theorem Serves.given_cons {rounds : Nat} (h : p.Serves call base name rounds)
    (back : List NameCall) : p.given (call :: back) = name :: (p.perform call).given back := by
  rw [given, (perform_of_runs call h.runs).2]
  rfl

/-- What calls for numbered names do, among other calls. -/
structure GivesFresh (start : Progress) (calls : List NameCall) : Prop where
  /-- The variables are those that the declarations among the calls have returned. -/
  declared : (start.performAll calls).symbols.symbols =
    start.symbols.declared (calls.filterMap NameCall.symbolCall?)
  /-- Every call for a numbered name is served, whatever has been called before, and its name is given
  behind those of the calls before it. -/
  serves : ∀ front call back base, calls = front ++ call :: back → call.base? = some base →
    ∃ name rounds, (start.performAll front).Serves call base name rounds ∧
      start.given calls =
        start.given front ++ name :: (start.performAll (front ++ [call])).given back
  /-- No name is given twice. -/
  nodup : (start.given calls).Nodup

/-- The name of the first flag is kept from being taken at the start, and neither the mark nor a
number leads to it. -/
theorem avoids_returned (config : Config) (survey : Survey) (calls : List NameCall) :
    ((Progress.start config survey).performAll calls).symbols.Avoids ["returned"] := by
  have hkept : ["returned"] ⊆ generatedNames := by decide
  have hstart : (Progress.start config survey).symbols.Avoids ["returned"] :=
    SymbolTable.avoids_start config survey (List.Subset.trans hkept (List.subset_append_left _ _))
  rw [symbols_performAll]
  exact hstart.performAll (by decide) (by decide) _

/-- Numbered names are fresh, whatever calls a generation makes: every search for one ends, with a name
that no variable declared by then has, and no name is given twice. -/
theorem numbered_names_are_fresh (config : Config) (survey : Survey) (calls : List NameCall) :
    (Progress.start config survey).GivesFresh calls where
  declared := by
    rw [symbols_performAll, SymbolTable.symbols_performAll, start_symbols, List.nil_append]
  serves := by
    rintro front call back base rfl hbase
    obtain ⟨name, rounds, hserves⟩ := exists_serves (avoids_returned config survey front) hbase
    refine ⟨name, rounds, hserves, ?_⟩
    rw [given_append, hserves.given_cons]
    simp [performAll]
  nodup := nodup_given _ _

/-- Where two rows are looked for. -/
def auditContext : Context :=
  { config := {}, procedure := ⟨"usp_Audit", [], []⟩, functionName := "Audit", verb := none,
    survey := {} }

/-- A variable with the name of a numbered one, and calls for numbered names inside and behind a
block. -/
def auditCalls : List NameCall :=
  [.symbol (.declare "@exists1" "INT" .declared), .openBlock, .existence, .flag [.ret none],
    .closeBlock, .existence, .flag [.ret none]].map fun action => ⟨auditContext, action⟩

/-- The variable stands in the way of one number, the first flag goes without its number, and the
numbers go on behind the block. -/
theorem audit_names_are_fresh :
    (Progress.start {} {}).given auditCalls = ["exists2", "returned", "exists3", "returned2"] ∧
      (Progress.start {} {}).GivesFresh auditCalls :=
  ⟨by decide +kernel, numbered_names_are_fresh {} {} auditCalls⟩

end Progress

end Sproc
