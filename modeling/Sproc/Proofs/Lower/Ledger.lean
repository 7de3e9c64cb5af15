import Mathlib.Data.List.Nodup
import Sproc.Proofs.Go.Binding
import Sproc.Proofs.Go.Layout
import Sproc.Proofs.Lower.Effect
import Sproc.Proofs.Names

/-!
# The ledger of names

The names of generated code come from three sources: a variable of the procedure has the Go name of
its symbol, a numbered name is made from a base and the next number, and any other name is bound in
the block that is open. All three only ever grow. This module says what it means that one progress
extends another, and how the names that statements introduce into the outermost block are entered:
every declaration has a number or a symbol of its own, and every assignment that introduces its
target has a bound name of its own.

## Main definitions

* `NameScope.numbered`, `SymbolTable.declaredNames`: the names that have been given out
* `Go.Stmt.declares`, `Go.Stmt.defines`: the two ways to introduce a name
* `IsCallName`: the names that assignments introduce, other than those of iterators
* `Progress.Entered`: what is introduced has been entered
* `NameScope.SeenIn`: the names that have been bound can be seen
* `Progress.Settles`: code only assigns variables that can be seen
* `Progress.Extends`: a progress has grown out of another
* `Progress.Follows`: the same for numbers and variables only, across blocks

## Main results

* `NameScope.freshWhere_eq`: a numbered name has a number that was not used before
* `Progress.Extends.trans`, `Progress.Extends.closed`: sequences and blocks
-/

namespace Sproc

/-! ## The two ways to introduce a name -/

namespace Go

/-- The names that a declaration introduces. -/
def Stmt.declares : Stmt → List String
  | .declare name _ _ => [name]
  | _ => []

/-- The names that an assignment introduces. -/
def Stmt.defines : Stmt → List String
  | .assign a => a.introduces
  | _ => []

theorem Stmt.introduces_eq (s : Stmt) : s.introduces = s.declares ++ s.defines := by
  cases s <;> simp [introduces, declares, defines]

end Go

/-! ## Names for the results of calls -/

/-- The Go names of the variables that hold the response of a method. -/
def responseNames (method : String) : List String :=
  [Identifier.camelCase method ++ "Resp", Identifier.camelCase method ++ "RespGen"]

/-- The names of the variables that assignments introduce for what calls yield: the result of a
statement, the response of a method, or the error that a handler has recovered. The iterators of
cursors have names of their own. -/
inductive IsCallName : String → Prop
  | result {name : String} : name ∈ ["res", "resGen"] → IsCallName name
  | response {name method : String} : name ∈ responseNames method → IsCallName name
  | caught {name : String} : name ∈ ["caught", "ok"] → IsCallName name

/-! ## Numbered names -/

namespace NameScope

/-- The bases of numbered names. -/
def bases : List String := ["exists", "scalar", "returned"]

/-- The name with a number. The first flag of a function needs no number. -/
def numberedName (base : String) (n : Nat) : String :=
  if base ++ toString n == "returned1" then "returned" else base ++ toString n

/-- The first names of a base. -/
def namesOf (base : String) (n : Nat) : List String :=
  (List.range n).map fun k => numberedName base (k + 1)

/-- The numbered names that have been given out. -/
def numbered (scope : NameScope) : List String :=
  bases.flatMap fun base => namesOf base (scope.counter base)

theorem namesOf_sublist (base : String) {m n : Nat} (h : m ≤ n) :
    List.Sublist (namesOf base m) (namesOf base n) :=
  (List.range_sublist.mpr h).map _

/-- Only the first flag goes without its number. -/
theorem numberedName_eq {base : String} (h : base.toList.head?.any (· != 'r') = true) (n : Nat) :
    numberedName base n = base ++ toString n := by
  have hne : base ++ toString n ≠ "returned1" := by
    intro heq
    have hhead := congrArg (·.toList.head?) heq
    rw [String.toList_append, List.head?_append] at hhead
    cases hc : base.toList.head? with
    | none => simp [hc] at h
    | some c =>
      rw [hc, Option.some_or] at hhead
      obtain rfl : c = 'r' := Option.some.inj hhead
      simp [hc] at h
  exact if_neg (by simpa using hne)

/-- Different numbers make different names. -/
theorem numberedName_injective {base : String} (hbase : base ∈ bases) :
    Function.Injective (numberedName base) := by
  have hplain (h : base.toList.head?.any (· != 'r') = true) :
      Function.Injective (numberedName base) := by
    intro m n heq
    rw [numberedName_eq h, numberedName_eq h] at heq
    exact append_toString_injective base heq
  simp only [bases, List.mem_cons, List.not_mem_nil, or_false] at hbase
  rcases hbase with rfl | rfl | rfl
  · exact hplain (by decide)
  · exact hplain (by decide)
  · have hfirst (n : Nat) : ("returned" ++ toString n == "returned1") = true ↔ n = 1 := by
      rw [beq_iff_eq]
      constructor
      · intro heq
        exact append_toString_injective "returned" (n := 1) heq
      · rintro rfl
        rfl
    have hne (n : Nat) : "returned" ≠ "returned" ++ toString n := by
      have hnotMem : "returned" ++ toString n ∉ ["returned"] :=
        append_toString_notMem (by decide) _ _
      simpa [eq_comm] using hnotMem
    intro m n h
    unfold numberedName at h
    split at h <;> split at h
    next hm hn => rw [(hfirst m).mp hm, (hfirst n).mp hn]
    next => exact absurd h (hne n)
    next => exact absurd h.symm (hne m)
    next => exact append_toString_injective "returned" h

/-- A numbered name ends in a digit, unless it is that of the first flag. -/
theorem getLast?_numberedName (base : String) (n : Nat) :
    numberedName base n = "returned" ∨
      (numberedName base n).toList.getLast?.any (·.isDigit) = true := by
  unfold numberedName
  split
  · exact .inl rfl
  · have hne : Nat.toDigits 10 n ≠ [] := Nat.toDigits_ne_nil
    right
    rw [String.toList_append, Nat.toString_eq_repr, Nat.repr, String.toList_ofList,
      List.getLast?_append_of_ne_nil _ hne, List.getLast?_eq_some_getLast hne, Option.any_some]
    exact Nat.isDigit_of_mem_toDigits (by decide) (by decide) (List.getLast_mem hne)

/-- A numbered name starts with the first letter of its base. -/
theorem head?_numberedName {base : String} (hbase : base ∈ bases) (n : Nat) :
    (numberedName base n).toList.head? = base.toList.head? := by
  have hhead : (base ++ toString n).toList.head? = base.toList.head? := by
    simp only [bases, List.mem_cons, List.not_mem_nil, or_false] at hbase
    rw [String.toList_append, List.head?_append]
    rcases hbase with rfl | rfl | rfl <;> rfl
  unfold numberedName
  split
  next hfirst =>
    rw [← hhead, beq_iff_eq.mp hfirst]
    rfl
  next => exact hhead

/-- No numbered name has been given out twice. -/
theorem nodup_numbered (scope : NameScope) : scope.numbered.Nodup := by
  rw [numbered, List.nodup_flatMap]
  refine ⟨fun base hbase => List.Nodup.map ?_ List.nodup_range, ?_⟩
  · exact fun m n heq => Nat.succ.inj (numberedName_injective hbase heq)
  · have hdisjoint {base other : String} (hbase : base ∈ bases) (hother : other ∈ bases)
        (hne : base.toList.head? ≠ other.toList.head?) :
        List.Disjoint (namesOf base (scope.counter base)) (namesOf other (scope.counter other)) := by
      intro name hname hname'
      obtain ⟨m, -, rfl⟩ := List.mem_map.mp hname
      obtain ⟨n, -, heq⟩ := List.mem_map.mp hname'
      refine hne ?_
      rw [← head?_numberedName hbase (m + 1), ← head?_numberedName hother (n + 1), heq]
    simp only [bases, List.pairwise_cons, List.mem_cons, List.not_mem_nil, or_false,
      forall_eq_or_imp, forall_eq, Function.onFun]
    refine ⟨⟨?_, ?_⟩, ?_, nofun, .nil⟩ <;> exact hdisjoint (by decide) (by decide) (by decide)

theorem counter_setCounter_of_ne (scope : NameScope) {base other : String} (h : other ≠ base)
    (n : Nat) : (scope.setCounter base n).counter other = scope.counter other := by
  have hlookup (counters : List (String × Nat)) :
      (counters.filter (·.1 ≠ base)).lookup other = counters.lookup other := by
    induction counters with
    | nil => rfl
    | cons entry rest ih =>
      obtain ⟨key, value⟩ := entry
      by_cases hkey : key = base
      · subst hkey
        have hother : (other == key) = false := beq_eq_false_iff_ne.mpr h
        simp only [List.lookup_cons, List.filter_cons, ne_eq, not_true_eq_false, decide_false,
          Bool.false_eq_true, if_false, hother, ih]
      · simp only [List.lookup_cons, List.filter_cons, hkey, ne_eq, not_false_eq_true, decide_true,
          if_true, ih]
  unfold counter setCounter
  simp only [List.lookup_cons, beq_eq_false_iff_ne.mpr h, hlookup]

theorem setCounter_setCounter (scope : NameScope) (base : String) (m n : Nat) :
    (scope.setCounter base m).setCounter base n = scope.setCounter base n := by
  simp [setCounter]

/-- A numbered name has a number that was not used before. -/
theorem freshWhere_eq (accept : String → Bool) (base : String) (tries : Nat) (scope : NameScope) :
    ∃ n, scope.counter base < n ∧
      scope.freshWhere accept base tries = (base ++ toString n, scope.setCounter base n) := by
  induction tries generalizing scope with
  | zero => exact ⟨scope.counter base + 1, Nat.lt_succ_self _, rfl⟩
  | succ tries ih =>
    rw [freshWhere]
    dsimp only
    split
    · exact ⟨scope.counter base + 1, Nat.lt_succ_self _, rfl⟩
    · obtain ⟨n, hlt, heq⟩ := ih (scope.fresh base).2
      rw [heq, fresh, setCounter_setCounter]
      rw [fresh, counter_setCounter_self] at hlt
      exact ⟨n, by omega, rfl⟩

/-- Each base has its own numbers, so a higher count for a base only adds names. -/
theorem count_numbered_setCounter (scope : NameScope) {base : String} (hbase : base ∈ bases) {n : Nat}
    (h : scope.counter base < n) (x : String) :
    [numberedName base n].count x + scope.numbered.count x ≤
      (scope.setCounter base n).numbered.count x := by
  have hsame (other : String) (hne : other ≠ base) :
      (scope.setCounter base n).counter other = scope.counter other :=
    scope.counter_setCounter_of_ne hne n
  have hgrown : [numberedName base n].count x + (namesOf base (scope.counter base)).count x ≤
      (namesOf base n).count x := by
    obtain ⟨m, rfl⟩ := Nat.exists_eq_add_of_lt h
    have hlast : namesOf base (scope.counter base + m + 1) =
        namesOf base (scope.counter base + m) ++ [numberedName base (scope.counter base + m + 1)] := by
      simp [namesOf, List.range_succ]
    have hcount := (namesOf_sublist base (Nat.le_add_right (scope.counter base) m)).count_le x
    rw [hlast, List.count_append]
    omega
  simp only [bases, List.mem_cons, List.not_mem_nil, or_false] at hbase
  simp only [numbered, bases, List.flatMap_cons, List.flatMap_nil, List.count_append,
    List.count_nil]
  rcases hbase with rfl | rfl | rfl
  · rw [hsame "scalar" (by decide), hsame "returned" (by decide),
      counter_setCounter_self]
    omega
  · rw [hsame "exists" (by decide), hsame "returned" (by decide),
      counter_setCounter_self]
    omega
  · rw [hsame "exists" (by decide), hsame "scalar" (by decide),
      counter_setCounter_self]
    omega

theorem count_numbered_le {before after : NameScope}
    (h : ∀ base, before.counter base ≤ after.counter base) (x : String) :
    before.numbered.count x ≤ after.numbered.count x := by
  have hbase (base : String) := (namesOf_sublist base (h base)).count_le x
  simp only [numbered, bases, List.flatMap_cons, List.flatMap_nil, List.count_append, List.count_nil]
  have hexists := hbase "exists"
  have hscalar := hbase "scalar"
  have hreturned := hbase "returned"
  omega

end NameScope

/-- The Go names of the variables that the procedure declares. -/
def SymbolTable.declaredNames (table : SymbolTable) : List String :=
  (table.symbols.filter (·.kind = .declared)).map (·.goName)

/-! ## Growth -/

/-- A scope of names has grown out of another: the blocks around are the same, further names have
been bound in the innermost block, and further numbers have been used. -/
structure NameScope.Grows (before after : NameScope) : Prop where
  outer : after.outer = before.outer
  current : before.current <:+ after.current
  nodup : before.current.Nodup → after.current.Nodup
  counter (base : String) : before.counter base ≤ after.counter base

namespace NameScope.Grows

theorem refl (scope : NameScope) : scope.Grows scope :=
  ⟨rfl, List.suffix_refl _, id, fun _ => Nat.le_refl _⟩

theorem trans {before middle after : NameScope} (h : before.Grows middle) (h' : middle.Grows after) :
    before.Grows after where
  outer := h'.outer.trans h.outer
  current := h.current.trans h'.current
  nodup hnodup := h'.nodup (h.nodup hnodup)
  counter base := Nat.le_trans (h.counter base) (h'.counter base)

theorem setCounter {scope : NameScope} {base : String} {n : Nat} (h : scope.counter base ≤ n) :
    scope.Grows (scope.setCounter base n) where
  outer := rfl
  current := List.suffix_refl _
  nodup := id
  counter other := by
    by_cases hother : other = base
    · rw [hother, counter_setCounter_self]
      exact h
    · exact Nat.le_of_eq (counter_setCounter_of_ne _ hother n).symm

/-- An assignment binds its target unless it can be seen already. -/
theorem bind (scope : NameScope) (name : String) : scope.Grows (scope.bind name).2 := by
  unfold NameScope.bind
  split
  next => exact refl scope
  next hfree =>
    refine ⟨rfl, List.suffix_cons _ _, fun hnodup => ?_, fun _ => Nat.le_refl _⟩
    have hnew : name ∉ scope.current := by
      intro hmem
      simp [isBound, hmem] at hfree
    exact List.nodup_cons.mpr ⟨hnew, hnodup⟩

/-- A name that could be seen can still be seen. -/
theorem isBound {before after : NameScope} (h : before.Grows after) {name : String}
    (hbound : before.isBound name = true) : after.isBound name = true := by
  have hcurrent := h.current.subset (a := name)
  simp only [NameScope.isBound, h.outer, Bool.or_eq_true, List.contains_iff_mem] at hbound ⊢
  exact hbound.imp_left hcurrent

end NameScope.Grows

namespace NameScope

/-- The names that have been bound for what calls yield can be seen among some variables. -/
def SeenIn (names : NameScope) (scope : Go.Locals) : Prop :=
  ∀ name, names.isBound name = true → name ∉ Go.fixedTargets → (scope.lookup name).isSome

@[simp]
theorem isBound_push (scope : NameScope) (name : String) :
    scope.push.isBound name = scope.isBound name := by
  simp [isBound, push]

/-- Binding a name makes no other name visible. -/
theorem isBound_of_isBound_bind {scope : NameScope} {name other : String}
    (h : (scope.bind name).2.isBound other = true) : other = name ∨ scope.isBound other = true := by
  unfold bind at h
  split at h
  · exact .inr h
  · simp only [isBound, List.contains_cons, Bool.or_eq_true, beq_iff_eq] at h ⊢
    exact or_assoc.mp h

/-- Where fewer names have been bound, fewer have to be seen. -/
theorem SeenIn.mono {names names' : NameScope} {scope : Go.Locals} (h : names.SeenIn scope)
    (hbound : ∀ name, names'.isBound name = true → names.isBound name = true) :
    names'.SeenIn scope :=
  fun name hname => h name (hbound name hname)

/-- A name can be seen behind the statement that introduces it. -/
theorem SeenIn.bind {names : NameScope} {scope locals : Go.Locals} {name : String}
    (h : names.SeenIn scope) (hname : name ∉ Go.fixedTargets → (locals.lookup name).isSome) :
    (names.bind name).2.SeenIn (locals ++ scope) := by
  intro other hother hfixed
  rw [List.lookup_append, Option.isSome_or, Bool.or_eq_true]
  rcases isBound_of_isBound_bind hother with rfl | hbound
  · exact .inl (hname hfixed)
  · exact .inr (h other hbound hfixed)

/-- What is written behind the names leaves them visible. -/
theorem SeenIn.behind {names : NameScope} {scope : Go.Locals} (h : names.SeenIn scope)
    (code : List Go.Stmt) : names.SeenIn (scope.behind code) :=
  fun name hname hfixed => Go.Locals.isSome_lookup_behind (h name hname hfixed) code

end NameScope

namespace Progress

/-- Where the names of a progress can be seen, some code only assigns variables that can be seen. -/
def Settles (p : Progress) (code : List Go.Stmt) : Prop :=
  ∀ scope, p.names.SeenIn scope → Go.Settled scope code

/-- A statement that assigns no variable which has been introduced. -/
theorem settles_of_rebindings_eq_nil {s : Go.Stmt} (p : Progress)
    (h : ∀ scope, s.rebindings scope = []) : p.Settles [s] :=
  fun scope _ => Go.settled_of_rebindings_eq_nil (h scope)

/-- A variable that has been bound can be assigned. -/
theorem settles_assign {p : Progress} {name : String} (h : p.names.isBound name = true)
    (value : Go.Expr) : p.Settles [.assign ⟨[.name name, Lower.err], false, value⟩] := by
  intro scope hseen
  refine Go.settled_singleton.mpr fun rebinding hmem => ?_
  obtain ⟨local', hlocal, rfl⟩ := Option.map_eq_some_iff.mp (Option.mem_toList.mp hmem)
  obtain ⟨_, htargets, -, hfixed⟩ := Go.Assign.local?_eq_some_iff.mp hlocal
  obtain rfl : name = local' := by simpa using congrArg List.head? htargets
  exact hseen name h hfixed

theorem Settles.mono {p q : Progress} {code : List Go.Stmt} (h : p.Settles code)
    (hbound : ∀ name, p.names.isBound name = true → q.names.isBound name = true) :
    q.Settles code :=
  fun scope hseen => h scope (hseen.mono hbound)

/-- The names and variables of a progress have grown out of those of another, and so have its imports
and warnings. -/
structure Grows (before after : Progress) : Prop where
  names : before.names.Grows after.names
  symbols : before.symbols.symbols <+: after.symbols.symbols
  imports : before.imports.specs ⊆ after.imports.specs
  warnings : before.warnings <+: after.warnings

/-- What statements introduce has been entered: for each declaration there is a further number or a
further variable, and for each assignment that introduces its target a further bound name. -/
structure Entered (before after : Progress) (added : List Go.Stmt) : Prop where
  declared (x : String) : (added.flatMap Go.Stmt.declares).count x +
    (before.names.numbered.count x + before.symbols.declaredNames.count x) ≤
      after.names.numbered.count x + after.symbols.declaredNames.count x
  defined (x : String) : (added.flatMap Go.Stmt.defines).count x + before.names.current.count x ≤
    after.names.current.count x

/-- A progress has grown out of another that shows the same names. -/
structure Steady (before after : Progress) : Prop extends before.Grows after where
  current : after.names.current = before.names.current

/-- A progress has grown out of another by writing statements. Where names are counted, what is
introduced into the outermost block has been entered. Names that have been bound can be seen behind
the statements, which only assign variables that can be seen. Only an assignment in the outermost
block may introduce `err`. -/
structure Extends (counts : Prop) (before after : Progress) (added : List Go.Stmt) : Prop where
  grows : before.Grows after
  seen (scope : Go.Locals) : before.names.SeenIn scope → after.names.SeenIn (scope.behind added)
  settles : before.Settles added
  entered : counts → before.names.outer = [] → before.Entered after added
  shallow : ∀ s ∈ added, s.bindsError = true → before.names.outer = [] ∧ ∃ a, s = .assign a

variable {counts : Prop} {before middle after p : Progress}

namespace Grows

theorem refl (p : Progress) : p.Grows p :=
  ⟨.refl _, List.prefix_refl _, List.Subset.refl _, List.prefix_refl _⟩

theorem trans (h : before.Grows middle) (h' : middle.Grows after) : before.Grows after :=
  ⟨h.names.trans h'.names, h.symbols.trans h'.symbols, List.Subset.trans h.imports h'.imports,
    h.warnings.trans h'.warnings⟩

/-- A change that concerns other things. -/
theorem of_eq (hnames : after.names = before.names) (hsymbols : after.symbols = before.symbols)
    (himports : after.imports = before.imports) (hwarnings : after.warnings = before.warnings) :
    before.Grows after where
  names := hnames ▸ .refl _
  symbols := hsymbols ▸ List.prefix_refl _
  imports := himports ▸ List.Subset.refl _
  warnings := hwarnings ▸ List.prefix_refl _

/-- Growth of the names alone. -/
theorem of_names {names : NameScope} (h : p.names.Grows names) : p.Grows { p with names } :=
  ⟨h, List.prefix_refl _, List.Subset.refl _, List.prefix_refl _⟩

/-- Writing a statement changes nothing else. -/
theorem wrote (h : before.Grows after) (s : Go.Stmt) : before.Grows (after.wrote s) :=
  ⟨h.names, h.symbols, h.imports, h.warnings⟩

/-- Growth of the variables alone. -/
theorem of_symbols {symbols : SymbolTable} (h : p.symbols.symbols <+: symbols.symbols) :
    p.Grows { p with symbols } :=
  ⟨.refl _, h, List.Subset.refl _, List.prefix_refl _⟩

/-- Behind a block the names of the block are forgotten, but not the numbers. -/
theorem closed {inner : Progress} (h : before.opened.Grows inner) :
    before.Steady (before.closed inner) := by
  have hnames : inner.names.pop =
      { inner.names with current := before.names.current, outer := before.names.outer } := by
    rw [NameScope.pop, h.names.outer]
    rfl
  refine ⟨⟨?_, h.symbols, h.imports, h.warnings⟩, ?_⟩
  · rw [Progress.closed, hnames]
    exact ⟨rfl, List.suffix_refl _, id, h.names.counter⟩
  · rw [Progress.closed, hnames]

end Grows

namespace Steady

/-- A change that concerns other things. -/
theorem of_eq (hnames : after.names = before.names) (hsymbols : after.symbols = before.symbols)
    (himports : after.imports = before.imports) (hwarnings : after.warnings = before.warnings) :
    before.Steady after :=
  ⟨.of_eq hnames hsymbols himports hwarnings, congrArg NameScope.current hnames⟩

theorem isBound (h : before.Steady after) (name : String) :
    after.names.isBound name = before.names.isBound name := by
  rw [NameScope.isBound, NameScope.isBound, h.current, h.names.outer]

/-- Growth without statements. -/
theorem extends_nil (h : before.Steady after) : before.Extends counts after [] where
  grows := h.toGrows
  seen _ hseen := hseen.mono fun name hname => h.isBound name ▸ hname
  settles _ _ := Go.settled_nil _
  entered _ _ := by
    refine ⟨fun x => ?_, fun x => ?_⟩
    · have hnumbered := NameScope.count_numbered_le h.names.counter x
      have hdeclared : before.symbols.declaredNames.count x ≤ after.symbols.declaredNames.count x :=
        ((h.symbols.sublist.filter _).map _).count_le x
      simp only [List.flatMap_nil, List.count_nil]
      omega
    · have hcurrent := h.names.current.sublist.count_le x
      simpa using hcurrent
  shallow := nofun

end Steady

/-- The numbers and the variables of a progress have grown out of those of another, in whatever block
it is. -/
structure Follows (before after : Progress) : Prop where
  counter (base : String) : before.names.counter base ≤ after.names.counter base
  symbols : before.symbols.symbols <+: after.symbols.symbols

theorem Follows.trans (h : before.Follows middle) (h' : middle.Follows after) :
    before.Follows after :=
  ⟨fun base => Nat.le_trans (h.counter base) (h'.counter base), h.symbols.trans h'.symbols⟩

theorem Grows.follows (h : before.Grows after) : before.Follows after :=
  ⟨h.names.counter, h.symbols⟩

/-- A block starts with all numbers and variables. -/
theorem follows_opened (p : Progress) : p.Follows p.opened :=
  ⟨fun _ => Nat.le_refl _, List.prefix_refl _⟩

theorem Annotated.grows (h : before.Annotated after) : before.Grows after where
  names := h.names ▸ .refl _
  symbols := h.symbols ▸ List.prefix_refl _
  imports := h.imports
  warnings := h.warnings

theorem Annotated.steady (h : before.Annotated after) : before.Steady after :=
  ⟨h.grows, congrArg NameScope.current h.names⟩

namespace Extends

theorem trans {added added' : List Go.Stmt} (h : before.Extends counts middle added)
    (h' : middle.Extends counts after added') : before.Extends counts after (added ++ added') where
  grows := h.grows.trans h'.grows
  seen scope hseen := by
    rw [Go.Locals.behind_append]
    exact h'.seen _ (h.seen scope hseen)
  settles scope hseen :=
    Go.settled_append.mpr ⟨h.settles scope hseen, h'.settles _ (h.seen scope hseen)⟩
  entered hcounts houter := by
    have hfirst := h.entered hcounts houter
    have hsecond := h'.entered hcounts (h.grows.names.outer.trans houter)
    refine ⟨fun x => ?_, fun x => ?_⟩
    · have hdeclared := hfirst.declared x
      have hdeclared' := hsecond.declared x
      rw [List.flatMap_append, List.count_append]
      omega
    · have hdefined := hfirst.defined x
      have hdefined' := hsecond.defined x
      rw [List.flatMap_append, List.count_append]
      omega
  shallow s hs hbinds := by
    rcases List.mem_append.mp hs with hs | hs
    · exact h.shallow s hs hbinds
    · exact h.grows.names.outer ▸ h'.shallow s hs hbinds

/-- What an inner block writes introduces `err` nowhere. -/
theorem bindsError_eq_false {added : List Go.Stmt} (h : before.Extends counts after added)
    (houter : before.names.outer ≠ []) : ∀ s ∈ added, s.bindsError = false :=
  fun s hs => Bool.eq_false_iff.mpr fun hbinds => houter (h.shallow s hs hbinds).1

/-- A statement that introduces nothing. -/
theorem wrote {s : Go.Stmt} (h : counts → s.introduces = []) (hsettles : p.Settles [s])
    (hbinds : s.bindsError = false) : p.Extends counts (p.wrote s) [s] where
  grows := (Grows.refl p).wrote s
  seen _ hseen := hseen.behind [s]
  settles := hsettles
  entered hcounts _ := by
    have hnone := h hcounts
    rw [s.introduces_eq, List.append_eq_nil_iff] at hnone
    refine ⟨fun x => ?_, fun x => ?_⟩
    · simp [hnone.1, Progress.wrote]
    · simp [hnone.2, Progress.wrote]
  shallow _ hs htrue := by simp [List.mem_singleton.mp hs, hbinds] at htrue

/-- An assignment that introduces a name which could not be seen. -/
theorem wrote_defined {name : String} (h : p.names.isBound name = false)
    (houter : p.names.outer = []) (value : Go.Expr) :
    p.Extends counts ({ p with names := (p.names.bind name).2 }.wrote
        (.assign ⟨[.name name, Lower.err], true, value⟩))
      [.assign ⟨[.name name, Lower.err], true, value⟩] where
  grows := (Grows.of_names (.bind _ _)).wrote _
  seen scope hseen := by
    refine hseen.bind fun hfixed => ?_
    have hlocal : Go.Assign.local? ⟨[.name name, Lower.err], true, value⟩ = some name :=
      Go.Assign.local?_eq_some_iff.mpr ⟨_, rfl, rfl, hfixed⟩
    simp [Go.Stmt.locals, Go.Assign.locals, hlocal]
  settles := settles_of_rebindings_eq_nil p fun _ => rfl
  entered _ _ := by
    refine ⟨fun x => ?_, fun x => ?_⟩
    · have hnumbered : ({ p with names := (p.names.bind name).2 }.wrote
          (.assign ⟨[.name name, Lower.err], true, value⟩)).names.numbered = p.names.numbered := by
        simp [Progress.wrote, NameScope.bind, h, NameScope.numbered, NameScope.counter]
      rw [hnumbered]
      exact Nat.le_of_eq (Nat.zero_add _)
    · have hdefines : List.Sublist ([Go.Stmt.assign ⟨[.name name, Lower.err], true, value⟩].flatMap
          Go.Stmt.defines) [name] := by
        rw [List.flatMap_singleton]
        have hfilter : List.Sublist ([name, "err"].filter fun id => id ≠ "_" && id ≠ "err") [name] := by
          rw [List.filter_cons]
          split
          · exact List.Sublist.refl _
          · exact List.nil_sublist _
        exact hfilter
      have hcount := hdefines.count_le x
      have hcurrent : ({ p with names := (p.names.bind name).2 }.wrote
          (.assign ⟨[.name name, Lower.err], true, value⟩)).names.current =
            [name] ++ p.names.current := by
        simp [Progress.wrote, NameScope.bind, h]
      rw [hcurrent, List.count_append]
      omega
  shallow _ hs _ := ⟨houter, _, List.mem_singleton.mp hs⟩

/-- A declaration of a name that could not be seen, where it does not have to be entered. -/
theorem wrote_declared (name : String) (type : Go.TypeExpr)
    (hexempt : counts → p.names.outer ≠ []) :
    p.Extends counts ({ p with names := (p.names.bind name).2 }.wrote (.declare name type none))
      [.declare name type none] where
  grows := (Grows.of_names (.bind _ _)).wrote _
  seen scope hseen := by
    refine hseen.bind fun _ => ?_
    simp [Go.Stmt.locals]
  settles := settles_of_rebindings_eq_nil p fun _ => rfl
  entered hcounts houter := absurd houter (hexempt hcounts)
  shallow _ hs hbinds := by cases List.mem_singleton.mp hs ▸ hbinds

/-- A declaration of a numbered name. -/
theorem wrote_numbered {base : String} (hbase : base ∈ NameScope.bases) {n : Nat}
    (h : p.names.counter base < n) (type : Go.TypeExpr) (init : Option Go.Expr) :
    p.Extends counts ({ p with names := p.names.setCounter base n }.wrote
        (.declare (NameScope.numberedName base n) type init))
      [.declare (NameScope.numberedName base n) type init] where
  grows := (Grows.of_names (.setCounter (Nat.le_of_lt h))).wrote _
  seen _ hseen := hseen.behind [.declare (NameScope.numberedName base n) type init]
  settles := settles_of_rebindings_eq_nil p fun _ => rfl
  entered _ _ := by
    refine ⟨fun x => ?_, fun x => Nat.le_of_eq (Nat.zero_add _)⟩
    have hcount := p.names.count_numbered_setCounter hbase h x
    change [NameScope.numberedName base n].count x + _ ≤
      (p.names.setCounter base n).numbered.count x + p.symbols.declaredNames.count x
    omega
  shallow _ hs hbinds := by cases List.mem_singleton.mp hs ▸ hbinds

/-- A declaration of a variable of the procedure. -/
theorem wrote_variable {name type : String} {symbol : Symbol} {symbols : SymbolTable}
    (h : p.symbols.declare name type .declared = .ok (symbol, symbols)) (goType : Go.TypeExpr)
    (init : Option Go.Expr) :
    p.Extends counts ({ p with symbols }.wrote (.declare symbol.goName goType init))
      [.declare symbol.goName goType init] := by
  obtain ⟨-, ⟨info, -, rfl⟩, rfl⟩ := SymbolTable.declare_eq_ok_iff.mp h
  refine ⟨(Grows.of_symbols (List.prefix_append _ _)).wrote _, fun _ hseen => hseen.behind [_],
    settles_of_rebindings_eq_nil p fun _ => rfl, fun _ _ => ⟨fun x => ?_, fun x => ?_⟩, ?_⟩
  · simp only [List.flatMap_cons, List.flatMap_nil, List.append_nil, Go.Stmt.declares,
      Progress.wrote, SymbolTable.declaredNames, List.filter_append, List.map_append,
      List.count_append]
    simp only [List.filter_cons, decide_true, if_true, List.filter_nil, List.map_cons, List.map_nil]
    omega
  · exact Nat.le_of_eq (Nat.zero_add _)
  · rintro s hs hbinds
    cases List.mem_singleton.mp hs ▸ hbinds

end Extends

end Progress

/-! ## Cursors -/

namespace CursorTable

variable {table : CursorTable} {name : String} {cursor : Cursor}

/-- Getting a cursor succeeds exactly with the one that is known by the name. -/
theorem get_eq_ok_iff : table.get name = .ok cursor ↔ table.get? name = some cursor := by
  unfold get
  split <;> simp_all

theorem mem_of_get? (h : table.get? name = some cursor) : (Text.toLower name, cursor) ∈ table := by
  obtain ⟨front, back, rfl, -⟩ := List.lookup_eq_some_iff.mp h
  simp

theorem remove_subset : table.remove name ⊆ table :=
  List.filter_subset_self _

theorem forall_mem_put {P : String × Cursor → Prop} (h : ∀ entry ∈ table, P entry)
    (hcursor : P (Text.toLower name, cursor)) : ∀ entry ∈ table.put name cursor, P entry :=
  List.forall_mem_cons.mpr ⟨hcursor, fun entry hentry => h entry (remove_subset hentry)⟩

end CursorTable

/-! ## Steps that give out names -/

namespace Lower

variable {c : Context} {before after : Progress}

/-- An assignment to a generated variable finds it bound, or introduces it in the outermost block, or
is preceded by a declaration in an inner one. -/
theorem runs_bindLocal {name : String} {type : Go.TypeExpr} {define : Bool}
    (h : (bindLocal name type).Runs c before define after) :
    (define = false ∧ before.names.isBound name = true ∧ after = before) ∨
    (define = true ∧ before.names.isBound name = false ∧ before.names.outer = [] ∧
      after = { before with names := (before.names.bind name).2 }) ∨
    (define = false ∧ before.names.outer ≠ [] ∧
      after = { before with names := (before.names.bind name).2 }.wrote (.declare name type none)) := by
  simp only [bindLocal, runs_bind, runs_get, runs_modify] at h
  obtain ⟨_, p, ⟨rfl, rfl⟩, _, _, rfl, h⟩ := h
  unfold NameScope.bind at h ⊢
  cases hbound : p.names.isBound name with
  | true =>
    simp only [hbound, if_true, runs_pure] at h
    exact .inl ⟨h.1, rfl, h.2⟩
  | false =>
    simp only [hbound, Bool.false_eq_true, if_false] at h ⊢
    split at h
    next hdepth =>
      obtain ⟨rfl, rfl⟩ := runs_pure.mp h
      exact .inr (.inl ⟨rfl, trivial, List.length_eq_zero_iff.mp hdepth, rfl⟩)
    next hdepth =>
      simp only [runs_bind, runs_emit, runs_pure] at h
      obtain ⟨_, _, rfl, rfl, rfl⟩ := h
      refine .inr (.inr ⟨rfl, fun houter => hdepth ?_, rfl⟩)
      simp [NameScope.depth, houter]

@[simp]
theorem not_fails_bindLocal {name : String} {type : Go.TypeExpr} {error : Error} :
    ¬(bindLocal name type).Fails c before error after := by
  unfold bindLocal
  simp only [fails_bind, not_fails_get, not_fails_modify, runs_get, runs_modify, false_or]
  rintro ⟨_, _, ⟨rfl, rfl⟩, _, _, rfl, hfails⟩
  repeat' split at hfails
  all_goals simp at hfails

/-- A generated name is marked when a variable of the procedure has it. -/
theorem runs_localName {base name : String} (h : (localName base).Runs c before name after) :
    name = (if before.symbols.isTaken base then base ++ "Gen" else base) ∧ after = before := by
  simp only [localName, runs_bind, runs_get, runs_pure] at h
  obtain ⟨_, _, ⟨rfl, rfl⟩, rfl, rfl⟩ := h
  exact ⟨rfl, rfl⟩

@[simp]
theorem not_fails_fresh {base : String} {error : Error} :
    ¬(fresh base).Fails c before error after := by
  simp [fresh, fails_bind]

/-- A numbered name has a number that was not used before. -/
theorem runs_fresh {base name : String} (h : (fresh base).Runs c before name after) :
    ∃ n, before.names.counter base < n ∧ name = base ++ toString n ∧
      after = { before with names := before.names.setCounter base n } := by
  simp only [fresh, runs_bind, runs_get, runs_set, runs_pure] at h
  obtain ⟨_, p, ⟨rfl, rfl⟩, _, _, rfl, rfl, rfl⟩ := h
  obtain ⟨n, hlt, heq⟩ :=
    p.names.freshWhere_eq (!p.symbols.isTaken ·) base p.symbols.symbols.length
  rw [heq]
  exact ⟨n, hlt, rfl, rfl⟩

/-- The cursor of a name is found in the table. -/
theorem runs_getCursor {name : String} {cursor : Cursor} {p : Progress} :
    (getCursor name).Runs c p cursor after ↔ p.cursors.get? name = some cursor ∧ after = p := by
  simp only [getCursor, runs_bind, runs_get, runs_ofExcept, CursorTable.get_eq_ok_iff]
  constructor
  · rintro ⟨_, _, ⟨rfl, rfl⟩, hcursor, rfl⟩
    exact ⟨hcursor, rfl⟩
  · rintro ⟨hcursor, rfl⟩
    exact ⟨_, _, ⟨rfl, rfl⟩, hcursor, rfl⟩

end Lower

end Sproc
