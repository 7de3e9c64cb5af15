import Mathlib.Data.Nat.Find
import Sproc.Proofs.Lower.Entry
import Sproc.SymbolStore

/-!
# Tables of variables under calls

A table of variables is changed by calls of two kinds: one keeps a name from being taken, the other
declares a variable and is refused for a name that is known or a type that is not. Whatever the
calls are, the table holds what the successful declarations returned, in their order, and a variable
is found under every spelling of its name, for good.

A Go name comes about in at most two steps. A name that is kept from being taken is marked, and a
name that a variable has is numbered. Only the plain name is compared with the names that are to be
kept free, not what the mark or the number makes of it, and so such a name is given out after all
exactly when it is another one with the mark or the number that was free.

## Main definitions

* `SymbolTable.perform`, `SymbolTable.performAll`: what calls do
* `SymbolTable.declared`, `SymbolTable.Declares`: what calls declare, and where
* `SymbolTable.FirstFree`: the number that a taken name gets
* `SymbolTable.Protects`: the names that are to be kept free

## Main results

* `SymbolTable.symbols_performAll`, `SymbolTable.Declares.get?`, `SymbolTable.Declares.unique`: the
  variables behind calls
* `SymbolTable.exists_firstFree`: the search for a number ends
* `SymbolTable.protects_goName_iff`
-/

namespace Sproc

open Lower

/-- The name that a call keeps from being taken. -/
def SymbolCall.reserved? : SymbolCall → Option String
  | reserve name => some name
  | declare .. => none

namespace SymbolTable

variable {table start next : SymbolTable} {name type spelling : String} {kind : SymbolKind}
  {symbol other : Symbol} {call : SymbolCall} {calls later front front' : List SymbolCall}

/-! ## The Go name of a variable -/

/-- The number is the least one from two on that makes a name free. -/
structure FirstFree (table : SymbolTable) (base : String) (n : Nat) : Prop where
  two_le : 2 ≤ n
  free : table.isTaken (base ++ toString n) = false
  least : ∀ m, 2 ≤ m → m < n → table.isTaken (base ++ toString m) = true

theorem FirstFree.unique {base : String} {m n : Nat} (hm : table.FirstFree base m)
    (hn : table.FirstFree base n) : m = n := by
  rcases Nat.lt_trichotomy m n with hlt | heq | hlt
  · exact absurd (hm.free.symm.trans (hn.least m hm.two_le hlt)) Bool.false_ne_true
  · exact heq
  · exact absurd (hn.free.symm.trans (hm.least n hn.two_le hlt)) Bool.false_ne_true

/-- However many names are taken, some number makes a name free. -/
theorem exists_least_free (table : SymbolTable) (base : String) : ∃ n, table.FirstFree base n := by
  obtain ⟨k, -, hfree⟩ := table.exists_isTaken_eq_false base 2
  have hexists : ∃ k, table.isTaken (base ++ toString (2 + k)) = false := ⟨k, hfree⟩
  refine ⟨2 + Nat.find hexists, by omega, Nat.find_spec hexists, fun m htwo hlt => ?_⟩
  obtain ⟨j, rfl⟩ := Nat.exists_eq_add_of_le htwo
  simpa using Nat.find_min hexists (by omega)

/-- Each variable stands in the way of one number. -/
theorem FirstFree.le {base : String} {n : Nat} (h : table.FirstFree base n) :
    n ≤ table.symbols.length + 2 := by
  obtain ⟨k, hk, hfree⟩ := table.exists_isTaken_eq_false base 2
  by_contra hlt
  exact absurd (hfree.symm.trans (h.least (2 + k) (by omega) (by omega))) Bool.false_ne_true

/-- A name that is free is given out as it is. -/
theorem freshGoName_of_free (h : table.isTaken (table.goBase name) = false) :
    table.freshGoName name = table.goBase name := by
  unfold freshGoName
  dsimp only
  rw [← goBase, h]
  rfl

/-- The search for a number ends with the least one that makes the name free. -/
theorem exists_firstFree (h : table.isTaken (table.goBase name) = true) :
    ∃ n, table.FirstFree (table.goBase name) n ∧
      table.freshGoName name = table.goBase name ++ toString n := by
  have hfree := table.isTaken_freshGoName name
  unfold freshGoName at hfree ⊢
  dsimp only at hfree ⊢
  rw [← goBase, h, List.find?_map] at hfree ⊢
  generalize hfound : List.find? _ (List.range _) = found at hfree
  cases found with
  | none => exact absurd hfree (by simp [h])
  | some k =>
    obtain ⟨-, -, hleast⟩ := List.find?_range_eq_some.mp hfound
    refine ⟨k + 2, ⟨by omega, by simpa using hfree, fun m htwo hlt => ?_⟩, by simp⟩
    obtain ⟨j, rfl⟩ := Nat.exists_eq_add_of_le' htwo
    simpa using hleast j (by omega)

/-! ## Calls -/

/-- What a call returns: the variable, for a declaration that succeeds. -/
def answer? (table : SymbolTable) : SymbolCall → Option Symbol
  | .reserve _ => none
  | .declare name type kind => (table.declare name type kind).toOption.map (·.1)

/-- The table behind a call: a declaration that fails leaves it as it is. -/
def perform (table : SymbolTable) : SymbolCall → SymbolTable
  | .reserve name => table.reserve name
  | .declare name type kind =>
    match table.declare name type kind with
    | .ok (_, next) => next
    | .error _ => table

/-- The table behind some calls. -/
def performAll (table : SymbolTable) (calls : List SymbolCall) : SymbolTable :=
  calls.foldl perform table

/-- The variables that some calls return, in the order of the calls. -/
def declared (table : SymbolTable) : List SymbolCall → List Symbol
  | [] => []
  | call :: rest => (table.answer? call).toList ++ (table.perform call).declared rest

/-- Among some calls, the one behind those in front is a declaration that succeeds. -/
def Declares (start : SymbolTable) (calls front : List SymbolCall) (symbol : Symbol) : Prop :=
  ∃ name type kind next back, calls = front ++ .declare name type kind :: back ∧
    (start.performAll front).declare name type kind = .ok (symbol, next)

theorem performAll_append :
    table.performAll (calls ++ later) = (table.performAll calls).performAll later :=
  List.foldl_append

/-- A declaration is refused for a name that is known, and else for a type that is not. -/
theorem declare_eq_error_iff {fault : Fault} : table.declare name type kind = .error fault ↔
    (table.contains name = true ∧ fault = .duplicateVariable name) ∨
      (table.contains name = false ∧ TypeName.classify type = .error fault) := by
  unfold declare
  cases table.contains name with
  | true => simp [throw, throwThe, MonadExceptOf.throw, bind, Except.bind, eq_comm]
  | false => cases TypeName.classify type <;> simp [bind, Except.bind, pure, Except.pure]

/-- A call puts what it returns behind the other variables. -/
theorem symbols_perform :
    (table.perform call).symbols = table.symbols ++ (table.answer? call).toList := by
  cases call with
  | reserve name => simp [perform, answer?, reserve]
  | declare name type kind =>
    simp only [perform, answer?]
    cases hdeclare : table.declare name type kind with
    | error fault => simp [Except.toOption]
    | ok pair => simpa [Except.toOption] using (declare_eq_ok hdeclare).1

theorem reserved_perform :
    (table.perform call).reserved = table.reserved ++ call.reserved?.toList := by
  cases call with
  | reserve name => rfl
  | declare name type kind =>
    simp only [perform, SymbolCall.reserved?]
    cases hdeclare : table.declare name type kind with
    | error fault => simp
    | ok pair =>
      obtain ⟨-, -, heq⟩ := declare_eq_ok_iff.mp hdeclare
      simp [heq]

theorem symbols_performAll :
    (table.performAll calls).symbols = table.symbols ++ table.declared calls := by
  induction calls generalizing table with
  | nil => simp [performAll, declared]
  | cons call rest ih =>
    calc
      ((table.perform call).performAll rest).symbols
      _ = (table.perform call).symbols ++ (table.perform call).declared rest := ih
      _ = table.symbols ++ table.declared (call :: rest) := by
        rw [symbols_perform, List.append_assoc, declared]

theorem reserved_performAll :
    (table.performAll calls).reserved = table.reserved ++ calls.filterMap SymbolCall.reserved? := by
  induction calls generalizing table with
  | nil => simp [performAll]
  | cons call rest ih =>
    calc
      ((table.perform call).performAll rest).reserved
      _ = (table.perform call).reserved ++ rest.filterMap SymbolCall.reserved? := ih
      _ = table.reserved ++ (call :: rest).filterMap SymbolCall.reserved? := by
        rw [reserved_perform, List.append_assoc]
        cases hname : call.reserved? <;> simp [hname]

/-- Calls only add variables, so what is found stays found. -/
theorem get?_performAll (h : table.get? spelling = some symbol) :
    (table.performAll later).get? spelling = some symbol :=
  get?_eq_some_of_grown ⟨_, symbols_performAll.symm⟩ h

/-- What holds of a table behind every call that succeeds holds behind all calls. -/
theorem performAll_induction {P : SymbolTable → Prop} (hstart : P start)
    (hreserve : ∀ table name, P table → P (table.reserve name))
    (hdeclare : ∀ table name type kind symbol next, P table →
      table.declare name type kind = .ok (symbol, next) → P next)
    (calls : List SymbolCall) : P (start.performAll calls) := by
  induction calls generalizing start with
  | nil => exact hstart
  | cons call rest ih =>
    refine ih ?_
    cases call with
    | reserve name => exact hreserve start name hstart
    | declare name type kind =>
      simp only [perform]
      cases hresult : start.declare name type kind with
      | error fault => exact hstart
      | ok result => exact hdeclare start name type kind result.1 result.2 hstart hresult

/-! ## Declarations among calls -/

/-- Spellings with one key refer to the same variable. -/
theorem get?_congr (h : foldName spelling = foldName name) :
    table.get? spelling = table.get? name := by
  rw [get?, get?, h]

/-- A variable is found under every spelling of its name, whatever is called later. -/
theorem Declares.get? (h : start.Declares calls front symbol)
    (hkey : foldName spelling = symbol.key) :
    (start.performAll calls).get? spelling = some symbol := by
  obtain ⟨name, type, kind, next, back, rfl, hdeclare⟩ := h
  obtain ⟨-, ⟨info, -, rfl⟩, -⟩ := declare_eq_ok_iff.mp hdeclare
  have hfound : next.get? name = some _ := (declare_eq_ok hdeclare).2.1
  have hnext : (start.performAll front).perform (.declare name type kind) = next := by
    simp [perform, hdeclare]
  calc
    (start.performAll (front ++ .declare name type kind :: back)).get? spelling
    _ = (next.performAll back).get? spelling := by
      rw [performAll_append, performAll, List.foldl_cons, hnext, ← performAll]
    _ = (next.performAll back).get? name := get?_congr hkey
    _ = some _ := get?_performAll hfound

/-- Everything that is returned has been declared somewhere. -/
theorem exists_declares_of_mem (h : symbol ∈ start.declared calls) :
    ∃ front, start.Declares calls front symbol := by
  induction calls generalizing start with
  | nil => cases h
  | cons call rest ih =>
    rcases List.mem_append.mp h with hfirst | hrest
    · cases call with
      | reserve name => cases hfirst
      | declare name type kind =>
        obtain ⟨⟨_, next⟩, hdeclare, rfl⟩ : ∃ result, start.declare name type kind = .ok result ∧
            result.1 = symbol := by
          cases hresult : start.declare name type kind <;>
            simp_all [answer?, Except.toOption]
        exact ⟨[], name, type, kind, next, rest, rfl, hdeclare⟩
    · obtain ⟨front, name, type, kind, next, back, rfl, hdeclare⟩ := ih hrest
      exact ⟨call :: front, name, type, kind, next, back, rfl, hdeclare⟩

/-- A variable that is known makes the declarations behind it fail. -/
theorem Declares.not_lt (h : start.Declares calls front symbol)
    (h' : start.Declares calls front' other) (hkey : symbol.key = other.key) :
    ¬front.length < front'.length := by
  intro hlt
  obtain ⟨name, type, kind, next, back, hcalls, hdeclare⟩ := h
  obtain ⟨name', type', kind', next', back', hcalls', hdeclare'⟩ := h'
  -- The call in question is among those in front of the later one.
  obtain ⟨between, rfl⟩ : ∃ between, front' = front ++ SymbolCall.declare name type kind :: between := by
    have heq := hcalls.symm.trans hcalls'
    rcases List.append_eq_append_iff.mp heq with ⟨rest, rfl, hrest⟩ | ⟨rest, rfl, -⟩
    · cases rest with
      | nil => simp at hlt
      | cons call rest =>
        obtain ⟨rfl, -⟩ := List.cons.inj hrest
        exact ⟨rest, rfl⟩
    · rw [List.length_append] at hlt
      omega
  obtain ⟨hnew, ⟨info, -, rfl⟩, -⟩ := declare_eq_ok_iff.mp hdeclare'
  have hfound : (start.performAll (front ++ SymbolCall.declare name type kind :: between)).get? name' =
      some symbol :=
    Declares.get? ⟨name, type, kind, next, between, rfl, hdeclare⟩ hkey.symm
  simp [contains, hfound] at hnew

/-- One declaration succeeds for a key. -/
theorem Declares.unique (h : start.Declares calls front symbol)
    (h' : start.Declares calls front' other) (hkey : symbol.key = other.key) :
    front = front' ∧ symbol = other := by
  have hlength : front.length = front'.length :=
    Nat.le_antisymm (Nat.not_lt.mp (h'.not_lt h hkey.symm)) (Nat.not_lt.mp (h.not_lt h' hkey))
  obtain ⟨_, _, _, _, _, hcalls, hdeclare⟩ := h
  obtain ⟨_, _, _, _, _, hcalls', hdeclare'⟩ := h'
  obtain ⟨rfl, hback⟩ := List.append_inj (hcalls.symm.trans hcalls') hlength
  obtain ⟨⟨⟩, -⟩ := List.cons.inj hback
  exact ⟨rfl, (Prod.mk.inj (Except.ok.inj (hdeclare.symm.trans hdeclare'))).1⟩

/-- A table without variables that keeps some names from being taken. -/
def keeping (names : List String) : SymbolTable where
  reserved := names

/-- Behind calls on a table without variables, a name refers to what a successful declaration with
its key has returned. -/
theorem get?_performAll_iff {names : List String} :
    ((keeping names).performAll calls).get? spelling = some symbol ↔
      ∃ front, (keeping names).Declares calls front symbol ∧ foldName spelling = symbol.key := by
  constructor
  · intro hget
    have hmem := List.mem_of_find?_eq_some hget
    rw [symbols_performAll] at hmem
    obtain ⟨front, hdeclares⟩ := exists_declares_of_mem hmem
    exact ⟨front, hdeclares, key_eq_of_get? hget⟩
  · rintro ⟨front, hdeclares, hkey⟩
    exact hdeclares.get? hkey

/-! ## Names that are to be kept free -/

/-- A name is to be kept free: Go keeps it for itself, or the table keeps it from being taken. -/
def Protects (table : SymbolTable) (goName : String) : Prop :=
  goName ∈ Identifier.goReserved ∨ goName ∈ table.reserved

theorem goBase_of_protects (h : table.Protects (Identifier.variableName name)) :
    table.goBase name = Identifier.variableName name ++ "Var" :=
  if_pos (by simpa [Identifier.isGoReserved, Protects] using h)

theorem goBase_of_not_protects (h : ¬table.Protects (Identifier.variableName name)) :
    table.goBase name = Identifier.variableName name :=
  if_neg (by simpa [Identifier.isGoReserved, Protects] using h)

/-- As long as it is not taken, a name is to be kept free only as the marked form of such a name. -/
theorem protects_goBase_iff : table.Protects (table.goBase name) ↔
    table.Protects (Identifier.variableName name) ∧
      table.Protects (Identifier.variableName name ++ "Var") := by
  by_cases h : table.Protects (Identifier.variableName name)
  · rw [goBase_of_protects h, and_iff_right h]
  · rw [goBase_of_not_protects h]
    exact ⟨fun h' => absurd h' h, fun h' => h'.1⟩

/-- The names of Go and of generated code that end in a digit. -/
def numberedNames : List String := [
  "float32", "float64", "int16", "int32", "int64", "int8", "uint16", "uint32", "uint64", "uint8",
  "utf8"]

/-- Neither the name itself nor its mark leads to a name of Go or of generated code. -/
theorem goBase_notMem (h : generatedNames ⊆ table.reserved) :
    table.goBase name ∉ Identifier.goReserved ++ generatedNames := by
  by_cases hplain : table.Protects (Identifier.variableName name)
  · rw [goBase_of_protects hplain]
    exact append_notMem (by decide +kernel) _
  · rw [goBase_of_not_protects hplain]
    intro hmem
    exact hplain ((List.mem_append.mp hmem).imp_right fun hname => h hname)

/-- A number leads to such a name only when that ends in a digit. -/
theorem mem_numberedNames {base : String} {n : Nat}
    (h : base ++ toString n ∈ Identifier.goReserved ++ generatedNames) :
    base ++ toString n ∈ numberedNames := by
  have hall : ∀ name ∈ Identifier.goReserved ++ generatedNames, name ∉ numberedNames →
      name.toList.getLast?.all (!·.isDigit) = true := by decide +kernel
  by_contra hnot
  let others := (Identifier.goReserved ++ generatedNames).filter (· ∉ numberedNames)
  have hothers : ∀ name ∈ others, name.toList.getLast?.all (!·.isDigit) = true := by
    intro name hname
    obtain ⟨hmem, hnumbered⟩ := List.mem_filter.mp hname
    exact hall name hmem (by simpa using hnumbered)
  exact append_toString_notMem hothers base n (List.mem_filter.mpr ⟨h, by simpa using hnot⟩)

/-- A variable gets a name that is to be kept free in two ways only: its plain name is such a name,
and so is the marked form, which no variable had; or the name in question is made by the number that
a taken name gets. Of Go's names and those of generated code, only those that end in a digit can be
given out. -/
theorem protects_goName_iff (calls : List SymbolCall) {name type : String} {kind : SymbolKind}
    {symbol : Symbol} {next : SymbolTable}
    (h : (performAll {} calls).declare name type kind = .ok (symbol, next)) :
    let table := performAll {} calls
    let plain := Identifier.variableName name
    (table.Protects symbol.goName ↔
      (table.Protects plain ∧ table.Protects (plain ++ "Var") ∧
          table.isTaken (plain ++ "Var") = false) ∨
        ∃ n, table.isTaken (table.goBase name) = true ∧ table.FirstFree (table.goBase name) n ∧
          table.Protects (table.goBase name ++ toString n)) ∧
    (symbol.goName ∈ Identifier.goReserved ++ generatedNames →
      symbol.goName ∈ numberedNames ∧ table.isTaken (table.goBase name) = true) ∧
    table.reserved = generatedNames ++ calls.filterMap SymbolCall.reserved? := by
  intro table plain
  have hreserved : table.reserved = generatedNames ++ calls.filterMap SymbolCall.reserved? :=
    reserved_performAll
  obtain ⟨-, ⟨info, -, rfl⟩, -⟩ := declare_eq_ok_iff.mp h
  refine ⟨?_, fun hmem => ?_, hreserved⟩
  · cases htaken : table.isTaken (table.goBase name) with
    | false =>
      have hnone : ¬∃ n, false = true ∧ table.FirstFree (table.goBase name) n ∧
          table.Protects (table.goBase name ++ toString n) := by
        rintro ⟨_, hfalse, -⟩
        exact Bool.false_ne_true hfalse
      rw [or_iff_left hnone, ← and_assoc, ← protects_goBase_iff]
      dsimp only
      rw [freshGoName_of_free htaken]
      refine ⟨fun hbase => ⟨hbase, ?_⟩, fun hbase => hbase.1⟩
      rw [← goBase_of_protects (protects_goBase_iff.mp hbase).1]
      exact htaken
    | true =>
      obtain ⟨n, hfirst, heq⟩ := exists_firstFree htaken
      dsimp only
      rw [heq]
      refine ⟨fun hprotects => .inr ⟨n, rfl, hfirst, hprotects⟩, ?_⟩
      rintro (⟨hplain, -, hfree⟩ | ⟨m, -, hfirst', hprotects⟩)
      · rw [goBase_of_protects hplain] at htaken
        exact absurd (hfree.symm.trans htaken) Bool.false_ne_true
      · rwa [hfirst.unique hfirst']
  · have hbase : table.goBase name ∉ Identifier.goReserved ++ generatedNames :=
      goBase_notMem fun _ hname => (hreserved ▸ List.subset_append_left _ _) hname
    cases htaken : table.isTaken (table.goBase name) with
    | false => exact absurd (freshGoName_of_free htaken ▸ hmem) hbase
    | true =>
      obtain ⟨n, -, heq⟩ := exists_firstFree htaken
      dsimp only at hmem ⊢
      rw [heq] at hmem ⊢
      exact ⟨mem_numberedNames hmem, rfl⟩

/-- A variable takes a name that a number makes the name of a type. -/
def takesInt3 : List SymbolCall := [.declare "@int3" "INT" .declared]

/-- The number makes the name of a type out of a name that is taken. -/
theorem numbered_name_is_a_type : ∃ symbol next,
    (performAll {} takesInt3).declare "@int_3" "INT" .declared = .ok (symbol, next) ∧
      symbol.goName = "int32" ∧ (performAll {} takesInt3).Protects symbol.goName := by
  have hnew : (performAll {} takesInt3).contains "@int_3" = false := by decide +kernel
  have hclassify : TypeName.classify "INT" = .ok ⟨.int32, "INT"⟩ := by decide +kernel
  have hname : (performAll {} takesInt3).freshGoName "@int_3" = "int32" := by decide +kernel
  have hdeclare : (performAll {} takesInt3).declare "@int_3" "INT" .declared =
      .ok (⟨"@int_3", (performAll {} takesInt3).freshGoName "@int_3", _, .declared⟩, _) :=
    declare_eq_ok_iff.mpr ⟨hnew, ⟨_, hclassify, rfl⟩, rfl⟩
  refine ⟨_, _, hdeclare, hname, (protects_goName_iff _ hdeclare).1.mpr (.inr ⟨2, ?_, ?_, ?_⟩)⟩
  · decide +kernel
  · exact ⟨Nat.le_refl 2, by decide +kernel, by omega⟩
  · exact .inl (by decide +kernel)

end SymbolTable

end Sproc
